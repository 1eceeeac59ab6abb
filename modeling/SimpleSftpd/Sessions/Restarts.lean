import SimpleSftpd.Core.Answered
import SimpleSftpd.Core.Received
import SimpleSftpd.Sessions.VerifiedUser

namespace SimpleSftpd

open Cxx Interaction Prog

variable (env : Service) (me : SessionId)

def Verb.isTransfer (v : Verb) : Bool := v ∈ [.retr, .stor, .stou, .appe]

/-- How a transfer comes to use up the restart position: its checks pass and the position is refused
in MODE Z, or it comes far enough. RETR opens a regular file, seeks in it, and prepares the
compression it needs; STOR opens its target and prepares the decompression it needs; STOU finds a
name; APPE opens its target. -/
def Session.Spends (s : Session) (a : Arrival) : Prop :=
  let g := s.ledger env me a
  match a.command with
  | ⟨.retr, name⟩ => (s.RefusesRestart ∧ s.FindsFile a.world.fs name) ∨ (g.regular = true ∧ g.stuck = false)
  | ⟨.stor, name⟩ => (s.RefusesRestart ∧ s.FindsRoom a.world.fs name) ∨ (g.target = true ∧ g.stuck = false)
  | ⟨.stou, name⟩ => s.FindsName a.world.fs name
  | ⟨.appe, _⟩ => g.target = true
  | _ => True

/-- A session and, as history, the position of the last REST answered 350 since a transfer was
handled. -/
structure Restarting where
  session : Session
  rested : Option ℕ

def restartSystem : System Restarting Arrival where
  init v := v.session.IsNew ∧ v.rested = none
  next v a := (v.session.after env me a).map fun s' => ⟨s',
    if a.command.verb.isTransfer ∧ v.session.authenticated_ then none
    else if a.command.verb = .rest ∧ (v.session.trace env me a).answers 350 then stoull a.command.argument
    else v.rested⟩

def Restarting.Consumes (v : Restarting) (a : Arrival) : Prop :=
  a.command.verb.isTransfer = true → v.session.authenticated_ = true → v.session.resume_position_ ≠ 0 →
    v.session.Spends env me a

structure Restarting.Sound (v : Restarting) : Prop where
  connected : v.session.socket_ ≠ none
  rested : 0 < v.session.resume_position_ → ∃ n, v.rested = some n ∧ v.session.resume_position_ = n

variable {env me}

namespace Session

variable {s s' : Session} {a : Arrival}

lemma transfer_position (hs : s.socket_ ≠ none) (hv : a.command.verb.isTransfer = true)
    (hauth : s.authenticated_ = true) (h : s.after env me a = some s') :
    (s.Spends env me a → s'.resume_position_ = 0) ∧
      (¬s.Spends env me a → s'.resume_position_ = s.resume_position_) := by
  have hlead {P : Session → Ledger → Prop}
      (hP : Leads Ledger.transfers (World.machine me) (s.handle env a.command) P {} a.world) :
      P s' (s.ledger env me a) := leads_after h (.inr hauth) hP
  have hverb : a.command.verb = .retr ∨ a.command.verb = .stor ∨ a.command.verb = .stou ∨
      a.command.verb = .appe := by
    simpa [Verb.isTransfer] using hv
  unfold Spends
  rcases hverb with hv | hv | hv | hv
  · rw [Arrival.command_eq hv] at hlead ⊢
    have hrun := hlead (handleRETR_logged hs a.command.argument)
    exact ⟨hrun.used, hrun.kept⟩
  · rw [Arrival.command_eq hv] at hlead ⊢
    have hrun := hlead (handleSTOR_logged hs a.command.argument)
    exact ⟨hrun.used, hrun.kept⟩
  · rw [Arrival.command_eq hv] at hlead ⊢
    have hrun := hlead (handleSTOU_logged hs a.command.argument)
    refine ⟨fun h => hrun.used (.inr h), fun h => ?_⟩
    exact hrun.kept fun h' => h'.elim id h
  · rw [Arrival.command_eq hv] at hlead ⊢
    have hrun := hlead (handleAPPE_logged env hs a.command.argument)
    refine ⟨fun h => hrun.used (.inr h), fun h => ?_⟩
    exact hrun.kept fun h' => h'.elim id h

lemma handleREST_answered (hs : s.socket_ ≠ none) (position : Str) {w : World} :
    Answered me (s.handleREST position) w fun code p _ =>
      (code = 350 ∧ ∃ n, stoull position = some n ∧ p = toStreampos n) ∨
        (code ≠ 350 ∧ p = s.resume_position_) := by
  unfold handleREST
  refine answered_ite (fun _ => answered_return hs fun _ _ => .inr ⟨by decide, rfl⟩) fun _ => ?_
  split
  · rename_i n hn
    exact answered_return hs fun _ _ => .inl ⟨rfl, n, hn, rfl⟩
  · exact answered_return hs fun _ _ => .inr ⟨by decide, rfl⟩

lemma rest_answered (hs : s.socket_ ≠ none) (hv : a.command.verb = .rest) (h : s.after env me a = some s') :
    ∃ code, (∀ c, (s.trace env me a).answers c = decide (code = c)) ∧
      ((code = 350 ∧ ∃ n, stoull a.command.argument = some n ∧ s'.resume_position_ = toStreampos n) ∨
        (code ≠ 350 ∧ s'.resume_position_ = s.resume_position_)) := by
  refine answered_dispatch hs h (P := fun code s' _ =>
    (code = 350 ∧ ∃ n, stoull a.command.argument = some n ∧ s'.resume_position_ = toStreampos n) ∨
      (code ≠ 350 ∧ s'.resume_position_ = s.resume_position_)) (fun _ => ?_) fun _ _ _ _ => .inr ⟨by decide, rfl⟩
  rw [Arrival.command_eq hv]
  exact answered_pure (handleREST_answered hs _)

lemma toStreampos_pos {n : ℕ} (hn : n < 2 ^ 64) (h : 0 < toStreampos n) : toStreampos n = n := by
  unfold toStreampos at h ⊢
  split
  · rfl
  · rename_i hbig
    rw [if_neg hbig] at h
    omega

end Session

namespace Restarting

variable {v v' : Restarting} {a : Arrival}

lemma sound_step (hv : v.Sound) (hok : v.Consumes env me a) (h : (restartSystem env me).next v a = some v') :
    v'.Sound := by
  obtain ⟨s', hs', rfl⟩ := Option.map_eq_some_iff.1 h
  have hconn : s'.socket_ ≠ none := (Session.after_frame hs').socket ▸ hv.connected
  refine ⟨hconn, ?_⟩
  by_cases htransfer : a.command.verb.isTransfer = true
  · have hrest : a.command.verb ≠ .rest := fun he => by simp [he, Verb.isTransfer] at htransfer
    cases hauth : v.session.authenticated_ with
    | true =>
      have hzero : s'.resume_position_ = 0 := by
        obtain ⟨hused, hkept⟩ := Session.transfer_position hv.connected htransfer hauth hs'
        by_cases hspends : v.session.Spends env me a
        · exact hused hspends
        · rw [hkept hspends]
          by_contra hne
          exact hspends (hok htransfer hauth hne)
      intro hpos
      exact absurd hzero (ne_of_gt hpos)
    | false =>
      have hlogin : a.command.verb.beforeLogin = false := by
        cases hverb : a.command.verb <;> simp [hverb, Verb.isTransfer] at htransfer <;> rfl
      obtain ⟨rfl, _⟩ := Session.after_refused hv.connected hlogin hauth hs'
      simpa [hauth, hrest] using hv.rested
  · by_cases hrest : a.command.verb = .rest
    · obtain ⟨code, hcode, hP⟩ := Session.rest_answered hv.connected hrest hs'
      simp only [hrest, hcode, true_and, decide_eq_true_eq]
      rcases hP with ⟨rfl, n, hn, hp⟩ | ⟨hne, hkept⟩
      · intro hpos
        rw [hp] at hpos ⊢
        rw [if_pos rfl]
        exact ⟨n, hn, Session.toStreampos_pos (stoull_range hn) hpos⟩
      · rw [if_neg hne, hkept]
        exact hv.rested
    · have hkept : s'.resume_position_ = v.session.resume_position_ := by
        refine (Session.after_frame hs').resume fun hmem => ?_
        rcases List.mem_cons.1 hmem with hr | ht
        · exact hrest hr
        · exact htransfer (by simpa [Verb.isTransfer] using ht)
      simp only [htransfer, hrest, hkept, false_and, if_false]
      exact hv.rested

lemma sound_of_reach (h : (restartSystem env me).Reach (Consumes env me) v) : v.Sound := by
  refine h.invariant ?_ fun _ _ _ hv hok hn => sound_step hv hok hn
  rintro v ⟨⟨fd, context, ssl, hs⟩, _⟩
  exact ⟨by simp [hs, Session.opened], by simp [hs, Session.opened]⟩

end Restarting

variable (env me)

theorem restarts_are_rested {v : Restarting} (h : (restartSystem env me).Reach (Restarting.Consumes env me) v)
    {a : Arrival} {s' : Session} (htransfer : a.command.verb.isTransfer = true)
    (hauth : v.session.authenticated_ = true) (hs' : v.session.after env me a = some s') :
    (s'.resume_position_ = 0 ↔ v.Consumes env me a) ∧
      (0 < v.session.resume_position_ → ∃ n, v.rested = some n ∧ v.session.resume_position_ = n) := by
  have hv := Restarting.sound_of_reach h
  obtain ⟨hused, hkept⟩ := Session.transfer_position hv.connected htransfer hauth hs'
  refine ⟨⟨fun hzero _ _ hne => ?_, fun hok => ?_⟩, hv.rested⟩
  · by_contra hspends
    exact hne ((hkept hspends).symm.trans hzero)
  · by_cases hspends : v.session.Spends env me a
    · exact hused hspends
    · rw [hkept hspends]
      by_contra hne
      exact hspends (hok htransfer hauth hne)

namespace Restarting

instance (s : Session) (fs : FileSystem) (name : Str) : Decidable (s.FindsFile fs name) := by
  unfold Session.FindsFile
  infer_instance

instance (s : Session) (fs : FileSystem) (name : Str) : Decidable (s.FindsRoom fs name) :=
  inferInstanceAs (Decidable (_ ∧ _ ∧ ∀ u ∈ s.current_user_, _ → _))

instance (s : Session) (fs : FileSystem) (argument : Str) : Decidable (s.FindsName fs argument) := by
  unfold Session.FindsName
  infer_instance

instance (s : Session) : Decidable s.RefusesRestart := by
  unfold Session.RefusesRestart
  infer_instance

instance (s : Session) (a : Arrival) : Decidable (s.Spends env me a) := by
  unfold Session.Spends
  split <;> infer_instance

instance (v : Restarting) (a : Arrival) : Decidable (v.Consumes env me a) := by
  unfold Consumes
  infer_instance

def sampleLine (line : String) : Arrival :=
  ⟨.favourable ⟨[(["f"], .regular "abc")], [], fun _ _ _ => none, []⟩, ascii line⟩

def sampleLines : List Arrival := ["USER u", "PASS p", "PORT 127,0,0,1,4,28", "REST 1"].map sampleLine

end Restarting

theorem restarts_are_rested_retr : ∃ v : Restarting, ∃ s' : Session,
    v.session.resume_position_ = 1 ∧ v.rested = some 1 ∧
      v.session.after Attested.sampleService 0 (Restarting.sampleLine "RETR f") = some s' ∧
        s'.resume_position_ = 0 := by
  obtain ⟨v, hv, he⟩ := Option.map_eq_some_iff.1 (show
    ((restartSystem Attested.sampleService 0).run (Restarting.Consumes Attested.sampleService 0)
      ⟨.opened 3 false false, none⟩ Restarting.sampleLines).map (fun v =>
        (v.session.authenticated_, v.session.resume_position_, v.rested,
          (v.session.after Attested.sampleService 0 (Restarting.sampleLine "RETR f")).isSome,
          decide (v.Consumes Attested.sampleService 0 (Restarting.sampleLine "RETR f")))) =
        some (true, 1, some 1, true, true) by decide +kernel)
  simp only [Prod.mk.injEq] at he
  obtain ⟨hauth, hpos, hrested, hreturns, hok⟩ := he
  obtain ⟨s', hs'⟩ := Option.isSome_iff_exists.1 hreturns
  exact ⟨v, s', hpos, hrested, hs', (restarts_are_rested Attested.sampleService 0
    (.run (.init ⟨⟨_, _, _, rfl⟩, rfl⟩) hv) (by decide) hauth hs').1.2 (of_decide_eq_true hok)⟩

theorem restarts_are_not_rested : ∃ v : Restarting,
    (restartSystem Attested.sampleService 0).Reach System.anyStep v ∧
      (v.session.trace Attested.sampleService 0 (Restarting.sampleLine "RETR g")).answers 550 = true ∧
      ∃ v' : Restarting, (restartSystem Attested.sampleService 0).next v
        (Restarting.sampleLine "RETR g") = some v' ∧
        v'.session.resume_position_ = 1 ∧ v'.rested = none ∧
        (v'.session.ledger Attested.sampleService 0 (Restarting.sampleLine "RETR f")).sent = [(1, 3)] := by
  obtain ⟨v, hv, he⟩ := Option.map_eq_some_iff.1 (show
    ((restartSystem Attested.sampleService 0).run System.anyStep ⟨.opened 3 false false, none⟩
      Restarting.sampleLines).map (fun v =>
        ((v.session.trace Attested.sampleService 0 (Restarting.sampleLine "RETR g")).answers 550,
          ((restartSystem Attested.sampleService 0).next v (Restarting.sampleLine "RETR g")).map fun v' =>
            decide (v'.session.resume_position_ = 1 ∧ v'.rested = none ∧
              (v'.session.ledger Attested.sampleService 0 (Restarting.sampleLine "RETR f")).sent = [(1, 3)]))) =
        some (true, some true) by decide +kernel)
  simp only [Prod.mk.injEq] at he
  obtain ⟨v', hv', he'⟩ := Option.map_eq_some_iff.1 he.2
  exact ⟨v, .run (.init ⟨⟨_, _, _, rfl⟩, rfl⟩) hv, he.1, v', hv', of_decide_eq_true he'⟩

end SimpleSftpd
