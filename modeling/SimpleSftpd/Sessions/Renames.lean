import SimpleSftpd.Core.Answered
import SimpleSftpd.Sessions.VerifiedUser

namespace SimpleSftpd

open Cxx Interaction Prog

lemma Cxx.FileSystem.rename_cases (fs : FileSystem) (p q : Str) :
    (fs.rename p q).1 = .ok () ∨ (fs.rename p q).2 = fs := by
  unfold rename
  repeat' split
  all_goals first | exact .inl rfl | exact .inr rfl

lemma Cxx.FileSystem.status_nil (fs : FileSystem) {t : FileType} (h : fs.status [] = .ok t) : t = .notFound := by
  unfold status locate at h
  split at h
  · cases h
  · simpa using h.symm

variable (env : Service) (me : SessionId)

namespace Session

variable {me} {s s' : Session} {w : World}

lemma handleRNFR_answered (hs : s.socket_ ≠ none) (argument : Str) :
    Answered me (s.handleRNFR argument) w fun code p w' => w'.fs = w.fs ∧
      ((code = 350 ∧ p = s.resolvePath w.fs argument ∧ p ≠ []) ∨ (code ≠ 350 ∧ p = s.rename_from_path_)) := by
  unfold handleRNFR
  refine answered_call rfl (answered_ite (fun _ => ?_) fun _ => answered_ite (fun _ => ?_) fun _ => ?_)
  · exact answered_return hs fun w' hw => ⟨hw.fs, .inr ⟨by decide, rfl⟩⟩
  · exact answered_return hs fun w' hw => ⟨hw.fs, .inr ⟨by decide, rfl⟩⟩
  · refine answered_call rfl (answered_orThrow fun found hfound => ?_)
    refine answered_ite (fun _ => ?_) fun hthere => ?_
    · exact answered_return hs fun w' hw => ⟨hw.fs, .inr ⟨by decide, rfl⟩⟩
    · refine answered_return hs fun w' hw => ?_
      refine ⟨hw.fs, .inl ⟨rfl, rfl, fun hnil => hthere ?_⟩⟩
      exact w.fs.status_nil (hnil ▸ hfound)

lemma renameTo_answered (hs : s.socket_ ≠ none) (argument : Str) :
    Answered me (s.renameTo argument) w fun code _ w' =>
      let moved := w.fs.rename s.rename_from_path_ (s.resolvePath w.fs argument)
      (code = 250 ∧ moved.1 = .ok () ∧ w'.fs = moved.2) ∨ (code ≠ 250 ∧ w'.fs = w.fs) := by
  unfold renameTo
  refine answered_call rfl (answered_ite (fun _ => ?_) fun _ => answered_ite (fun _ => ?_) fun _ => ?_)
  · exact answered_reply hs fun w' hw => .inr ⟨by decide, hw.fs⟩
  · exact answered_reply hs fun w' hw => .inr ⟨by decide, hw.fs⟩
  · refine answered_call rfl (answered_orThrow fun found _ => ?_)
    refine answered_ite (fun _ => ?_) fun _ => ?_
    · exact answered_reply hs fun w' hw => .inr ⟨by decide, hw.fs⟩
    · refine answered_call rfl ?_
      have hcases := w.fs.rename_cases s.rename_from_path_ (s.resolvePath w.fs argument)
      split
      · rename_i hmoved
        exact answered_reply hs fun w' hw => .inl ⟨rfl, hmoved, hw.fs⟩
      · rename_i e hfailed
        refine answered_reply hs fun w' hw => ?_
        refine .inr ⟨by decide, hw.fs.trans (hcases.resolve_left fun hmoved => ?_)⟩
        cases hmoved.symm.trans hfailed

lemma handleRNTO_answered (hs : s.socket_ ≠ none) (argument : Str) :
    Answered me (s.handleRNTO argument) w fun code p w' => p = [] ∧
      let moved := w.fs.rename s.rename_from_path_ (s.resolvePath w.fs argument)
      ((s.rename_from_path_ = [] → code = 503) ∧
        ((code = 250 ∧ moved.1 = .ok () ∧ w'.fs = moved.2) ∨ (code ≠ 250 ∧ w'.fs = w.fs))) := by
  unfold handleRNTO
  refine answered_ite (fun hnone => ?_) fun hsome => ?_
  · exact answered_return hs fun w' hw => ⟨rfl, fun _ => rfl, .inr ⟨by decide, hw.fs⟩⟩
  · refine answered_pure fun u w' hu => ?_
    obtain ⟨code, hcode, hP⟩ := renameTo_answered hs argument u w' hu
    exact ⟨code, hcode, rfl, fun h => absurd h hsome, hP⟩

variable {env} {a : Arrival}

lemma rnfr_answered (hs : s.socket_ ≠ none) (hv : a.command.verb = .rnfr) (h : s.after env me a = some s') :
    ∃ code, (∀ c, (s.trace env me a).answers c = decide (code = c)) ∧
      ((code = 350 ∧ s'.rename_from_path_ = s.resolvePath a.world.fs a.command.argument ∧
          s'.rename_from_path_ ≠ []) ∨
        (code ≠ 350 ∧ s'.rename_from_path_ = s.rename_from_path_)) := by
  refine answered_dispatch hs h (P := fun code s' _ =>
    (code = 350 ∧ s'.rename_from_path_ = s.resolvePath a.world.fs a.command.argument ∧ s'.rename_from_path_ ≠ []) ∨
      (code ≠ 350 ∧ s'.rename_from_path_ = s.rename_from_path_)) (fun _ => ?_)
    fun _ _ _ _ => .inr ⟨by decide, rfl⟩
  rw [Arrival.command_eq hv]
  exact answered_pure ((handleRNFR_answered hs _).mono fun _ _ _ h => h.2)

def treeAfter (env : Service) (me : SessionId) (s : Session) (a : Arrival) : FileSystem :=
  ((s.dispatch env a.line).exec (World.machine me) a.world).2.fs

lemma rnto_answered (hs : s.socket_ ≠ none) (hv : a.command.verb = .rnto) (h : s.after env me a = some s') :
    ∃ code, (∀ c, (s.trace env me a).answers c = decide (code = c)) ∧
      (s.authenticated_ = true → s'.rename_from_path_ = [] ∧ (s.rename_from_path_ = [] → code = 503)) ∧
      (s.authenticated_ = false → s'.rename_from_path_ = s.rename_from_path_) ∧
      let moved := a.world.fs.rename s.rename_from_path_ (s.resolvePath a.world.fs a.command.argument)
      ((code = 250 ∧ s.authenticated_ = true ∧ moved.1 = .ok () ∧ s.treeAfter env me a = moved.2) ∨
        (code ≠ 250 ∧ s.treeAfter env me a = a.world.fs)) := by
  refine answered_dispatch hs h (P := fun code s' w' =>
    (s.authenticated_ = true → s'.rename_from_path_ = [] ∧ (s.rename_from_path_ = [] → code = 503)) ∧
      (s.authenticated_ = false → s'.rename_from_path_ = s.rename_from_path_) ∧
      let moved := a.world.fs.rename s.rename_from_path_ (s.resolvePath a.world.fs a.command.argument)
      ((code = 250 ∧ s.authenticated_ = true ∧ moved.1 = .ok () ∧ w'.fs = moved.2) ∨
        (code ≠ 250 ∧ w'.fs = a.world.fs))) (fun hlogged => ?_) fun _ hout w' hw => ?_
  · have hauth : s.authenticated_ = true := hlogged.resolve_left (by simp [hv, Verb.beforeLogin])
    rw [Arrival.command_eq hv]
    refine answered_pure ((handleRNTO_answered hs _).mono fun code p w' h => ?_)
    obtain ⟨rfl, hnone, hmoved | hstill⟩ := h
    · exact ⟨fun _ => ⟨rfl, hnone⟩, fun hout => absurd (hauth.symm.trans hout) (by decide),
        .inl ⟨hmoved.1, hauth, hmoved.2⟩⟩
    · exact ⟨fun _ => ⟨rfl, hnone⟩, fun hout => absurd (hauth.symm.trans hout) (by decide), .inr hstill⟩
  · exact ⟨fun hauth => absurd (hauth.symm.trans hout) (by decide), fun _ => rfl, .inr ⟨by decide, hw.fs⟩⟩

end Session

/-- A session and, as history, the path the last RNFR answered 350 has resolved, until a logged-in
RNTO. -/
structure Renaming where
  session : Session
  source : Option Str

def renameSystem : System Renaming Arrival where
  init v := v.session.IsNew ∧ v.source = none
  next v a := (v.session.after env me a).map fun s' => ⟨s',
    match a.command.verb with
    | .rnfr => if (v.session.trace env me a).answers 350 then
        some (v.session.resolvePath a.world.fs a.command.argument) else v.source
    | .rnto => if v.session.authenticated_ then none else v.source
    | _ => v.source⟩

structure Renaming.Sound (v : Renaming) : Prop where
  connected : v.session.socket_ ≠ none
  source : v.source = if v.session.rename_from_path_ = [] then none else some v.session.rename_from_path_

namespace Renaming

variable {env me} {v v' : Renaming} {a : Arrival}

lemma sound_step (hv : v.Sound) (h : (renameSystem env me).next v a = some v') : v'.Sound := by
  obtain ⟨s', hs', rfl⟩ := Option.map_eq_some_iff.1 h
  have hconn : s'.socket_ ≠ none := (Session.after_frame hs').socket ▸ hv.connected
  refine ⟨hconn, ?_⟩
  by_cases hfrom : a.command.verb = .rnfr
  · obtain ⟨code, hcode, hP⟩ := Session.rnfr_answered hv.connected hfrom hs'
    simp only [hfrom, hcode, decide_eq_true_eq]
    rcases hP with ⟨rfl, hp, hne⟩ | ⟨hne, hkept⟩
    · rw [if_pos rfl, if_neg hne, hp]
    · rw [if_neg hne, hkept, hv.source]
  · by_cases hto : a.command.verb = .rnto
    · obtain ⟨code, hcode, hP⟩ := Session.rnto_answered hv.connected hto hs'
      simp only [hto]
      split
      · rename_i hauth
        rw [if_pos (hP.1 hauth).1]
      · rename_i hauth
        rw [hP.2.1 (Bool.eq_false_iff.2 hauth), hv.source]
    · have hkept : s'.rename_from_path_ = v.session.rename_from_path_ :=
        (Session.after_frame hs').rename (by simp [hfrom, hto])
      dsimp only
      rw [hkept, ← hv.source]
      split <;> first | rfl | contradiction

lemma keeps_source {s' : Session} (hv : v.Sound) (hs' : v.session.after env me a = some s')
    (hout : a.command.verb = .rnto → v.session.authenticated_ = false)
    (hrefused : a.command.verb = .rnfr → (v.session.trace env me a).answers 350 = false) :
    s'.rename_from_path_ = v.session.rename_from_path_ := by
  by_cases hfrom : a.command.verb = .rnfr
  · obtain ⟨code, hcode, hP⟩ := Session.rnfr_answered hv.connected hfrom hs'
    have hne : code ≠ 350 := of_decide_eq_false ((hcode 350).symm.trans (hrefused hfrom))
    rcases hP with ⟨heq, _⟩ | ⟨_, hkept⟩
    · exact absurd heq hne
    · exact hkept
  by_cases hto : a.command.verb = .rnto
  · obtain ⟨_, _, _, hkept, _⟩ := Session.rnto_answered hv.connected hto hs'
    exact hkept (hout hto)
  · exact (Session.after_frame hs').rename (by simp [hfrom, hto])

lemma sound_of_reach (h : (renameSystem env me).Reach System.anyStep v) : v.Sound := by
  refine h.invariant ?_ fun _ _ _ hv _ hn => sound_step hv hn
  rintro v ⟨⟨fd, context, ssl, hs⟩, hsource⟩
  exact ⟨by simp [hs, Session.opened], by simp [hs, hsource, Session.opened]⟩

end Renaming

theorem renames_are_named {v : Renaming} (h : (renameSystem env me).Reach System.anyStep v) {a : Arrival}
    {s' : Session} (hs' : v.session.after env me a = some s') :
    (a.command.verb = .rnto →
      ((v.session.trace env me a).answers 250 = true → ∃ source, v.source = some source ∧
        let moved := a.world.fs.rename source (v.session.resolvePath a.world.fs a.command.argument)
        moved.1 = .ok () ∧ v.session.treeAfter env me a = moved.2) ∧
      ((v.session.trace env me a).answers 250 = false → v.session.treeAfter env me a = a.world.fs) ∧
      (v.session.authenticated_ = true → v.source = none → (v.session.trace env me a).answers 503 = true)) ∧
    ((a.command.verb = .rnto → v.session.authenticated_ = false) →
      (a.command.verb = .rnfr → (v.session.trace env me a).answers 350 = false) →
      s'.rename_from_path_ = v.session.rename_from_path_) := by
  have hv := Renaming.sound_of_reach h
  refine ⟨fun hto => ?_, fun hout hrefused => Renaming.keeps_source hv hs' hout hrefused⟩
  obtain ⟨code, hcode, hauth, hout, hmoved⟩ := Session.rnto_answered hv.connected hto hs'
  simp only [hcode, decide_eq_true_eq, decide_eq_false_iff_not]
  refine ⟨fun h250 => ?_, fun h250 => ?_, fun ha hnone => (hauth ha).2 ?_⟩
  · obtain ⟨_, ha, hok, htree⟩ | ⟨hno, _⟩ := hmoved
    · refine ⟨_, ?_, hok, htree⟩
      rw [hv.source, if_neg fun hnil => ?_]
      cases ((hauth ha).2 hnil).symm.trans h250
    · exact absurd h250 hno
  · obtain ⟨hyes, _⟩ | ⟨_, htree⟩ := hmoved
    · exact absurd hyes h250
    · exact htree
  · by_contra hne
    rw [hv.source, if_neg hne] at hnone
    cases hnone

namespace Renaming

def sampleLine (line : String) : Arrival :=
  ⟨.favourable ⟨[(["f"], .regular [])], [], fun _ _ _ => none, []⟩, ascii line⟩

def sampleRun (lines : List String) : Option Renaming :=
  (renameSystem Attested.sampleService 0).run System.anyStep ⟨.opened 3 false false, none⟩ (lines.map sampleLine)

lemma sampleRun_reach {lines : List String} {v : Renaming} (h : sampleRun lines = some v) :
    (renameSystem Attested.sampleService 0).Reach System.anyStep v := .run (.init ⟨⟨_, _, _, rfl⟩, rfl⟩) h

end Renaming

theorem renames_are_named_rnto : ∃ v : Renaming, ∃ source, v.source = some source ∧
    (v.session.trace Attested.sampleService 0 (Renaming.sampleLine "RNTO g")).answers 250 = true := by
  obtain ⟨v, hv, he⟩ := Option.map_eq_some_iff.1 (show
    (Renaming.sampleRun ["USER u", "PASS p", "RNFR f"]).map (fun v =>
      ((v.session.trace Attested.sampleService 0 (Renaming.sampleLine "RNTO g")).answers 250,
        (v.session.after Attested.sampleService 0 (Renaming.sampleLine "RNTO g")).isSome)) = some (true, true)
      by decide +kernel)
  obtain ⟨s', hs'⟩ := Option.isSome_iff_exists.1 (congrArg Prod.snd he)
  have h250 := congrArg Prod.fst he
  have hto : (Renaming.sampleLine "RNTO g").command.verb = .rnto := by decide
  have hnamed := renames_are_named Attested.sampleService 0 (Renaming.sampleRun_reach hv) hs'
  obtain ⟨source, hsource, _⟩ := (hnamed.1 hto).1 h250
  exact ⟨v, source, hsource, h250⟩

theorem renames_are_not_next : (∃ v : Renaming,
      Renaming.sampleRun ["USER u", "PASS p", "RNFR f", "NOOP"] = some v ∧
        (v.session.trace Attested.sampleService 0 (Renaming.sampleLine "RNTO g")).answers 250 = true) ∧
    ∃ v w : Renaming, Renaming.sampleRun ["USER u", "PASS p", "RNFR f"] = some v ∧
      (v.session.trace Attested.sampleService 0 (Renaming.sampleLine "RNFR x")).answers 550 = true ∧
      (renameSystem Attested.sampleService 0).next v (Renaming.sampleLine "RNFR x") = some w ∧
      (w.session.trace Attested.sampleService 0 (Renaming.sampleLine "RNTO g")).answers 250 = true := by
  obtain ⟨v, hv, he⟩ := Option.map_eq_some_iff.1 (show
    (Renaming.sampleRun ["USER u", "PASS p", "RNFR f", "NOOP"]).map (fun v =>
      (v.session.trace Attested.sampleService 0 (Renaming.sampleLine "RNTO g")).answers 250) = some true
      by decide +kernel)
  obtain ⟨v', hv', he'⟩ := Option.map_eq_some_iff.1 (show
    (Renaming.sampleRun ["USER u", "PASS p", "RNFR f"]).map (fun v =>
      ((v.session.trace Attested.sampleService 0 (Renaming.sampleLine "RNFR x")).answers 550,
        ((renameSystem Attested.sampleService 0).next v (Renaming.sampleLine "RNFR x")).map fun w =>
          (w.session.trace Attested.sampleService 0 (Renaming.sampleLine "RNTO g")).answers 250)) =
        some (true, some true) by decide +kernel)
  obtain ⟨w, hw, hto⟩ := Option.map_eq_some_iff.1 (congrArg Prod.snd he')
  exact ⟨⟨v, hv, he⟩, v', w, hv', congrArg Prod.fst he', hw, hto⟩

end SimpleSftpd
