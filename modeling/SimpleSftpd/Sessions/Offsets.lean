import SimpleSftpd.Core.Reading
import SimpleSftpd.Sessions.Streams

namespace SimpleSftpd

open Cxx Interaction Prog

variable (env : Service) (me : SessionId)

def denoted (t : Str) : Option Int := (numeral 10 t).map Numeral.value

/-- A session and, as history, the number that the last REST answered 350 was given, until a command
changes the restart position. -/
structure Offsetting where
  session : Session
  asked : Option Int

def offsetSystem : System Offsetting Arrival where
  init v := v.session.IsNew ∧ v.asked = none
  next v a := (v.session.after env me a).map fun s' => ⟨s',
    if a.command.verb = .rest ∧ (v.session.trace env me a).answers 350 then denoted a.command.argument
    else if s'.resume_position_ = v.session.resume_position_ then v.asked
    else none⟩

namespace Offsetting

structure Sound (v : Offsetting) : Prop where
  connected : v.session.socket_ ≠ none
  asked : ∀ n, v.asked = some n → ∃ k : ℕ, v.session.resume_position_ = Session.toStreampos k ∧
    (k : Int) = n % 2 ^ 64

end Offsetting

variable {env me}

lemma stoull_denoted {t : Str} {k : ℕ} (h : stoull t = some k) :
    ∃ n, denoted t = some n ∧ (k : Int) = n % 2 ^ 64 := by
  obtain ⟨m, hm, hk⟩ := Option.bind_eq_some_iff.1 h
  refine ⟨m.value, by rw [denoted, hm, Option.map_some], ?_⟩
  obtain ⟨hlt, hk⟩ := Option.ite_none_right_eq_some.1 hk
  obtain rfl := Option.some.inj hk
  rw [Numeral.value]
  cases m.negative with
  | true =>
    simp only [if_true]
    omega
  | false =>
    simp only [Bool.false_eq_true, if_false]
    omega

lemma Session.toStreampos_eq_iff {n : Int} {k : ℕ} (hk : (k : Int) = n % 2 ^ 64) (hn : 0 ≤ n) :
    Session.toStreampos k = n ↔ n < 2 ^ 63 := by
  rw [toStreampos]
  split <;> omega

namespace Offsetting

variable {v v' : Offsetting} {a : Arrival}

lemma sound_step (hv : v.Sound) (h : (offsetSystem env me).next v a = some v') : v'.Sound := by
  obtain ⟨s', hs', rfl⟩ := Option.map_eq_some_iff.1 h
  have hconn : s'.socket_ ≠ none := (Session.after_frame hs').socket ▸ hv.connected
  refine ⟨hconn, fun n hn => ?_⟩
  dsimp only at hn ⊢
  split at hn
  · rename_i hrest
    obtain ⟨code, hcode, hP⟩ := Session.rest_answered hv.connected hrest.1 hs'
    obtain rfl : code = 350 := of_decide_eq_true ((hcode 350).symm.trans hrest.2)
    obtain ⟨_, k, hk, hposition⟩ | ⟨hne, _⟩ := hP
    · obtain ⟨m, hm, hmod⟩ := stoull_denoted hk
      obtain rfl := Option.some.inj (hm.symm.trans hn)
      exact ⟨k, hposition, hmod⟩
    · exact absurd rfl hne
  · obtain ⟨hkept, hasked⟩ := Option.ite_none_right_eq_some.1 hn
    rw [hkept]
    exact hv.asked n hasked

lemma sound_of_reach (h : (offsetSystem env me).Reach System.anyStep v) : v.Sound := by
  apply h.invariant
  · rintro v ⟨⟨fd, context, ssl, hs⟩, hasked⟩
    exact ⟨by simp [hs, Session.opened], by simp [hasked]⟩
  · intro v a v' hv _ hn
    exact sound_step hv hn

end Offsetting

theorem retr_reads_from_asked {v : Offsetting} (h : (offsetSystem env me).Reach System.anyStep v) {n : Int}
    (hn : v.asked = some n) {a : Arrival} (hv : a.command.verb = .retr) :
    (0 ≤ n ∧ v.session.resume_position_ = n ∧ v.session.Fits (v.session.reading env me a)) ↔
      0 ≤ n ∧ n < 2 ^ 63 ∧ ¬v.session.Overruns (v.session.reading env me a) := by
  obtain ⟨k, hposition, hmod⟩ := (Offsetting.sound_of_reach h).asked n hn
  refine and_congr_right fun hle => ?_
  have hstarts : v.session.resume_position_ = n ↔ n < 2 ^ 63 := hposition ▸ Session.toStreampos_eq_iff hmod hle
  rw [hstarts]
  refine and_congr_right fun hlt => ?_
  have hpos : 0 ≤ v.session.resume_position_ := by rwa [hstarts.2 hlt]
  exact Session.retr_reads hpos hv

namespace Offsetting

instance (s : Session) (g : FileReads) : Decidable (s.Overruns g) := inferInstanceAs (Decidable (_ ∧ _))

def sampleLines (restart : String) : List Arrival :=
  ["USER u", "PASS p", "PORT 127,0,0,1,4,28", restart].map Restarting.sampleLine

end Offsetting

theorem retr_reads_from_asked_one : ∃ s : Session,
    s.resume_position_ = 1 ∧
      (s.reading Attested.sampleService 0 (Restarting.sampleLine "RETR f")).spans = [(1, 2)] ∧
      s.Fits (s.reading Attested.sampleService 0 (Restarting.sampleLine "RETR f")) := by
  obtain ⟨v, hv, he⟩ := Option.map_eq_some_iff.1 (show
    ((offsetSystem Attested.sampleService 0).run System.anyStep ⟨.opened 3 false false, none⟩
      (Offsetting.sampleLines "REST 1")).map (fun v =>
        (v.asked, (v.session.reading Attested.sampleService 0 (Restarting.sampleLine "RETR f")).spans,
          decide (v.session.Overruns
            (v.session.reading Attested.sampleService 0 (Restarting.sampleLine "RETR f"))))) =
      some (some 1, [(1, 2)], false) by decide +kernel)
  simp only [Prod.mk.injEq, decide_eq_false_iff_not] at he
  obtain ⟨hasked, hspans, hover⟩ := he
  obtain ⟨_, hposition, hfits⟩ :=
    (retr_reads_from_asked (.run (.init ⟨⟨_, _, _, rfl⟩, rfl⟩) hv) hasked (by decide)).2
    ⟨by decide, by decide, hover⟩
  exact ⟨v.session, hposition, hspans, hfits⟩

theorem retr_reads_before_file : ∃ v : Offsetting,
    (offsetSystem Streams.mappingService 0).Reach System.anyStep v ∧ v.asked = some (2 ^ 64 - 1) ∧
      v.session.resume_position_ = -1 ∧
      (v.session.reading Streams.mappingService 0 (Restarting.sampleLine "RETR f")).size = 3 ∧
      (v.session.reading Streams.mappingService 0 (Restarting.sampleLine "RETR f")).spans = [(-1, 4)] ∧
      ¬v.session.Fits (v.session.reading Streams.mappingService 0 (Restarting.sampleLine "RETR f")) := by
  obtain ⟨v, hv, he⟩ := Option.map_eq_some_iff.1 (show
    ((offsetSystem Streams.mappingService 0).run System.anyStep ⟨.opened 3 false false, none⟩
      (Offsetting.sampleLines "REST 18446744073709551615")).map (fun v =>
        (v.asked, v.session.resume_position_,
          (v.session.reading Streams.mappingService 0 (Restarting.sampleLine "RETR f")).size,
          (v.session.reading Streams.mappingService 0 (Restarting.sampleLine "RETR f")).spans)) =
      some (some (2 ^ 64 - 1), -1, 3, [(-1, 4)]) by decide +kernel)
  simp only [Prod.mk.injEq] at he
  obtain ⟨hasked, hposition, hsize, hspans⟩ := he
  refine ⟨v, .run (.init ⟨⟨_, _, _, rfl⟩, rfl⟩) hv, hasked, hposition, hsize, hspans, fun hfits => ?_⟩
  have hinside := hfits.inside (-1, 4) (by rw [hspans]; exact List.mem_cons_self)
  exact absurd hinside.1 (by decide)

end SimpleSftpd
