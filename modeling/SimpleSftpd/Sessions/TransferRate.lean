import SimpleSftpd.Core.Ledger
import SimpleSftpd.Core.Throttling
import SimpleSftpd.Sessions.Completions

namespace SimpleSftpd

open Cxx Interaction Prog

structure Timed {W : Type 1} (M : Machine Call W) (now : W → ℕ) : Prop where
  later : ∀ {β : Type} (w : W) (o : Call β), now w ≤ now (M w o).2
  steadyNow : ∀ w, now w ≤ (M w .steadyNow).1 ∧ (M w .steadyNow).1 ≤ now (M w .steadyNow).2
  sleepFor : ∀ w ms, now w + ms ≤ now (M w (.sleepFor ms)).2

structure Counted {W : Type 1} (M : Machine Call W) : Prop where
  send : ∀ w fd data, (M w (.send fd data)).1 ≤ data.length
  sendfile : ∀ w out file offset count, (M w (.sendfile out file offset count)).1 ≤ count
  sendMapped : ∀ w fd mapped index count, (M w (.sendMapped fd mapped index count)).1 ≤ count
  read : ∀ w fd n data, (M w (.read fd n)).1 = some data → data.length ≤ n

namespace Meter

variable {W : Type 1} {M : Machine Call W} {now : W → ℕ} {r B : ℕ} {g : Meter}

def after (M : Machine Call W) (t : List (W × Σ β, Call β)) : Meter :=
  t.foldl (fun g c => g.next c.2.2 (M c.1 c.2.2).1) {}

lemma metered_describes (hM : Timed M now) (hC : Counted M) :
    (metered r B).Describes M fun g w => g.clock ≤ now w := by
  intro β g w o hclock _
  have hlater : g.clock ≤ now (M w o).2 := hclock.trans (hM.later w o)
  cases o with
  | steadyNow => exact ⟨hclock.trans (hM.steadyNow w).1, (hM.steadyNow w).2⟩
  | sleepFor ms => exact ⟨trivial, (Nat.add_le_add_right hclock ms).trans (hM.sleepFor w ms)⟩
  | send fd data => exact ⟨hC.send w fd data, hlater⟩
  | sendfile out file offset count => exact ⟨hC.sendfile w out file offset count, hlater⟩
  | sendMapped fd mapped index count => exact ⟨hC.sendMapped w fd mapped index count, hlater⟩
  | read fd n => exact ⟨hC.read w fd n, hlater⟩
  | recv fd chunk => cases chunk <;> exact ⟨trivial, hlater⟩
  | _ => exact ⟨trivial, hlater⟩

lemma Paced.allowed_iff {time : ℕ} (h : g.Paced r B) (hclock : g.clock ≤ time) (hfits : g.Fits r time) :
    g.Allowed r B time g.moved ↔ g.Allowed r B time g.early := by
  constructor
  · exact fun hmoved => hmoved.mono h.1 le_rfl
  · intro hearly
    rcases h.2 with hsame | hspent | ⟨_, hallowed⟩
    · rwa [hsame]
    · exact absurd (hfits.mono hclock) hspent
    · exact hallowed.mono le_rfl hclock

lemma allowed_at {α : Type} {p : Io α} (hM : Timed M now) (hC : Counted M)
    (hp : Ends (metered r B) p (fun _ g => g.Paced r B) (fun g => g.Paced r B) {})
    {w v : W} {t : List (W × Σ β, Call β)} (hs : p.Stage M w t v) (hfits : (after M t).Fits r (now v)) :
    (after M t).Allowed r B (now v) (after M t).moved ↔ (after M t).Allowed r B (now v) (after M t).early := by
  obtain ⟨hpaced, hclock⟩ := hp.stage (fun _ _ h => h) (metered_describes hM hC) (Nat.zero_le (now w)) hs
  exact hpaced.allowed_iff hclock hfits

end Meter

def World.clocked (me : SessionId) (cost : ℕ) : Machine Call (World × ULift.{1} ℕ) := fun _ w o => match o with
  | .steadyNow => (w.2.down, w.1, ⟨w.2.down + cost⟩)
  | .sleepFor ms => ((), w.1, ⟨w.2.down + ms⟩)
  | o => ((answer me w.1 o).1, (answer me w.1 o).2, ⟨w.2.down + cost⟩)

lemma World.clocked_timed (me : SessionId) (cost : ℕ) : Timed (World.clocked me cost) (·.2.down) := by
  refine ⟨fun {β} w o => ?_, fun w => ⟨le_rfl, Nat.le_add_right _ _⟩, fun w ms => le_rfl⟩
  cases o with
  | sleepFor ms => exact Nat.le_add_right _ ms
  | _ => exact Nat.le_add_right _ cost

lemma World.clocked_counted (me : SessionId) (cost : ℕ) : Counted (World.clocked me cost) := by
  have hworld {β : Type} (w : World) (o : Call β) : Ledger.transfers.post {} o (World.machine me w o).1 :=
    (Ledger.transfers_describes me {} w o trivial trivial).1
  exact ⟨fun w fd data => hworld w.1 (.send fd data),
    fun w out file offset count => hworld w.1 (.sendfile out file offset count),
    fun w fd mapped index count => hworld w.1 (.sendMapped fd mapped index count), fun w fd n =>
      hworld w.1 (.read fd n)⟩

namespace TransferRate

def service : Service := { Attested.sampleService with
  config_ := { Attested.sampleService.config_ with
    rate_limit := { Attested.sampleService.config_.rate_limit with max_transfer_rate := 1000 }
    transfer := { Attested.sampleService.config_.transfer with buffer_size := 1 } } }

def files : FileSystem := ⟨[(["f"], .regular "abcdef")], [], fun _ _ _ => none, []⟩

def upload : World := .start files fun _ c => match c with
  | .connect _ _ _ => some ⟨["a", "b", "c", "d"], true, by decide⟩
  | c => c.favourable

def session : Option Session :=
  (sessionSystem service 0).run System.anyStep (.opened 3 false false) Session.transferLines

end TransferRate

/-- At every moment the bytes moved are as many as the rate and a buffer allow exactly if those are that the
throttle let past while its clock had not moved on. -/
theorem transfers_keep_to_the_rate {W : Type 1} {M : Machine Call W} {now : W → ℕ} (hM : Timed M now)
    (hC : Counted M)
    (env : Service) (s : Session) {r : ℕ} (hr : 0 < r) (hrate : env.config_.rate_limit.max_transfer_rate = r)
    (hmode : s.transferModeZ = false) (w : W) (filename : Str) :
    (∀ t v, (s.handleRETR env filename).Stage M w t v → (Meter.after M t).Fits r (now v) →
      ((Meter.after M t).Allowed r env.bufferSize (now v) (Meter.after M t).moved ↔
        (Meter.after M t).Allowed r env.bufferSize (now v) (Meter.after M t).early)) ∧
    ∀ B t v, (s.handleSTOR env filename).Stage M w t v → (Meter.after M t).Fits r (now v) →
      ((Meter.after M t).Allowed r B (now v) (Meter.after M t).moved ↔
        (Meter.after M t).Allowed r B (now v) (Meter.after M t).early) := by
  constructor
  · intro t v hs hfits
    exact Meter.allowed_at hM hC (Session.handleRETR_paced hr hrate hmode filename) hs hfits
  · intro B t v hs hfits
    exact Meter.allowed_at hM hC (Session.handleSTOR_paced hr hrate hmode filename) hs hfits

theorem transfers_keep_to_the_rate_timed : ∃ s t v, (sessionSystem TransferRate.service 0).Reach System.anyStep s ∧
    (s.handleRETR TransferRate.service "f").Stage (World.clocked 0 1) (.favourable TransferRate.files, ⟨0⟩) t v ∧
    (Meter.after (World.clocked 0 1) t).moved = 6 ∧
    (Meter.after (World.clocked 0 1) t).Allowed 1000 1 v.2.down (Meter.after (World.clocked 0 1) t).moved := by
  obtain ⟨s, hs, he⟩ := Option.map_eq_some_iff.1 (show TransferRate.session.map (fun s =>
      let p := s.handleRETR TransferRate.service "f"
      let g := Meter.after (World.clocked 0 1) (p.calls (World.clocked 0 1) (.favourable TransferRate.files, ⟨0⟩))
      let time := (p.exec (World.clocked 0 1) (.favourable TransferRate.files, ⟨0⟩)).2.2.down
      decide (s.transferModeZ = false ∧ g.moved = 6 ∧ g.early = 0 ∧ 1000 * g.elapsed time < 2 ^ 63 ∧
        g.received = 0)) = some true by
    decide +kernel)
  obtain ⟨hmode, hmoved, hearly, hproduct, hreceived⟩ := of_decide_eq_true he
  have hstage : (s.handleRETR TransferRate.service "f").Stage (World.clocked 0 1)
      (.favourable TransferRate.files, ⟨0⟩) _ _ :=
    .inr ⟨rfl, rfl⟩
  have hkept :=
    (transfers_keep_to_the_rate (World.clocked_timed 0 1)
    (World.clocked_counted 0 1) TransferRate.service s (r := 1000)
    (by decide) rfl hmode _ "f").1 _ _ hstage ⟨hproduct, by rw [hmoved]; decide, by rw [hreceived]; decide⟩
  refine ⟨s, _, _, .run (.init ⟨_, _, _, rfl⟩) hs, hstage, hmoved, hkept.2 ?_⟩
  rw [hearly, Meter.Allowed]
  exact Nat.zero_le _

theorem transfers_do_not_keep_to_the_rate :
    ∃ s, (sessionSystem TransferRate.service 0).Reach System.anyStep s ∧ s.transferModeZ = false ∧
    (∃ t v, (s.handleRETR TransferRate.service "f").Stage (World.clocked 0 0)
      (.favourable TransferRate.files, ⟨0⟩) t v ∧
      (Meter.after (World.clocked 0 0) t).moved = 6 ∧ (Meter.after (World.clocked 0 0) t).elapsed v.2.down = 0 ∧
      ¬(Meter.after (World.clocked 0 0) t).Allowed 1000 1 v.2.down (Meter.after (World.clocked 0 0) t).moved) ∧
    ∃ t v, (s.handleSTOR TransferRate.service "g").Stage (World.clocked 0 0) (TransferRate.upload, ⟨0⟩) t v ∧
      (Meter.after (World.clocked 0 0) t).moved = 4 ∧ (Meter.after (World.clocked 0 0) t).elapsed v.2.down = 0 ∧
      ¬(Meter.after (World.clocked 0 0) t).Allowed 1000 1 v.2.down (Meter.after (World.clocked 0 0) t).moved := by
  obtain ⟨s, hs, he⟩ := Option.map_eq_some_iff.1 (show TransferRate.session.map (fun s =>
      let p := s.handleRETR TransferRate.service "f"
      let g := Meter.after (World.clocked 0 0) (p.calls (World.clocked 0 0) (.favourable TransferRate.files, ⟨0⟩))
      let p' := s.handleSTOR TransferRate.service "g"
      let g' := Meter.after (World.clocked 0 0) (p'.calls (World.clocked 0 0) (TransferRate.upload, ⟨0⟩))
      decide (s.transferModeZ = false ∧
        (g.moved = 6 ∧ g.elapsed (p.exec (World.clocked 0 0) (.favourable TransferRate.files, ⟨0⟩)).2.2.down = 0) ∧
        g'.moved = 4 ∧ g'.elapsed (p'.exec (World.clocked 0 0) (TransferRate.upload, ⟨0⟩)).2.2.down =
          0)) = some true by
    decide +kernel)
  obtain ⟨hmode, ⟨hsent, hstill⟩, hwritten, hstill'⟩ := of_decide_eq_true he
  refine ⟨s, .run (.init ⟨_, _, _, rfl⟩) hs, hmode, ⟨_, _, .inr ⟨rfl, rfl⟩, hsent, hstill, ?_⟩, _, _,
    .inr ⟨rfl, rfl⟩, hwritten, hstill', ?_⟩
  · rw [Meter.Allowed, hsent, hstill]
    decide
  · rw [Meter.Allowed, hwritten, hstill']
    decide

end SimpleSftpd
