import SimpleSftpd.Core.Transfers
import SimpleSftpd.Sessions.Completions

namespace SimpleSftpd

open Cxx Interaction Prog

def Consecutive : Int → List Move → Prop
  | _, [] => True
  | i, m :: ms => 0 ≤ i ∧ m.place = i ∧ Consecutive (i + m.count) ms

def taken (ms : List Move) : List Move := ms.filter fun m => 0 < m.count

lemma taken_append (ms ms' : List Move) : taken (ms ++ ms') = taken ms ++ taken ms' := List.filter_append _ _

lemma taken_eq_nil {ms : List Move} : taken ms = [] ↔ ∀ m ∈ ms, m.count ≤ 0 := by
  simp [taken]

namespace Moves

variable {way : Way} {lo hi : ℕ} {ms : List Move}

lemma consecutive (h : Moves way lo hi ms) (rest : List Move) :
    Consecutive lo (taken ms ++ rest) ↔ Consecutive hi rest := by
  induction h with
  | nil => rfl
  | @took lo hi n ms k hn h ih =>
    have htaken : taken (⟨way, lo, k, n⟩ :: ms) = ⟨way, lo, k, n⟩ :: taken ms :=
      List.filter_cons_of_pos (by simpa using hn)
    rw [htaken, List.cons_append, Consecutive, ← Nat.cast_add, ih]
    simp
  | @failed lo hi n ms k hn h ih =>
    have htaken : taken (⟨way, lo, k, n⟩ :: ms) = taken ms := List.filter_cons_of_neg (by simpa using hn)
    rw [htaken, ih]

lemma consecutive_iff (h : Moves way lo hi ms) (i : Int) : Consecutive i (taken ms) ↔ i = lo ∨ lo = hi := by
  induction h generalizing i with
  | nil => simp [taken, Consecutive]
  | @took lo hi n ms k hn h ih =>
    have htaken : taken (⟨way, lo, k, n⟩ :: ms) = ⟨way, lo, k, n⟩ :: taken ms :=
      List.filter_cons_of_pos (by simpa using hn)
    have hle := h.le
    rw [htaken]
    constructor
    · rintro ⟨_, hplace, _⟩
      exact .inl hplace.symm
    · rintro (rfl | hend)
      · exact ⟨Int.natCast_nonneg _, rfl, (ih _).2 (.inl rfl)⟩
      · omega
  | @failed lo hi n ms k hn h ih =>
    have htaken : taken (⟨way, lo, k, n⟩ :: ms) = taken ms := List.filter_cons_of_neg (by simpa using hn)
    rw [htaken, ih]

end Moves

def Storage.Unbroken (fs : FileSystem) (path : Str) (start : Int) (g : Storage) : Prop :=
  Consecutive start (taken g.moves) ∧
    ∀ l b, fs.openRead path = .ok l → fs.node l = some (.regular b) → g.sent <+: b.drop start.toNat

namespace Retrieval

variable {b : Str} {o mid far hi : ℕ} {ms₁ ms₂ ms₃ : List Move} {g : Storage}

lemma Handed.took_iff (h : Handed b o mid far hi ms₁ ms₂ ms₃ g) :
    ((∃ m ∈ g.moves, m.way = .mapped ∧ 0 < m.count) ↔ mid < far) ∧
      ((∃ m ∈ g.moves, m.way = .send ∧ 0 < m.count) ↔ mid < hi) := by
  have hway {m : Move} (hm : m ∈ g.moves) : m ∈ ms₁ ∧ m.way = .sendfile ∨ m ∈ ms₂ ∧ m.way = .mapped ∨
      m ∈ ms₃ ∧ m.way = .send := by
    rw [h.moves, List.mem_append, List.mem_append] at hm
    rcases hm with hm | hm | hm
    · exact .inl ⟨hm, h.first.way_eq m hm⟩
    · exact .inr (.inl ⟨hm, h.second.way_eq m hm⟩)
    · exact .inr (.inr ⟨hm, h.third.way_eq m hm⟩)
  rw [h.second.lt_iff, h.third.lt_iff]
  refine ⟨⟨?_, ?_⟩, ?_, ?_⟩
  · rintro ⟨m, hm, hmapped, hpos⟩
    rcases hway hm with ⟨_, hw⟩ | ⟨hm, _⟩ | ⟨_, hw⟩
    · cases hmapped.symm.trans hw
    · exact ⟨m, hm, hpos⟩
    · cases hmapped.symm.trans hw
  · rintro ⟨m, hm, hpos⟩
    exact ⟨m, by simp [h.moves, hm], h.second.way_eq m hm, hpos⟩
  · rintro ⟨m, hm, hsend, hpos⟩
    rcases hway hm with ⟨_, hw⟩ | ⟨_, hw⟩ | ⟨hm, _⟩
    · cases hsend.symm.trans hw
    · cases hsend.symm.trans hw
    · exact ⟨m, hm, hpos⟩
  · rintro ⟨m, hm, hpos⟩
    exact ⟨m, by simp [h.moves, hm], h.third.way_eq m hm, hpos⟩

lemma Handed.consecutive_iff (h : Handed b o mid far hi ms₁ ms₂ ms₃ g) :
    Consecutive o (taken g.moves) ↔ far = mid ∨ hi = mid := by
  rw [h.moves, taken_append, taken_append, h.first.consecutive, h.second.consecutive, h.third.consecutive_iff,
    Nat.cast_inj, eq_comm (a := mid)]

lemma Handed.unbroken_iff {fs : FileSystem} {path : Str} {l : Location} (h : Handed b o mid far hi ms₁ ms₂ ms₃ g)
    (hl : fs.openRead path = .ok l) (hn : fs.node l = some (.regular b)) : g.Unbroken fs path o ↔
      ¬((∃ m ∈ g.moves, m.way = .mapped ∧ 0 < m.count) ∧ ∃ m ∈ g.moves, m.way = .send ∧ 0 < m.count) := by
  have hfar := h.second.le
  have hhi := h.third.le
  rw [h.took_iff.1, h.took_iff.2, Storage.Unbroken, h.consecutive_iff]
  constructor
  · rintro ⟨honce, _⟩
    omega
  · intro hsome
    have honce : far = mid ∨ hi = mid := by omega
    refine ⟨honce, fun l' b' hl' hn' => ?_⟩
    obtain rfl : l = l' := Except.ok.inj (hl.symm.trans hl')
    obtain rfl : b = b' := by simpa using hn.symm.trans hn'
    rw [h.sent_from honce, Int.toNat_natCast]
    exact List.take_prefix _ _

lemma Astray.unbroken_iff {fs : FileSystem} {path : Str} {start : Int} (hstart : start < 0) (h : Astray g) :
    g.Unbroken fs path start ↔ ¬∃ m ∈ g.moves, m.way = .mapped ∧ 0 < m.count := by
  constructor
  · rintro ⟨hrun, _⟩ ⟨m, hm, _, hpos⟩
    cases htaken : taken g.moves with
    | nil => exact absurd hpos (not_lt.2 (taken_eq_nil.1 htaken m hm))
    | cons m' ms =>
      rw [htaken] at hrun
      exact absurd hrun.1 (not_le.2 hstart)
  · intro hnone
    have hall : ∀ m ∈ g.moves, m.count ≤ 0 := by
      by_contra hsome
      push Not at hsome
      obtain ⟨m, hm, hmapped, hpos, _⟩ := h.outside hsome
      exact hnone ⟨m, hm, hmapped, hpos⟩
    rw [Storage.Unbroken, taken_eq_nil.2 hall, h.nothing hall]
    exact ⟨trivial, fun _ _ _ _ => List.nil_prefix⟩

lemma Streamed.whole_iff (h : Streamed b o mid far hi ms₁ ms₂ ms₃ g) (hread : g.unread = false)
    (hpos : ∀ m ∈ g.moves, 0 < m.count) :
    g.sent = b.drop o ↔ ∀ m ∈ g.moves, m.way = .send → m.count = m.offered := by
  have hlast : (∀ m ∈ g.moves, m.way = .send → m.count = m.offered) ↔ ∀ m ∈ ms₃, m.count = m.offered := by
    constructor
    · exact fun hall m hm => hall m (by simp [h.moves, hm]) (h.third.way_eq m hm)
    · intro hall m hm hsend
      rw [h.moves, List.mem_append, List.mem_append] at hm
      rcases hm with hm | hm | hm
      · cases hsend.symm.trans (h.first.way_eq m hm)
      · cases hsend.symm.trans (h.second.way_eq m hm)
      · exact hall m hm
  have hall {n : ℕ} (hn : b.length ≤ n) : (b.drop o).take (n - o) = b.drop o := by
    apply List.take_of_length_le
    rw [List.length_drop]
    omega
  have hmid := h.first.le
  rw [hlast]
  rcases h.ends with ⟨rfl, hhi, hlen⟩ | ⟨hfar, hend, _, hcut⟩
  · rw [h.sent_from (.inr hhi), hall (le_max_of_le_left hlen)]
    exact iff_of_true rfl (List.forall_mem_nil _)
  · have hfar : far = mid := by
      refine hfar.resolve_right fun ⟨_, m, hm, hle⟩ => ?_
      exact absurd (hpos m (by simp [h.moves, hm])) (not_lt.2 hle)
    have hhi := h.third.le
    rw [h.sent_from (.inl hfar), hfar, max_eq_right hhi]
    constructor
    · intro hsent
      by_contra hshort
      push Not at hshort
      obtain ⟨m, hm, hne⟩ := hshort
      have hlen := congrArg List.length hsent
      have hlt := hcut m hm hne
      rw [List.length_take, List.length_drop] at hlen
      omega
    · exact fun hwhole => hall (hend hread hwhole)

end Retrieval

variable {env : Service} {me : SessionId} {s : Session} {a : Arrival}

theorem retr_sends_each_byte_once (hr : (sessionSystem env me).Reach System.anyStep s)
    (hv : a.command.verb = .retr)
    (hmode : s.transferModeZ = false) :
    (s.storage env me a).Unbroken a.world.fs (s.resolvePath a.world.fs a.command.argument) s.resume_position_ ↔
      ¬((∃ m ∈ (s.storage env me a).moves, m.way = .mapped ∧ 0 < m.count) ∧
        ((∃ m ∈ (s.storage env me a).moves, m.way = .send ∧ 0 < m.count) ∨ s.resume_position_ < 0)) := by
  have hfetch : s.Fetch env a.world.fs (s.resolvePath a.world.fs a.command.argument)
      ((s.storage env me a).completed = true) (s.storage env me a) :=
        Session.retr_fetch (Session.connected_of_reach hr) hv
  by_cases hpos : 0 ≤ s.resume_position_
  · have hnone : ¬s.resume_position_ < 0 := not_lt.2 hpos
    have hempty (hmoves : (s.storage env me a).moves = []) (hsent : (s.storage env me a).sent = []) :
        (s.storage env me a).Unbroken a.world.fs (s.resolvePath a.world.fs a.command.argument) s.resume_position_ ↔
          ¬((∃ m ∈ (s.storage env me a).moves, m.way = .mapped ∧ 0 < m.count) ∧
            ((∃ m ∈ (s.storage env me a).moves, m.way = .send ∧ 0 < m.count) ∨ s.resume_position_ < 0)) := by
      rw [Storage.Unbroken, hmoves, hsent]
      exact iff_of_true ⟨trivial, fun _ _ _ _ => List.nil_prefix⟩ (by simp)
    by_cases hdone : (s.storage env me a).completed = true
    · obtain ⟨l, b, hl, hn, hdelivers⟩ := hfetch.done hdone
      rcases hdelivers.stream hmode hpos with ⟨hmoves, hsent, _⟩ | ⟨mid, far, hi, ms₁, ms₂, ms₃, h⟩
      · exact hempty hmoves hsent
      · rw [or_iff_left hnone, ← h.unbroken_iff hl hn, Int.toNat_of_nonneg hpos]
    · rcases hfetch.refused hdone hmode hpos with ⟨hmoves, hsent⟩ | ⟨l, b, hl, hn, mid, far, ms₁, ms₂, h⟩
      · exact hempty hmoves hsent
      · rw [or_iff_left hnone, ← h.unbroken_iff hl hn, Int.toNat_of_nonneg hpos]
  · have hneg : s.resume_position_ < 0 := not_le.1 hpos
    rw [(hfetch.astray hmode hneg).unbroken_iff hneg, and_iff_left (.inr hneg)]

namespace Streams

def sampleFiles : FileSystem := ⟨[(["f"], .regular "abc")], [], fun _ _ _ => none, []⟩

def mappingService : Service :=
  { Attested.sampleService with
    config_.transfer.use_mmap := true }

def failingLine (line : String) : Arrival where
  world := .start sampleFiles fun _ c => match c with
    | .sendMapped _ _ index _ => if index = 0 then 1 else -1
    | c => c.favourable
  line := ascii line

def slowLine (line : String) : Arrival where
  world := .start sampleFiles fun _ c => match c with
    | .send _ _ => 1
    | c => c.favourable
  line := ascii line

end Streams

theorem retr_sends_each_byte_once_mapped : ∃ s : Session,
    (s.storage Streams.mappingService 0 (Restarting.sampleLine "RETR f")).Unbroken Streams.sampleFiles "/f" 0 := by
  obtain ⟨s, hs, he⟩ := Option.map_eq_some_iff.1 (show
    ((sessionSystem Streams.mappingService 0).run System.anyStep
      (.opened 3 false false) Session.transferLines).map (fun s =>
      (decide (s.transferModeZ = false), decide (s.resume_position_ = 0),
        decide (s.resolvePath Streams.sampleFiles "f" = ascii "/f"),
        decide (∀ m ∈ (s.storage Streams.mappingService 0 (Restarting.sampleLine "RETR f")).moves,
          m.way = .mapped))) =
      some (true, true, true, true) by decide +kernel)
  simp only [Prod.mk.injEq, decide_eq_true_eq] at he
  obtain ⟨hmode, hstart, hpath, hways⟩ := he
  have hargument : (Restarting.sampleLine "RETR f").command.argument = ascii "f" := by decide
  have honce := retr_sends_each_byte_once (a := Restarting.sampleLine "RETR f")
    (.run (.init ⟨_, _, _, rfl⟩) hs) (by decide)
    hmode
  have hresolved : s.resolvePath (Restarting.sampleLine "RETR f").world.fs (ascii "f") = ascii "/f" := hpath
  rw [hargument, hstart, hresolved] at honce
  refine ⟨s, honce.2 ?_⟩
  rintro ⟨_, ⟨m, hm, hsend, _⟩ | hneg⟩
  · cases (hways m hm).symm.trans hsend
  · exact absurd hneg (by decide)

theorem retr_sends_a_byte_twice : ∃ s : Session, (sessionSystem Streams.mappingService 0).Reach System.anyStep s ∧
    s.transferModeZ = false ∧ s.resume_position_ = 0 ∧
    (s.storage Streams.mappingService 0 (Streams.failingLine "RETR f")).sent = ascii "aabc" ∧
    ¬(s.storage Streams.mappingService 0 (Streams.failingLine "RETR f")).Unbroken Streams.sampleFiles
      (s.resolvePath Streams.sampleFiles "f") s.resume_position_ := by
  obtain ⟨s, hs, he⟩ := Option.map_eq_some_iff.1 (show
    ((sessionSystem Streams.mappingService 0).run System.anyStep
      (.opened 3 false false) Session.transferLines).map (fun s =>
      (decide (s.transferModeZ = false), decide (s.resume_position_ = 0),
        decide (s.resolvePath Streams.sampleFiles "f" = ascii "/f"),
        decide ((s.storage Streams.mappingService 0 (Streams.failingLine "RETR f")).sent = ascii "aabc"))) =
      some (true, true, true, true) by decide +kernel)
  simp only [Prod.mk.injEq, decide_eq_true_eq] at he
  obtain ⟨hmode, hstart, hpath, hsent⟩ := he
  refine ⟨s, .run (.init ⟨_, _, _, rfl⟩) hs, hmode, hstart, hsent, fun ⟨_, hstarts⟩ => ?_⟩
  rw [hpath, hstart, hsent] at hstarts
  exact absurd (hstarts ["f"] "abc" (by decide) (by decide)) (by decide)

theorem retr_sends_all (hr : (sessionSystem env me).Reach System.anyStep s) (hv : a.command.verb = .retr)
    (hmode : s.transferModeZ = false) (hdone : (s.storage env me a).completed = true)
    (hread : (s.storage env me a).unread = false) (hpos : ∀ m ∈ (s.storage env me a).moves, 0 < m.count)
    {l : Location} {b : Str} (hl : a.world.fs.openRead (s.resolvePath a.world.fs a.command.argument) = .ok l)
    (hn : a.world.fs.node l = some (.regular b)) :
    (0 ≤ s.resume_position_ ∧ (s.storage env me a).sent = b.drop s.resume_position_.toNat) ↔
      0 ≤ s.resume_position_ ∧ ∀ m ∈ (s.storage env me a).moves, m.way = .send → m.count = m.offered := by
  apply and_congr_right
  intro hstart
  obtain ⟨l', b', hl', hn', hdelivers⟩ := (Session.retr_fetch (Session.connected_of_reach hr) hv).done hdone
  obtain rfl : l = l' := Except.ok.inj (hl.symm.trans hl')
  obtain rfl : b = b' := by simpa using hn.symm.trans hn'
  rcases hdelivers.stream hmode hstart with ⟨hmoves, hsent, hlen⟩ | ⟨mid, far, hi, ms₁, ms₂, ms₃, h⟩
  · rw [hsent, List.drop_eq_nil_of_le hlen, hmoves]
    exact iff_of_true rfl (List.forall_mem_nil _)
  · exact h.whole_iff hread hpos

theorem retr_sends_all_plain : ∃ s : Session,
    (s.storage Attested.sampleService 0 (Restarting.sampleLine "RETR f")).sent = ascii "abc" := by
  obtain ⟨s, hs, he⟩ := Option.map_eq_some_iff.1 (show
    ((sessionSystem Attested.sampleService 0).run System.anyStep
      (.opened 3 false false) Session.transferLines).map (fun s =>
      let g := s.storage Attested.sampleService 0 (Restarting.sampleLine "RETR f")
      (decide (s.transferModeZ = false ∧ s.resume_position_ = 0 ∧
        s.resolvePath Streams.sampleFiles "f" = ascii "/f"),
        decide (g.completed = true ∧ g.unread = false ∧ ∀ m ∈ g.moves, 0 < m.count ∧ m.count = m.offered))) =
      some (true, true) by decide +kernel)
  simp only [Prod.mk.injEq, decide_eq_true_eq] at he
  obtain ⟨⟨hmode, hstart, hpath⟩, hdone, hread, hcounts⟩ := he
  have hargument : (Restarting.sampleLine "RETR f").command.argument = ascii "f" := by decide
  have hl : Streams.sampleFiles.openRead (s.resolvePath Streams.sampleFiles (ascii "f")) = .ok ["f"] := by
    rw [hpath]
    decide
  have hall := retr_sends_all (a := Restarting.sampleLine "RETR f") (l := ["f"]) (b :=
    "abc") (.run (.init ⟨_, _, _, rfl⟩) hs)
    (by decide) hmode hdone hread (fun m hm => (hcounts m hm).1) (by rw [hargument]; exact hl) (by decide)
  rw [hstart] at hall
  exact ⟨s, (hall.2 ⟨le_rfl, fun m hm _ => (hcounts m hm).2⟩).2⟩

theorem retr_sends_a_part : ∃ s : Session, (sessionSystem Attested.sampleService 0).Reach System.anyStep s ∧
    s.transferModeZ = false ∧ s.resume_position_ = 0 ∧
    (s.storage Attested.sampleService 0 (Streams.slowLine "RETR f")).completed = true ∧
    (s.storage Attested.sampleService 0 (Streams.slowLine "RETR f")).unread = false ∧
    (∀ m ∈ (s.storage Attested.sampleService 0 (Streams.slowLine "RETR f")).moves, 0 < m.count) ∧
    Streams.sampleFiles.node ["f"] = some (.regular "abc") ∧
    (s.storage Attested.sampleService 0 (Streams.slowLine "RETR f")).sent = ascii "a" := by
  obtain ⟨s, hs, he⟩ := Option.map_eq_some_iff.1 (show
    ((sessionSystem Attested.sampleService 0).run System.anyStep
      (.opened 3 false false) Session.transferLines).map (fun s =>
      let g := s.storage Attested.sampleService 0 (Streams.slowLine "RETR f")
      decide (s.transferModeZ = false ∧ s.resume_position_ = 0 ∧ g.completed = true ∧ g.unread = false ∧
        (∀ m ∈ g.moves, 0 < m.count) ∧ Streams.sampleFiles.node ["f"] = some (.regular "abc") ∧
          g.sent = ascii "a")) =
      some true by decide +kernel)
  exact ⟨s, .run (.init ⟨_, _, _, rfl⟩) hs, of_decide_eq_true he⟩

end SimpleSftpd
