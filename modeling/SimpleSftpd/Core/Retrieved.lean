import SimpleSftpd.Core.Ledger

namespace SimpleSftpd

open Cxx Interaction Prog

namespace Ledger

structure Spans (rs : List (Int × Int)) (lo hi : Int) : Prop where
  covers : ∀ i, lo ≤ i → i < hi → ∃ r ∈ rs, r.1 ≤ i ∧ i < r.2
  ends : ∀ r ∈ rs, r.2 ≤ hi

variable {rs rs' : List (Int × Int)} {lo mid hi : Int} {g g' g'' : Ledger}

lemma Spans.nil (lo : Int) : Spans [] lo lo := by
  refine ⟨fun i h h' => ?_, List.forall_mem_nil _⟩
  omega

lemma Spans.empty {n : Int} (h : n ≤ 0) : Spans [(lo, lo + n)] lo lo := by
  refine ⟨fun i h h' => ?_, fun r hr => ?_⟩
  · omega
  · rw [List.mem_singleton.1 hr]
    exact add_le_of_nonpos_right h

lemma Spans.single {n : Int} : Spans [(lo, lo + n)] lo (lo + n) := by
  refine ⟨fun i h h' => ⟨_, List.mem_singleton_self _, h, h'⟩, fun r hr => ?_⟩
  rw [List.mem_singleton.1 hr]

lemma Spans.append (h : Spans rs lo mid) (h' : Spans rs' mid hi) (hle : mid ≤ hi) :
    Spans (rs ++ rs') lo hi := by
  refine ⟨fun i hi' hlt => ?_, fun r hr => ?_⟩
  · by_cases hmid : i < mid
    · obtain ⟨r, hr, hi⟩ := h.covers i hi' hmid
      exact ⟨r, List.mem_append_left _ hr, hi⟩
    · obtain ⟨r, hr, hi⟩ := h'.covers i (not_lt.1 hmid) hlt
      exact ⟨r, List.mem_append_right _ hr, hi⟩
  · rcases List.mem_append.1 hr with hr | hr
    · exact (h.ends r hr).trans hle
    · exact h'.ends r hr

structure Sends (g g' : Ledger) : Prop where
  completed : g'.completed = g.completed
  regular : g'.regular = g.regular
  size : g'.size = g.size
  prepared : g'.prepared = g.prepared
  stuck : g'.stuck = g.stuck

lemma Sends.refl : Sends g g := ⟨rfl, rfl, rfl, rfl, rfl⟩

lemma Sends.trans (h : Sends g g') (h' : Sends g' g'') : Sends g g'' :=
  ⟨h'.completed.trans h.completed, h'.regular.trans h.regular, h'.size.trans h.size,
    h'.prepared.trans h.prepared, h'.stuck.trans h.stuck⟩

end Ledger

open Ledger

lemma applyThrottle_logged {g : Ledger} (rate : Int) (start bytes : ℕ) {P : Unit → Ledger → Prop} (h : P () g) :
    Meets transfers (applyThrottle rate start bytes) P g := by
  have hclock : (applyThrottle rate start bytes).Within (Kinds [.clock]) fun _ => True :=
    applyThrottle_within (List.mem_singleton_self _) _ _ _
  exact meets_silent hclock (by simp [Ledger.quietKinds]) fun _ _ => h

namespace Retrieval

variable {t : Retrieval}

def Advances (g g' : Ledger) (lo hi : Int) (p p' : Progress) : Prop :=
  (∃ rs, g' = { g with sent := g.sent ++ rs } ∧ Spans rs lo hi) ∧ lo ≤ hi ∧
    hi + p'.remaining = lo + p.remaining

lemma Advances.refl (g : Ledger) (lo : Int) (p : Progress) : Advances g g lo lo p p :=
  ⟨⟨[], by simp, .nil lo⟩, le_rfl, rfl⟩

lemma Advances.trans {g g' g'' : Ledger} {lo mid hi : Int} {p p' p'' : Progress}
    (h : Advances g g' lo mid p p') (h' : Advances g' g'' mid hi p' p'') : Advances g g'' lo hi p p'' := by
  obtain ⟨⟨rs, rfl, hrs⟩, hle, heq⟩ := h
  obtain ⟨⟨rs', rfl, hrs'⟩, hle', heq'⟩ := h'
  refine ⟨⟨rs ++ rs', by simp, hrs.append hrs' hle'⟩, hle.trans hle', ?_⟩
  omega

lemma advances_stop {g : Ledger} {lo n : Int} {p : Progress} (hn : n ≤ 0) :
    Advances g { g with sent := g.sent ++ [(lo, lo + n)] } lo lo p p :=
  ⟨⟨_, rfl, .empty hn⟩, le_rfl, rfl⟩

lemma advances_send {g : Ledger} {lo n : Int} {p : Progress} (hn : 0 < n) (hle : n ≤ p.remaining) :
    Advances g { g with sent := g.sent ++ [(lo, lo + n)] } lo (lo + n) p
      ⟨p.total_bytes + n.toNat, p.remaining - n.toNat⟩ := by
  refine ⟨⟨_, rfl, .single⟩, by omega, ?_⟩
  simp only
  omega

lemma sendfileLoop_logged (fuel : ℕ) : ∀ (offset : Int) (p : Progress) (g : Ledger),
    Meets transfers (t.sendfileLoop fuel offset p)
      (fun r g' => Advances g g' offset r.1 p r.2) g := by
  induction fuel with
  | zero => exact fun offset p g => (meets_pure _).2 (.refl g offset p)
  | succ fuel ih =>
    intro offset p g
    refine meets_ite.2 ⟨fun _ => (meets_pure _).2 (.refl g offset p), fun _ => ?_⟩
    refine meets_bind.2 (applyThrottle_logged _ _ _ (meets_bind.2 ((meets_logged _).2 fun n hn => ?_)))
    have hle : n ≤ p.remaining := hn.trans (Int.ofNat_le.2 (min_le_right _ _))
    refine meets_ite.2 ⟨fun hstop => (meets_pure _).2 (advances_stop hstop), fun hgo => ?_⟩
    have hsent : Advances g _ offset (offset + n) p _ := advances_send (not_le.1 hgo) hle
    refine meets_ite.2 ⟨fun _ => (meets_pure _).2 hsent, fun _ => ?_⟩
    exact (ih _ _ _).mono fun r g' h => hsent.trans h

lemma mmapLoop_logged (mapped : Str) (fuel : ℕ) : ∀ (index : Int) (p : Progress) (g : Ledger),
    Meets transfers (t.mmapLoop mapped fuel index p)
      (fun p' g' => ∃ hi, Advances g g' index hi p p') g := by
  induction fuel with
  | zero => exact fun index p g => (meets_pure _).2 ⟨index, .refl g index p⟩
  | succ fuel ih =>
    intro index p g
    refine meets_ite.2 ⟨fun _ => (meets_pure _).2 ⟨index, .refl g index p⟩, fun _ => ?_⟩
    refine meets_bind.2 (applyThrottle_logged _ _ _ (meets_bind.2 ((meets_logged _).2 fun n hn => ?_)))
    have hle : n ≤ p.remaining := hn.trans (Int.ofNat_le.2 (min_le_right _ _))
    refine meets_ite.2 ⟨fun hstop => (meets_pure _).2 ⟨index, advances_stop hstop⟩, fun hgo => ?_⟩
    refine (ih _ _ _).mono fun p' g' ⟨hi, h⟩ => ⟨hi, ?_⟩
    exact (advances_send (g := g) (not_le.1 hgo) hle).trans h

/-- What the read and send loop does from the position of the file on: it sends all that is to go
exactly if no call falls short. -/
structure ReadOn (g g' : Ledger) (p p' : Progress) : Prop where
  sends : Sends g g'
  spans : ∃ rs hi, g'.sent = g.sent ++ rs ∧ Spans rs g.position hi ∧ g.position ≤ hi ∧
    hi + p'.remaining = g.position + p.remaining
  all : p'.remaining = 0 ↔ g'.unread = false ∧ g'.short = false

lemma ReadOn.stop {g g' : Ledger} {p : Progress} (h : Sends g g') (hsent : g'.sent = g.sent)
    (hall : p.remaining = 0 ↔ g'.unread = false ∧ g'.short = false) : ReadOn g g' p p :=
  ⟨h, ⟨[], g.position, by simp [hsent], .nil _, le_rfl, rfl⟩, hall⟩

lemma next_read_send (g : Ledger) (file out : Fd) (count : ℕ) {data : Str} (hdata : data ≠ []) (n : Int) :
    let g' := (g.next (.read file count) (some data)).next (.send out data) n
    Sends g g' ∧ g'.sent = g.sent ++ [(g.position, g.position + n)] ∧ g'.position = g.position + data.length ∧
      g'.unread = g.unread ∧ g'.short = (g.short || decide (n < data.length)) := by
  refine ⟨⟨rfl, rfl, rfl, rfl, rfl⟩, if_pos rfl, rfl, ?_, rfl⟩
  simp [next, hdata]

lemma readLoop_logged (fuel : ℕ) : ∀ (p : Progress) (g : Ledger), p.remaining ≤ fuel →
    g.unread = false → g.short = false →
    Meets transfers (t.readLoop fuel p) (fun p' g' => ReadOn g g' p p') g := by
  induction fuel with
  | zero => exact fun p g hp hu hs => (meets_pure _).2 (.stop .refl rfl (by simp [hu, hs]; omega))
  | succ fuel ih =>
    intro p g hp hu hs
    refine meets_ite.2 ⟨fun hdone => (meets_pure _).2 (.stop .refl rfl (by simp [hu, hs, hdone])), fun hgo => ?_⟩
    refine meets_bind.2 (applyThrottle_logged _ _ _ (meets_bind.2 ((meets_logged _).2 fun got hgot => ?_)))
    cases got with
    | none => exact (meets_pure _).2 (.stop ⟨rfl, rfl, rfl, rfl, rfl⟩ rfl (by simp [next, hgo]))
    | some data =>
      have hlen : data.length ≤ p.remaining := (hgot data rfl).trans (min_le_right _ _)
      refine meets_ite.2 ⟨fun hnil => ?_, fun hdata => ?_⟩
      · exact (meets_pure _).2 (.stop ⟨rfl, rfl, rfl, rfl, rfl⟩ rfl (by simp [next, hgo, hnil]))
      · refine meets_bind.2 ((meets_logged _).2 fun n hn => ?_)
        obtain ⟨hsends, hsent, hpos, hunread, hshort⟩ :=
          next_read_send g t.file_fd t.data_fd (min t.buf_size p.remaining) hdata n
        generalize (g.next (.read t.file_fd (min t.buf_size p.remaining)) (some data)).next
          (.send t.data_fd data) n = g' at *
        have hpositive : 0 < data.length := List.length_pos_of_ne_nil hdata
        change n ≤ data.length at hn
        refine meets_ite.2 ⟨fun hstop => (meets_pure _).2 ⟨hsends, ?_, ?_⟩, fun hsome => ?_⟩
        · exact ⟨_, g.position, hsent, .empty hstop, le_rfl, rfl⟩
        · have hcut : n < data.length := by omega
          simp [hgo, hshort, hcut]
        · refine meets_ite.2 ⟨fun hcut => (meets_pure _).2 ⟨hsends, ?_, ?_⟩, fun hwhole => ?_⟩
          · refine ⟨_, _, hsent, .single, by omega, ?_⟩
            simp only
            omega
          · have hleft : p.remaining - n.toNat ≠ 0 := by omega
            simp [hleft, hshort, hcut]
          · have hn' : n = data.length := by omega
            have hshort' : g'.short = false := by simp [hshort, hs, hwhole]
            refine (ih _ g' ?_ (hunread.trans hu) hshort').mono fun p' g'' h => ?_
            · simp only
              omega
            obtain ⟨rs, hi, hrs, hspans, hle, heq⟩ := h.spans
            simp only [hpos] at hspans hle heq
            refine ⟨hsends.trans h.sends,
              ⟨_ :: rs, hi, by rw [hrs, hsent, List.append_assoc]; rfl, ?_, ?_, ?_⟩, h.all⟩
            · have hfirst : Spans [(g.position, g.position + n)] g.position (g.position + n) := .single
              exact hfirst.append (hn' ▸ hspans) (by omega)
            · omega
            · omega

/-- How far stream mode has come at the offset it would seek to: what lies before it was sent, and
nothing sent reaches the end. -/
structure Halfway (g : Ledger) (offset o : Int) (size : ℕ) : Prop where
  covers : ∀ i, offset ≤ i → i < o → g.Covers i
  ends : o < size → ∀ r ∈ g.sent, r.2 < size
  le : offset ≤ o

lemma mmapFile_logged (size : ℕ) (offset : Int) (total : ℕ) (g : Ledger) :
    Meets transfers (t.mmapFile size offset total) (fun r g' => (r = none → g' = g) ∧ ∀ m, r = some m →
      ∃ hi, Advances g g' offset hi ⟨total, (size - offset).toNat⟩ m) g := by
  refine meets_bind.2 ((meets_logged _).2 fun mapped _ => ?_)
  cases mapped with
  | none => exact (meets_pure _).2 ⟨fun _ => rfl, fun m h => (by cases h)⟩
  | some bytes =>
    refine meets_bind.2 ((mmapLoop_logged bytes _ _ _ _).mono fun p g' hp => ?_)
    refine meets_bind.2 ((meets_logged _).2 fun _ _ => ?_)
    refine (meets_pure _).2 ⟨fun h => (by cases h), fun m h => ?_⟩
    cases h
    exact hp

structure SentFile (g g' : Ledger) (offset : Int) (size : ℕ) (sought : Bool) : Prop where
  completed : g'.completed = g.completed
  regular : g'.regular = g.regular
  length : g'.size = g.size
  stuck : g'.stuck = (g.stuck || !sought)
  all : sought = true → ((∀ i, 0 ≤ i → offset ≤ i → i < size → g'.Covers i) ↔ g'.unread = false ∧ g'.short = false)
  none : sought = false → g'.unread = false ∧ g'.short = false

lemma SentFile.done {g g' : Ledger} {offset : Int} {size : ℕ} {rs : List (Int × Int)}
    (hg : g' = { g with sent := rs }) (hu : g.unread = false) (hs : g.short = false)
    (hall : ∀ i, offset ≤ i → i < size → g'.Covers i) : SentFile g g' offset size true := by
  subst hg
  refine ⟨rfl, rfl, rfl, by simp, fun _ => ?_, fun h => by cases h⟩
  exact ⟨fun _ => ⟨hu, hs⟩, fun _ i _ h h' => hall i h h'⟩

lemma meets_makeBuffer {α : Type} {f : Unit → Io α} {P : α → Ledger → Prop} {g : Ledger}
    (hf : Meets transfers (f ()) P g) :
    Meets transfers (t.makeBuffer >>= f) P g := by
  refine meets_bind.2 (meets_bind.2 ((meets_logged _).2 fun made _ => ?_))
  exact meets_ite.2 ⟨fun _ => (meets_pure _).2 hf, fun _ => meets_throw _⟩

lemma seekAndRead_logged {g g₀ : Ledger} {rs : List (Int × Int)} {offset o : Int} {size total : ℕ}
    (hg : g = { g₀ with sent := rs }) (hu : g₀.unread = false) (hs : g₀.short = false)
    (hhalf : Halfway g offset o size) :
    Meets transfers (do
        let sought : Bool ← perform (.lseek t.file_fd o)
        if !sought then return false
        else do
          t.makeBuffer
          let remaining := (size - o).toNat
          let _ ← t.readLoop remaining ⟨total, remaining⟩
          return true) (fun sought g' => SentFile g₀ g' offset size sought) g := by
  subst hg
  refine meets_bind.2 ((meets_logged _).2 fun sought hsought => ?_)
  cases sought with
  | false =>
    refine (meets_pure _).2 ⟨rfl, rfl, rfl, by simp [next], fun h => by simp at h, fun _ => ?_⟩
    exact ⟨hu, hs⟩
  | true =>
    have hzero : 0 ≤ o := hsought rfl
    have hread := readLoop_logged (t := t) (size - o).toNat ⟨total, (size - o).toNat⟩
      { g₀ with sent := rs, position := o } le_rfl hu hs
    refine meets_makeBuffer (meets_bind.2 (hread.mono fun p g' h => (meets_pure _).2 ?_))
    obtain ⟨rs', hi, hsent, hspans, hle, heq⟩ := h.spans
    change g'.sent = rs ++ rs' at hsent
    change Spans rs' o hi at hspans
    change o ≤ hi at hle
    change hi + p.remaining = o + (size - o).toNat at heq
    refine ⟨h.sends.completed, h.sends.regular, h.sends.size, ?_, fun _ => ?_, fun h => by cases h⟩
    · simp [h.sends.stuck]
    rw [← h.all]
    constructor
    · intro hall
      by_contra hleft
      have hopen : o < size := by omega
      obtain ⟨r, hr, hlow, hhigh⟩ := hall (size - 1) (by omega) (by have := hhalf.le; omega) (by omega)
      rcases List.mem_append.1 (hsent ▸ hr) with hr | hr
      · have hend : r.2 < size := hhalf.ends hopen r hr
        omega
      · have hend := hspans.ends r hr
        omega
    · intro hdone i _ hlow hhigh
      by_cases hbefore : i < o
      · obtain ⟨r, hr, h⟩ := hhalf.covers i hlow hbefore
        exact ⟨r, hsent ▸ List.mem_append_left _ hr, h⟩
      · obtain ⟨r, hr, h⟩ := hspans.covers i (not_lt.1 hbefore) (by omega)
        exact ⟨r, hsent ▸ List.mem_append_right _ hr, h⟩

lemma sendFile_logged (use_sendfile use_mmap : Bool) (size : ℕ) (offset : Int) {g : Ledger}
    (hsent : g.sent = []) (hu : g.unread = false) (hs : g.short = false) :
    Meets transfers (t.sendFile use_sendfile use_mmap size offset)
      (fun sought g' => SentFile g g' offset size sought) g := by
  have hfirst : Meets transfers (if use_sendfile then t.sendfileLoop (size - offset).toNat offset ⟨0,
    (size - offset).toNat⟩
      else return (offset, ⟨0, (size - offset).toNat⟩) : Io (Int × Progress))
      (fun r g' => Advances g g' offset r.1 ⟨0, (size - offset).toNat⟩ r.2) g := by
    refine meets_ite.2 ⟨fun _ => sendfileLoop_logged _ _ _ _, fun _ => ?_⟩
    exact (meets_pure _).2 (.refl _ _ _)
  refine meets_bind.2 (hfirst.mono fun ⟨o, p⟩ g₁ h₁ => ?_)
  obtain ⟨⟨rs, rfl, hrs⟩, hle, heq⟩ := h₁
  simp only [hsent, List.nil_append] at *
  refine meets_ite.2 ⟨fun hdone => (meets_pure _).2 (.done rfl hu hs fun i hlow hhigh => ?_), fun _ => ?_⟩
  · simp only [Bool.and_eq_true, decide_eq_true_eq] at hdone
    exact hrs.covers i hlow (by omega)
  have hsecond : Meets transfers (if use_mmap ∧ 0 < size ∧ o < size then t.mmapFile size o p.total_bytes
      else return none : Io (Option Progress))
      (fun r g' => ∃ rs', g' = { g with sent := rs ++ rs' } ∧ (r = none → rs' = []) ∧
        ∀ m, r = some m → o < size ∧ ∃ hi, Spans rs' o hi ∧ hi + m.remaining = size) { g with sent := rs } := by
    refine meets_ite.2 ⟨fun hmap => (mmapFile_logged _ _ _ _).mono fun r g' h => ?_, fun _ => ?_⟩
    · cases r with
      | none => exact ⟨[], by simp [h.1 rfl], fun _ => rfl, fun m h => (by cases h)⟩
      | some m =>
        obtain ⟨hi, ⟨rs', rfl, hrs'⟩, hle', heq'⟩ := h.2 m rfl
        refine ⟨rs', rfl, fun h => (by cases h), fun m' h' => ?_⟩
        cases h'
        simp only at heq'
        exact ⟨hmap.2.2, hi, hrs', by omega⟩
    · exact (meets_pure _).2 ⟨[], by simp, fun _ => rfl, fun m h => by cases h⟩
  refine meets_bind.2 (hsecond.mono fun mapped g₂ h₂ => ?_)
  obtain ⟨rs', rfl, hnone, hsome⟩ := h₂
  cases mapped with
  | none =>
    obtain rfl := hnone rfl
    refine meets_ite.2 ⟨fun h => absurd h Bool.false_ne_true, fun _ => ?_⟩
    refine seekAndRead_logged rfl hu hs ?_
    refine ⟨fun i hlow hhigh => ?_, fun hopen r hr => ?_, hle⟩
    · simpa [Covers] using hrs.covers i hlow hhigh
    · exact (hrs.ends r (by simpa using hr)).trans_lt hopen
  | some m =>
    obtain ⟨hopen, hi, hrs', heq'⟩ := hsome m rfl
    refine meets_ite.2 ⟨fun hdone => (meets_pure _).2 (.done rfl hu hs fun i hlow hhigh => ?_), fun hleft => ?_⟩
    · have hend : m.remaining = 0 := of_decide_eq_true hdone
      by_cases hbefore : i < o
      · obtain ⟨r, hr, h⟩ := hrs.covers i hlow hbefore
        exact ⟨r, List.mem_append_left _ hr, h⟩
      · obtain ⟨r, hr, h⟩ := hrs'.covers i (not_lt.1 hbefore) (by omega)
        exact ⟨r, List.mem_append_right _ hr, h⟩
    · have hrest : m.remaining ≠ 0 := by simpa using hleft
      refine seekAndRead_logged rfl hu hs ⟨fun i hlow hhigh => ?_, fun _ r hr => ?_, hle⟩
      · obtain ⟨r, hr, h⟩ := hrs.covers i hlow hhigh
        exact ⟨r, List.mem_append_left _ hr, h⟩
      · rcases List.mem_append.1 hr with hr | hr
        · exact (hrs.ends r hr).trans_lt hopen
        · have hend := hrs'.ends r hr
          omega

lemma sendCompressed_logged (data : Str) {g : Ledger} (hs : g.short = false) :
    Meets transfers (t.sendCompressed data) (fun ok g' => Sends g g' ∧ g'.reads = g.reads ∧
      g'.unread = g.unread ∧ g'.short = !ok ∧ ∃ out, g'.accepted = g.accepted ++ out ∧
        (ok = true → out = data) ∧ (ok = false → out.length < data.length)) g := by
  refine meets_ite.2 ⟨fun hnil => (meets_pure _).2 ⟨.refl, rfl, rfl, hs, [],
    by simp, fun _ => hnil.symm, fun h => ?_⟩,
    fun hdata => meets_bind.2 ((meets_logged _).2 fun n hn => (meets_pure _).2 ?_)⟩
  · cases h
  change n ≤ data.length at hn
  refine ⟨⟨rfl, rfl, rfl, rfl, rfl⟩, rfl, rfl, ?_, data.take n.toNat, rfl, fun hall => ?_, fun hcut => ?_⟩
  · have hiff : n < data.length ↔ ¬n = data.length := by omega
    simp [next, hs, hiff]
  · have hn' : n = data.length := of_decide_eq_true hall
    simp [hn']
  · have hn' : n ≠ data.length := of_decide_eq_false hcut
    have hpositive : 0 < data.length := List.length_pos_of_ne_nil hdata
    rw [List.length_take]
    omega

/-- The two ways the MODE Z loop ends after the chunks `cs`: all was read, made into `out` and sent;
or a read, the compression or a `send` failed. -/
structure Deflated (zlib : Zlib) (g g' : Ledger) (made made' : List (Str × Bool)) (remaining : ℕ)
    (cs : List Str) (ok : Bool) : Prop where
  sends : Sends g g'
  reads : g'.reads = g.reads ++ cs
  done : ok = true → cs.flatten.length = remaining ∧ g'.unread = false ∧ g'.short = false ∧
    ∃ out, g'.accepted = g.accepted ++ out ∧
      Zlib.stream zlib.deflate made cs = (zlib.deflate (made' ++ [([], true)])).map (out ++ ·)
  failed : ok = false → (cs.flatten.length < remaining ∧ g'.unread = true) ∨
    Zlib.stream zlib.deflate made cs = none ∨
    (g'.short = true ∧ ∃ out, g'.accepted = g.accepted ++ out ∧
      ∀ full, Zlib.stream zlib.deflate made cs = some full → out.length < full.length)

lemma deflateLoop_logged (zlib : Zlib) (fuel : ℕ) : ∀ (made : List (Str × Bool)) (p : Progress) (g : Ledger),
    p.remaining ≤ fuel → g.unread = false → g.short = false →
    Meets transfers (t.deflateLoop zlib fuel made p)
      (fun r g' => ∃ cs, Deflated zlib g g' made r.2.1 p.remaining cs r.1) g := by
  have hend (made : List (Str × Bool)) (p : Progress) (g : Ledger) (hp : p.remaining = 0) (hu : g.unread = false)
      (hs : g.short = false) : Deflated zlib g g made made p.remaining [] true :=
    ⟨.refl, by simp, fun _ => ⟨by simp [hp], hu, hs, [], by simp, by simp [Zlib.stream]⟩, fun h => by cases h⟩
  induction fuel with
  | zero =>
    intro made p g hp hu hs
    have hzero : p.remaining = 0 := Nat.le_zero.1 hp
    refine (meets_pure _).2 ⟨[], ?_⟩
    rw [decide_eq_true hzero]
    exact hend made p g hzero hu hs
  | succ fuel ih =>
    intro made p g hp hu hs
    refine meets_ite.2 ⟨fun hdone => (meets_pure _).2 ⟨[], hend made p g hdone hu hs⟩, fun hgo => ?_⟩
    refine meets_bind.2 (applyThrottle_logged _ _ _ (meets_bind.2 ((meets_logged _).2 fun got hgot => ?_)))
    cases got with
    | none =>
      refine (meets_pure _).2 ⟨[], ⟨rfl, rfl, rfl, rfl, rfl⟩, by simp [next], fun h => (by cases h), fun _ => ?_⟩
      refine .inl ?_
      exact ⟨by simp; omega, rfl⟩
    | some data =>
      have hlen : data.length ≤ p.remaining := (hgot data rfl).trans (min_le_right _ _)
      refine meets_ite.2 ⟨fun hnil => ?_, fun hdata => ?_⟩
      · refine (meets_pure _).2 ⟨[data], ⟨rfl, rfl, rfl, rfl, rfl⟩, rfl, fun h => (by cases h), fun _ => ?_⟩
        refine .inl ?_
        exact ⟨by simp [hnil]; omega, by simp [next, hnil]⟩
      have hpositive : 0 < data.length := List.length_pos_of_ne_nil hdata
      have hunread : (g.next (.read t.file_fd (min t.buf_size p.remaining)) (some data)).unread = false := by
        simp [next, hu, hdata]
      dsimp only
      cases hz : zlib.deflate (made ++ [(data, false)]) with
      | none =>
        refine (meets_pure _).2 ⟨[data], ⟨rfl, rfl, rfl, rfl, rfl⟩, rfl, fun h => (by cases h), fun _ => ?_⟩
        refine .inr (.inl ?_)
        simp [Zlib.stream, hz]
      | some compressed =>
        refine meets_bind.2 ((sendCompressed_logged compressed ?_).mono fun ok g₁ h₁ => ?_)
        · exact hs
        obtain ⟨hsends, hreads, hunread₁, hshort, out, hout, hall, hcut⟩ := h₁
        have hfirst : Sends g g₁ := ⟨hsends.completed, hsends.regular, hsends.size, hsends.prepared, hsends.stuck⟩
        cases ok with
        | false =>
          refine (meets_pure _).2 ⟨[data], hfirst, hreads, fun h => (by cases h), fun _ => ?_⟩
          refine .inr (.inr ⟨hshort, out, hout, ?_⟩)
          intro full hfull
          simp only [Zlib.stream, hz, Option.bind_some, Option.map_eq_some_iff] at hfull
          obtain ⟨tail, _, rfl⟩ := hfull
          have hless := hcut rfl
          simp only [List.length_append]
          omega
        | true =>
          obtain rfl := hall rfl
          refine (ih _ _ g₁ ?_ (hunread₁.trans hunread) hshort).mono fun r g₂ ⟨cs, h⟩ => ⟨data :: cs, ?_⟩
          · simp only
            omega
          have hstream : Zlib.stream zlib.deflate made (data :: cs) =
              (Zlib.stream zlib.deflate (made ++ [(data, false)]) cs).map (out ++ ·) := by
            simp [Zlib.stream, hz]
          refine ⟨hfirst.trans h.sends, ?_, fun hok => ?_, fun hok => ?_⟩
          · rw [h.reads, hreads]
            simp [next]
          · obtain ⟨hlen', hu', hs', out', hout', hstream'⟩ := h.done hok
            refine ⟨?_, hu', hs', out ++ out', ?_, ?_⟩
            · simp only [List.flatten_cons, List.length_append] at hlen' ⊢
              omega
            · rw [hout', hout, List.append_assoc]
              rfl
            · rw [hstream, hstream', Option.map_map]
              refine congrArg (Option.map · _) (funext fun x => ?_)
              exact (List.append_assoc out out' x).symm
          · rcases h.failed hok with ⟨hlen', hu'⟩ | hnone | ⟨hs', out', hout', hless⟩
            · refine .inl ⟨?_, hu'⟩
              simp only [List.flatten_cons, List.length_append] at hlen' ⊢
              omega
            · exact .inr (.inl (by rw [hstream, hnone, Option.map_none]))
            · refine .inr (.inr ⟨hs', out ++ out', ?_, fun full hfull => ?_⟩)
              · rw [hout', hout, List.append_assoc]
                rfl
              · rw [hstream] at hfull
                obtain ⟨tail, htail, rfl⟩ := Option.map_eq_some_iff.1 hfull
                have hlt := hless tail htail
                simp only [List.length_append]
                omega

lemma deflateFile_logged (zlib : Zlib) (p : Progress) {g : Ledger} (hu : g.unread = false) (hs : g.short = false)
    (hreads : g.reads = []) (haccepted : g.accepted = []) :
    Meets transfers (t.deflateFile zlib p) (fun _ g' => Sends g g' ∧
      ((g'.reads.flatten.length = p.remaining ∧ Zlib.stream zlib.deflate [] g'.reads = some g'.accepted) ↔
        g'.unread = false ∧ g'.short = false ∧ (Zlib.stream zlib.deflate [] g'.reads).isSome)) g := by
  refine meets_makeBuffer (meets_bind.2 ((deflateLoop_logged zlib _ [] p g le_rfl hu hs).mono ?_))
  rintro ⟨ok, made, p'⟩ g₁ ⟨cs, h⟩
  have hread : g₁.reads = cs := by rw [h.reads, hreads, List.nil_append]
  cases ok with
  | false =>
    refine (meets_pure _).2 ⟨h.sends, ?_⟩
    rw [hread]
    rcases h.failed rfl with ⟨hlen, hu'⟩ | hnone | ⟨hs', out, hout, hless⟩
    · simp only [hu', Bool.true_eq_false, false_and, iff_false, not_and]
      omega
    · simp [hnone]
    · simp only [hs', Bool.true_eq_false, false_and, and_false, iff_false, not_and]
      intro _ hfull
      have hlt := hless _ hfull
      rw [hout, haccepted, List.nil_append] at hlt
      exact lt_irrefl _ hlt
  | true =>
    obtain ⟨hlen, hu', hs', out, hout, hstream⟩ := h.done rfl
    rw [haccepted, List.nil_append] at hout
    dsimp only
    cases hz : zlib.deflate (made ++ [([], true)]) with
    | none =>
      refine (meets_pure _).2 ⟨h.sends, ?_⟩
      rw [hread, hstream, hz]
      simp
    | some compressed =>
      refine meets_bind.2 ((sendCompressed_logged compressed hs').mono fun ok g₂ h₂ => ?_)
      refine (meets_pure _).2 ?_
      obtain ⟨hsends, hreads₂, hunread, hshort, rest, hrest, hall, hcut⟩ := h₂
      refine ⟨h.sends.trans hsends, ?_⟩
      rw [hreads₂, hread, hstream, hz, hunread, hu', hshort, hrest, hout]
      cases ok with
      | true => simp [hlen, hall rfl]
      | false =>
        have hne : compressed ≠ rest := fun he => absurd (hcut rfl) (he ▸ lt_irrefl _)
        simp [hne]

end Retrieval

namespace Session

variable {env : Service} {s : Session} {me : SessionId} {w : World}

/-- The two ways RETR ends on its data connection: 226 with the restart position used up, once the
file is open and in place; or a refusal. -/
structure RetrieveRun (env : Service) (s : Session) (g : Ledger) (code : ℕ) (used : Bool) : Prop where
  completed : g.completed = false
  used : used = decide (code = 226)
  done : code = 226 → g.regular = true ∧ g.stuck = false ∧
    (g.Retrieved env.zlib s.transferModeZ s.resume_position_ ↔ g.ReadsThrough env.zlib s.transferModeZ)
  failed : code ≠ 226 → ¬(g.regular = true ∧ g.stuck = false) ∧ g.ReadsThrough env.zlib s.transferModeZ

lemma readsThrough_of_idle {g : Ledger} {zlib : Zlib} {z : Bool} (hu : g.unread = false) (hs : g.short = false)
    (hp : z = true → g.prepared = false) : g.ReadsThrough zlib z := by
  refine ⟨hu, hs, fun hz hyes => ?_⟩
  rw [hp hz] at hyes
  cases hyes

lemma sendOpened_logged (data_fd file_fd : Fd) (start_time size : ℕ) :
    Meets transfers (s.sendOpened env data_fd file_fd start_time size)
      (fun r g => s.RetrieveRun env g r.1 (decide (r.1 = 226))) { regular := true, size := size } := by
  refine meets_ite.2 ⟨fun hz => ?_, fun hz => ?_⟩
  · refine meets_bind.2 ((meets_logged _).2 fun sought _ => ?_)
    cases sought with
    | false =>
      refine (meets_pure _).2 ⟨rfl, rfl, fun h => absurd h (by decide), fun _ => ?_⟩
      refine ⟨fun h => absurd h.2 Bool.noConfusion, ?_⟩
      exact readsThrough_of_idle rfl rfl fun _ => rfl
    | true =>
      refine meets_bind.2 ((meets_logged _).2 fun valid _ => ?_)
      cases valid with
      | false =>
        refine (meets_pure _).2 ⟨rfl, rfl, fun h => absurd h (by decide), fun _ => ?_⟩
        refine ⟨fun h => absurd h.2 Bool.noConfusion, ?_⟩
        exact readsThrough_of_idle rfl rfl fun _ => rfl
      | true =>
        refine meets_bind.2 ((Retrieval.deflateFile_logged env.zlib _ rfl rfl rfl rfl).mono fun r g h => ?_)
        obtain ⟨hsends, hall⟩ := h
        refine (meets_pure _).2 ⟨hsends.completed, rfl, fun _ => ?_, fun h => absurd rfl h⟩
        refine ⟨hsends.regular, hsends.stuck, ?_⟩
        have hprepared : g.prepared = true := hsends.prepared
        have hsize : g.size = size := hsends.size
        simpa [Retrieved, ReadsThrough, hz, hprepared, hsize] using hall
  · have hplain : s.transferModeZ = false := by simpa using hz
    refine meets_bind.2 ((Retrieval.sendFile_logged _ _ size s.resume_position_ rfl rfl rfl).mono
      fun sought g h => ?_)
    have hsize : g.size = size := h.length
    refine (meets_pure _).2 ?_
    cases sought with
    | true =>
      refine ⟨h.completed, rfl, fun _ => ⟨h.regular, h.stuck, ?_⟩, fun h => absurd rfl h⟩
      simpa [Retrieved, ReadsThrough, hplain, hsize] using h.all rfl
    | false =>
      refine ⟨h.completed, rfl, fun h => absurd h (by decide), fun _ => ⟨fun hno => ?_, ?_⟩⟩
      · exact absurd (h.stuck.symm.trans hno.2) Bool.noConfusion
      · obtain ⟨hu, hs⟩ := h.none rfl
        exact readsThrough_of_idle hu hs fun h => absurd (hplain.symm.trans h) (by decide)

lemma retrieveTo_logged (data_fd : Fd) (filepath : Str) (hmode : s.transferModeZ = true → s.resume_position_ ≤ 0) :
    Meets transfers (s.retrieveTo env data_fd filepath) (fun r g => s.RetrieveRun env g r.1 r.2.2) {} := by
  have hrefused : s.RetrieveRun env {} 550 false :=
    ⟨rfl, rfl, fun h => absurd h (by decide),
      fun _ => ⟨fun h => absurd h.1 (by decide), readsThrough_of_idle rfl rfl fun _ => rfl⟩⟩
  refine meets_bind.2 ((meets_logged _).2 fun start_time _ => ?_)
  refine meets_bind.2 ((meets_logged _).2 fun opened _ => ?_)
  cases opened with
  | none => exact meets_bind.2 ((meets_logged _).2 fun _ _ => (meets_pure _).2 hrefused)
  | some file_fd =>
    refine meets_bind.2 ((meets_logged _).2 fun st _ => ?_)
    have hclose {r : ℕ × Str × Bool} {g : Ledger} (h : s.RetrieveRun env g r.1 r.2.2) :
        Meets transfers (do perform (.close file_fd); perform (.close data_fd); return r : Io _)
          (fun r g => s.RetrieveRun env g r.1 r.2.2) g :=
      meets_bind.2 ((meets_logged _).2 fun _ _ => meets_bind.2 ((meets_logged _).2 fun _ _ => (meets_pure _).2 h))
    obtain _ | ⟨_ | _, size⟩ := st
    · exact hclose hrefused
    · exact hclose hrefused
    · refine meets_ite.2 ⟨fun hend => hclose ⟨rfl, rfl, fun _ => ⟨rfl, rfl, ?_⟩, fun h => absurd rfl h⟩,
        fun _ => ?_⟩
      · have hplain : s.transferModeZ = false := by
          by_contra hz
          have hle := hmode (by simpa using hz)
          omega
        refine iff_of_true ?_ (readsThrough_of_idle rfl rfl fun _ => rfl)
        simp only [Retrieved, hplain, Bool.false_eq_true, if_false]
        intro i _ hlow hhigh
        have hpast : (size : Int) ≤ s.resume_position_ := hend.2
        change i < (size : Int) at hhigh
        omega
      · refine meets_bind.2 ((sendOpened_logged data_fd file_fd start_time size).mono fun r g h => ?_)
        exact hclose h

def RefusesRestart (s : Session) : Prop := s.transferModeZ = true ∧ 0 < s.resume_position_

lemma modeZRefusal_logged {g : Ledger} (hs : s.socket_ ≠ none) {P : Option Session → Ledger → Prop}
    (hrestart : s.RefusesRestart → P (some { s with resume_position_ := 0 }) g)
    (hoff : s.transferModeZ = true → ¬s.RefusesRestart → P (some s) g)
    (hgo : ¬s.RefusesRestart → P none g) : Meets transfers (s.modeZRefusal env) P g := by
  refine meets_ite.2 ⟨fun hplain => (meets_pure _).2 (hgo fun h => ?_),
    fun hz => meets_ite.2 ⟨fun hpos => ?_, fun hpos => ?_⟩⟩
  · simp [h.1] at hplain
  · exact meets_answer_return hs _ _ (by simpa using hrestart ⟨by simpa using hz, hpos⟩)
  · have hno : ¬s.RefusesRestart := fun h => hpos h.2
    refine meets_ite.2 ⟨fun _ => ?_, fun _ => (meets_pure _).2 (hgo hno)⟩
    exact meets_answer_return hs _ _ (by simpa using hoff (by simpa using hz) hno)

/-- What a transfer leaves: the restart position, used up exactly where the transfer is `ready` or
refused for it, and a 226 that means `complete` exactly if it was `unhindered`. -/
structure TransferRun (s s' : Session) (g : Ledger) (refused ready complete unhindered : Prop) : Prop where
  used : refused ∨ ready → s'.resume_position_ = 0
  kept : ¬(refused ∨ ready) → s'.resume_position_ = s.resume_position_
  complete : (g.completed = true → complete) ↔ unhindered

lemma TransferRun.idle {s' : Session} {g : Ledger} {refused ready complete unhindered : Prop}
    (hs : s'.resume_position_ = s.resume_position_) (hc : g.completed = false) (hu : unhindered)
    (hrefused : ¬refused) (hready : ¬ready) : TransferRun s s' g refused ready complete unhindered :=
  ⟨fun h => (h.elim hrefused hready).elim, fun _ => hs,
    iff_of_true (fun h => absurd (hc.symm.trans h) Bool.false_ne_true) hu⟩

def FindsFile (s : Session) (fs : FileSystem) (name : Str) : Prop :=
  s.hasPermission fs "read" name = true ∧ s.validatePath fs (s.resolvePath fs name) = true ∧
    fs.status (s.resolvePath fs name) = .ok .regular

lemma handleRETR_logged (hs : s.socket_ ≠ none) (name : Str) :
    Leads transfers (World.machine me) (s.handleRETR env name) (fun s' g =>
      TransferRun s s' g (s.RefusesRestart ∧ s.FindsFile w.fs name) (g.regular = true ∧ g.stuck = false)
        (g.Retrieved env.zlib s.transferModeZ s.resume_position_)
          (g.ReadsThrough env.zlib s.transferModeZ)) {} w := by
  have hidle (d : DataConnection) (h : ¬(s.RefusesRestart ∧ s.FindsFile w.fs name)) :
      TransferRun s { s with data := d } {} (s.RefusesRestart ∧ s.FindsFile w.fs name)
        (({} : Ledger).regular = true ∧ ({} : Ledger).stuck = false)
        (({} : Ledger).Retrieved env.zlib s.transferModeZ s.resume_position_)
        (({} : Ledger).ReadsThrough env.zlib s.transferModeZ) :=
    .idle rfl rfl (readsThrough_of_idle rfl rfl fun _ => rfl) h fun h => absurd h.1 Bool.false_ne_true
  refine leads_call (leads_ite (fun hno => ?_) fun hperm => ?_)
  · refine leads_meets (meets_answer_return hs _ _ (hidle s.data fun h => ?_)) _
    simp [h.2.1] at hno
  refine leads_ite (fun hno => ?_) fun hvalid => ?_
  · refine leads_meets (meets_answer_return hs _ _ (hidle s.data fun h => ?_)) _
    simp [h.2.2.1] at hno
  refine leads_call (leads_orThrow fun found hfound => leads_ite (fun hno => ?_) fun hregular => ?_)
  · refine leads_meets (meets_answer_return hs _ _ (hidle s.data fun h => ?_)) _
    have hother : found = .regular := Except.ok.inj (hfound.symm.trans h.2.2.2)
    exact hno hother
  have hfinds : s.FindsFile w.fs name := by
    refine ⟨by simpa using hperm, by simpa using hvalid, ?_⟩
    rw [not_not.1 hregular] at hfound
    exact hfound
  refine leads_meets (meets_bind.2 (modeZRefusal_logged hs (fun hrestart => ?_) (fun _ hno => ?_) fun hgo => ?_)) _
  · refine (meets_pure _).2 ⟨fun _ => rfl, fun h => absurd (.inl ⟨hrestart, hfinds⟩) h,
      iff_of_true (fun h => by cases h) ?_⟩
    exact readsThrough_of_idle rfl rfl fun _ => rfl
  · exact (meets_pure _).2 (hidle s.data fun h => hno h.1)
  have hnot : ¬(s.RefusesRestart ∧ s.FindsFile w.fs name) := fun h => hgo h.1
  have hmode (hz : s.transferModeZ = true) : s.resume_position_ ≤ 0 := not_lt.1 fun hpos => hgo ⟨hz, hpos⟩
  refine meets_bind.2 (meets_answer hs _ _ (meets_bind.2 ?_))
  refine meets_unlogged s.data.acceptDataConnection_unlogged fun r _ => ?_
  obtain ⟨_ | ⟨data_fd, peer⟩, d⟩ := r
  · exact meets_answer_return hs _ _ (hidle d hnot)
  · refine meets_bind.2 ((retrieveTo_logged (s := { s with data := d }) data_fd _ hmode).mono fun r g h => ?_)
    refine meets_answer_return hs _ _ ?_
    have hsame : (g.replied r.1).completed = decide (r.1 = 226) := by simp [replied, h.completed]
    rw [h.used]
    by_cases hcode : r.1 = 226
    · obtain ⟨hregular, hstuck, hall⟩ := h.done hcode
      rw [if_pos (decide_eq_true hcode)]
      refine ⟨fun _ => rfl, fun h => absurd (.inr ⟨hregular, hstuck⟩) h, ?_⟩
      rw [hsame, decide_eq_true hcode]
      exact (forall_prop_of_true rfl).trans hall
    · obtain ⟨hstopped, hthrough⟩ := h.failed hcode
      rw [if_neg (by simpa using hcode)]
      exact .idle rfl (hsame.trans (decide_eq_false hcode)) hthrough hnot hstopped

end Session

end SimpleSftpd
