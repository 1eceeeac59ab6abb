import SimpleSftpd.Core.Retrieved
import SimpleSftpd.Core.Storage

namespace SimpleSftpd

open Cxx Interaction Prog

/-- The size `fstat` has told, the places of the file that were read with the lengths read there, the
bytes that `read` gave and those taken each way. -/
structure FileReads where
  size : ℕ := 0
  position : Int := 0
  spans : List (Int × ℕ) := []
  got : ℕ := 0
  counts : Way → ℕ := fun _ => 0

namespace FileReads

def span (g : FileReads) (place : Int) (length : ℕ) : FileReads := { g with spans := g.spans ++ [(place, length)] }

def count (g : FileReads) (way : Way) (n : Int) : FileReads :=
  { g with counts := Function.update g.counts way (g.counts way + n.toNat) }

def next (g : FileReads) {β : Type} (o : Call β) : β → FileReads := match o with
  | .fstat _ => fun
    | some (_, n) => { g with size := n }
    | none => g
  | .lseek _ pos => fun sought => if sought then { g with position := pos } else g
  | .read _ _ => fun
    | some data =>
      { g.span g.position data.length with position := g.position + data.length, got := g.got + data.length }
    | none => g
  | .send _ _ => fun n => g.count .send n
  | .sendMapped _ _ index length => fun n => (g.span index length).count .mapped n
  | .sendfile _ _ offset length => fun n => (g.span offset length).count .sendfile n
  | _ => fun _ => g

def calls : Contract Call FileReads where
  pre _ _ := True
  post _ o r := Ledger.transfers.post {} o r
  next g o r := g.next o r

lemma calls_describes (me : SessionId) : calls.Describes (World.machine me) fun _ _ => True :=
  fun _ w o _ _ => ⟨(Ledger.transfers_describes me {} w o trivial trivial).1, trivial⟩

structure Begins (size o n : ℕ) (rs : List (Int × ℕ)) : Prop where
  inside : ∀ r ∈ rs, 0 ≤ r.1 ∧ r.1 + r.2 ≤ size
  first : ∀ r ∈ rs.head?, r.1 = o
  some : rs = [] → n = 0

namespace Begins

variable {size o m n : ℕ} {rs rs' : List (Int × ℕ)}

lemma nil (size o : ℕ) : Begins size o 0 [] := ⟨by simp, by simp, fun _ => rfl⟩

lemma one {length : ℕ} (h : o + length ≤ size) (n : ℕ) : Begins size o n [((o : Int), length)] := by
  have h' : (o : Int) + length ≤ size := by exact_mod_cast h
  exact ⟨by simpa using h', by simp, fun hnil => absurd hnil (List.cons_ne_nil _ _)⟩

lemma append (h : Begins size o m rs) (h' : Begins size (o + m) n rs') : Begins size o (m + n) (rs ++ rs') := by
  refine ⟨List.forall_mem_append.2 ⟨h.inside, h'.inside⟩, ?_, fun hnil => ?_⟩
  · cases rs with
    | nil =>
      have hm := h.some rfl
      rw [hm] at h'
      exact h'.first
    | cons r rs => exact h.first
  · obtain ⟨hrs, hrs'⟩ := List.append_eq_nil_iff.1 hnil
    rw [h.some hrs, h'.some hrs']

lemma again (h : Begins size o m rs) (h' : Begins size o n rs') : Begins size o (m + n) (rs ++ rs') := by
  refine ⟨List.forall_mem_append.2 ⟨h.inside, h'.inside⟩, ?_, fun hnil => ?_⟩
  · cases rs with
    | nil => exact h'.first
    | cons r rs => exact h.first
  · obtain ⟨hrs, hrs'⟩ := List.append_eq_nil_iff.1 hnil
    rw [h.some hrs, h'.some hrs']

end Begins

structure Proceeds (way : Way) (o n : ℕ) (g g' : FileReads) : Prop where
  size : g'.size = g.size
  counts : g'.counts = Function.update g.counts way (g.counts way + n)
  spans : ∃ rs, g'.spans = g.spans ++ rs ∧ Begins g.size o n rs

variable {way : Way} {g g' g'' : FileReads}

namespace Proceeds

variable {o k m n hi : ℕ}

lemma refl (way : Way) (o : ℕ) (g : FileReads) : Proceeds way o 0 g g :=
  ⟨rfl, (Function.update_eq_self _ _).symm, [], (List.append_nil _).symm, .nil _ _⟩

lemma trans (h : Proceeds way o m g g') (h' : Proceeds way (o + m) n g' g'') : Proceeds way o (m + n) g g'' := by
  obtain ⟨rs, hrs, hbegins⟩ := h.spans
  obtain ⟨rs', hrs', hbegins'⟩ := h'.spans
  rw [h.size] at hbegins'
  refine ⟨h'.size.trans h.size, ?_, rs ++ rs', ?_, hbegins.append hbegins'⟩
  · rw [h'.counts, h.counts, Function.update_idem, Function.update_self, Nat.add_assoc]
  · rw [hrs', hrs, List.append_assoc]

lemma asked {length : ℕ} (hle : o + length ≤ g.size) (way : Way) (n : Int) :
    Proceeds way o n.toNat g ((g.span o length).count way n) := ⟨rfl, rfl, _, rfl, .one hle _⟩

lemma read (hplace : g.position = o) {data : Str} (hle : o + data.length ≤ g.size) (n : Int) (fd : Fd)
    (length : ℕ) :
    Proceeds .send o n.toNat g ((g.next (.read fd length) (some data)).count .send n) := by
  refine ⟨rfl, rfl, [((o : Int), data.length)], ?_, .one hle _⟩
  rw [← hplace]
  rfl

lemma stay (h : Proceeds way o 0 g g') : Proceeds way o (o - o) g g' := by rwa [Nat.sub_self]

lemma failed {i : Int} (h : Proceeds way o i.toNat g g') (hi : i ≤ 0) : Proceeds way o (o - o) g g' := by
  rw [Int.toNat_of_nonpos hi] at h
  exact h.stay

lemma took (h : Proceeds way o k g g') : Proceeds way o (o + k - o) g g' := by rwa [Nat.add_sub_cancel_left]

lemma onward (h : Proceeds way o k g g') (h' : Proceeds way (o + k) (hi - (o + k)) g' g'') (hle : o + k ≤ hi) :
    Proceeds way o (hi - o) g g'' := by
  have hboth := h.trans h'
  rwa [show k + (hi - (o + k)) = hi - o by omega] at hboth

end Proceeds

/-! Rules -/

section

variable {α β : Type} {P : α → FileReads → Prop} {E : FileReads → Prop}

lemma ends_call {o : Call β} {f : β → Io α}
    (h : ∀ r, Ledger.transfers.post {} o r → Ends calls (f r) P E (g.next o r)) :
    Ends calls (perform o >>= f) P E g := ⟨trivial, h⟩

def Unread (o : Σ β, Call β) : Prop := ∀ (g : FileReads) (r : o.1), g.next o.2 r = g

lemma unread_of_kinds {ks : List Kind} (hks : .transfer ∉ ks) {o : Σ β, Call β} (ho : Kinds ks o) : Unread o := by
  obtain ⟨β, o⟩ := o
  have hkind : o.kind ≠ .transfer := fun h => hks (h ▸ ho)
  intro g r
  cases o with
  | bind | listen | select | send | recv | fstat | lseek | read | sendfile | mmap | sendMapped | munmap
  | zlibInit => exact absurd rfl hkind
  | _ => rfl

lemma unread_of_unlogged {o : Σ β, Call β} (ho : Ledger.Unlogged o) : Unread o := by
  obtain ⟨β, o⟩ := o
  intro g r
  cases o with
  | fstat => exact absurd (congrArg Ledger.size (ho {} (some (true, 1)))) Nat.one_ne_zero
  | lseek => exact absurd (congrArg Ledger.stuck (ho {} false)) Bool.noConfusion
  | read => exact absurd (congrArg Ledger.unread (ho {} none)) Bool.noConfusion
  | send fd data =>
    have hsent := congrArg Ledger.sent (ho { held := (0, data) } 0)
    exact absurd hsent (by simp [Ledger.next])
  | sendMapped => exact absurd (congrArg Ledger.sent (ho {} 0)) (List.cons_ne_nil _ _)
  | sendfile => exact absurd (congrArg Ledger.sent (ho {} 0)) (List.cons_ne_nil _ _)
  | _ => rfl

lemma ends_unread {p : Io β} {f : β → Io α} {P' : β → Prop} (hp : p.Within Unread P')
    (h : ∀ b, P' b → Ends calls (f b) P E g) (hE : E g) : Ends calls (p >>= f) P E g := by
  apply ends_bind
  apply (Within.ends hp (J := fun g' => g' = g) ?_ rfl).mono
  · rintro b _ ⟨hb, rfl⟩
    exact h b hb
  · rintro _ rfl
    exact hE
  · exact fun o g' ho hg => ⟨trivial, fun r _ => (ho g' r).trans hg⟩

lemma ends_throttle {rate : Int} {start bytes : ℕ} {f : Unit → Io α} (h : Ends calls (f ()) P E g) :
    Ends calls (applyThrottle rate start bytes >>= f) P E g := by
  rw [applyThrottle]
  split
  · exact h
  · apply ends_bind
    apply ends_call
    intro now _
    exact ends_ite (fun _ => ends_perform trivial fun _ _ => h) fun _ => h

end

end FileReads

open FileReads

namespace Retrieval

variable {t : Retrieval} {E : FileReads → Prop}

lemma sendfileLoop_reads (fuel : ℕ) : ∀ (o : ℕ) (q : Progress) (g : FileReads), o + q.remaining = g.size →
    Ends FileReads.calls (t.sendfileLoop fuel o q) (fun r g' => ∃ mid : ℕ, r.1 = mid ∧ o ≤ mid ∧
      mid + r.2.remaining = g.size ∧
      g.Proceeds .sendfile o (mid - o) g') E g := by
  induction fuel with
  | zero => exact fun o q g hq => ends_pure ⟨o, rfl, le_rfl, hq, (Proceeds.refl _ o g).stay⟩
  | succ fuel ih =>
    intro o q g hq
    refine ends_ite (fun _ => ends_pure ⟨o, rfl, le_rfl, hq, (Proceeds.refl _ o g).stay⟩) fun _ => ?_
    apply ends_throttle
    apply ends_call
    intro n hn
    have hn' : n ≤ (min t.buf_size q.remaining : ℕ) := hn
    have hchunk : o + min t.buf_size q.remaining ≤ g.size := by omega
    have hasked := Proceeds.asked hchunk .sendfile n
    refine ends_ite (fun hle => ends_pure ⟨o, rfl, le_rfl, hq, hasked.failed hle⟩) fun hpos => ?_
    obtain ⟨k, rfl⟩ := Int.eq_ofNat_of_zero_le (not_le.1 hpos).le
    rw [Int.toNat_natCast] at hasked ⊢
    have hk : o + k + (q.remaining - k) = g.size := by omega
    refine ends_ite (fun _ => ends_pure ⟨o + k, ?_, Nat.le_add_right _ _, hk, hasked.took⟩) fun _ => ?_
    · push_cast
      rfl
    · have hloop :=
        ih (o + k) ⟨q.total_bytes + k, q.remaining - k⟩
        ((g.span o (min t.buf_size q.remaining)).count .sendfile k) hk
      rw [Nat.cast_add] at hloop
      apply hloop.mono ?_ fun _ => id
      rintro r g' ⟨mid, hr, hle, hrest, hproceeds⟩
      exact ⟨mid, hr, by omega, hrest, hasked.onward hproceeds hle⟩

lemma mmapLoop_reads (mapped : Str) (fuel : ℕ) :
    ∀ (o : ℕ) (q : Progress) (g : FileReads), o + q.remaining = g.size →
    Ends FileReads.calls (t.mmapLoop mapped fuel o q) (fun q' g' => ∃ far : ℕ, o ≤ far ∧
      far + q'.remaining = g.size ∧
      g.Proceeds .mapped o (far - o) g') E g := by
  induction fuel with
  | zero => exact fun o q g hq => ends_pure ⟨o, le_rfl, hq, (Proceeds.refl _ o g).stay⟩
  | succ fuel ih =>
    intro o q g hq
    refine ends_ite (fun _ => ends_pure ⟨o, le_rfl, hq, (Proceeds.refl _ o g).stay⟩) fun _ => ?_
    apply ends_throttle
    apply ends_call
    intro n hn
    have hn' : n ≤ (min t.buf_size q.remaining : ℕ) := hn
    have hchunk : o + min t.buf_size q.remaining ≤ g.size := by omega
    have hasked := Proceeds.asked hchunk .mapped n
    refine ends_ite (fun hle => ends_pure ⟨o, le_rfl, hq, hasked.failed hle⟩) fun hpos => ?_
    obtain ⟨k, rfl⟩ := Int.eq_ofNat_of_zero_le (not_le.1 hpos).le
    rw [Int.toNat_natCast] at hasked ⊢
    have hk : o + k + (q.remaining - k) = g.size := by omega
    have hloop :=
      ih (o + k) ⟨q.total_bytes + k, q.remaining - k⟩ ((g.span o (min t.buf_size q.remaining)).count .mapped k) hk
    rw [Nat.cast_add] at hloop
    apply hloop.mono ?_ fun _ => id
    rintro q' g' ⟨far, hle, hrest, hproceeds⟩
    exact ⟨far, by omega, hrest, hasked.onward hproceeds hle⟩

lemma readLoop_reads (fuel : ℕ) :
    ∀ (o : ℕ) (q : Progress) (g : FileReads), g.position = o → o + q.remaining = g.size →
    Ends FileReads.calls (t.readLoop fuel q) (fun _ g' => ∃ hi : ℕ, o ≤ hi ∧ hi ≤ g.size ∧
      g.Proceeds .send o (hi - o) g') E g := by
  induction fuel with
  | zero => exact fun o q g _ hq => ends_pure ⟨o, le_rfl, by omega, (Proceeds.refl _ o g).stay⟩
  | succ fuel ih =>
    intro o q g hplace hq
    refine ends_ite (fun _ => ends_pure ⟨o, le_rfl, by omega, (Proceeds.refl _ o g).stay⟩) fun _ => ?_
    apply ends_throttle
    apply ends_call
    intro got hgot
    cases got with
    | none => exact ends_pure ⟨o, le_rfl, by omega, (Proceeds.refl _ o g).stay⟩
    | some data =>
      have hdata : data.length ≤ min t.buf_size q.remaining := hgot data rfl
      have hread (n : Int) := Proceeds.read hplace (show o + data.length ≤ g.size by omega) n t.file_fd
        (min t.buf_size q.remaining)
      refine ends_ite (fun _ => ends_pure ⟨o, le_rfl, by omega, ?_⟩) fun _ => ?_
      · obtain ⟨hsize, hcounts, hspans⟩ := hread 0
        exact Proceeds.stay ⟨hsize, (Function.update_eq_self _ _).symm, hspans⟩
      apply ends_call
      intro n hn
      have hn' : n ≤ data.length := hn
      refine ends_ite (fun hle => ends_pure ⟨o, le_rfl, by omega, (hread n).failed hle⟩) fun hpos => ?_
      obtain ⟨k, rfl⟩ := Int.eq_ofNat_of_zero_le (not_le.1 hpos).le
      have hproceeds := hread k
      rw [Int.toNat_natCast] at hproceeds ⊢
      refine ends_ite (fun _ => ends_pure ⟨o + k, Nat.le_add_right _ _, by omega, hproceeds.took⟩) fun _ => ?_
      obtain rfl : k = data.length := by omega
      have hnext : o + data.length + (q.remaining - data.length) = g.size := by omega
      have hplace' :
        (((g.next (.read t.file_fd (min t.buf_size q.remaining)) (some data)).count .send
        data.length).position : Int) =
          (o + data.length : ℕ) := by
        push_cast
        exact congrArg (· + (data.length : Int)) hplace
      have hloop := ih (o + data.length) ⟨q.total_bytes + data.length, q.remaining - data.length⟩ _ hplace' hnext
      apply hloop.mono ?_ fun _ => id
      rintro _ g' ⟨hi, hle, hend, hmore⟩
      exact ⟨hi, by omega, hend, hproceeds.onward hmore hle⟩

lemma mmapFile_reads {o total : ℕ} {g : FileReads} (ho : o ≤ g.size) :
    Ends FileReads.calls (t.mmapFile g.size o total) (fun _ g' => ∃ far : ℕ, o ≤ far ∧ far ≤ g.size ∧
      g.Proceeds .mapped o (far - o) g') E g := by
  apply ends_call
  intro mapped _
  cases mapped with
  | none => exact ends_pure ⟨o, le_rfl, ho, (Proceeds.refl _ o g).stay⟩
  | some bytes =>
    have hremaining : ((g.size : Int) - o).toNat = g.size - o := by omega
    have hleft : o + (g.size - o) = g.size := by omega
    dsimp only
    rw [hremaining]
    apply ends_bind
    apply (mmapLoop_reads (t := t) (E := E) bytes (g.size - o) o ⟨total, g.size - o⟩ g hleft).mono ?_ fun _ => id
    rintro m g' ⟨far, hle, hrest, hproceeds⟩
    apply ends_call
    intro _ _
    exact ends_pure ⟨far, hle, by omega, hproceeds⟩

lemma seekAndRead_reads (total : ℕ) {o : ℕ} {g : FileReads} (ho : o ≤ g.size) :
    Ends FileReads.calls (do
        let sought : Bool ← perform (.lseek t.file_fd o)
        if !sought then return false
        else do
          t.makeBuffer
          let _ ← t.readLoop ((g.size : Int) - o).toNat ⟨total, ((g.size : Int) - o).toNat⟩
          return true : Io Bool)
      (fun _ g' => ∃ hi : ℕ, o ≤ hi ∧ hi ≤ g.size ∧ g.Proceeds .send o (hi - o) g')
      (fun g' => g.Proceeds .send o (o - o) g') g := by
  apply ends_call
  intro sought _
  cases sought with
  | false => exact ends_pure ⟨o, le_rfl, ho, (Proceeds.refl _ o g).stay⟩
  | true =>
    have hremaining : ((g.size : Int) - o).toNat = g.size - o := by omega
    have hplace : (g.next (.lseek t.file_fd o) true).position = o := rfl
    have hleft : o + (g.size - o) = g.size := by omega
    have hsought : g.Proceeds .send o (o - o) (g.next (.lseek t.file_fd o) true) :=
      have hsame := (Proceeds.refl .send o g).stay
      ⟨hsame.size, hsame.counts, hsame.spans⟩
    rw [hremaining]
    apply ends_makeBuffer trivial (fun _ => rfl) hsought
    apply ends_bind
    apply (readLoop_reads (t := t) (g.size - o) o ⟨total, g.size - o⟩ _ hplace hleft).mono ?_ fun _ => id
    rintro _ g' ⟨hi, hle, hend, hproceeds⟩
    exact ends_pure ⟨hi, hle, hend, hproceeds.size, hproceeds.counts, hproceeds.spans⟩

structure Splits (o : ℕ) (g : FileReads) (mid far hi : ℕ) : Prop where
  first : o ≤ mid
  second : mid ≤ far ∧ far ≤ g.size
  third : mid ≤ hi ∧ hi ≤ g.size
  counts : g.counts .sendfile = mid - o ∧ g.counts .mapped = far - mid ∧ g.counts .send = hi - mid
  begins : ∃ n, Begins g.size o n g.spans

lemma splits_of_proceeds {o mid far hi : ℕ} {g g₁ g₂ g₃ : FileReads} (hspans : g.spans = [])
    (hcounts : g.counts = fun _ => 0)
    (h₁ : g.Proceeds .sendfile o (mid - o) g₁) (h₂ : g₁.Proceeds .mapped mid (far - mid) g₂)
    (h₃ : g₂.Proceeds .send mid (hi - mid) g₃)
    (hmid : o ≤ mid) (hfar : mid ≤ far ∧ far ≤ g.size) (hhi : mid ≤ hi ∧ hi ≤ g.size) :
    g₃.size = g.size ∧ Splits o g₃ mid far hi := by
  obtain ⟨rs₁, hrs₁, hbegins₁⟩ := h₁.spans
  obtain ⟨rs₂, hrs₂, hbegins₂⟩ := h₂.spans
  obtain ⟨rs₃, hrs₃, hbegins₃⟩ := h₃.spans
  have hsize : g₃.size = g.size := h₃.size.trans (h₂.size.trans h₁.size)
  rw [h₁.size] at hbegins₂
  rw [h₂.size, h₁.size] at hbegins₃
  have hlast : Begins g.size (o + (mid - o)) (far - mid + (hi - mid)) (rs₂ ++ rs₃) := by
    rw [Nat.add_sub_of_le hmid]
    exact hbegins₂.again hbegins₃
  have hall := hbegins₁.append hlast
  rw [hspans, List.nil_append] at hrs₁
  rw [← hsize] at hfar hhi hall
  have hspans₃ : g₃.spans = rs₁ ++ (rs₂ ++ rs₃) := by rw [hrs₃, hrs₂, hrs₁, List.append_assoc]
  refine ⟨hsize, hmid, hfar, hhi, ?_, _, hspans₃ ▸ hall⟩
  simp [h₃.counts, h₂.counts, h₁.counts, hcounts, Function.update]

lemma sendFile_reads (use_sendfile use_mmap : Bool) {o : ℕ} {g : FileReads} (ho : o ≤ g.size)
    (hspans : g.spans = [])
    (hcounts : g.counts = fun _ => 0) : Ends FileReads.calls (t.sendFile use_sendfile use_mmap g.size o)
      (fun _ g' => g'.size = g.size ∧ ∃ mid far hi, Splits o g' mid far hi)
      (fun g' => g'.size = g.size ∧ ∃ mid far hi, Splits o g' mid far hi) g := by
  have hremaining : ((g.size : Int) - o).toNat = g.size - o := by omega
  have hleft : o + (g.size - o) = g.size := by omega
  have hfirst : Ends FileReads.calls (if use_sendfile then
        t.sendfileLoop (g.size - o) o ⟨0, g.size - o⟩ else return (o, ⟨0, g.size - o⟩) : Io (Int × Progress))
      (fun r g' => ∃ mid : ℕ, r.1 = mid ∧ o ≤ mid ∧ mid ≤ g.size ∧ g.Proceeds .sendfile o (mid - o) g')
      (fun g' => g'.size = g.size ∧ ∃ mid far hi, Splits o g' mid far hi) g := by
    refine ends_ite (fun _ => ?_) fun _ => ends_pure ⟨o, rfl, le_rfl, ho, (Proceeds.refl _ o g).stay⟩
    apply (sendfileLoop_reads (g.size - o) o ⟨0, g.size - o⟩ g hleft).mono ?_ fun _ => id
    rintro r g' ⟨mid, hr, hle, hrest, hproceeds⟩
    exact ⟨mid, hr, hle, by omega, hproceeds⟩
  rw [sendFile]
  dsimp only
  rw [hremaining]
  apply ends_bind
  apply hfirst.mono ?_ fun _ => id
  rintro ⟨_, q⟩ g₁ ⟨mid, rfl, hmid, hle, h₁⟩
  have hidle {way : Way} {g : FileReads} : g.Proceeds way mid (mid - mid) g := (Proceeds.refl way mid g).stay
  have hall {g₂ g₃ : FileReads} {far hi : ℕ} (h₂ : g₁.Proceeds .mapped mid (far - mid) g₂) (h₃ :
    g₂.Proceeds .send mid (hi - mid) g₃)
      (hfar : mid ≤ far ∧ far ≤ g.size) (hhi : mid ≤ hi ∧ hi ≤ g.size) :
      g₃.size = g.size ∧ ∃ mid far hi, Splits o g₃ mid far hi := by
    obtain ⟨hsize, hsplits⟩ := splits_of_proceeds hspans hcounts h₁ h₂ h₃ hmid hfar hhi
    exact ⟨hsize, mid, far, hi, hsplits⟩
  refine ends_ite (fun _ => ends_pure ?_) fun _ => ?_
  · exact hall hidle hidle ⟨le_rfl, hle⟩ ⟨le_rfl, hle⟩
  have hsecond : Ends FileReads.calls (if use_mmap = true ∧ 0 < g.size ∧ (mid : Int) < g.size then
        t.mmapFile g.size mid q.total_bytes else return none : Io (Option Progress))
      (fun _ g' => ∃ far : ℕ, mid ≤ far ∧ far ≤ g.size ∧ g₁.Proceeds .mapped mid (far - mid) g')
      (fun g' => g'.size = g.size ∧ ∃ mid far hi, Splits o g' mid far hi) g₁ := by
    rw [← h₁.size] at hle ⊢
    exact ends_ite (fun _ => mmapFile_reads hle) fun _ => ends_pure ⟨mid, le_rfl, hle, hidle⟩
  apply ends_bind
  apply hsecond.mono ?_ fun _ => id
  rintro r g₂ ⟨far, hmf, hfar, h₂⟩
  have hlast (total : ℕ) : Ends FileReads.calls (do
        let sought : Bool ← perform (.lseek t.file_fd mid)
        if !sought then return false
        else do
          t.makeBuffer
          let _ ← t.readLoop ((g.size : Int) - mid).toNat ⟨total, ((g.size : Int) - mid).toNat⟩
          return true : Io Bool)
      (fun _ g' => g'.size = g.size ∧ ∃ mid far hi, Splits o g' mid far hi)
      (fun g' => g'.size = g.size ∧ ∃ mid far hi, Splits o g' mid far hi) g₂ := by
    have hsize : g₂.size = g.size := h₂.size.trans h₁.size
    have hread := seekAndRead_reads (t := t) (g := g₂) total (hsize ▸ hle)
    rw [hsize] at hread
    apply hread.mono ?_ fun g₃ h₃ => hall h₂ h₃ ⟨hmf, hfar⟩ ⟨le_rfl, hle⟩
    rintro _ g₃ ⟨hi, hmh, hhi, h₃⟩
    exact hall h₂ h₃ ⟨hmf, hfar⟩ ⟨hmh, hhi⟩
  cases r with
  | none => exact hlast _
  | some m =>
    refine ends_ite (fun _ => ends_pure ?_) fun _ => hlast _
    exact hall h₂ hidle ⟨hmf, hfar⟩ ⟨le_rfl, hle⟩

structure Compresses (o n : ℕ) (g g' : FileReads) : Prop where
  size : g'.size = g.size
  got : g'.got = g.got + n
  mapped : g'.counts .mapped = g.counts .mapped
  spans : ∃ rs, g'.spans = g.spans ++ rs ∧ Begins g.size o n rs

lemma Compresses.refl (o : ℕ) (g : FileReads) : Compresses o 0 g g :=
  ⟨rfl, rfl, rfl, [], (List.append_nil _).symm, .nil _ _⟩

lemma Compresses.trans {o m n : ℕ} {g g' g'' : FileReads} (h : Compresses o m g g')
    (h' : Compresses (o + m) n g' g'') :
    Compresses o (m + n) g g'' := by
  obtain ⟨rs, hrs, hbegins⟩ := h.spans
  obtain ⟨rs', hrs', hbegins'⟩ := h'.spans
  rw [h.size] at hbegins'
  refine ⟨h'.size.trans h.size, ?_, h'.mapped.trans h.mapped, rs ++ rs', ?_, hbegins.append hbegins'⟩
  · rw [h'.got, h.got, Nat.add_assoc]
  · rw [hrs', hrs, List.append_assoc]

lemma sendCompressed_reads (data : Str) (o : ℕ) (g : FileReads) :
    Ends FileReads.calls (t.sendCompressed data) (fun _ g' => Compresses o 0 g g' ∧
      g'.position = g.position) E g := by
  refine ends_ite (fun _ => ends_pure ⟨.refl o g, rfl⟩) fun _ => ?_
  apply ends_call
  intro n _
  refine ends_pure ⟨⟨rfl, rfl, ?_, [], (List.append_nil _).symm, .nil _ _⟩, rfl⟩
  exact Function.update_of_ne (show Way.mapped ≠ Way.send by decide) (g.counts .send + n.toNat) g.counts

lemma deflateLoop_reads (zlib : Zlib) (fuel : ℕ) :
    ∀ (made : List (Str × Bool)) (o : ℕ) (q : Progress) (g : FileReads),
    g.position = o → o + q.remaining = g.size →
    Ends FileReads.calls (t.deflateLoop zlib fuel made q) (fun _ g' => ∃ n ≤ q.remaining,
      Compresses o n g g') E g := by
  induction fuel with
  | zero => exact fun made o q g _ _ => ends_pure ⟨0, Nat.zero_le _, .refl o g⟩
  | succ fuel ih =>
    intro made o q g hplace hq
    refine ends_ite (fun _ => ends_pure ⟨0, Nat.zero_le _, .refl o g⟩) fun _ => ?_
    apply ends_throttle
    apply ends_call
    intro got hgot
    cases got with
    | none => exact ends_pure ⟨0, Nat.zero_le _, .refl o g⟩
    | some data =>
      have hdata : data.length ≤ min t.buf_size q.remaining := hgot data rfl
      have hle : data.length ≤ q.remaining := by omega
      have hread : Compresses o data.length g (g.next (.read t.file_fd (min t.buf_size q.remaining))
          (some data)) := by
        refine ⟨rfl, rfl, rfl, [((o : Int), data.length)], ?_, .one (by omega) _⟩
        rw [← hplace]
        rfl
      refine ends_ite (fun _ => ends_pure ⟨_, hle, hread⟩) fun _ => ?_
      dsimp only
      cases zlib.deflate (made ++ [(data, false)]) with
      | none => exact ends_pure ⟨_, hle, hread⟩
      | some compressed =>
        apply ends_bind
        apply (sendCompressed_reads (t := t) (E := E) compressed (o + data.length) _).mono ?_ fun _ => id
        rintro ok g₁ ⟨hsent, hsame⟩
        have hsofar := hread.trans hsent
        rw [Nat.add_zero] at hsofar
        refine ends_ite (fun _ => ends_pure ⟨_, hle, hsofar⟩) fun _ => ?_
        have hplace₁ : g₁.position = (o + data.length : ℕ) := by
          rw [hsame]
          push_cast
          exact congrArg (· + (data.length : Int)) hplace
        have hnext : o + data.length + (q.remaining - data.length) = g₁.size := by
          rw [hsofar.size]
          omega
        apply (ih (made ++ [(data, false)]) (o + data.length)
          ⟨q.total_bytes + compressed.length, q.remaining - data.length⟩ g₁ hplace₁ hnext).mono ?_ fun _ => id
        rintro _ g' ⟨n, hn, hmore⟩
        have hn' : n ≤ q.remaining - data.length := hn
        exact ⟨data.length + n, by omega, hsofar.trans hmore⟩

lemma deflateFile_reads (zlib : Zlib) {o : ℕ} {q : Progress} {g : FileReads} (hplace : g.position = o)
    (hq : o + q.remaining = g.size) :
    Ends FileReads.calls (t.deflateFile zlib q) (fun _ g' => ∃ n ≤ q.remaining, Compresses o n g g')
      (fun g' => ∃ n ≤ q.remaining, Compresses o n g g') g := by
  apply ends_makeBuffer trivial (fun _ => rfl) ⟨0, Nat.zero_le _, .refl o g⟩
  apply ends_bind
  apply (deflateLoop_reads (t := t) zlib q.remaining [] o q g hplace hq).mono ?_ fun _ => id
  rintro ⟨ok, made, q'⟩ g₁ ⟨n, hn, h₁⟩
  refine ends_ite (fun _ => ends_pure ⟨n, hn, h₁⟩) fun _ => ?_
  cases zlib.deflate (made ++ [([], true)]) with
  | none => exact ends_pure ⟨n, hn, h₁⟩
  | some compressed =>
    apply ends_bind
    apply (sendCompressed_reads (t := t) compressed (o + n) g₁).mono ?_ fun _ => id
    exact fun _ _ h₂ => ends_pure ⟨n, hn, h₁.trans h₂.1⟩

end Retrieval

def Session.reading (env : Service) (me : SessionId) (s : Session) (a : Arrival) : FileReads :=
  FileReads.calls.final (World.machine me) {} (s.trace env me a)

namespace Session

def delivered (s : Session) (g : FileReads) : ℕ :=
  if s.transferModeZ then g.got else g.counts .sendfile + g.counts .mapped + g.counts .send

/-- The file is read from the restart position on and nowhere outside it, and no more of its bytes go
out than follow that position. -/
structure Fits (s : Session) (g : FileReads) : Prop where
  starts : ∀ r ∈ g.spans.head?, r.1 = s.resume_position_
  inside : ∀ r ∈ g.spans, 0 ≤ r.1 ∧ r.1 + r.2 ≤ g.size
  sent : s.delivered g ≤ g.size - s.resume_position_.toNat

/-- Sends from the mapping take bytes, and `send`, which starts over behind what sendfile took, takes
more than they left. -/
def Overruns (s : Session) (g : FileReads) : Prop :=
  0 < g.counts .mapped ∧ g.size - (s.resume_position_.toNat + g.counts .sendfile + g.counts .mapped) <
    g.counts .send

def Reads (s : Session) (g : FileReads) : Prop := s.Fits g ↔ ¬s.Overruns g

variable {env : Service} {me : SessionId} {s : Session} {E : FileReads → Prop} {g : FileReads}

lemma reads_idle (hspans : g.spans = []) (hgot : g.got = 0) (hcounts : g.counts = fun _ => 0) : s.Reads g := by
  refine iff_of_true ⟨by simp [hspans], by simp [hspans], ?_⟩ ?_
  · simp [delivered, hgot, hcounts]
  · simp [Overruns, hcounts]

lemma reads_begins {n : ℕ} (hpos : 0 ≤ s.resume_position_) (h : Begins g.size s.resume_position_.toNat n g.spans)
    (hsent : s.delivered g ≤ g.size - s.resume_position_.toNat ↔ ¬s.Overruns g) : s.Reads g := by
  have hstart := h.first
  rw [Int.toNat_of_nonneg hpos] at hstart
  exact ⟨fun hfits => hsent.1 hfits.sent, fun hno => ⟨hstart, h.inside, hsent.2 hno⟩⟩

lemma sendOpened_reads (data_fd file_fd : Fd) (start_time : ℕ) (hpos : 0 ≤ s.resume_position_)
    (hle : s.resume_position_ ≤ g.size) (hspans : g.spans = []) (hgot : g.got = 0)
    (hcounts : g.counts = fun _ => 0) :
    Ends FileReads.calls (s.sendOpened env data_fd file_fd start_time g.size) (fun _ g' => s.Reads g')
      (fun g' => s.Reads g') g := by
  have hstart : s.resume_position_ = (s.resume_position_.toNat : Int) := (Int.toNat_of_nonneg hpos).symm
  rw [sendOpened]
  refine ends_ite (fun hmode => ?_) fun hmode => ?_
  · apply ends_call
    intro sought _
    cases sought with
    | false => exact ends_pure (reads_idle hspans hgot hcounts)
    | true =>
      apply ends_call
      intro valid _
      cases valid with
      | false => exact ends_pure (reads_idle hspans hgot hcounts)
      | true =>
        have hleft : s.resume_position_.toNat + ((g.size : Int) - s.resume_position_).toNat = g.size := by omega
        have hplace : (g.next (.lseek file_fd s.resume_position_) true).position = s.resume_position_.toNat :=
          hstart
        have hdeflate := Retrieval.deflateFile_reads
          (t := ⟨data_fd, file_fd, env.bufferSize, env.config_.rate_limit.max_transfer_rate, start_time⟩)
          (q := ⟨0, ((g.size : Int) - s.resume_position_).toNat⟩) env.zlib hplace hleft
        have hcompressed (g' : FileReads) (hread : ∃ n ≤ ((g.size : Int) - s.resume_position_).toNat,
            Retrieval.Compresses s.resume_position_.toNat n (g.next (.lseek file_fd s.resume_position_) true)
              g') : s.Reads g' := by
          obtain ⟨n, hn, h⟩ := hread
          have hsize : g'.size = g.size := h.size
          have hsofar : g'.got = g.got + n := h.got
          obtain ⟨rs, hrs, hbegins⟩ := h.spans
          have hall : g'.spans = rs := hrs.trans (congrArg (· ++ rs) hspans)
          refine reads_begins (n := n) hpos ?_ (iff_of_true ?_ fun hover => ?_)
          · rw [hsize, hall]
            exact hbegins
          · rw [delivered, if_pos hmode]
            omega
          · have hnone : g'.counts .mapped = 0 := h.mapped.trans (congrFun hcounts _)
            exact absurd hover.1 (by omega)
        apply ends_bind
        exact hdeflate.mono (fun _ g' h => ends_pure (hcompressed g' h)) hcompressed
  · have hstreamed (g' : FileReads) (hread : g'.size = g.size ∧ ∃ mid far hi,
        Retrieval.Splits s.resume_position_.toNat g' mid far hi) : s.Reads g' := by
      obtain ⟨hsize, mid, far, hi, hsplits⟩ := hread
      obtain ⟨n, hbegins⟩ := hsplits.begins
      refine reads_begins hpos hbegins ?_
      have := hsplits.first
      have := hsplits.second
      have := hsplits.third
      obtain ⟨hsendfile, hmapped, hsend⟩ := hsplits.counts
      rw [delivered, if_neg hmode, Overruns, hsendfile, hmapped, hsend]
      omega
    have hsendFile := Retrieval.sendFile_reads (o := s.resume_position_.toNat)
      (t := ⟨data_fd, file_fd, env.bufferSize, env.config_.rate_limit.max_transfer_rate, start_time⟩)
      env.sendsFiles env.config_.transfer.use_mmap (by omega) hspans hcounts
    rw [← hstart] at hsendFile
    apply ends_bind
    exact hsendFile.mono (fun _ g' h => ends_pure (hstreamed g' h)) hstreamed

lemma retrieveTo_reads (path : Str) (data_fd : Fd) (hpos : 0 ≤ s.resume_position_) :
    Ends FileReads.calls (s.retrieveTo env data_fd path) (fun _ g' => s.Reads g')
      (fun g' => s.Reads g') {} := by
  have hclose (fds : List Fd) (r : ℕ × Str × Bool) {g : FileReads} (hg : s.Reads g) :
      Ends FileReads.calls (fds.foldr (fun fd p => perform (.close fd) >>= fun _ => p) (return r :
        Io (ℕ × Str × Bool)))
        (fun _ g' => s.Reads g') (fun g' => s.Reads g') g := by
    induction fds with
    | nil => exact ends_pure hg
    | cons fd fds ih => exact ends_call fun _ _ => ih
  apply ends_call
  intro start_time _
  apply ends_call
  intro opened _
  cases opened with
  | none => exact hclose [data_fd] _ (reads_idle rfl rfl rfl)
  | some file_fd =>
    apply ends_call
    intro st _
    obtain _ | ⟨_ | _, size⟩ := st
    · exact hclose [file_fd, data_fd] _ (reads_idle rfl rfl rfl)
    · exact hclose [file_fd, data_fd] _ (reads_idle rfl rfl rfl)
    · refine ends_ite (fun _ => hclose [file_fd, data_fd] _ (reads_idle rfl rfl rfl)) fun hle => ?_
      apply ends_bind
      apply (sendOpened_reads (g := { size := size }) data_fd file_fd start_time hpos ?_ rfl rfl rfl).mono ?_
        fun _ => id
      · change s.resume_position_ ≤ (size : Int)
        omega
      · rintro ⟨code, text⟩ g' hg'
        exact hclose [file_fd, data_fd] _ hg'

lemma handleRETR_reads (hpos : 0 ≤ s.resume_position_) (name : Str) :
    Ends FileReads.calls (s.handleRETR env name) (fun _ g' => s.Reads g') (fun g' => s.Reads g') {} := by
  have hidle : s.Reads {} := reads_idle rfl rfl rfl
  have hasks {β : Type} {p : Io β} {f : β → Io Session} {g : FileReads} (hg : s.Reads g)
      (hp : p.Within (Kinds [.reply, .query]) fun _ => True)
      (h : ∀ b, Ends FileReads.calls (f b) (fun _ g' => s.Reads g') (fun g' => s.Reads g') g) :
      Ends FileReads.calls (p >>= f) (fun _ g' => s.Reads g') (fun g' => s.Reads g') g := by
    have hunread : p.Within Unread fun _ => True := hp.mono (fun _ => unread_of_kinds (by simp)) fun _ => id
    exact ends_unread hunread (fun b _ => h b) hg
  have hreply {code : ℕ} {text : Str} {g : FileReads} (hg : s.Reads g) (s' s'' : Session) :
      Ends FileReads.calls (s'.reply code text >>= fun _ => pure s'') (fun _ g' => s.Reads g')
        (fun g' => s.Reads g') g :=
    hasks hg (by simp) fun _ => ends_pure hg
  apply ends_call
  intro fs _
  refine ends_ite (fun _ => hreply hidle s s) fun _ => ?_
  refine ends_ite (fun _ => hreply hidle s s) fun _ => ?_
  apply ends_call
  intro found _
  cases found with
  | error e => exact hidle
  | ok found =>
    refine ends_ite (fun _ => hreply hidle s s) fun _ => ?_
    have hmode : (s.modeZRefusal env).Within (Kinds [.reply, .query]) fun _ => True :=
      (modeZRefusal_within (by simp)).mono (fun _ h => h) fun _ _ => trivial
    apply hasks hidle hmode
    intro refused
    cases refused with
    | some s' => exact ends_pure hidle
    | none =>
      apply hasks hidle (by simp)
      intro _
      have haccept := s.data.acceptDataConnection_unlogged.mono (fun _ ho => unread_of_unlogged ho) fun _ => id
      apply ends_unread haccept ?_ hidle
      rintro ⟨_ | ⟨data_fd, peer⟩, d⟩ _
      · exact hreply hidle _ _
      · apply ends_bind
        let s₁ : Session := { s with data := d }
        have hpos₁ : 0 ≤ s₁.resume_position_ := hpos
        have hsame (g' : FileReads) (hg' : s₁.Reads g') : s.Reads g' := by
          refine ⟨fun h => hg'.1 ⟨h.starts, h.inside, h.sent⟩, fun h => ?_⟩
          obtain ⟨hstarts, hinside, hsent⟩ := hg'.2 h
          exact ⟨hstarts, hinside, hsent⟩
        apply (retrieveTo_reads (s.resolvePath fs name) data_fd hpos₁).mono ?_ hsame
        exact fun _ g' hg' => hreply (hsame g' hg') _ _

lemma retr_reads (hpos : 0 ≤ s.resume_position_) {a : Arrival} (hv : a.command.verb = .retr) :
    s.Reads (s.reading env me a) := by
  have hdispatch : Ends FileReads.calls (s.dispatch env a.line) (fun _ g' => s.Reads g')
      (fun g' => s.Reads g') {} := by
    rcases dispatch_cases env s a.line with ⟨_, hd⟩ | ⟨_, _, hd⟩
    · have hhandle : s.handle env (.parse a.line) = s.handle env ⟨.retr, a.command.argument⟩ :=
        congrArg (s.handle env) (Arrival.command_eq hv)
      rw [hd, hhandle]
      exact handleRETR_reads hpos _
    · rw [hd]
      have hreply : (s.reply 530 "Please login with USER and PASS").Within (Kinds [.reply]) fun _ =>
        True := by simp
      have hunread := hreply.mono (fun _ => unread_of_kinds (by simp)) fun _ => id
      exact ends_unread hunread (fun _ _ => ends_pure (reads_idle rfl rfl rfl)) (reads_idle rfl rfl rfl)
  exact hdispatch.final (calls_describes me) trivial

end Session

end SimpleSftpd
