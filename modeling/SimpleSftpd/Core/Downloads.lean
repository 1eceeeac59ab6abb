import SimpleSftpd.Cxx.Contents
import SimpleSftpd.Core.Storage
import SimpleSftpd.Core.Ledger

namespace SimpleSftpd

open Cxx Interaction Prog Storage

lemma take_take_drop {b : Str} {lo mid hi : ℕ} (h : lo ≤ mid) (h' : mid ≤ hi) :
    (b.drop lo).take (mid - lo) ++ (b.drop mid).take (hi - mid) = (b.drop lo).take (hi - lo) := by
  have hmid : b.drop mid = (b.drop lo).drop (mid - lo) := by rw [List.drop_drop, Nat.add_sub_cancel' h]
  have hsum : hi - lo = (mid - lo) + (hi - mid) := by omega
  rw [hmid, hsum, List.take_add]

inductive Moves (way : Way) : ℕ → ℕ → List Move → Prop
  | nil (lo : ℕ) : Moves way lo lo []
  | took {lo hi n : ℕ} {ms : List Move} (k : ℕ) : 0 < n → Moves way (lo + n) hi ms →
    Moves way lo hi (⟨way, lo, k, n⟩ :: ms)
  | failed {lo hi : ℕ} {n : Int} {ms : List Move} (k : ℕ) : n ≤ 0 → Moves way lo hi ms →
    Moves way lo hi (⟨way, lo, k, n⟩ :: ms)

namespace Moves

variable {way : Way} {lo hi : ℕ} {ms : List Move}

lemma one_failed {n : Int} (k : ℕ) (hn : n ≤ 0) : Moves way lo lo [⟨way, lo, k, n⟩] := .failed k hn (.nil lo)

lemma one_took {n : ℕ} (k : ℕ) (hn : 0 < n) : Moves way lo (lo + n) [⟨way, lo, k, n⟩] := .took k hn (.nil _)

lemma le (h : Moves way lo hi ms) : lo ≤ hi := by
  induction h with
  | nil => exact le_rfl
  | took k hn h ih => exact (Nat.le_add_right _ _).trans ih
  | failed k hn h ih => exact ih

lemma way_eq (h : Moves way lo hi ms) : ∀ m ∈ ms, m.way = way := by
  induction h with
  | nil => exact List.forall_mem_nil _
  | took k hn h ih => exact List.forall_mem_cons.2 ⟨rfl, ih⟩
  | failed k hn h ih => exact List.forall_mem_cons.2 ⟨rfl, ih⟩

lemma lt_iff (h : Moves way lo hi ms) : lo < hi ↔ ∃ m ∈ ms, 0 < m.count := by
  induction h with
  | nil => simp
  | took k hn h ih =>
    have hle := h.le
    refine iff_of_true (by omega) ⟨_, List.mem_cons_self, ?_⟩
    exact Int.natCast_pos.2 hn
  | failed k hn h ih =>
    rw [ih, List.exists_mem_cons_iff]
    constructor
    · exact .inr
    · rintro (hpos | hpos)
      · exact absurd hpos (not_lt.2 hn)
      · exact hpos

end Moves

namespace Retrieval

variable {t : Retrieval} {E : Storage → Prop} {l : Location} {p : Int} {b : Str}

lemma sendfileLoop_sent (fuel : ℕ) : ∀ (o : ℕ) (q : Progress) (g : Storage), g.files t.file_fd = some (l, p) →
    g.fs.content l = b → q.remaining = b.length - o →
    Ends (calls fun _ => True) (t.sendfileLoop fuel o q) (fun r g' => ∃ hi ms, Moves .sendfile o hi ms ∧
      r.1 = (hi : Int) ∧
      r.2.remaining = b.length - hi ∧ g' = g.took ms ((b.drop o).take (hi - o))) E g := by
  induction fuel with
  | zero => exact fun o q g _ _ hq => ends_pure ⟨o, [], .nil o, rfl, hq, by simp [took_nil]⟩
  | succ fuel ih =>
    intro o q g hfile hb hq
    refine ends_ite (fun _ => ends_pure ⟨o, [], .nil o, rfl, hq, by simp [took_nil]⟩) fun _ => ?_
    apply ends_throttle trivial
    apply ends_call trivial
    intro n hn
    have hnext : g.next (.sendfile t.data_fd t.file_fd o (min t.buf_size q.remaining)) n =
        g.offer .sendfile o ((b.drop o).take (min t.buf_size q.remaining)) n := by
      simp only [next, hfile, hb, Int.toNat_natCast]
    rw [hnext, offer_took]
    generalize ((b.drop o).take (min t.buf_size q.remaining)).length = offered
    refine ends_ite (fun hle => ends_pure ⟨o, _, .one_failed offered hle, rfl, hq, ?_⟩) fun hpos => ?_
    · rw [Int.toNat_of_nonpos hle, Nat.sub_self, List.take_zero, List.take_zero]
    obtain ⟨-, l', p', hfile', hle⟩ := hn (not_le.1 hpos)
    obtain ⟨rfl, rfl⟩ : l = l' ∧ p = p' := by simpa using hfile.symm.trans hfile'
    rw [hb, Int.toNat_natCast] at hle
    obtain ⟨k, rfl⟩ := Int.eq_ofNat_of_zero_le (not_le.1 hpos).le
    have hsome : 0 < k := by omega
    have hk : k ≤ q.remaining := by omega
    have hdata : ((b.drop o).take (min t.buf_size q.remaining)).take k = (b.drop o).take k := by
      rw [List.take_take, Nat.min_eq_left (by omega)]
    rw [Int.toNat_natCast, hdata]
    refine ends_ite (fun _ => ends_pure ⟨o + k, _, .one_took offered hsome, ?_, ?_, ?_⟩) fun _ => ?_
    · push_cast
      rfl
    · simp only
      omega
    · rw [Nat.add_sub_cancel_left]
    · have hleft : q.remaining - k = b.length - (o + k) := by omega
      have hloop :=
        ih (o + k) ⟨q.total_bytes + k, q.remaining - k⟩ (g.took [⟨.sendfile, o, offered, k⟩] ((b.drop o).take k))
        hfile hb hleft
      rw [Nat.cast_add] at hloop
      apply hloop.mono ?_ fun _ => id
      rintro r g' ⟨hi, ms, hms, hr, hremaining, rfl⟩
      refine ⟨hi, _, .took offered hsome hms, hr, hremaining, ?_⟩
      have hjoin := take_take_drop (b := b) (Nat.le_add_right o k) hms.le
      rw [Nat.add_sub_cancel_left] at hjoin
      rw [took_took, hjoin]
      rfl

lemma mmapLoop_sent (fuel : ℕ) :
    ∀ (o : ℕ) (q : Progress) (g : Storage), q.remaining = b.length - o → q.remaining ≤ fuel →
    Ends (calls fun _ => True) (t.mmapLoop b fuel o q) (fun q' g' => ∃ hi mapped unsent ms, Moves .mapped o hi ms ∧
      q'.remaining = b.length - hi ∧
      g' = { g with mapped := mapped, unsent := g.unsent || unsent }.took ms ((b.drop o).take (hi - o)) ∧
      (q'.remaining ≠ 0 → (hi = o ∧ g.mapped = false ∨ unsent = true) ∧ ∃ m ∈ ms, m.count ≤ 0)) E g := by
  induction fuel with
  | zero =>
    intro o q g hq hfuel
    refine ends_pure ⟨o, g.mapped, false, [], .nil o, hq, by simp [took_nil], fun h => ?_⟩
    exact absurd (Nat.le_zero.1 hfuel) h
  | succ fuel ih =>
    intro o q g hq hfuel
    refine ends_ite (fun hdone => ends_pure ?_) fun hmore => ?_
    · exact ⟨o, g.mapped, false, [], .nil o, hq, by simp [took_nil], fun h => absurd hdone h⟩
    apply ends_throttle trivial
    apply ends_call trivial
    intro n hn
    simp only [next, Int.toNat_natCast, offer_took]
    generalize ((b.drop o).take (min t.buf_size q.remaining)).length = offered
    refine ends_ite (fun hle => ends_pure ?_) fun hpos => ?_
    · refine ⟨o, g.mapped || decide (0 < n), g.mapped && decide (n ≤ 0), _, .one_failed offered hle, hq, ?_,
        fun _ => ⟨?_, ?_⟩⟩
      · rw [Int.toNat_of_nonpos hle, List.take_zero, Nat.sub_self, List.take_zero]
      · cases hm : g.mapped with
        | false => exact .inl ⟨rfl, rfl⟩
        | true => exact .inr (by simp [hle])
      · exact ⟨_, List.mem_singleton_self _, hle⟩
    obtain ⟨k, rfl⟩ := Int.eq_ofNat_of_zero_le (not_le.1 hpos).le
    have hn' : (k : Int) ≤ ((min t.buf_size q.remaining : ℕ) : Int) := hn
    have hk : k ≤ q.remaining := by omega
    have hsome : 0 < k := by omega
    have hunfailed : (g.unsent || g.mapped && decide ((k : Int) ≤ 0)) = g.unsent := by simp [hsome.ne']
    have hmapped : (g.mapped || decide (0 < (k : Int))) = true := by simp [hsome]
    have hdata : ((b.drop o).take (min t.buf_size q.remaining)).take k = (b.drop o).take k := by
      rw [List.take_take, Nat.min_eq_left (by omega)]
    rw [hunfailed, hmapped, Int.toNat_natCast, hdata]
    have hleft : q.remaining - k = b.length - (o + k) := by omega
    have hless : q.remaining - k ≤ fuel := by omega
    have hloop := ih (o + k) ⟨q.total_bytes + k, q.remaining - k⟩
      ({ g with mapped := true }.took [⟨.mapped, o, offered, k⟩] ((b.drop o).take k)) hleft hless
    rw [Nat.cast_add] at hloop
    apply hloop.mono ?_ fun _ => id
    rintro q' g' ⟨hi, mapped, unsent, ms, hms, hremaining, rfl, hshort⟩
    refine ⟨hi, mapped, unsent, _, .took offered hsome hms, hremaining, ?_, fun h => ⟨.inr ?_, ?_⟩⟩
    · have hjoin := take_take_drop (b := b) (Nat.le_add_right o k) hms.le
      rw [Nat.add_sub_cancel_left] at hjoin
      simp only [took, List.append_assoc, hjoin, List.singleton_append]
    · rcases (hshort h).1 with ⟨_, hno⟩ | hunsent
      · cases hno
      · exact hunsent
    · obtain ⟨m, hm, hle⟩ := (hshort h).2
      exact ⟨m, List.mem_cons_of_mem _ hm, hle⟩

structure ReadsOn (b : Str) (o hi : ℕ) (ms : List Move) (g g' : Storage) : Prop where
  run : Moves .send o hi ms
  moves : g'.moves = g.moves ++ ms
  sent : g'.sent = g.sent ++ (b.drop o).take (hi - o)
  unsent : g.unsent = true → g'.unsent = true
  all : g'.unread = false → (∀ m ∈ ms, m.count = m.offered) → b.length ≤ hi
  whole : g'.unsent = false → ∀ m ∈ ms, m.count = m.offered
  cut : ∀ m ∈ ms, m.count ≠ m.offered → hi < b.length

lemma ReadsOn.nil {o : ℕ} {g g' : Storage} (hmoves : g'.moves = g.moves) (hsent : g'.sent = g.sent)
    (hunsent : g'.unsent = g.unsent) (hall : g'.unread = false → b.length ≤ o) : ReadsOn b o o [] g g' where
  run := .nil o
  moves := by rw [hmoves, List.append_nil]
  sent := by rw [hsent, Nat.sub_self, List.take_zero, List.append_nil]
  unsent h := hunsent.trans h
  all h _ := hall h
  whole _ := List.forall_mem_nil _
  cut := List.forall_mem_nil _

lemma readLoop_sent (fuel : ℕ) : ∀ (o : ℕ) (q : Progress) (g : Storage), g.files t.file_fd = some (l, (o : Int)) →
    g.fs.content l = b → q.remaining = b.length - o → q.remaining ≤ fuel →
    Ends (calls fun _ => True) (t.readLoop fuel q) (fun _ g' => ∃ hi ms, ReadsOn b o hi ms g g') E g := by
  induction fuel with
  | zero =>
    intro o q g _ _ hq hfuel
    exact ends_pure ⟨o, [], .nil rfl rfl rfl fun _ => by omega⟩
  | succ fuel ih =>
    intro o q g hfile hb hq hfuel
    refine ends_ite (fun hdone => ends_pure ⟨o, [], .nil rfl rfl rfl fun _ => by omega⟩) fun hmore => ?_
    apply ends_throttle trivial
    apply ends_call trivial
    intro got hgot
    cases got with
    | none => exact ends_pure ⟨o, [], .nil rfl rfl rfl fun h => by cases h⟩
    | some data =>
      obtain ⟨l', p', hfile', hdata⟩ := hgot data rfl
      obtain ⟨rfl, rfl⟩ : l = l' ∧ (o : Int) = p' := by simpa using hfile.symm.trans hfile'
      rw [hb, Int.toNat_natCast] at hdata
      obtain ⟨rest, hrest⟩ := hdata.trans (List.take_prefix _ _)
      have hrange : data.length ≤ b.length - o := by
        have hlen := congrArg List.length hrest
        rw [List.length_append, List.length_drop] at hlen
        omega
      rw [next_read hfile]
      refine ends_ite (fun hnil => ends_pure ⟨o, [], .nil rfl rfl rfl fun h => ?_⟩) fun hdata' => ?_
      · simp [hnil] at h
      have hsome : 0 < data.length := List.length_pos_of_ne_nil hdata'
      apply ends_call trivial
      intro n hn
      have hn' : n ≤ data.length := hn
      have htaken (k : ℕ) (hk : k ≤ data.length) : data.take k = (b.drop o).take k := by
        rw [← hrest, List.take_append_of_le_length hk]
      refine ends_ite (fun hle => ends_pure ⟨o, [⟨.send, o, data.length, n⟩], ?_⟩) fun hpos => ?_
      · refine ⟨Moves.one_failed data.length hle, rfl, ?_, fun h => ?_, fun _ hwhole => ?_, fun h => ?_,
          fun _ _ _ => ?_⟩
        · change g.sent ++ data.take n.toNat = _
          rw [Int.toNat_of_nonpos hle, Nat.sub_self, List.take_zero, List.take_zero]
        · simp [next, offer, h]
        · have hcount : n = data.length := hwhole _ (List.mem_singleton_self _)
          omega
        · have hfull : ¬n < data.length := by
            intro hcut
            simp [next, offer, hcut] at h
          omega
        · omega
      obtain ⟨k, rfl⟩ := Int.eq_ofNat_of_zero_le (not_le.1 hpos).le
      have hk : 0 < k ∧ k ≤ data.length := by omega
      refine ends_ite (fun hcut => ends_pure ⟨o + k, [⟨.send, o, data.length, k⟩], ?_⟩) fun hwhole => ?_
      · refine ⟨.one_took data.length hk.1, rfl, ?_, fun h => ?_, fun _ hwhole => ?_, fun h => ?_, fun _ _ _ => ?_⟩
        · change g.sent ++ data.take ((k : Int)).toNat = _
          rw [Int.toNat_natCast, Nat.add_sub_cancel_left, htaken k hk.2]
        · simp [next, offer, h]
        · have hcount : (k : Int) = data.length := hwhole _ (List.mem_singleton_self _)
          omega
        · simp [next, offer, hcut] at h
        · omega
      obtain rfl : k = data.length := by omega
      have hunsent : (g.unsent || decide ((data.length : Int) < data.length)) = g.unsent := by simp
      have hunread : (g.unread || decide (data = [])) = g.unread := by simp [hdata']
      simp only [next, hunsent, hunread, Int.toNat_natCast, offer_took]
      have hloop := ih (o + data.length) ⟨q.total_bytes + data.length, q.remaining - data.length⟩
        ({ g with
            files := Function.update g.files t.file_fd (some (l, (o : Int) + data.length)), held := o,
            reads := g.reads ++ [data] }.took [⟨.send, o, data.length, data.length⟩] (data.take data.length))
        (by simp [took]) hb (by simp only; omega) (by simp only; omega)
      apply hloop.mono ?_ fun _ => id
      rintro _ g' ⟨hi, ms, h⟩
      refine ⟨hi, _, .took data.length hsome h.run, ?_, ?_, h.unsent, fun hu hwhole => ?_, fun hu => ?_,
        fun m hm hne => ?_⟩
      · rw [h.moves, took, List.append_assoc]
        rfl
      · have hjoin := take_take_drop (b := b) (Nat.le_add_right o data.length) h.run.le
        rw [Nat.add_sub_cancel_left] at hjoin
        rw [h.sent, took, htaken _ le_rfl, List.append_assoc, hjoin]
      · exact h.all hu fun m hm => hwhole m (List.mem_cons_of_mem _ hm)
      · exact List.forall_mem_cons.2 ⟨rfl, h.whole hu⟩
      · rcases List.mem_cons.1 hm with rfl | hm
        · exact absurd rfl hne
        · exact h.cut m hm hne

lemma mmapFile_sent {o total : ℕ} {g : Storage} (hfile : g.files t.file_fd = some (l, p))
    (hb : g.fs.content l = b) :
    Ends (calls fun _ => True) (t.mmapFile b.length o total) (fun r g' => (r = none → g' = g) ∧ ∀ m, r = some m →
      ∃ hi mapped unsent ms, Moves .mapped o hi ms ∧ m.remaining = b.length - hi ∧
        g' = { g with mapped := mapped, unsent := g.unsent || unsent }.took ms ((b.drop o).take (hi - o)) ∧
        (m.remaining ≠ 0 → (hi = o ∨ unsent = true) ∧ ∃ m ∈ ms, m.count ≤ 0)) E g := by
  apply ends_call trivial
  intro mapped hmap
  cases mapped with
  | none => exact ends_pure ⟨fun _ => rfl, fun m h => by cases h⟩
  | some bytes =>
    obtain ⟨l', p', hfile', hbytes⟩ := hmap bytes rfl
    obtain ⟨rfl, rfl⟩ : l = l' ∧ p = p' := by simpa using hfile.symm.trans hfile'
    obtain rfl : bytes = b := by rw [hbytes, hb, List.take_length]
    have hremaining : ((bytes.length : Int) - o).toNat = bytes.length - o := by omega
    dsimp only
    rw [hremaining]
    apply ends_bind
    apply (mmapLoop_sent (t := t) (E := E) (bytes.length - o) o ⟨total, bytes.length - o⟩ g rfl le_rfl).mono
      ?_ fun _ => id
    rintro m g' ⟨hi, mapped, unsent, ms, hms, hleft, hg', hshort⟩
    apply ends_call trivial
    intro _ _
    refine ends_pure ⟨fun h => (by cases h), fun m' h => ?_⟩
    cases h
    refine ⟨hi, mapped, unsent, ms, hms, hleft, hg', fun h => ?_⟩
    exact ⟨(hshort h).1.imp_left And.left, (hshort h).2⟩

/-- What stream mode sends: by sendfile as far as `mid`, from the mapping on to `far`, and by `send`,
unless that was all, from `mid` on again. -/
structure Handed (b : Str) (o mid far hi : ℕ) (ms₁ ms₂ ms₃ : List Move) (g : Storage) : Prop where
  first : Moves .sendfile o mid ms₁
  second : Moves .mapped mid far ms₂
  third : Moves .send mid hi ms₃
  moves : g.moves = ms₁ ++ (ms₂ ++ ms₃)
  sent : g.sent = (b.drop o).take (mid - o) ++ ((b.drop mid).take (far - mid) ++ (b.drop mid).take (hi - mid))

structure Streamed (b : Str) (o mid far hi : ℕ) (ms₁ ms₂ ms₃ : List Move) (g : Storage) : Prop
    extends Handed b o mid far hi ms₁ ms₂ ms₃ g where
  ends : (ms₃ = [] ∧ hi = mid ∧ b.length ≤ far) ∨
    ((far = mid ∨ g.unsent = true ∧ ∃ m ∈ ms₂, m.count ≤ 0) ∧
      (g.unread = false → (∀ m ∈ ms₃, m.count = m.offered) → b.length ≤ hi) ∧
      (g.unsent = false → ∀ m ∈ ms₃, m.count = m.offered) ∧ ∀ m ∈ ms₃, m.count ≠ m.offered → hi < b.length)

lemma seekAndRead_sent (total : ℕ) {o mid far : ℕ} {ms₁ ms₂ : List Move} {g : Storage}
    (hfile : g.files t.file_fd = some (l, p)) (hb : g.fs.content l = b) (hfirst : Moves .sendfile o mid ms₁)
    (hsecond : Moves .mapped mid far ms₂) (hmoves : g.moves = ms₁ ++ ms₂)
    (hsent : g.sent = (b.drop o).take (mid - o) ++ (b.drop mid).take (far - mid))
    (hwhy : far = mid ∨ g.unsent = true ∧ ∃ m ∈ ms₂, m.count ≤ 0) :
    Ends (calls fun _ => True) (do
        let sought : Bool ← perform (.lseek t.file_fd mid)
        if !sought then return false
        else do
          t.makeBuffer
          let _ ← t.readLoop ((b.length : Int) - mid).toNat ⟨total, ((b.length : Int) - mid).toNat⟩
          return true : Io Bool)
      (fun sought g' => sought = true ∧ ∃ hi ms₃, Streamed b o mid far hi ms₁ ms₂ ms₃ g')
      (fun g' => Handed b o mid far mid ms₁ ms₂ [] g') g := by
  apply ends_call trivial
  intro sought hsought
  obtain rfl : sought = true := by
    rw [show sought = _ from hsought]
    simp [hfile]
  have hremaining : ((b.length : Int) - mid).toNat = b.length - mid := by omega
  have hseek : (g.seek t.file_fd mid).files t.file_fd = some (l, (mid : Int)) := by simp [seek, hfile]
  have hmoves' : (g.next (.lseek t.file_fd mid) true).moves = ms₁ ++ ms₂ := hmoves
  have hsent' : (g.next (.lseek t.file_fd mid) true).sent = (b.drop o).take (mid - o) ++ (b.drop mid).take
    (far - mid) := hsent
  rw [hremaining]
  apply ends_makeBuffer trivial (fun _ => rfl)
  · exact ⟨hfirst, hsecond, .nil mid, by simpa using hmoves', by simpa using hsent'⟩
  apply ends_bind
  apply (readLoop_sent (t := t) (b.length - mid) mid ⟨total, b.length - mid⟩ (g.seek t.file_fd mid) hseek hb rfl
    le_rfl).mono ?_ fun _ => id
  rintro _ g' ⟨hi, ms₃, h⟩
  refine ends_pure ⟨rfl, hi, ms₃, ⟨hfirst, hsecond, h.run, ?_, ?_⟩, .inr ⟨?_, h.all, h.whole, h.cut⟩⟩
  · rw [h.moves, ← List.append_assoc, ← hmoves]
    rfl
  · rw [h.sent, ← List.append_assoc, ← hsent]
    rfl
  · exact hwhy.imp_right (And.imp_left h.unsent)

lemma sendFile_sent (use_sendfile use_mmap : Bool) {o : ℕ} {g : Storage} (hfile : g.files t.file_fd = some (l, p))
    (hb : g.fs.content l = b) (hmoves : g.moves = []) (hsent : g.sent = []) :
    Ends (calls fun _ => True) (t.sendFile use_sendfile use_mmap b.length o)
      (fun sought g' => sought = true ∧ ∃ mid far hi ms₁ ms₂ ms₃, Streamed b o mid far hi ms₁ ms₂ ms₃ g')
      (fun g' => ∃ mid far ms₁ ms₂, Handed b o mid far mid ms₁ ms₂ [] g') g := by
  have hremaining : ((b.length : Int) - o).toNat = b.length - o := by omega
  have hfirst : Ends (calls fun _ => True) (if use_sendfile then
        t.sendfileLoop (b.length - o) o ⟨0, b.length - o⟩ else return (o, ⟨0, b.length - o⟩) : Io (Int × Progress))
      (fun r g' => ∃ hi ms, Moves .sendfile o hi ms ∧ r.1 = (hi : Int) ∧ r.2.remaining = b.length - hi ∧
        g' = g.took ms ((b.drop o).take (hi - o))) (fun g' => ∃ mid far ms₁ ms₂,
          Handed b o mid far mid ms₁ ms₂ [] g') g := by
    refine ends_ite (fun _ => sendfileLoop_sent _ o _ g hfile hb rfl) fun _ => ends_pure ?_
    exact ⟨o, [], .nil o, rfl, rfl, by simp [took_nil]⟩
  unfold sendFile
  dsimp only
  rw [hremaining]
  apply ends_bind
  apply hfirst.mono ?_ fun _ => id
  rintro ⟨_, q⟩ _ ⟨mid, ms₁, hms₁, rfl, hq, rfl⟩
  change q.remaining = b.length - mid at hq
  have hmoves₁ : (g.took ms₁ ((b.drop o).take (mid - o))).moves = ms₁ := by rw [took, hmoves, List.nil_append]
  have hsent₁ : (g.took ms₁ ((b.drop o).take (mid - o))).sent = (b.drop o).take (mid - o) := by
    rw [took, hsent, List.nil_append]
  refine ends_ite (fun hdone => ends_pure ⟨rfl, mid, mid, mid, ms₁, [], [], ?_⟩) fun _ => ?_
  · have hzero : q.remaining = 0 := by
      simp only [Bool.and_eq_true, decide_eq_true_eq] at hdone
      exact hdone.2.2
    refine ⟨⟨hms₁, .nil mid, .nil mid, by simpa using hmoves₁, by simpa using hsent₁⟩, .inl ⟨rfl, rfl, ?_⟩⟩
    omega
  have hsecond : Ends (calls fun _ => True) (if use_mmap = true ∧ 0 < b.length ∧ (mid : Int) < b.length then
        t.mmapFile b.length mid q.total_bytes else return none : Io (Option Progress))
      (fun r g' => ∃ far mapped unsent ms₂, Moves .mapped mid far ms₂ ∧
        g' = { g with mapped := mapped, unsent := g.unsent || unsent }.took (ms₁ ++ ms₂)
          ((b.drop o).take (mid - o) ++ (b.drop mid).take (far - mid)) ∧
        (r = none → far = mid) ∧ ∀ m, r = some m → m.remaining = b.length - far ∧
          (m.remaining ≠ 0 → (far = mid ∨ unsent = true) ∧ ∃ m ∈ ms₂, m.count ≤ 0))
      (fun g' => ∃ mid far ms₁ ms₂, Handed b o mid far mid ms₁ ms₂ [] g')
      (g.took ms₁ ((b.drop o).take (mid - o))) := by
    have hskip : ∃ far mapped unsent ms₂, Moves .mapped mid far ms₂ ∧ g.took ms₁ ((b.drop o).take (mid - o)) =
        { g with mapped := mapped, unsent := g.unsent || unsent }.took (ms₁ ++ ms₂)
          ((b.drop o).take (mid - o) ++ (b.drop mid).take (far - mid)) ∧ far = mid :=
      ⟨mid, g.mapped, false, [], .nil mid, by simp, rfl⟩
    refine ends_ite (fun _ => ?_) fun _ => ends_pure ?_
    · apply (mmapFile_sent (t := t) (g := g.took ms₁ ((b.drop o).take (mid - o))) hfile hb).mono ?_ fun _ => id
      rintro r g' ⟨hnone, hsome⟩
      cases r with
      | none =>
        obtain ⟨far, mapped, unsent, ms₂, hms₂, heq, hfar⟩ := hskip
        exact ⟨far, mapped, unsent, ms₂, hms₂, (hnone rfl).trans heq, fun _ => hfar, fun m h => by cases h⟩
      | some m =>
        obtain ⟨far, mapped, unsent, ms₂, hms₂, hm, rfl, hshort⟩ := hsome m rfl
        refine ⟨far, mapped, unsent, ms₂, hms₂, ?_, fun h => (by cases h), fun m' h => ?_⟩
        · simp only [took, List.append_assoc]
        · cases h
          exact ⟨hm, hshort⟩
    · obtain ⟨far, mapped, unsent, ms₂, hms₂, heq, hfar⟩ := hskip
      exact ⟨far, mapped, unsent, ms₂, hms₂, heq, fun _ => hfar, fun m h => by cases h⟩
  apply ends_bind
  apply hsecond.mono ?_ fun _ => id
  rintro r _ ⟨far, mapped, unsent, ms₂, hms₂, rfl, hnone, hsome⟩
  have hmoves₂ : ({ g with mapped := mapped, unsent := g.unsent || unsent }.took (ms₁ ++ ms₂)
      ((b.drop o).take (mid - o) ++ (b.drop mid).take (far - mid))).moves = ms₁ ++ ms₂ := by
    rw [took, hmoves, List.nil_append]
  have hsent₂ : ({ g with mapped := mapped, unsent := g.unsent || unsent }.took (ms₁ ++ ms₂)
      ((b.drop o).take (mid - o) ++ (b.drop mid).take (far - mid))).sent =
      (b.drop o).take (mid - o) ++ (b.drop mid).take (far - mid) := by
    rw [took, hsent, List.nil_append]
  have hread (total : ℕ) (hwhy : far = mid ∨ unsent = true ∧ ∃ m ∈ ms₂, m.count ≤ 0) :=
    seekAndRead_sent (t := t) (g := { g with mapped := mapped, unsent := g.unsent || unsent }.took (ms₁ ++ ms₂)
      ((b.drop o).take (mid - o) ++ (b.drop mid).take (far - mid))) total hfile hb hms₁ hms₂ hmoves₂ hsent₂
        (hwhy.imp_right fun h =>
      ⟨by simp [took, h.1], h.2⟩)
  have hlast (total : ℕ) (hwhy : far = mid ∨ unsent = true ∧ ∃ m ∈ ms₂, m.count ≤ 0) :
      Ends (calls fun _ => True) (do
        let sought : Bool ← perform (.lseek t.file_fd mid)
        if !sought then return false
        else do
          t.makeBuffer
          let _ ← t.readLoop ((b.length : Int) - mid).toNat ⟨total, ((b.length : Int) - mid).toNat⟩
          return true : Io Bool)
        (fun sought g' => sought = true ∧ ∃ mid far hi ms₁ ms₂ ms₃, Streamed b o mid far hi ms₁ ms₂ ms₃ g')
        (fun g' => ∃ mid far ms₁ ms₂, Handed b o mid far mid ms₁ ms₂ [] g')
        ({ g with mapped := mapped, unsent := g.unsent || unsent }.took (ms₁ ++ ms₂)
          ((b.drop o).take (mid - o) ++ (b.drop mid).take (far - mid))) := by
    apply (hread total hwhy).mono ?_ fun g' h => ⟨mid, far, ms₁, ms₂, h⟩
    rintro _ g' ⟨hsought, hi, ms₃, h⟩
    exact ⟨hsought, mid, far, hi, ms₁, ms₂, ms₃, h⟩
  cases r with
  | none => exact hlast _ (.inl (hnone rfl))
  | some m =>
    obtain ⟨hm, hshort⟩ := hsome m rfl
    refine ends_ite (fun hdone => ends_pure ⟨rfl, mid, far, mid, ms₁, ms₂, [], ?_⟩) fun hmore => hlast _ ?_
    · have hzero : m.remaining = 0 := by simpa using hdone
      refine ⟨⟨hms₁, hms₂, .nil mid, by simpa using hmoves₂, by simpa using hsent₂⟩, .inl ⟨rfl, rfl, ?_⟩⟩
      omega
    · obtain ⟨hwhy, hfailed⟩ := hshort (by simpa using hmore)
      exact hwhy.imp_right fun hu => ⟨hu, hfailed⟩

lemma Handed.sent_from {o mid far hi : ℕ} {ms₁ ms₂ ms₃ : List Move} {g : Storage}
    (h : Handed b o mid far hi ms₁ ms₂ ms₃ g) (honce : far = mid ∨ hi = mid) :
    g.sent = (b.drop o).take (max far hi - o) := by
  have hmid := h.first.le
  have hfar := h.second.le
  have hhi := h.third.le
  rcases honce with rfl | rfl
  · rw [h.sent, Nat.sub_self, List.take_zero, List.nil_append, take_take_drop hmid hhi, max_eq_right hhi]
  · rw [h.sent, Nat.sub_self, List.take_zero, List.append_nil, take_take_drop hmid hfar, max_eq_left hfar]

lemma Handed.congr {o mid far hi : ℕ} {ms₁ ms₂ ms₃ : List Move} {g g' : Storage}
    (h : Handed b o mid far hi ms₁ ms₂ ms₃ g)
    (hmoves : g'.moves = g.moves) (hsent : g'.sent = g.sent) : Handed b o mid far hi ms₁ ms₂ ms₃ g' :=
  ⟨h.first, h.second, h.third, hmoves.trans h.moves, hsent.trans h.sent⟩

lemma Streamed.congr {o mid far hi : ℕ} {ms₁ ms₂ ms₃ : List Move} {g g' : Storage}
    (h : Streamed b o mid far hi ms₁ ms₂ ms₃ g) (hmoves : g'.moves = g.moves) (hsent : g'.sent = g.sent)
    (hunread : g'.unread = g.unread) (hunsent : g'.unsent = g.unsent) :
    Streamed b o mid far hi ms₁ ms₂ ms₃ g' := by
  refine ⟨h.toHanded.congr hmoves hsent, ?_⟩
  rw [hunread, hunsent]
  exact h.ends

lemma sendCompressed_sent (data : Str) {g : Storage} :
    Ends (calls fun _ => True) (t.sendCompressed data) (fun ok g' =>
    ok = true ∧ (∃ ms, g' = g.took ms data) ∨ ok = false ∧ g'.unsent = true ∧ g'.reads = g.reads) E g := by
  refine ends_ite (fun hnil => ends_pure (.inl ⟨rfl, [], by rw [hnil, took_nil]⟩)) fun hdata => ?_
  apply ends_call trivial
  intro n hn
  have hn' : n ≤ data.length := hn
  by_cases hcut : n < data.length
  · refine ends_pure (.inr ⟨decide_eq_false hcut.ne, ?_, rfl⟩)
    simp [next, offer, hcut]
  · obtain rfl : n = data.length := by omega
    refine ends_pure (.inl ⟨decide_eq_true rfl, [⟨.send, g.held, data.length, data.length⟩], ?_⟩)
    simp [next, offer_took]

lemma deflateLoop_sent (zlib : Zlib) (fuel : ℕ) :
    ∀ (made : List (Str × Bool)) (o : ℕ) (q : Progress) (g : Storage),
    g.files t.file_fd = some (l, (o : Int)) → g.fs.content l = b → q.remaining = b.length - o →
      q.remaining ≤ fuel →
    Ends (calls fun _ => True) (t.deflateLoop zlib fuel made q) (fun r g' => ∃ cs, g'.reads = g.reads ++ cs ∧
      cs.flatten <+: b.drop o ∧
      (g.unsent = true → g'.unsent = true) ∧ (g'.unread = false → g'.unsent = false →
        Zlib.stream zlib.deflate made cs = none ∨ r.1 = true ∧ cs.flatten = b.drop o ∧
          ∃ out, g'.sent = g.sent ++ out ∧
          Zlib.stream zlib.deflate made cs = (zlib.deflate (r.2.1 ++ [([], true)])).map (out ++ ·))) E g := by
  induction fuel with
  | zero =>
    intro made o q g _ _ hq hfuel
    refine ends_pure ⟨[], by simp, List.nil_prefix, id, fun _ _ => ?_⟩
    refine .inr ⟨decide_eq_true (Nat.le_zero.1 hfuel), ?_, [], by simp, ?_⟩
    · rw [List.drop_eq_nil_of_le (by omega), List.flatten_nil]
    · simp [Zlib.stream]
  | succ fuel ih =>
    intro made o q g hfile hb hq hfuel
    refine ends_ite (fun hdone => ends_pure ⟨[], by simp, List.nil_prefix, id, fun _ _ => .inr ⟨rfl, ?_, [],
      by simp, ?_⟩⟩) fun hmore => ?_
    · rw [List.drop_eq_nil_of_le (by omega), List.flatten_nil]
    · simp [Zlib.stream]
    apply ends_throttle trivial
    apply ends_call trivial
    intro got hgot
    cases got with
    | none => exact ends_pure ⟨[], by simp [next], List.nil_prefix, id, fun h => by cases h⟩
    | some data =>
      obtain ⟨l', p', hfile', hdata⟩ := hgot data rfl
      obtain ⟨rfl, rfl⟩ : l = l' ∧ (o : Int) = p' := by simpa using hfile.symm.trans hfile'
      rw [hb, Int.toNat_natCast] at hdata
      obtain ⟨rest, hrest⟩ := hdata.trans (List.take_prefix _ _)
      have hleft : b.drop (o + data.length) = rest := by
        rw [← List.drop_drop, ← hrest, List.drop_left]
      have hrange : data.length ≤ b.length - o := by
        have hlen := congrArg List.length hrest
        rw [List.length_append, List.length_drop] at hlen
        omega
      have hone : [data].flatten <+: b.drop o := ⟨rest, by rw [List.flatten_singleton, hrest]⟩
      rw [next_read hfile]
      refine ends_ite (fun hnil => ends_pure ⟨[data], rfl, hone, id, fun h => ?_⟩) fun hdata' => ?_
      · simp [hnil] at h
      have hsome : 0 < data.length := List.length_pos_of_ne_nil hdata'
      dsimp only
      cases hz : zlib.deflate (made ++ [(data, false)]) with
      | none => exact ends_pure ⟨[data], rfl, hone, id, fun _ _ => .inl (by simp [Zlib.stream, hz])⟩
      | some compressed =>
        have hread : (g.unread || decide (data = [])) = g.unread := by simp [hdata']
        rw [hread]
        apply ends_bind
        apply (sendCompressed_sent compressed).mono ?_ fun _ => id
        rintro ok g₁ (⟨rfl, ms, rfl⟩ | ⟨rfl, hunsent, hreads⟩)
        · have hloop := ih (made ++ [(data, false)]) (o + data.length)
            ⟨q.total_bytes + compressed.length, q.remaining - data.length⟩ ({ g with
              files := Function.update g.files t.file_fd (some (l, (o : Int) + data.length)), held := o,
              reads := g.reads ++ [data] }.took ms compressed) (by simp [took]) hb (by simp only; omega)
                (by simp only; omega)
          apply hloop.mono ?_ fun _ => id
          rintro r g' ⟨cs, hreads, hpart, hkept, h⟩
          have hpart' : (data :: cs).flatten <+: b.drop o := by
            rw [List.flatten_cons, ← hrest]
            exact (List.prefix_append_right_inj data).2 (hleft ▸ hpart)
          refine ⟨data :: cs, by rw [hreads]; simp [took], hpart', hkept, fun hu hs => ?_⟩
          have hstream : Zlib.stream zlib.deflate made (data :: cs) =
              (Zlib.stream zlib.deflate (made ++ [(data, false)]) cs).map (compressed ++ ·) := by
            simp [Zlib.stream, hz]
          rcases h hu hs with hnone | ⟨hr, hcs, out, hsent, hout⟩
          · exact .inl (by rw [hstream, hnone, Option.map_none])
          · refine .inr ⟨hr, by rw [List.flatten_cons, hcs, hleft, hrest], compressed ++ out, ?_, ?_⟩
            · rw [hsent, took, List.append_assoc]
            · rw [hstream, hout, Option.map_map]
              refine congrArg (Option.map · _) (funext fun x => ?_)
              exact (List.append_assoc compressed out x).symm
        · refine ends_pure ⟨[data], hreads, hone, fun _ => hunsent, fun _ hs => ?_⟩
          exact absurd (hs.symm.trans hunsent) (by decide)

lemma deflateFile_sent (zlib : Zlib) {o : ℕ} {q : Progress} {g : Storage}
    (hfile : g.files t.file_fd = some (l, (o : Int)))
    (hb : g.fs.content l = b) (hq : q.remaining = b.length - o) :
    Ends (calls fun _ => True) (t.deflateFile zlib q) (fun _ g' => ∃ cs, g'.reads = g.reads ++ cs ∧
      cs.flatten <+: b.drop o ∧
      (g'.unread = false → g'.unsent = false → Zlib.stream zlib.deflate [] cs = none ∨
        cs.flatten = b.drop o ∧ ∃ out, g'.sent = g.sent ++ out ∧ Zlib.stream zlib.deflate [] cs = some out))
          (fun _ => True) g := by
  apply ends_makeBuffer trivial (fun _ => rfl) trivial
  apply ends_bind
  apply (deflateLoop_sent zlib q.remaining [] o q g hfile hb hq le_rfl).mono ?_ fun _ => id
  rintro ⟨ok, made, q'⟩ g₁ ⟨cs, hreads, hpart, -, h⟩
  cases ok with
  | false =>
    refine ends_pure ⟨cs, hreads, hpart, fun hu hs => ?_⟩
    rcases h hu hs with hnone | ⟨hok, _⟩
    · exact .inl hnone
    · cases hok
  | true =>
    dsimp only
    cases hz : zlib.deflate (made ++ [([], true)]) with
    | none =>
      refine ends_pure ⟨cs, hreads, hpart, fun hu hs => ?_⟩
      rcases h hu hs with hnone | ⟨_, _, out, _, hout⟩
      · exact .inl hnone
      · exact .inl (by rw [hout, hz, Option.map_none])
    | some compressed =>
      apply ends_bind
      apply (sendCompressed_sent compressed).mono ?_ fun _ => id
      rintro ok g' (⟨rfl, ms, rfl⟩ | ⟨rfl, hunsent, hreads'⟩)
      · refine ends_pure ⟨cs, hreads, hpart, fun hu hs => ?_⟩
        rcases h hu hs with hnone | ⟨_, hcs, out, hsent, hout⟩
        · exact .inl hnone
        · refine .inr ⟨hcs, out ++ compressed, ?_, by rw [hout, hz, Option.map_some]⟩
          rw [took, hsent, List.append_assoc]
      · refine ends_pure ⟨cs, hreads'.trans hreads, hpart, fun _ hs => ?_⟩
        exact absurd (hs.symm.trans hunsent) (by decide)

/-- A start before the file: sendfile moves nothing, and nothing is read. What the mapping takes from
there is not of the file. -/
structure Astray (g : Storage) : Prop where
  mapped : ∀ m ∈ g.moves, m.way ≠ .send
  outside : (∃ m ∈ g.moves, 0 < m.count) → ∃ m ∈ g.moves, m.way = .mapped ∧ 0 < m.count ∧ m.place < 0
  nothing : (∀ m ∈ g.moves, m.count ≤ 0) → g.sent = []

lemma Astray.congr {g g' : Storage} (h : Astray g) (hmoves : g'.moves = g.moves) (hsent : g'.sent = g.sent) :
    Astray g' := by
  obtain ⟨hmapped, houtside, hnothing⟩ := h
  rw [← hmoves] at hmapped houtside hnothing
  exact ⟨hmapped, houtside, fun hall => hsent.trans (hnothing hall)⟩

lemma mmapLoop_astray (fuel : ℕ) : ∀ (index : Int) (q : Progress) (g : Storage),
    Ends (calls fun _ => True) (t.mmapLoop b fuel index q) (fun _ g' => ∃ ms, g'.moves = g.moves ++ ms ∧
      (∀ m ∈ ms, m.way = .mapped) ∧
      ((∃ m ∈ ms, 0 < m.count) → ∃ m ∈ ms, 0 < m.count ∧ m.place = index) ∧
      ((∀ m ∈ ms, m.count ≤ 0) → g'.sent = g.sent)) E g := by
  induction fuel with
  | zero => exact fun index q g => ends_pure ⟨[], by simp, by simp, by simp, fun _ => rfl⟩
  | succ fuel ih =>
    intro index q g
    refine ends_ite (fun _ => ends_pure ⟨[], by simp, by simp, by simp, fun _ => rfl⟩) fun _ => ?_
    apply ends_throttle trivial
    apply ends_call trivial
    intro n _
    refine ends_ite (fun hle => ends_pure ?_) fun hpos => ?_
    · refine ⟨[⟨.mapped, index, _, n⟩], rfl, by simp, fun ⟨m, hm, hpos⟩ => ⟨m, hm, hpos, ?_⟩, fun _ => ?_⟩
      · rw [List.mem_singleton.1 hm]
      · simp [next, offer, Int.toNat_of_nonpos hle]
    · apply (ih _ _ _).mono ?_ fun _ => id
      rintro _ g' ⟨ms, hmoves, hways, _, _⟩
      refine ⟨_ :: ms, hmoves.trans (List.append_assoc g.moves [⟨.mapped, index, _, n⟩] ms), ?_, fun _ => ?_,
        fun hall => ?_⟩
      · exact List.forall_mem_cons.2 ⟨rfl, hways⟩
      · exact ⟨_, List.mem_cons_self, not_le.1 hpos, rfl⟩
      · exact absurd (hall _ List.mem_cons_self) hpos

lemma sendfileLoop_astray (fuel : ℕ) {o : Int} (ho : o < 0) (q : Progress) (g : Storage) :
    Ends (calls fun _ => True) (t.sendfileLoop fuel o q) (fun r g' => r.1 = o ∧ g'.sent = g.sent ∧
      ∃ ms, g'.moves = g.moves ++ ms ∧ ∀ m ∈ ms, m.way = .sendfile ∧ m.count ≤ 0) E g := by
  have hnone {q : Progress} : Ends (calls fun _ => True) (return (o, q) : Io (Int × Progress))
    (fun r g' => r.1 = o ∧
      g'.sent = g.sent ∧ ∃ ms, g'.moves = g.moves ++ ms ∧ ∀ m ∈ ms, m.way = .sendfile ∧ m.count ≤ 0) E g :=
    ends_pure ⟨rfl, rfl, [], by simp, by simp⟩
  cases fuel with
  | zero => exact hnone
  | succ fuel =>
    refine ends_ite (fun _ => hnone) fun _ => ?_
    apply ends_throttle trivial
    apply ends_call trivial
    intro n hn
    have hle : n ≤ 0 := by
      by_contra hpos
      have hstart : 0 ≤ o := (hn (not_le.1 hpos)).1
      omega
    dsimp only
    rw [if_pos hle]
    refine ends_pure ⟨rfl, ?_⟩
    simp only [next]
    split <;> refine ⟨?_, [⟨.sendfile, o, _, n⟩], rfl, ?_⟩ <;> simp [offer, Int.toNat_of_nonpos hle, hle]

lemma sendFile_astray (use_sendfile use_mmap : Bool) (size : ℕ) {o : Int} (ho : o < 0) {g : Storage}
    (hmoves : g.moves = []) (hsent : g.sent = []) :
    Ends (calls fun _ => True) (t.sendFile use_sendfile use_mmap size o) (fun _ g' => Astray g') E g := by
  have hseek {g₁ : Storage} (h : Astray g₁) {f : Bool → Io Bool} : Ends (calls fun _ => True) (do
      let sought : Bool ← perform (.lseek t.file_fd o)
      if !sought then return false else f sought : Io Bool) (fun _ g' => Astray g') E g₁ := by
    apply ends_call trivial
    intro sought hsought
    obtain rfl : sought = false := by
      exact hsought.trans (decide_eq_false fun h => absurd h.1 (not_le.2 ho))
    exact ends_pure h
  have hfirst : Ends (calls fun _ => True) (if use_sendfile then
        t.sendfileLoop (size - o).toNat o ⟨0, (size - o).toNat⟩ else return (o, ⟨0, (size - o).toNat⟩) :
          Io (Int × Progress))
      (fun r g' => r.1 = o ∧ g'.sent = [] ∧ ∀ m ∈ g'.moves, m.way = .sendfile ∧ m.count ≤ 0) E g := by
    refine ends_ite (fun _ => ?_) fun _ => ends_pure ⟨rfl, hsent, by simp [hmoves]⟩
    apply (sendfileLoop_astray _ ho _ g).mono ?_ fun _ => id
    rintro r g' ⟨hr, hsent', ms, hms, hall⟩
    refine ⟨hr, hsent'.trans hsent, ?_⟩
    rw [hms, hmoves]
    exact hall
  unfold sendFile
  dsimp only
  apply ends_bind
  apply hfirst.mono ?_ fun _ => id
  rintro ⟨o', q⟩ g₁ ⟨hfrom, hsent₁, hmoves₁⟩
  obtain rfl : o = o' := hfrom.symm
  have hnothing : Astray g₁ := by
    refine ⟨fun m hm => ?_, fun ⟨m, hm, hpos⟩ => ?_, fun _ => hsent₁⟩
    · simp [(hmoves₁ m hm).1]
    · exact absurd hpos (not_lt.2 (hmoves₁ m hm).2)
  refine ends_ite (fun _ => ends_pure hnothing) fun _ => ?_
  apply ends_bind
  have hsecond : Ends (calls fun _ => True) (if use_mmap = true ∧ 0 < size ∧ o < size then
      t.mmapFile size o q.total_bytes else return none : Io (Option Progress)) (fun _ g' => Astray g') E g₁ := by
    refine ends_ite (fun _ => ?_) fun _ => ends_pure hnothing
    apply ends_call trivial
    intro mapped _
    cases mapped with
    | none => exact ends_pure hnothing
    | some bytes =>
      apply ends_bind
      apply (mmapLoop_astray (b := bytes) _ _ _ g₁).mono ?_ fun _ => id
      rintro _ g' ⟨ms, hms, hways, hplace, hsent'⟩
      apply ends_call trivial
      intro _ _
      refine ends_pure ⟨fun m hm => ?_, fun ⟨m, hm, hpos⟩ => ?_, fun hall => ?_⟩
      · change m ∈ g'.moves at hm
        rw [hms] at hm
        rcases List.mem_append.1 hm with hm | hm
        · simp [(hmoves₁ m hm).1]
        · simp [hways m hm]
      · change m ∈ g'.moves at hm
        rw [hms] at hm
        rcases List.mem_append.1 hm with hm | hm
        · exact absurd hpos (not_lt.2 (hmoves₁ m hm).2)
        · obtain ⟨m', hm', hpos', hplace'⟩ := hplace ⟨m, hm, hpos⟩
          have hin : m' ∈ g'.moves := by
            rw [hms]
            exact List.mem_append_right _ hm'
          exact ⟨m', hin, hways m' hm', hpos', hplace'.trans_lt ho⟩
      · refine (hsent' fun m hm => hall m ?_).trans hsent₁
        change m ∈ g'.moves
        rw [hms]
        exact List.mem_append_right _ hm
  apply hsecond.mono ?_ fun _ => id
  intro r g₂ hg₂
  cases r with
  | none => exact hseek hg₂
  | some m => exact ends_ite (fun _ => ends_pure hg₂) fun _ => hseek hg₂

end Retrieval

namespace Session

variable {env : Service} {s : Session} {g : Storage} {fs : FileSystem} {path : Str} {l : Location} {b : Str}
    {E : Storage → Prop}

/-- What RETR makes of its file: in stream mode the data connection takes it from the restart position
on, in MODE Z, unless something falls short, what the stream makes of it. -/
structure Delivers (env : Service) (s : Session) (b : Str) (g : Storage) : Prop where
  stream : s.transferModeZ = false → 0 ≤ s.resume_position_ →
    (g.moves = [] ∧ g.sent = [] ∧ b.length ≤ s.resume_position_.toNat) ∨
      ∃ mid far hi ms₁ ms₂ ms₃, Retrieval.Streamed b s.resume_position_.toNat mid far hi ms₁ ms₂ ms₃ g
  reads : s.transferModeZ = true → g.reads.flatten <+: b
  compressed : s.transferModeZ = true → s.resume_position_ = 0 ∧ (g.unread = false → g.unsent = false →
    Zlib.stream env.zlib.deflate [] g.reads = none ∨
      g.reads.flatten = b ∧ Zlib.stream env.zlib.deflate [] g.reads = some g.sent)

lemma Delivers.whole (h : s.Delivers env b g) (hmode : s.transferModeZ = false) (hpos : 0 ≤ s.resume_position_)
    (hunread : g.unread = false) (hunsent : g.unsent = false) : g.sent = b.drop s.resume_position_.toNat := by
  rcases h.stream hmode hpos with ⟨_, hsent, hlen⟩ | ⟨mid, far, hi, ms₁, ms₂, ms₃, h⟩
  · rw [hsent, List.drop_eq_nil_of_le hlen]
  · have hall {n : ℕ} (hn : b.length ≤ n) : (b.drop s.resume_position_.toNat).take (n - s.resume_position_.toNat) =
        b.drop s.resume_position_.toNat := by
      apply List.take_of_length_le
      rw [List.length_drop]
      omega
    rcases h.ends with ⟨_, hhi, hlen⟩ | ⟨hfar, hlen, hwhole, _⟩
    · rw [h.sent_from (.inr hhi), hall (le_max_of_le_left hlen)]
    · have hfar : far = mid := hfar.resolve_right fun hu => absurd (hunsent.symm.trans hu.1) (by decide)
      rw [h.sent_from (.inl hfar), hall (le_max_of_le_right (hlen hunread (hwhole hunsent)))]

lemma Delivers.congr {g' : Storage} (h : s.Delivers env b g) (hreads : g'.reads = g.reads)
    (hmoves : g'.moves = g.moves)
    (hsent : g'.sent = g.sent) (hunread : g'.unread = g.unread) (hunsent : g'.unsent = g.unsent) :
    s.Delivers env b g' := by
  refine ⟨fun hz hpos => ?_, fun hz => hreads ▸ h.reads hz, fun hz => ⟨(h.compressed hz).1, fun hu hs => ?_⟩⟩
  · rcases h.stream hz hpos with ⟨hm, hs, hlen⟩ | ⟨mid, far, hi, ms₁, ms₂, ms₃, h⟩
    · exact .inl ⟨hmoves.trans hm, hsent.trans hs, hlen⟩
    · exact .inr ⟨mid, far, hi, ms₁, ms₂, ms₃, h.congr hmoves hsent hunread hunsent⟩
  · rw [hsent, hreads]
    exact (h.compressed hz).2 (hunread ▸ hu) (hunsent ▸ hs)

def Halts (fs : FileSystem) (path : Str) (start : ℕ) (g : Storage) : Prop :=
  ∃ l b, fs.openRead path = .ok l ∧ fs.node l = some (.regular b) ∧
    ∃ mid far ms₁ ms₂, Retrieval.Handed b start mid far mid ms₁ ms₂ [] g

lemma Halts.congr {fs : FileSystem} {path : Str} {start : ℕ} {g g' : Storage} (h : Halts fs path start g)
    (hmoves : g'.moves = g.moves) (hsent : g'.sent = g.sent) : Halts fs path start g' := by
  obtain ⟨l, b, hl, hn, mid, far, ms₁, ms₂, hhanded⟩ := h
  exact ⟨l, b, hl, hn, mid, far, ms₁, ms₂, hhanded.congr hmoves hsent⟩

/-- How RETR comes out: the tree is as it was, and on 226 a file has been opened. Else nothing is sent in stream
mode unless the memory runs out, and for a start before the file nothing of the file ever is. -/
structure Fetch (env : Service) (s : Session) (fs : FileSystem) (path : Str) (success : Prop) (g : Storage) :
    Prop where
  kept : g.fs = fs
  done : success → ∃ l b, fs.openRead path = .ok l ∧ fs.node l = some (.regular b) ∧ s.Delivers env b g
  refused : ¬success → s.transferModeZ = false → 0 ≤ s.resume_position_ → g.moves = [] ∧ g.sent = [] ∨
    Halts fs path s.resume_position_.toNat g
  astray : s.transferModeZ = false → s.resume_position_ < 0 → Retrieval.Astray g

lemma sendOpened_sent (env : Service) (data_fd : Fd) {file_fd : Fd} (start_time : ℕ)
    (hfile : g.files file_fd = some (l, 0))
    (hb : g.fs.content l = b) (hz : s.transferModeZ = true → s.resume_position_ ≤ 0) (hreads : g.reads = [])
    (hmoves : g.moves = []) (hsent : g.sent = []) :
    Ends (calls fun _ => True) (s.sendOpened env data_fd file_fd start_time b.length) (fun r g' =>
      (r.1 = 226 → s.Delivers env b g') ∧ (r.1 ≠ 226 → s.transferModeZ = false → s.resume_position_ < 0) ∧
        (s.transferModeZ = false → s.resume_position_ < 0 → Retrieval.Astray g'))
      (fun g' => s.transferModeZ = false →
        0 ≤ s.resume_position_ ∧ ∃ mid far ms₁ ms₂, Retrieval.Handed b s.resume_position_.toNat mid far mid
          ms₁ ms₂ [] g') g := by
  unfold sendOpened
  dsimp only
  refine ends_ite (fun hmode => ?_) fun hmode => ?_
  · have hcompressed {code : ℕ} {text : Str} {g' : Storage} (h : code = 226 → s.Delivers env b g') :
        Ends (calls fun _ => True) (pure (code, text) : Io (ℕ × Str))
          (fun r g' => (r.1 = 226 → s.Delivers env b g') ∧
          (r.1 ≠ 226 → s.transferModeZ = false → s.resume_position_ < 0) ∧
          (s.transferModeZ = false → s.resume_position_ < 0 → Retrieval.Astray g'))
          (fun g' => s.transferModeZ = false → 0 ≤ s.resume_position_ ∧
            ∃ mid far ms₁ ms₂, Retrieval.Handed b s.resume_position_.toNat mid far mid ms₁ ms₂ [] g') g' :=
      ends_pure ⟨h, fun _ hno => absurd (hno.symm.trans hmode) (by decide),
        fun hno => absurd (hno.symm.trans hmode) (by decide)⟩
    apply ends_call trivial
    intro sought hsought
    cases sought with
    | false => exact hcompressed fun h => absurd h (by decide)
    | true =>
      have hstart : 0 ≤ s.resume_position_ ∧ (g.files file_fd).isSome := of_decide_eq_true (Eq.symm hsought)
      have hzero : s.resume_position_ = 0 := le_antisymm (hz hmode) hstart.1
      apply ends_call trivial
      intro valid _
      cases valid with
      | false => exact hcompressed fun h => absurd h (by decide)
      | true =>
        have hdeflate := Retrieval.deflateFile_sent
          (t := ⟨data_fd, file_fd, env.bufferSize, env.config_.rate_limit.max_transfer_rate, start_time⟩)
            env.zlib (o := 0)
          (q := ⟨0, ((b.length : Int) - s.resume_position_).toNat⟩)
          (g := { g.seek file_fd s.resume_position_ with prepared := g.prepared || true })
          (by simp [seek, hfile, hzero]) hb (by simp [hzero])
        apply ends_bind
        apply hdeflate.mono ?_ fun _ _ hno => absurd (hno.symm.trans hmode) (by decide)
        rintro _ g' ⟨cs, hcs, hpart, h⟩
        have hall : g'.reads = cs := by
          rw [hcs]
          exact (congrArg (· ++ cs) hreads).trans (List.nil_append cs)
        refine hcompressed fun _ => ⟨fun hno => absurd (hno.symm.trans hmode) (by decide), fun _ => hall ▸ hpart,
          fun _ => ⟨hzero, fun hu hs => ?_⟩⟩
        rw [hall]
        apply (h hu hs).imp_right
        rintro ⟨hb, out, hout, hstream⟩
        refine ⟨hb, ?_⟩
        rw [hstream, hout]
        exact congrArg some ((List.nil_append out).symm.trans (congrArg (· ++ out) hsent.symm))
  · have hmode' : s.transferModeZ = false := by simpa using hmode
    by_cases hpos : 0 ≤ s.resume_position_
    · have hstart : s.resume_position_ = (s.resume_position_.toNat : Int) := (Int.toNat_of_nonneg hpos).symm
      rw [hstart]
      apply ends_bind
      apply (Retrieval.sendFile_sent (o := s.resume_position_.toNat)
        (t := ⟨data_fd, file_fd, env.bufferSize, env.config_.rate_limit.max_transfer_rate, start_time⟩)
        env.sendsFiles env.config_.transfer.use_mmap hfile hb hmoves hsent).mono ?_ fun g' h _ => ⟨by omega, h⟩
      rintro _ g' ⟨rfl, hstreamed⟩
      refine ends_pure ⟨fun _ => ⟨fun _ _ => .inr hstreamed, fun h => ?_, fun h => ?_⟩, fun h => absurd rfl h,
        fun _ h => ?_⟩
      · exact absurd (hmode'.symm.trans h) (by decide)
      · exact absurd (hmode'.symm.trans h) (by decide)
      · omega
    · apply ends_bind
      apply (Retrieval.sendFile_astray
        (t := ⟨data_fd, file_fd, env.bufferSize, env.config_.rate_limit.max_transfer_rate, start_time⟩)
        env.sendsFiles env.config_.transfer.use_mmap b.length (not_le.1 hpos) hmoves hsent).mono ?_ fun _ => id
      intro sought g' hastray
      refine ends_pure ⟨fun _ => ⟨fun _ h => absurd h hpos, fun h => ?_, fun h => ?_⟩,
        fun _ _ => not_le.1 hpos, fun _ _ => hastray⟩
      · exact absurd (hmode'.symm.trans h) (by decide)
      · exact absurd (hmode'.symm.trans h) (by decide)

lemma Fetch.nothing {success : Prop} (hfail : ¬success) (hfs : g.fs = fs) (hmoves : g.moves = [])
    (hsent : g.sent = []) :
    s.Fetch env fs path success g :=
  ⟨hfs, fun h => absurd h hfail, fun _ _ _ => .inl ⟨hmoves, hsent⟩,
    fun _ _ => ⟨by simp [hmoves], by simp [hmoves], fun _ => hsent⟩⟩

lemma retrieveTo_sent (env : Service) (path : Str) (data_fd : Fd)
    (hz : s.transferModeZ = true → s.resume_position_ ≤ 0)
    (hreads : g.reads = []) (hmoves : g.moves = []) (hsent : g.sent = []) :
    Ends (calls fun _ => True) (s.retrieveTo env data_fd path) (fun r g' => (r.1 = 226 → r.2.2 = true) ∧
      (g'.fs = g.fs → s.Fetch env g.fs path (r.1 = 226) g'))
      (fun g' => g'.fs = g.fs → ∀ {success : Prop}, ¬success → s.Fetch env g.fs path success g') g := by
  have hrefuse {code : ℕ} {text : Str} {used : Bool} {g₁ : Storage} (fds : List Fd) (hcode : code ≠ 226)
      (hmoves₁ : g₁.moves = []) (hsent₁ : g₁.sent = []) :
      Ends (calls fun _ => True) (fds.foldr (fun fd p => perform (.close fd) >>= fun _ => p)
        (return (code, text, used) : Io (ℕ × Str × Bool))) (fun r g' => (r.1 = 226 → r.2.2 = true) ∧
        (g'.fs = g.fs → s.Fetch env g.fs path (r.1 = 226) g'))
        (fun g' => g'.fs = g.fs → ∀ {success : Prop}, ¬success → s.Fetch env g.fs path success g') g₁ := by
    induction fds generalizing g₁ with
    | nil => exact ends_pure ⟨fun h => absurd h hcode, fun hfs => .nothing hcode hfs hmoves₁ hsent₁⟩
    | cons fd fds ih => exact ends_call trivial fun _ _ => ih hmoves₁ hsent₁
  apply ends_call trivial
  intro start_time _
  apply ends_call trivial
  intro chosen hchosen
  cases chosen with
  | none => exact hrefuse [data_fd] (by decide) hmoves hsent
  | some file_fd =>
    obtain ⟨_, l, hl⟩ := hchosen file_fd rfl
    apply ends_call trivial
    intro st hst
    have hfile : (g.next (.openRead path) (some file_fd)).files file_fd = some (l, 0) := by
      have hl' : g.fs.openRead path = .ok l := hl
      simp [next, Storage.opened, hl']
    have hfound : st = stat g.fs (some (l, 0)) := by
      rw [← hfile]
      exact hst
    change st = (g.fs.node l).map _ at hfound
    rcases hn : g.fs.node l with _ | n
    · rw [hn] at hfound
      subst hfound
      exact hrefuse [file_fd, data_fd] (by decide) hmoves hsent
    rw [hn] at hfound
    cases n with
    | regular b =>
      subst hfound
      change Ends _ (if 0 < s.resume_position_ ∧ (b.length : Int) ≤ s.resume_position_ then _ else _) _ _ _
      refine ends_ite (fun hpast => ?_) fun _ => ?_
      · apply ends_call trivial
        intro _ _
        apply ends_call trivial
        intro _ _
        refine ends_pure ⟨fun _ => rfl,
          fun hfs => ⟨hfs, fun _ => ⟨l, b, hl, hn, fun _ _ => .inl ⟨hmoves, hsent, ?_⟩, fun hmode => ?_,
          fun hmode => ?_⟩,
          fun h => absurd rfl h, fun _ h => ?_⟩⟩
        · omega
        · exact absurd (hz hmode) (not_le.2 hpast.1)
        · exact absurd (hz hmode) (not_le.2 hpast.1)
        · omega
      · have hopened := sendOpened_sent (g := g.next (.openRead path) (some file_fd)) env data_fd start_time hfile
          (FileSystem.content_regular hn) hz hreads hmoves hsent
        apply ends_bind
        apply hopened.mono
        swap
        · intro g' hhands hfs success hfail
          refine ⟨hfs, fun h => absurd h hfail, fun _ hmode _ => .inr ⟨l, b, hl, hn, (hhands hmode).2⟩,
            fun hmode hneg => ?_⟩
          exact absurd (hhands hmode).1 (not_le.2 hneg)
        rintro ⟨code, text⟩ g' ⟨hdone, hrefused, hastray⟩
        apply ends_call trivial
        intro _ _
        apply ends_call trivial
        intro _ _
        refine ends_pure ⟨decide_eq_true, fun hfs => ⟨hfs, fun hcode => ?_, fun hcode hmode hpos => ?_,
          fun hmode hpos => (hastray hmode hpos).congr rfl rfl⟩⟩
        · exact ⟨l, b, hl, hn, (hdone hcode).congr rfl rfl rfl rfl rfl⟩
        · exact absurd (hrefused hcode hmode) (not_lt.2 hpos)
    | directory | symlink | other =>
      subst hfound
      exact hrefuse [file_fd, data_fd] (by decide) hmoves hsent

lemma handleRETR_storage (hs : s.socket_ ≠ none) (hg : Fresh g) (name : Str) :
    Ends (calls fun _ => True) (s.handleRETR env name)
      (fun s' g' => (g'.completed = true → s'.resume_position_ = 0) ∧
        s.Fetch env g.fs (s.resolvePath g.fs name) (g'.completed = true) g')
      (fun g' => s.Fetch env g.fs (s.resolvePath g.fs name) (g'.completed = true) g') g := by
  have hfetch {g' : Storage} (hfs : g'.fs = g.fs) (hcompleted : g'.completed = false) (hmoves : g'.moves = [])
      (hsent : g'.sent = []) : s.Fetch env g.fs (s.resolvePath g.fs name) (g'.completed = true) g' :=
    .nothing (fun h => absurd (hcompleted.symm.trans h) (by decide)) hfs hmoves hsent
  have hnone : s.Fetch env g.fs (s.resolvePath g.fs name) (g.completed = true) g :=
    hfetch rfl hg.completed hg.moves hg.sent
  have hidle {s' : Session} : g.completed = true → s'.resume_position_ = 0 :=
    fun h => absurd (hg.completed.symm.trans h) (by decide)
  have hrefuse {code : ℕ} {text : Str} (s' : Session) (hcode : code ≠ 226) :
      Ends (calls fun _ => True) (s.reply code text >>= fun _ => pure s') (fun s' g' =>
        (g'.completed = true → s'.resume_position_ = 0) ∧
          s.Fetch env g.fs (s.resolvePath g.fs name) (g'.completed = true) g')
        (fun g' => s.Fetch env g.fs (s.resolvePath g.fs name) (g'.completed = true) g') g := by
    apply ends_return hs fun _ => trivial
    rw [replied_other hcode]
    exact ⟨hidle, hnone⟩
  apply ends_call trivial
  intro fs hfs
  obtain rfl : fs = g.fs := hfs
  refine ends_ite (fun _ => hrefuse s (by decide)) fun _ => ?_
  refine ends_ite (fun _ => hrefuse s (by decide)) fun _ => ?_
  apply ends_call trivial
  intro found _
  apply ends_orThrow
  swap
  · exact fun _ _ => hnone
  intro found _
  refine ends_ite (fun _ => hrefuse s (by decide)) fun _ => ?_
  apply ends_bind
  apply modeZRefusal_storage hs fun _ => trivial
  · exact fun s' => ends_pure ⟨hidle, hnone⟩
  intro hz
  apply ends_reply_bind hs fun _ => trivial
  rw [replied_other (by decide)]
  apply ends_accept
  · exact fun _ _ => trivial
  intro accepted d files
  rcases accepted with _ | ⟨data_fd, peer⟩
  · apply ends_return (s := { s with data := d }) hs fun _ => trivial
    rw [replied_other (by decide)]
    exact ⟨hidle, hfetch rfl hg.completed hg.moves hg.sent⟩
  · have hwithin : (({ s with data := d } : Session).retrieveTo env data_fd (s.resolvePath g.fs name)).Within
        (Kinds [.memory, .openRead, .close, .transfer, .clock]) fun _ => True :=
          retrieveTo_within (List.Subset.refl _) _ _
    have hsent := retrieveTo_sent (s := { s with data := d }) (g :=
      { g with files := files, peers := g.peers ++ [peer] }) env
      (s.resolvePath g.fs name) data_fd hz hg.reads hg.moves hg.sent
    have hkept := ends_kept (g := { g with files := files, peers := g.peers ++ [peer] }) hwithin (by simp)
    apply ends_bind
    apply (hsent.and hkept).mono
    swap
    · rintro g' ⟨hfetched, hfs, hcompleted⟩
      have hfail : ¬g'.completed = true := by simp [hcompleted, hg.completed]
      obtain ⟨hfs, _, hrefused, hastray⟩ := hfetched hfs hfail
      exact ⟨hfs, fun h => absurd h hfail, hrefused, hastray⟩
    rintro ⟨code, text, used⟩ g' ⟨⟨hused, hfetched⟩, hfs, hcompleted⟩
    obtain ⟨hfs, hdone, hrefused, hastray⟩ := hfetched hfs
    apply ends_return (s := { s with data := d }) hs fun _ => trivial
    have hsuccess : (g'.replied code).completed = true ↔ code = 226 := by
      simp [replied, hcompleted, hg.completed]
    refine ⟨fun h => ?_, hfs, fun h => ?_, fun h => ?_, fun hmode hpos => (hastray hmode hpos).congr rfl rfl⟩
    · rw [if_pos (hused (hsuccess.1 h))]
    · obtain ⟨l, b, hl, hn, hdelivers⟩ := hdone (hsuccess.1 h)
      have hreplied : ({ s with data := d } : Session).Delivers env b (g'.replied code) :=
        hdelivers.congr rfl rfl rfl rfl rfl
      exact ⟨l, b, hl, hn, hreplied.stream, hreplied.reads, hreplied.compressed⟩
    · refine fun hmode hpos => (hrefused (mt hsuccess.2 h) hmode hpos).imp_right fun hhalts => ?_
      exact hhalts.congr rfl rfl

end Session

end SimpleSftpd
