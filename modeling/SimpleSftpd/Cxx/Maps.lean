import Mathlib.Data.List.AList
import Mathlib.Tactic.Basic

namespace SimpleSftpd.Cxx.Maps

variable {α : Type} [DecidableEq α] {β : Type} {m : AList (fun _ : α => β)} {k : α} {b : β}

def keep (p : α → β → Bool) (m : AList (fun _ : α => β)) : AList (fun _ : α => β) :=
  ⟨m.entries.filter fun e => p e.1 e.2, m.nodupKeys.sublist List.filter_sublist⟩

def eraseKeys (m : AList (fun _ : α => β)) (ks : List α) : AList (fun _ : α => β) :=
  ks.foldl (fun m k => m.erase k) m

def size (m : AList (fun _ : α => β)) : ℕ := m.entries.length

lemma lookup_keep {p : α → β → Bool} : (keep p m).lookup k = some b ↔ m.lookup k = some b ∧ p k b = true := by
  have hmem : b ∈ (keep p m).lookup k ↔ b ∈ m.lookup k ∧ p k b = true := by
    rw [AList.mem_lookup_iff, AList.mem_lookup_iff]
    exact List.mem_filter
  exact hmem

omit [DecidableEq α] in
lemma size_keep_le (p : α → β → Bool) : size (keep p m) ≤ size m := List.length_filter_le _ _

lemma mem_of_mem_eraseKeys {ks : List α} (hk : k ∈ eraseKeys m ks) : k ∈ m := by
  induction ks generalizing m with
  | nil => exact hk
  | cons k' ks ih => exact (AList.mem_erase.1 (ih hk)).2

lemma lookup_eraseKeys_of_mem {ks : List α} (hk : k ∈ ks) : (eraseKeys m ks).lookup k = none := by
  induction ks generalizing m with
  | nil => exact absurd hk List.not_mem_nil
  | cons k' ks ih =>
    by_cases hlater : k ∈ ks
    · exact ih hlater
    · obtain rfl : k = k' := (List.mem_cons.1 hk).resolve_right hlater
      have hgone : k ∉ m.erase k := fun h => (AList.mem_erase.1 h).1 rfl
      have hstays : k ∉ eraseKeys (m.erase k) ks := fun h => hgone (mem_of_mem_eraseKeys h)
      exact AList.lookup_eq_none.2 hstays

lemma lookup_eraseKeys_of_notMem {ks : List α} (hk : k ∉ ks) : (eraseKeys m ks).lookup k = m.lookup k := by
  induction ks generalizing m with
  | nil => rfl
  | cons k' ks ih =>
    obtain ⟨hne, hlater⟩ := not_or.1 fun h => hk (List.mem_cons.2 h)
    calc (eraseKeys (m.erase k') ks).lookup k = (m.erase k').lookup k := ih hlater
      _ = m.lookup k := AList.lookup_erase_ne hne

omit [DecidableEq α] in
lemma size_keys : m.keys.length = size m := List.length_map _

lemma size_erase (hk : k ∈ m) : size (m.erase k) = size m - 1 := by
  rw [← size_keys, ← size_keys, AList.keys_erase, List.length_erase_of_mem (AList.mem_keys.1 hk)]

lemma size_insert (m : AList (fun _ : α => β)) (k : α) (b : β) :
    size (m.insert k b) = if k ∈ m then size m else size m + 1 := by
  rw [← size_keys, ← size_keys, AList.keys_insert, List.length_cons]
  split
  · rename_i hk
    have hpos : 0 < m.keys.length := List.length_pos_of_mem (AList.mem_keys.1 hk)
    rw [List.length_erase_of_mem (AList.mem_keys.1 hk)]
    omega
  · rename_i hk
    rw [List.erase_of_not_mem fun h => hk (AList.mem_keys.2 h)]

lemma size_eraseKeys {ks : List α} (hdistinct : ks.Nodup) (hks : ∀ k ∈ ks, k ∈ m) :
    size (eraseKeys m ks) = size m - ks.length := by
  induction ks generalizing m with
  | nil => rfl
  | cons k ks ih =>
    obtain ⟨hnew, hdistinct⟩ := List.nodup_cons.1 hdistinct
    have hrest : ∀ k' ∈ ks, k' ∈ m.erase k := by
      intro k' hk'
      exact AList.mem_erase.2 ⟨fun h => hnew (h ▸ hk'), hks k' (List.mem_cons_of_mem _ hk')⟩
    change size (eraseKeys (m.erase k) ks) = _
    rw [ih hdistinct hrest, size_erase (hks k List.mem_cons_self), List.length_cons]
    omega

end SimpleSftpd.Cxx.Maps
