import Mathlib.Algebra.BigOperators.Group.Finset.Basic
import Mathlib.Algebra.Order.BigOperators.Group.Finset
import SimpleSftpd.Cxx.Contents

namespace SimpleSftpd.Cxx.FileSystem

open Finset

variable {fs fs' : FileSystem} {home l m src dst : Location}

def places (fs : FileSystem) : Finset Location := (fs.nodes.map Prod.fst).toFinset

def usage (fs : FileSystem) (home : Location) : ℕ := ∑ l ∈ fs.places with home <+: l, (fs.content l).length

lemma content_of_notMem (h : l ∉ fs.places) : fs.content l = [] := by
  have hlookup : fs.nodes.lookup l = none := by
    apply List.lookup_eq_none_iff.2
    intro p hp
    rw [bne_iff_ne]
    rintro rfl
    exact h (List.mem_toFinset.2 (List.mem_map_of_mem hp))
  unfold content node
  split_ifs
  · rfl
  · rw [hlookup]

lemma usage_eq_sum {s : Finset Location} (h : fs.places ⊆ s) :
    fs.usage home = ∑ l ∈ s with home <+: l, (fs.content l).length := by
  apply sum_subset (filter_subset_filter _ h)
  intro l hl hnot
  have hplace : l ∉ fs.places := fun hmem => hnot (mem_filter.2 ⟨hmem, (mem_filter.1 hl).2⟩)
  rw [content_of_notMem hplace, List.length_nil]

lemma exists_places (fs fs' : FileSystem) (l : Location) :
    ∃ s : Finset Location, fs.places ⊆ s ∧ fs'.places ⊆ s ∧ l ∈ s :=
  ⟨insert l (fs.places ∪ fs'.places), subset_union_left.trans (subset_insert _ _),
    subset_union_right.trans (subset_insert _ _),
    mem_insert_self _ _⟩

lemma length_le_usage (h : home <+: l) : (fs.content l).length ≤ fs.usage home := by
  by_cases hl : l ∈ fs.places
  · exact single_le_sum (f := fun l => (fs.content l).length) (fun _ _ => Nat.zero_le _) (mem_filter.2 ⟨hl, h⟩)
  · rw [content_of_notMem hl, List.length_nil]
    exact Nat.zero_le _

lemma usage_mono (h : ∀ l, (fs'.content l).length ≤ (fs.content l).length) : fs'.usage home ≤ fs.usage home := by
  obtain ⟨s, hs, hs', _⟩ := exists_places fs fs' []
  rw [usage_eq_sum hs, usage_eq_sum hs']
  exact sum_le_sum fun l _ => h l

lemma usage_congr (h : ∀ l, fs'.content l = fs.content l) : fs'.usage home = fs.usage home :=
  le_antisymm (usage_mono fun l => (h l ▸ le_rfl)) (usage_mono fun l => (h l ▸ le_rfl))

lemma usage_update (h : ∀ m ≠ l, fs'.content m = fs.content m) (hl : home <+: l) :
    fs'.usage home + (fs.content l).length = fs.usage home + (fs'.content l).length := by
  obtain ⟨s, hs, hs', hmem⟩ := exists_places fs fs' l
  have hin : l ∈ s.filter (home <+: ·) := mem_filter.2 ⟨hmem, hl⟩
  have hrest : ∑ m ∈ (s.filter (home <+: ·)).erase l, (fs'.content m).length =
      ∑ m ∈ (s.filter (home <+: ·)).erase l, (fs.content m).length :=
    sum_congr rfl fun m hm => by rw [h m (ne_of_mem_erase hm)]
  have hsum := add_sum_erase (s.filter (home <+: ·)) (fun m => (fs.content m).length) hin
  have hsum' := add_sum_erase (s.filter (home <+: ·)) (fun m => (fs'.content m).length) hin
  rw [usage_eq_sum hs, usage_eq_sum hs', ← hsum, ← hsum', hrest]
  omega

lemma usage_elsewhere (h : ∀ m ≠ l, fs'.content m = fs.content m) (hl : ¬home <+: l) :
    fs'.usage home = fs.usage home := by
  obtain ⟨s, hs, hs', _⟩ := exists_places fs fs' l
  rw [usage_eq_sum hs, usage_eq_sum hs']
  apply sum_congr rfl
  intro m hm
  rw [h m]
  rintro rfl
  exact hl (mem_filter.1 hm).2

section Operations

variable {p q path : Str} {mode : OpenMode} {pos : ℕ} {data : Str}

lemma lookup_filter_self (es : List (Location × Node)) : (es.filter (·.1 ≠ l)).lookup l = none := by
  apply List.lookup_eq_none_iff.2
  intro e he
  rw [bne_iff_ne]
  have hne := (List.mem_filter.1 he).2
  exact Ne.symm (by simpa using hne)

lemma content_set_directory (h : fs.node l = none) : (fs.set l .directory).content m = fs.content m := by
  have hl : l ≠ [] := fun hl => by simp [node, hl] at h
  unfold content
  rw [node_set hl]
  split_ifs with hm
  · rw [hm, h]
  · rfl

lemma content_createDirectory (p : Str) (m : Location) : (fs.createDirectory p).2.content m = fs.content m := by
  unfold createDirectory
  split
  · rfl
  · split
    · rfl
    · split
      · rename_i hnone
        exact content_set_directory hnone
      · split
        · split <;> rfl
        · rfl

lemma content_createAll (ps : List Str) (m : Location) :
    ∀ fs : FileSystem, (createAll fs ps).2.content m = fs.content m := by
  induction ps with
  | nil => exact fun _ => rfl
  | cons p ps ih =>
    intro fs
    have hp : (fs.createDirectory p).2.content m = fs.content m := content_createDirectory p m
    unfold createAll
    split
    · rename_i hmade
      rwa [hmade] at hp
    · rename_i hmade
      rw [hmade] at hp
      split
      · exact hp
      · exact (ih _).trans hp

lemma content_createDirectories (p : Str) (m : Location) :
    (fs.createDirectories p).2.content m = fs.content m := by
  unfold createDirectories
  split
  · rfl
  · split
    · rfl
    · rfl
    · split
      · rfl
      · exact content_createAll _ _ _
    · rfl

lemma content_permissions (p : Str) (mode : ℕ) (m : Location) :
    (fs.permissions p mode).2.content m = fs.content m := by
  unfold content
  rw [permissions_node]

lemma content_remove (p : Str) (m : Location) : ((fs.remove p).2.content m).length ≤ (fs.content m).length := by
  have hdelete (l : Location) : ((fs.delete l).content m).length ≤ (fs.content m).length := by
    by_cases hm : m = l
    · have hnone : (fs.delete l).nodes.lookup m = none := hm ▸ lookup_filter_self fs.nodes
      unfold content node
      split_ifs
      · exact le_rfl
      · rw [hnone]
        exact Nat.zero_le _
    · have hsame : (fs.delete l).nodes.lookup m = fs.nodes.lookup m := lookup_filter_ne hm fs.nodes
      unfold content node
      rw [hsame]
  unfold remove
  split
  · exact le_rfl
  · split
    · exact le_rfl
    · exact le_rfl
    · split
      · exact le_rfl
      · split_ifs
        · exact le_rfl
        · exact le_rfl
        · exact hdelete _
      · exact hdelete _

def moved (src dst m : Location) : Location := if src.isPrefixOf m then dst ++ m.drop src.length else m

lemma lookup_moved {es : List (Location × Node)} {n : Node}
    (h : (es.map fun (m, n) => (moved src dst m, n)).lookup l = some n) :
    ∃ m, moved src dst m = l ∧ es.lookup m = some n := by
  induction es with
  | nil => cases h
  | cons e es ih =>
    obtain ⟨k, v⟩ := e
    rw [List.map_cons, List.lookup_cons] at h
    by_cases hk : l = moved src dst k
    · have hv : some v = some n := by rwa [beq_iff_eq.2 hk] at h
      exact ⟨k, hk.symm, by rw [List.lookup_cons_self, hv]⟩
    · rw [beq_eq_false_iff_ne.2 hk] at h
      obtain ⟨m, hm, hlookup⟩ := ih h
      have hne : (m == k) = false := beq_eq_false_iff_ne.2 fun hmk => hk (hmk ▸ hm.symm)
      exact ⟨m, hm, by rw [List.lookup_cons, hne, hlookup]⟩

lemma lookup_of_filter {es : List (Location × Node)} {n : Node}
    (h : (es.filter (·.1 ≠ l)).lookup m = some n) : es.lookup m = some n := by
  by_cases hm : m = l
  · rw [hm, lookup_filter_self] at h
    cases h
  · rwa [lookup_filter_ne hm] at h

lemma content_move (hsrc : src ≠ []) (h : (fs.move src dst).content m ≠ []) :
    ∃ k, moved src dst k = m ∧ k ∈ fs.places ∧
    (fs.move src dst).content m = fs.content k := by
  have hmoved : (fs.move src dst).nodes = (fs.nodes.filter (·.1 ≠ dst)).map fun (m, n) =>
    (moved src dst m, n) := rfl
  unfold content node at h ⊢
  split_ifs at h ⊢ with hm
  · exact absurd rfl h
  · rw [hmoved] at h ⊢
    cases hlookup : ((fs.nodes.filter (·.1 ≠ dst)).map fun (m, n) => (moved src dst m, n)).lookup m with
    | none =>
      rw [hlookup] at h
      exact absurd rfl h
    | some n =>
      obtain ⟨k, rfl, hk⟩ := lookup_moved hlookup
      have hk := lookup_of_filter hk
      have hplace : k ∈ fs.places := by
        obtain ⟨before, after, hnodes, _⟩ := List.lookup_eq_some_iff.1 hk
        rw [places, hnodes]
        simp
      refine ⟨k, rfl, hplace, ?_⟩
      have hne : k ≠ [] := by
        rintro rfl
        apply hm
        unfold moved
        rw [if_neg]
        cases src with
        | nil => exact absurd rfl hsrc
        | cons c src => simp
      rw [if_neg hne, hk]

lemma usage_move (hsrc : src ≠ []) :
    (fs.move src dst).usage home ≤ ∑ k ∈ fs.places with home <+: k ∨ src <+: k, (fs.content k).length := by
  let kept := fs.places.filter fun k => home <+: k ∨ src <+: k
  have hkept {m : Location} (hm : home <+: m) (h : (fs.move src dst).content m ≠ []) :
      ∃ k ∈ kept, moved src dst k = m ∧ (fs.move src dst).content m = fs.content k := by
    obtain ⟨k, rfl, hk, hcontent⟩ := content_move hsrc h
    refine ⟨k, mem_filter.2 ⟨hk, ?_⟩, rfl, hcontent⟩
    by_cases hbelow : src <+: k
    · exact .inr hbelow
    · have hstays : moved src dst k = k := if_neg (by simpa using hbelow)
      exact .inl (hstays ▸ hm)
  calc (fs.move src dst).usage home
      ≤ ∑ m ∈ (fs.move src dst).places with home <+: m, ∑ k ∈ kept with moved src dst k = m,
        (fs.content k).length := by
        refine sum_le_sum fun m hm => ?_
        by_cases hempty : (fs.move src dst).content m = []
        · rw [hempty]
          exact Nat.zero_le _
        · obtain ⟨k, hk, hm', hcontent⟩ := hkept (mem_filter.1 hm).2 hempty
          rw [hcontent]
          exact single_le_sum (f := fun k => (fs.content k).length) (fun _ _ => Nat.zero_le _)
            (mem_filter.2 ⟨hk, hm'⟩)
    _ ≤ ∑ k ∈ kept, (fs.content k).length := sum_fiberwise_le_sum_of_sum_fiber_nonneg fun _ _ => Nat.zero_le _

lemma usage_rename {limit : ℕ} (hfits : fs.usage home ≤ limit)
    (h : ∀ src, fs.entry p = .ok src → home <+: src ∨ fs.usage home + fs.usage src ≤ limit) :
    (fs.rename p q).2.usage home ≤ limit := by
  have hmove (src dst : Location) (hp : fs.entry p = .ok src) (hsrc : src ≠ []) :
      (fs.move src dst).usage home ≤ limit := by
    apply (usage_move hsrc).trans
    rcases h src hp with hbelow | hroom
    · refine le_trans (sum_le_sum_of_subset fun k hk => ?_) hfits
      obtain ⟨hk, hk'⟩ := mem_filter.1 hk
      exact mem_filter.2 ⟨hk, hk'.elim id hbelow.trans⟩
    · rw [filter_or]
      exact (Nat.le_add_right _ _).trans (sum_union_inter.le.trans hroom)
  unfold rename
  split
  · exact hfits
  · split
    · exact hfits
    · exact hfits
    · rename_i src dst hp _
      have hmove := fun hsrc => hmove src dst hp hsrc
      split
      · exact hfits
      · split
        · exact hfits
        · split
          · exact hfits
          · rename_i hbelow
            have hsrc : src ≠ [] := by
              rintro rfl
              exact hbelow rfl
            split
            · exact hmove hsrc
            · split
              · exact hfits
              · split
                · exact hfits
                · exact hmove hsrc
            · split
              · exact hfits
              · exact hmove hsrc

lemma content_openWrite (hopen : (fs.openWrite p mode).1 = .ok l) (m : Location) :
    (fs.openWrite p mode).2.content m =
    if m = l ∧ mode = .truncate then [] else fs.content m := by
  obtain ⟨_, ⟨hnone, he⟩ | ⟨b, hb, he⟩ | ⟨hother, he⟩⟩ := openWrite_cases hopen
  · have hl : l ≠ [] := fun hl => by simp [node, hl] at hnone
    rw [he]
    unfold content
    rw [node_set hl]
    by_cases hm : m = l
    · simp [hm, hnone]
    · simp [hm]
  · rw [he]
    by_cases hmode : mode = .truncate
    · unfold content
      rw [if_pos hmode, node_set (ne_nil_of_regular hb)]
      by_cases hm : m = l <;> simp [hm, hmode]
    · simp [hmode]
  · rw [he]
    split_ifs with hm
    · unfold content
      rw [hm.1, hother]
    · rfl

lemma content_openWrite_le (p : Str) (mode : OpenMode) (m : Location) :
    ((fs.openWrite p mode).2.content m).length ≤ (fs.content m).length := by
  cases hopen : (fs.openWrite p mode).1 with
  | ok l =>
    rw [content_openWrite hopen]
    split_ifs <;> simp
  | error e =>
    have hfs : (fs.openWrite p mode).2 = fs := by
      unfold openWrite at hopen ⊢
      split at hopen
      · rfl
      · split at hopen
        · rfl
        · split at hopen
          · rfl
          · split at hopen
            · rename_i hmode
              rw [if_pos hmode]
            · cases hopen
          · cases hopen
          · cases hopen
          · rfl
    rw [hfs]

def stored (b : Str) (mode : OpenMode) (pos n : ℕ) : ℕ :=
  let kept := if mode = .truncate then 0 else b.length
  if n = 0 then kept else max kept (pos + n)

lemma stored_mono {b : Str} {n n' : ℕ} (h : n ≤ n') : stored b mode pos n ≤ stored b mode pos n' := by
  unfold stored
  dsimp only
  split_ifs <;> omega

lemma content_put_le (fs : FileSystem) (l : Location) (pos : ℕ) (data : Str) :
    ((fs.put l pos data).content l).length ≤ if data.length = 0 then (fs.content l).length else
      max (fs.content l).length (pos + data.length) := by
  by_cases hreg : ∃ b, fs.node l = some (.regular b)
  · obtain ⟨b, hb⟩ := hreg
    split_ifs with hdata
    · rw [List.length_eq_zero_iff.1 hdata, put_nil]
    · rw [put_of_ne (fun h => hdata (by rw [h, List.length_nil])), writeAt_regular hb]
      unfold content
      rw [node_set (ne_nil_of_regular hb), if_pos rfl, hb, length_splice]
  · rw [put_other (not_exists.1 hreg)]
    split_ifs <;> simp

lemma usage_received {limit n : ℕ} (hopen : (fs.openWrite p mode).1 = .ok l) (hdata : data.length ≤ n)
    (hnow : fs.usage home ≤ limit)
    (hfits : home <+: l → fs.usage home + stored (fs.content l) mode pos n ≤ limit + (fs.content l).length) :
    ((fs.openWrite p mode).2.put l pos data).usage home ≤ limit := by
  have hother : ∀ m ≠ l, ((fs.openWrite p mode).2.put l pos data).content m = fs.content m := by
    intro m hm
    have hput : ((fs.openWrite p mode).2.put l pos data).content m = (fs.openWrite p mode).2.content m := by
      unfold content
      rw [node_put hm]
    rw [hput, content_openWrite hopen, if_neg fun h => hm h.1]
  by_cases hl : home <+: l
  · have hsize : (((fs.openWrite p mode).2.put l pos data).content l).length ≤ stored
        (fs.content l) mode pos n := by
      refine (content_put_le _ _ _ _).trans (le_trans ?_ (stored_mono hdata))
      rw [content_openWrite hopen]
      unfold stored
      by_cases hmode : mode = .truncate <;> simp [hmode]
    have hupdate := usage_update hother hl
    have hfits := hfits hl
    omega
  · rw [usage_elsewhere hother hl]
    exact hnow

end Operations

end SimpleSftpd.Cxx.FileSystem
