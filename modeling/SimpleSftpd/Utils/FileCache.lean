import SimpleSftpd.Cxx.Maps
import SimpleSftpd.Cxx.Strings
import SimpleSftpd.Interaction.System

/-! file_cache.cpp: the cache of file metadata. Clock readings are nanoseconds; a sweep reads the
clock again for each entry it looks at. -/

namespace SimpleSftpd

open Cxx

structure FileMetadata where
  path : Str
  size : ℕ
  is_directory : Bool
  last_modified : Int
  cache_time : Int
  deriving DecidableEq

/-- `std::sort` by the second components: the order of equal ones is not specified. -/
structure TimeSort where
  sort : List (Str × Int) → List (Str × Int)
  perm : ∀ l, (sort l).Perm l
  ordered : ∀ l, (sort l).Pairwise fun a b => a.2 ≤ b.2

structure FileCache where
  cache_ : AList (fun _ : Str => FileMetadata)
  max_entries_ : ℕ
  ttl_ : Int
  cache_hits_ : ℕ
  cache_misses_ : ℕ

namespace FileCache

def make (max_entries : ℕ) (ttl : Int) : FileCache := ⟨∅, max_entries, ttl, 0, 0⟩

variable (S : TimeSort) (c : FileCache)

def isExpired (now : Int) (metadata : FileMetadata) : Bool := (now - metadata.cache_time).tdiv (10 ^ 9) > c.ttl_

def getSize : ℕ := Maps.size c.cache_

def get (path : Str) (now : Int) : Option FileMetadata × FileCache :=
  match c.cache_.lookup path with
  | some metadata =>
    if !c.isExpired now metadata then (some metadata, { c with cache_hits_ := c.cache_hits_ + 1 })
    else (none, { c with cache_ := c.cache_.erase path, cache_misses_ := c.cache_misses_ + 1 })
  | none => (none, { c with cache_misses_ := c.cache_misses_ + 1 })

def unexpired (now : Str → Int) : AList (fun _ : Str => FileMetadata) :=
  Maps.keep (fun path metadata => !c.isExpired (now path) metadata) c.cache_

def byAge (m : AList (fun _ : Str => FileMetadata)) : List (Str × Int) :=
  S.sort (m.entries.map fun e => (e.1, e.2.cache_time))

def evictOldEntries (now : Str → Int) : FileCache :=
  let c : FileCache := { c with cache_ := c.unexpired now }
  if c.getSize ≥ c.max_entries_ then
    let to_remove := c.getSize - c.max_entries_ + 1
    { c with cache_ := Maps.eraseKeys c.cache_ (((byAge S c.cache_).take to_remove).map Prod.fst) }
  else c

def put (path : Str) (metadata : FileMetadata) (now : Str → Int) (stamp : Int) : FileCache :=
  let c := if c.getSize ≥ c.max_entries_ then c.evictOldEntries S now else c
  { c with cache_ := c.cache_.insert path { metadata with cache_time := stamp } }

def invalidate (path : Str) : FileCache := { c with cache_ := c.cache_.erase path }

def clear : FileCache := { c with cache_ := ∅ }

variable {S c} {k : Str} {m : FileMetadata} {now : Str → Int}

lemma lookup_unexpired :
    (c.unexpired now).lookup k = some m ↔ c.cache_.lookup k = some m ∧ c.isExpired (now k) m = false := by
  rw [unexpired, Maps.lookup_keep, Bool.not_eq_true']

lemma byAge_keys (m : AList (fun _ : Str => FileMetadata)) : ((byAge S m).map Prod.fst).Perm m.keys := by
  have hkeys : (m.entries.map fun e => (e.1, e.2.cache_time)).map Prod.fst = m.keys := List.map_map
  exact hkeys ▸ (S.perm _).map Prod.fst

def evicted (S : TimeSort) (c : FileCache) (now : Str → Int) : List Str :=
  ((byAge S (c.unexpired now)).take (Maps.size (c.unexpired now) + 1 - c.max_entries_)).map Prod.fst

lemma evicted_sublist : (c.evicted S now).Sublist ((byAge S (c.unexpired now)).map Prod.fst) :=
  (List.take_sublist _ _).map _

lemma evicted_nodup : (c.evicted S now).Nodup :=
  ((byAge_keys _).nodup_iff.2 (c.unexpired now).keys_nodup).sublist evicted_sublist

lemma mem_of_evicted (hk : k ∈ c.evicted S now) : k ∈ c.unexpired now :=
  AList.mem_keys.2 ((byAge_keys _).subset (evicted_sublist.subset hk))

lemma length_evicted : (c.evicted S now).length =
    min (Maps.size (c.unexpired now) + 1 - c.max_entries_) (Maps.size (c.unexpired now)) := by
  rw [evicted, List.length_map, List.length_take, ← List.length_map (f := Prod.fst), (byAge_keys _).length_eq,
    Maps.size_keys]

lemma evictOldEntries_cache :
    (c.evictOldEntries S now).cache_ = Maps.eraseKeys (c.unexpired now) (c.evicted S now) := by
  rw [evictOldEntries]
  split
  · rename_i hfull
    have hcount : Maps.size (c.unexpired now) - c.max_entries_ + 1 = Maps.size
        (c.unexpired now) + 1 - c.max_entries_ := by
      have hle : c.max_entries_ ≤ Maps.size (c.unexpired now) := hfull
      omega
    rw [evicted, ← hcount]
    rfl
  · rename_i hroom
    have hnone : Maps.size (c.unexpired now) + 1 - c.max_entries_ = 0 := by
      have hlt : Maps.size (c.unexpired now) < c.max_entries_ := not_le.1 hroom
      omega
    rw [evicted, hnone]
    rfl

lemma evictOldEntries_eq : c.evictOldEntries S now =
    { c with cache_ := Maps.eraseKeys (c.unexpired now) (c.evicted S now) } := by
  rw [← evictOldEntries_cache, evictOldEntries]
  split <;> rfl

def swept (S : TimeSort) (c : FileCache) (now : Str → Int) : FileCache :=
  if c.getSize ≥ c.max_entries_ then c.evictOldEntries S now else c

lemma swept_eq : ∃ cache, c.swept S now = { c with cache_ := cache } := by
  rw [swept]
  split
  · exact ⟨_, evictOldEntries_eq⟩
  · exact ⟨c.cache_, rfl⟩

lemma lookup_swept (h : (c.swept S now).cache_.lookup k = some m) : c.cache_.lookup k = some m := by
  rw [swept] at h
  split at h
  · rw [evictOldEntries_cache] at h
    by_cases hk : k ∈ c.evicted S now
    · rw [Maps.lookup_eraseKeys_of_mem hk] at h
      cases h
    · rw [Maps.lookup_eraseKeys_of_notMem hk] at h
      exact (lookup_unexpired.1 h).1
  · exact h

lemma size_evicted : Maps.size (Maps.eraseKeys (c.unexpired now) (c.evicted S now)) =
    min (Maps.size (c.unexpired now)) (c.max_entries_ - 1) := by
  rw [Maps.size_eraseKeys evicted_nodup fun _ hk => mem_of_evicted hk, length_evicted]
  omega

lemma swept_size (hmax : 1 ≤ c.max_entries_) : (c.swept S now).getSize < c.max_entries_ := by
  rw [swept]
  split
  · rw [getSize, evictOldEntries_cache, size_evicted]
    omega
  · rename_i hroom
    exact not_le.1 hroom

end FileCache

/-! Runs -/

inductive CacheStep
  | get (path : Str) (now : Int)
  | put (path : Str) (metadata : FileMetadata) (now : Str → Int) (stamp : Int)
  | invalidate (path : Str)
  | clear

abbrev Reference := Str → Option (FileMetadata × Int)

def Reference.next (r : Reference) : CacheStep → Reference
  | .get _ _ => r
  | .put path metadata _ stamp => Function.update r path (some (metadata, stamp))
  | .invalidate path => Function.update r path none
  | .clear => fun _ => none

structure CacheUse where
  cache : FileCache
  clock : Int
  reference : Reference
  gets : ℕ

def CacheUse.inOrder (s : CacheUse) : CacheStep → Bool
  | .get _ now => s.clock ≤ now
  | .put _ _ now stamp => s.clock ≤ stamp && s.cache.cache_.keys.all fun k => s.clock ≤ now k && now k ≤ stamp
  | _ => true

def CacheUse.after (S : TimeSort) (s : CacheUse) : CacheStep → CacheUse
  | .get path now => { s with cache := (s.cache.get path now).2, clock := now, gets := s.gets + 1 }
  | .put path metadata now stamp => { s with cache := s.cache.put S path metadata now stamp, clock := stamp }
  | .invalidate path => { s with cache := s.cache.invalidate path }
  | .clear => { s with cache := s.cache.clear }

def cacheSystem (S : TimeSort) (max_entries : ℕ) (ttl : Int) : Interaction.System CacheUse CacheStep where
  init s := s.cache = .make max_entries ttl ∧ s.reference = (fun _ => none) ∧ s.gets = 0
  next s step := if s.inOrder step then some { s.after S step with reference := s.reference.next step } else none

structure CacheUse.Sound (max_entries : ℕ) (ttl : Int) (s : CacheUse) : Prop where
  room : s.cache.max_entries_ = max_entries
  ttl : s.cache.ttl_ = ttl
  size : s.cache.getSize ≤ max_entries
  stored : ∀ path m, s.cache.cache_.lookup path = some m →
    ∃ m₀ t, s.reference path = some (m₀, t) ∧ m = { m₀ with cache_time := t } ∧ t ≤ s.clock
  counted : s.cache.cache_hits_ + s.cache.cache_misses_ = s.gets

namespace CacheUse

variable {S : TimeSort} {max_entries : ℕ} {ttl : Int} {s : CacheUse}

lemma get_sound {path : Str} {now : Int} (hs : s.Sound max_entries ttl) (hnow : s.clock ≤ now) :
    Sound max_entries ttl { s.after S (.get path now) with reference := s.reference } := by
  have hlater : ∀ k m, s.cache.cache_.lookup k = some m →
      ∃ m₀ t, s.reference k = some (m₀, t) ∧ m = { m₀ with cache_time := t } ∧ t ≤ now := by
    intro k m hm
    obtain ⟨m₀, t, hr, hm₀, ht⟩ := hs.stored k m hm
    exact ⟨m₀, t, hr, hm₀, ht.trans hnow⟩
  rw [after, FileCache.get]
  split
  · rename_i m hm
    split
    · refine ⟨hs.room, hs.ttl, hs.size, hlater, ?_⟩
      change s.cache.cache_hits_ + 1 + s.cache.cache_misses_ = s.gets + 1
      rw [← hs.counted]
      omega
    · refine ⟨hs.room, hs.ttl, ?_, fun k m' hm' => ?_, ?_⟩
      · have hmem : path ∈ s.cache.cache_ := AList.lookup_isSome.1 (Option.isSome_of_eq_some hm)
        change Maps.size (s.cache.cache_.erase path) ≤ max_entries
        rw [Maps.size_erase hmem]
        exact (Nat.sub_le _ _).trans hs.size
      · have hk : k ≠ path := by
          rintro rfl
          cases (AList.lookup_erase k s.cache.cache_).symm.trans hm'
        exact hlater k m' ((AList.lookup_erase_ne hk).symm.trans hm')
      · change s.cache.cache_hits_ + (s.cache.cache_misses_ + 1) = s.gets + 1
        rw [← hs.counted]
        omega
  · refine ⟨hs.room, hs.ttl, hs.size, hlater, ?_⟩
    change s.cache.cache_hits_ + (s.cache.cache_misses_ + 1) = s.gets + 1
    rw [← hs.counted]
    omega

lemma put_sound {path : Str} {metadata : FileMetadata} {now : Str → Int} {stamp : Int} (hmax : 1 ≤ max_entries)
    (hs : s.Sound max_entries ttl) (hstamp : s.clock ≤ stamp) :
    Sound max_entries ttl { s.after S (.put path metadata now stamp) with
      reference := s.reference.next (.put path metadata now stamp) } := by
  obtain ⟨cache, hswept⟩ : ∃ cache, s.cache.swept S now = { s.cache with cache_ := cache } := FileCache.swept_eq
  have hput : s.cache.put S path metadata now stamp =
      { s.cache with cache_ := cache.insert path { metadata with cache_time := stamp } } := by
    change { s.cache.swept S now with
      cache_ := (s.cache.swept S now).cache_.insert path { metadata with cache_time := stamp } } = _
    rw [hswept]
  have hsmall : Maps.size cache < max_entries := by
    have hsize : (s.cache.swept S now).getSize < s.cache.max_entries_ := FileCache.swept_size (hs.room ▸ hmax)
    rw [hswept, hs.room] at hsize
    exact hsize
  rw [after, hput]
  refine ⟨hs.room, hs.ttl, ?_, fun k m hm => ?_, hs.counted⟩
  · change Maps.size (cache.insert path _) ≤ max_entries
    rw [Maps.size_insert]
    split <;> omega
  · by_cases hk : k = path
    · subst hk
      rw [AList.lookup_insert] at hm
      cases hm
      exact ⟨metadata, stamp, Function.update_self _ _ _, rfl, le_rfl⟩
    · rw [AList.lookup_insert_ne hk] at hm
      have hafter : (s.cache.swept S now).cache_.lookup k = some m := by
        rw [hswept]
        exact hm
      have hbefore : s.cache.cache_.lookup k = some m := FileCache.lookup_swept hafter
      obtain ⟨m₀, t, hr, hm₀, ht⟩ := hs.stored k m hbefore
      exact ⟨m₀, t, (Function.update_of_ne hk _ _).trans hr, hm₀, ht.trans hstamp⟩

lemma invalidate_sound (path : Str) (hs : s.Sound max_entries ttl) :
    Sound max_entries ttl
      { s.after S (.invalidate path) with reference := s.reference.next (.invalidate path) } := by
  refine ⟨hs.room, hs.ttl, ?_, fun k m hm => ?_, hs.counted⟩
  · change Maps.size (s.cache.cache_.erase path) ≤ max_entries
    by_cases hmem : path ∈ s.cache.cache_
    · rw [Maps.size_erase hmem]
      exact (Nat.sub_le _ _).trans hs.size
    · have hkept : (s.cache.cache_.erase path).entries = s.cache.cache_.entries := List.kerase_of_notMem_keys hmem
      rw [Maps.size, hkept]
      exact hs.size
  · have hk : k ≠ path := by
      rintro rfl
      cases (AList.lookup_erase k s.cache.cache_).symm.trans hm
    obtain ⟨m₀, t, hr, hm₀, ht⟩ := hs.stored k m ((AList.lookup_erase_ne hk).symm.trans hm)
    exact ⟨m₀, t, (Function.update_of_ne hk _ _).trans hr, hm₀, ht⟩

lemma sound_of_reach (hmax : 1 ≤ max_entries)
    (h : (cacheSystem S max_entries ttl).Reach Interaction.System.anyStep s) : s.Sound max_entries ttl := by
  refine h.invariant (fun s h0 => ?_) fun s step s' hs _ hnext => ?_
  · obtain ⟨hcache, _, hgets⟩ := h0
    have hempty : s.cache.cache_ = ∅ := by rw [hcache, FileCache.make]
    refine ⟨by rw [hcache, FileCache.make], by rw [hcache, FileCache.make], ?_, fun k m hm => ?_, ?_⟩
    · rw [FileCache.getSize, hempty]
      exact Nat.zero_le _
    · rw [hempty, AList.lookup_empty] at hm
      cases hm
    · rw [hcache, hgets]
      rfl
  · dsimp only [cacheSystem] at hnext
    split at hnext
    · rename_i horder
      cases hnext
      cases step with
      | get path now => exact get_sound hs (of_decide_eq_true horder)
      | put path metadata now stamp =>
        exact put_sound hmax hs (of_decide_eq_true (Bool.and_eq_true_iff.1 horder).1)
      | invalidate path => exact invalidate_sound path hs
      | clear =>
        refine ⟨hs.room, hs.ttl, Nat.zero_le _, fun k m hm => ?_, hs.counted⟩
        cases hm
    · cases hnext

end CacheUse

/-- A cache in use stays within its size and answers with what was last put, not older than its
time to live; every answer is counted. -/
theorem cache_follows_reference (S : TimeSort) {max_entries : ℕ} {ttl : Int} (hmax : 1 ≤ max_entries)
    {s : CacheUse}
    (h : (cacheSystem S max_entries ttl).Reach Interaction.System.anyStep s) :
    s.cache.getSize ≤ max_entries ∧
    (∀ path now m, s.clock ≤ now → (s.cache.get path now).1 = some m →
      ∃ m₀ t, s.reference path = some (m₀, t) ∧ m = { m₀ with cache_time := t } ∧ (now - t) / 10 ^ 9 ≤ ttl) ∧
    s.cache.cache_hits_ + s.cache.cache_misses_ = s.gets := by
  have hs := CacheUse.sound_of_reach hmax h
  refine ⟨hs.size, fun path now m hnow hget => ?_, hs.counted⟩
  rw [FileCache.get] at hget
  split at hget
  · rename_i m' hm'
    split at hget
    · rename_i hfresh
      cases hget
      obtain ⟨m₀, t, hr, rfl, ht⟩ := hs.stored path _ hm'
      refine ⟨m₀, t, hr, rfl, ?_⟩
      have hage : ¬(now - t).tdiv (10 ^ 9) > s.cache.ttl_ := by simpa [FileCache.isExpired] using hfresh
      rw [hs.ttl, Int.tdiv_eq_ediv_of_nonneg (by omega)] at hage
      omega
    · cases hget
  · cases hget

namespace FileCache

def stable : TimeSort where
  sort := List.insertionSort fun a b => a.2 ≤ b.2
  perm := List.perm_insertionSort _
  ordered l := by
    have htotal : Std.Total fun a b : Str × Int => a.2 ≤ b.2 := ⟨fun a b => le_total a.2 b.2⟩
    have htrans : IsTrans (Str × Int) fun a b => a.2 ≤ b.2 := ⟨fun _ _ _ => le_trans⟩
    exact List.pairwise_insertionSort _ l

def sampleMetadata (path : Str) : FileMetadata := ⟨path, 1, false, 0, 0⟩

end FileCache

theorem cache_follows_reference_small : ∃ s : CacheUse, s.cache.getSize ≤ 1 ∧
    s.cache.cache_.keys = [ascii "b"] ∧ s.cache.cache_hits_ + s.cache.cache_misses_ = 2 := by
  obtain ⟨s, hs, hkeys, hgets⟩ := (show ∃ s, (cacheSystem FileCache.stable 1 60).run Interaction.System.anyStep
      ⟨.make 1 60, 0, fun _ => none, 0⟩ [.put "a" (FileCache.sampleMetadata "a") (fun _ => 0) 0, .get "a" 1,
        .put "b" (FileCache.sampleMetadata "b") (fun _ => 2) 3, .get "a" 4] = some s ∧
      s.cache.cache_.keys = [ascii "b"] ∧ s.gets = 2 from ⟨_, rfl, by decide +kernel, rfl⟩)
  have h := cache_follows_reference FileCache.stable (by decide) (.run (.init ⟨rfl, rfl, rfl⟩) hs)
  exact ⟨s, h.1, hkeys, h.2.2.trans hgets⟩

namespace FileCache

variable (S : TimeSort) (c : FileCache) (path : Str) (metadata : FileMetadata) (now : Str → Int) (stamp : Int)

def removed : List Str :=
  (c.unexpired now).keys.filter fun k => k ≠ path ∧ k ∉ (c.put S path metadata now stamp).cache_

structure EvictsRightly : Prop where
  full : c.removed S path metadata now stamp ≠ [] →
    path ∉ c.cache_ ∧ c.max_entries_ ≤ Maps.size (c.unexpired now)
  needed : c.removed S path metadata now stamp ≠ [] → (c.removed S path metadata now stamp).length =
    min (Maps.size (c.unexpired now) + 1 - c.max_entries_) (Maps.size (c.unexpired now))
  oldest : ∀ k ∈ c.removed S path metadata now stamp, ∀ k' ∉ c.removed S path metadata now stamp, ∀ m m',
    (c.unexpired now).lookup k = some m → (c.unexpired now).lookup k' = some m' → m.cache_time ≤ m'.cache_time

variable {S c path metadata now stamp} {k : Str}

lemma mem_of_unexpired (hk : k ∈ c.unexpired now) : k ∈ c.cache_ := by
  obtain ⟨m, hm⟩ := Option.isSome_iff_exists.1 (AList.lookup_isSome.2 hk)
  exact AList.lookup_isSome.1 (Option.isSome_of_eq_some (lookup_unexpired.1 hm).1)

lemma evicted_of_room (h : Maps.size (c.unexpired now) < c.max_entries_) : c.evicted S now = [] := by
  have hnone : Maps.size (c.unexpired now) + 1 - c.max_entries_ = 0 := by omega
  rw [evicted, hnone]
  rfl

lemma mem_put : k ∈ (c.put S path metadata now stamp).cache_ ↔ k = path ∨ k ∈ (c.swept S now).cache_ :=
  AList.mem_insert _

lemma mem_removed : k ∈ c.removed S path metadata now stamp ↔ k ≠ path ∧ k ∈ c.evicted S now := by
  rw [removed, List.mem_filter, decide_eq_true_iff, mem_put, ← AList.mem_keys, not_or]
  constructor
  · rintro ⟨hk, hne, _, hgone⟩
    refine ⟨hne, ?_⟩
    by_contra hkept
    apply hgone
    rw [swept]
    split
    · rw [evictOldEntries_cache, ← AList.lookup_isSome, Maps.lookup_eraseKeys_of_notMem hkept, AList.lookup_isSome]
      exact hk
    · exact mem_of_unexpired hk
  · rintro ⟨hne, hk⟩
    refine ⟨mem_of_evicted hk, hne, hne, ?_⟩
    rw [swept]
    split
    · rw [evictOldEntries_cache, ← AList.lookup_eq_none]
      exact Maps.lookup_eraseKeys_of_mem hk
    · rename_i hroom
      have hle : Maps.size (c.unexpired now) ≤ c.getSize := Maps.size_keep_le _
      rw [evicted_of_room (hle.trans_lt (not_le.1 hroom))] at hk
      cases hk

lemma removed_of_notMem (hpath : path ∉ c.cache_) :
    (c.removed S path metadata now stamp).Perm (c.evicted S now) := by
  refine (List.perm_ext_iff_of_nodup ((c.unexpired now).keys_nodup.filter _) evicted_nodup).2 fun k => ?_
  change k ∈ c.removed S path metadata now stamp ↔ _
  rw [mem_removed]
  constructor
  · exact fun h => h.2
  · intro hk
    refine ⟨?_, hk⟩
    rintro rfl
    exact hpath (mem_of_unexpired (mem_of_evicted hk))

lemma mem_byAge {m : FileMetadata} (h : (c.unexpired now).lookup k = some m) :
    (k, m.cache_time) ∈ byAge S (c.unexpired now) :=
  (S.perm _).mem_iff.2 (List.mem_map.2 ⟨⟨k, m⟩, AList.mem_lookup_iff.1 h, rfl⟩)

lemma evicted_oldest {k' : Str} {m m' : FileMetadata} (hk : k ∈ c.evicted S now) (hk' : k' ∉ c.evicted S now)
    (hm : (c.unexpired now).lookup k = some m) (hm' : (c.unexpired now).lookup k' = some m') :
    m.cache_time ≤ m'.cache_time := by
  let n := Maps.size (c.unexpired now) + 1 - c.max_entries_
  have hordered := S.ordered ((c.unexpired now).entries.map fun e => (e.1, e.2.cache_time))
  rw [← List.take_append_drop n (S.sort _)] at hordered
  obtain ⟨⟨j, t⟩, hj, rfl⟩ := List.mem_map.1 hk
  have ht : t = m.cache_time := by
    obtain ⟨e, he, hjt⟩ := List.mem_map.1 ((S.perm _).mem_iff.1 (List.take_subset _ _ hj))
    obtain ⟨rfl, rfl⟩ := Prod.mk.inj hjt
    have hlookup : (c.unexpired now).lookup e.1 = some e.2 := AList.mem_lookup_iff.2 he
    obtain rfl := Option.some.inj (hlookup.symm.trans hm)
    rfl
  subst ht
  have hafter : (k', m'.cache_time) ∈ (byAge S (c.unexpired now)).drop n := by
    have hmem := mem_byAge (S := S) hm'
    rw [← List.take_append_drop n (byAge S (c.unexpired now)), List.mem_append] at hmem
    exact hmem.resolve_left fun h => hk' (List.mem_map_of_mem (f := Prod.fst) h)
  exact (List.pairwise_append.1 hordered).2.2 _ hj _ hafter

lemma evictsRightly_of_removed (h : c.removed S path metadata now stamp = []) :
    c.EvictsRightly S path metadata now stamp := by
  refine ⟨fun hne => absurd h hne, fun hne => absurd h hne, fun k hk => ?_⟩
  rw [h] at hk
  cases hk

lemma evictsRightly_of_new (hpath : path ∉ c.cache_) : c.EvictsRightly S path metadata now stamp := by
  have hperm : (c.removed S path metadata now stamp).Perm (c.evicted S now) := removed_of_notMem hpath
  refine ⟨fun hne => ⟨hpath, ?_⟩, fun _ => hperm.length_eq.trans length_evicted, fun k hk k' hk' m m' hm hm' => ?_⟩
  · by_contra hroom
    have hnone := evicted_of_room (S := S) (not_le.1 hroom)
    rw [hnone] at hperm
    exact hne hperm.eq_nil
  · exact evicted_oldest (hperm.mem_iff.1 hk) (fun h => hk' (hperm.mem_iff.2 h)) hm hm'

lemma head_evicted (h : Maps.size (c.unexpired now) = c.max_entries_) :
    c.evicted S now = ((byAge S (c.unexpired now)).head?.map Prod.fst).toList := by
  have hone : Maps.size (c.unexpired now) + 1 - c.max_entries_ = 1 := by omega
  rw [evicted, hone]
  cases byAge S (c.unexpired now) <;> rfl

lemma alone_or_oldest (hfull : c.max_entries_ ≤ Maps.size (c.unexpired now))
    (hown : ∀ k ∈ c.evicted S now, k = path) :
    (∀ k ∈ c.unexpired now, k = path) ∨
      (Maps.size (c.unexpired now) = c.max_entries_ ∧
        (byAge S (c.unexpired now)).head?.map Prod.fst = some path) := by
  have hlength : (c.evicted S now).length =
    min (Maps.size (c.unexpired now) + 1 - c.max_entries_) (Maps.size (c.unexpired now)) := length_evicted
  have hone : (c.evicted S now).length ≤ 1 := by
    have hsub : c.evicted S now ⊆ [path] := fun k hk => List.mem_singleton.2 (hown k hk)
    exact (evicted_nodup.subperm hsub).length_le
  by_cases hsame : Maps.size (c.unexpired now) = c.max_entries_
  · cases hhead : (byAge S (c.unexpired now)).head? with
    | none =>
      have hnil : byAge S (c.unexpired now) = [] := List.head?_eq_none_iff.1 hhead
      refine .inl fun k hk => ?_
      have hmem := (byAge_keys (S := S) _).mem_iff.2 (AList.mem_keys.1 hk)
      rw [hnil] at hmem
      cases hmem
    | some e =>
      have he : c.evicted S now = [e.1] := by rw [head_evicted hsame, hhead]; rfl
      refine .inr ⟨hsame, ?_⟩
      rw [Option.map_some, hown e.1 (by rw [he]; exact List.mem_singleton_self _)]
  · have hall : (c.evicted S now).length = Maps.size (c.unexpired now) := by omega
    refine .inl fun k hk => hown k ?_
    have hsub : (c.unexpired now).keys ⊆ c.evicted S now :=
      ((evicted_nodup.subperm fun _ h => AList.mem_keys.1 (mem_of_evicted h)).perm_of_length_le
        (by rw [Maps.size_keys, hall])).symm.subset
    exact hsub (AList.mem_keys.1 hk)

end FileCache

theorem FileCache.put_evicts (S : TimeSort) (c : FileCache) (path : Str) (metadata : FileMetadata)
    (now : Str → Int)
    (stamp : Int) : c.EvictsRightly S path metadata now stamp ↔
      (path ∈ c.cache_ → c.max_entries_ ≤ Maps.size (c.unexpired now) → (∀ k ∈ c.unexpired now, k = path) ∨
        (Maps.size (c.unexpired now) = c.max_entries_ ∧
          (FileCache.byAge S (c.unexpired now)).head?.map Prod.fst = some path)) := by
  constructor
  · intro h hpath hfull
    have hnone : c.removed S path metadata now stamp = [] := by
      by_contra hne
      exact (h.full hne).1 hpath
    refine alone_or_oldest hfull fun k hk => ?_
    by_contra hne
    have hmem : k ∈ c.removed S path metadata now stamp := mem_removed.2 ⟨hne, hk⟩
    rw [hnone] at hmem
    cases hmem
  · intro h
    by_cases hpath : path ∈ c.cache_
    · apply evictsRightly_of_removed
      rw [List.eq_nil_iff_forall_not_mem]
      intro k hk
      obtain ⟨hne, hevicted⟩ := mem_removed.1 hk
      by_cases hfull : c.max_entries_ ≤ Maps.size (c.unexpired now)
      · rcases h hpath hfull with hall | ⟨hsame, hhead⟩
        · exact hne (hall k (mem_of_evicted hevicted))
        · rw [head_evicted hsame, hhead] at hevicted
          exact hne (List.mem_singleton.1 hevicted)
      · rw [evicted_of_room (not_le.1 hfull)] at hevicted
        cases hevicted
    · exact evictsRightly_of_new hpath

namespace FileCache

def sampleFull : FileCache :=
  ((make 2 60).put stable "a" (sampleMetadata "a") (fun _ => 0) 0).put stable "b" (sampleMetadata "b")
    (fun _ => 1) 1

end FileCache

theorem FileCache.put_evicts_wrongly :
    FileCache.sampleFull.removed FileCache.stable "b" (FileCache.sampleMetadata "b") (fun _ => 2) 2 = [ascii "a"] ∧
      ¬FileCache.sampleFull.EvictsRightly FileCache.stable "b" (FileCache.sampleMetadata "b") (fun _ => 2) 2 := by
  have hremoved : FileCache.sampleFull.removed FileCache.stable "b" (FileCache.sampleMetadata "b")
      (fun _ => 2) 2 = [ascii "a"] := by
    decide +kernel
  refine ⟨hremoved, fun h => ?_⟩
  have hnew : ascii "b" ∉ FileCache.sampleFull.cache_ := (h.full (by rw [hremoved]; exact List.cons_ne_nil _ _)).1
  exact hnew (by decide +kernel)

end SimpleSftpd
