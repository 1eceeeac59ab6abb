import SimpleSftpd.Cxx.Resolution

namespace SimpleSftpd.Cxx

def splice (b : Str) (pos : ℕ) (data : Str) : Str :=
  let padded := b ++ List.replicate (pos - b.length) 0
  padded.take pos ++ data ++ padded.drop (pos + data.length)

section

variable {b : Str} {pos : ℕ} (data : Str)

lemma length_splice : (splice b pos data).length = max b.length (pos + data.length) := by
  simp only [splice, List.length_append, List.length_take, List.length_drop, List.length_replicate]
  omega

lemma splice_end : splice b b.length data = b ++ data := by
  simp [splice]

lemma splice_of_le (h : pos ≤ b.length) :
    splice b pos data = b.take pos ++ data ++ b.drop (pos + data.length) := by
  simp [splice, Nat.sub_eq_zero_of_le h]

lemma splice_splice (data' : Str) :
    splice (splice b pos data) (pos + data.length) data' = splice b pos (data ++ data') := by
  have hstart : ((b ++ List.replicate (pos - b.length) (0 : Byte)).take pos ++ data).length =
      pos + data.length := by
    simp only [List.length_take, List.length_append, List.length_replicate]
    omega
  have hfirst : (splice b pos data).take (pos + data.length) =
      (b ++ List.replicate (pos - b.length) 0).take pos ++ data := List.take_left' hstart
  have hrest : (splice b pos data).drop (pos + data.length) =
      (b ++ List.replicate (pos - b.length) 0).drop (pos + data.length) := List.drop_left' hstart
  have hlong : pos + data.length ≤ (splice b pos data).length := by
    rw [length_splice]
    omega
  rw [splice_of_le data' hlong, hfirst, ← List.drop_drop, hrest, List.drop_drop]
  simp only [splice, List.append_assoc, List.length_append, Nat.add_assoc]

end

namespace FileSystem

variable {fs fs' : FileSystem} {l m : Location} {p : Str} {b data : Str} {pos : ℕ}

def put (fs : FileSystem) (l : Location) (pos : ℕ) (data : Str) : FileSystem :=
  if data = [] then fs else fs.writeAt l pos data

@[simp] lemma put_nil : fs.put l pos [] = fs := rfl

lemma put_of_ne (h : data ≠ []) : fs.put l pos data = fs.writeAt l pos data := if_neg h

lemma ne_nil_of_regular (h : fs.node l = some (.regular b)) : l ≠ [] := by
  rintro rfl
  cases h

lemma content_regular (h : fs.node l = some (.regular b)) : fs.content l = b := by
  unfold content
  rw [h]

lemma writeAt_regular (h : fs.node l = some (.regular b)) :
    fs.writeAt l pos data = fs.set l (.regular (splice b pos data)) := by
  unfold writeAt
  rw [h]
  rfl

lemma writeAt_other (h : ∀ b, fs.node l ≠ some (.regular b)) : fs.writeAt l pos data = fs := by
  unfold writeAt
  split
  · rename_i b hb
    exact absurd hb (h b)
  · rfl

lemma set_set {n n' : Node} : (fs.set l n).set l n' = fs.set l n' := by
  simp [set, List.filter_filter]

lemma put_put (data' : Str) :
    (fs.put l pos data).put l (pos + data.length) data' = fs.put l pos (data ++ data') := by
  by_cases hd : data = []
  · simp [hd]
  by_cases hd' : data' = []
  · simp [hd']
  have hboth : data ++ data' ≠ [] := by simp [hd]
  rw [put_of_ne hd, put_of_ne hd', put_of_ne hboth]
  by_cases hreg : ∃ b, fs.node l = some (.regular b)
  · obtain ⟨b, hb⟩ := hreg
    have hset : (fs.set l (.regular (splice b pos data))).node l = some (.regular (splice b pos data)) := by
      rw [node_set (ne_nil_of_regular hb), if_pos rfl]
    rw [writeAt_regular hb, writeAt_regular hset, writeAt_regular hb, splice_splice, set_set]
  · rw [not_exists] at hreg
    rw [writeAt_other hreg, writeAt_other hreg, writeAt_other hreg]

lemma put_sameShape (l : Location) (pos : ℕ) (data : Str) : SameShape fs (fs.put l pos data) := by
  unfold put
  split
  · exact .refl
  · exact writeAt_sameShape l pos data

lemma node_put (hm : m ≠ l) : (fs.put l pos data).node m = fs.node m := by
  by_cases hd : data = []
  · rw [hd, put_nil]
  rw [put_of_ne hd]
  by_cases hreg : ∃ b, fs.node l = some (.regular b)
  · obtain ⟨b, hb⟩ := hreg
    rw [writeAt_regular hb, node_set (ne_nil_of_regular hb), if_neg hm]
  · rw [writeAt_other (not_exists.1 hreg)]

lemma append_eq_put (hpos : ∀ b, fs.node l = some (.regular b) → pos = b.length) (hd : data ≠ []) :
    fs.append l data = fs.put l pos data := by
  unfold append
  rw [put_of_ne hd]
  by_cases hreg : ∃ b, fs.node l = some (.regular b)
  · obtain ⟨b, hb⟩ := hreg
    rw [content_regular hb, hpos b hb]
  · rw [writeAt_other (not_exists.1 hreg), writeAt_other (not_exists.1 hreg)]

lemma put_end (hpos : ∀ b, fs.node l = some (.regular b) → pos = b.length) :
    ∀ b, (fs.put l pos data).node l = some (.regular b) → pos + data.length = b.length := by
  intro b hb
  by_cases hd : data = []
  · rw [hd, put_nil] at hb
    rw [hd, hpos b hb]
    rfl
  rw [put_of_ne hd] at hb
  by_cases hreg : ∃ b, fs.node l = some (.regular b)
  · obtain ⟨b', hb'⟩ := hreg
    rw [writeAt_regular hb', node_set (ne_nil_of_regular hb'), if_pos rfl] at hb
    obtain rfl : splice b' pos data = b := by simpa using hb
    rw [hpos b' hb', splice_end, List.length_append]
  · rw [writeAt_other (not_exists.1 hreg)] at hb
    exact absurd ⟨b, hb⟩ hreg

lemma node_put_end (h : fs.node l = some (.regular b)) (data : Str) :
    (fs.put l b.length data).node l = some (.regular (b ++ data)) := by
  by_cases hd : data = []
  · rw [hd, put_nil, h, List.append_nil]
  · rw [put_of_ne hd, writeAt_regular h, node_set (ne_nil_of_regular h), if_pos rfl, splice_end]

lemma put_other (h : ∀ b, fs.node l ≠ some (.regular b)) : fs.put l pos data = fs := by
  unfold put
  split
  · rfl
  · exact writeAt_other h

lemma status_of_regular (hl : fs.locate p = .ok l) (hb : fs.node l = some (.regular b)) :
    fs.status p ≠ .ok .notFound := by
  unfold status
  rw [hl]
  split
  · intro h
    cases h
  · simp [hb, typeOf]

structure Grows (fs fs' : FileSystem) : Prop where
  root : fs'.root = fs.root
  deny : fs'.deny = fs.deny
  node : ∀ l n, fs.node l = some n → fs'.node l = some n

namespace Grows

lemma refl : Grows fs fs := ⟨rfl, rfl, fun _ _ => id⟩

lemma trans {fs'' : FileSystem} (h : Grows fs fs') (h' : Grows fs' fs'') : Grows fs fs'' :=
  ⟨h'.root.trans h.root, h'.deny.trans h.deny, fun l n hn => h'.node l n (h.node l n hn)⟩

variable (h : Grows fs fs')
include h

lemma walkAux {onLink onLink' : Location → List Str → Except Errc Location}
    (hlink : ∀ cur cs, onLink cur cs = .ok l → onLink' cur cs = .ok l) (cur : Location) (cs : List Str)
    (hl : fs.walkAux .object onLink cur cs = .ok l) : fs'.walkAux .object onLink' cur cs = .ok l := by
  induction cs generalizing cur with
  | nil => exact hl
  | cons c cs ih =>
    unfold FileSystem.walkAux at hl ⊢
    rcases hcur : fs.node cur with _ | n <;> simp only [hcur] at hl
    case none => cases hl
    cases n with
    | directory =>
      simp only [h.node _ _ hcur, h.root]
      dsimp only at hl
      split at hl
      · rename_i hdot
        rw [if_pos hdot]
        exact ih _ hl
      · rename_i hdot
        rw [if_neg hdot]
        split at hl
        · rename_i hdots
          rw [if_pos hdots]
          exact ih _ hl
        · rename_i hdots
          rw [if_neg hdots]
          rcases hnext : fs.node (cur ++ [c]) with _ | n <;> simp only [hnext] at hl
          case none => simp at hl
          simp only [h.node _ _ hnext]
          cases n with
          | symlink t => exact hlink _ _ (by simpa using hl)
          | _ => exact ih _ hl
    | _ => cases hl

lemma walk (links : ℕ) (cur : Location) (cs : List Str) (hl : fs.walk .object links cur cs = .ok l) :
    fs'.walk .object links cur cs = .ok l := by
  induction links generalizing cur cs with
  | zero => exact h.walkAux (fun _ _ h => by cases h) cur cs hl
  | succ links ih => exact h.walkAux ih cur cs hl

lemma locate (hl : fs.locate p = .ok l) : fs'.locate p = .ok l := by
  unfold FileSystem.locate at hl ⊢
  split at hl
  · cases hl
  · rename_i hp
    rw [if_neg hp, h.root]
    exact h.walk _ _ _ hl

end Grows

lemma set_grows (h : fs.node l = none) (n : Node) : Grows fs (fs.set l n) := by
  have hl : l ≠ [] := fun hl => by simp [node, hl] at h
  refine ⟨rfl, rfl, fun m n' hm => ?_⟩
  have hne : m ≠ l := fun he => by simp [he, h] at hm
  rw [node_set hl, if_neg hne, hm]

lemma createDirectory_grows (p : Str) : Grows fs (fs.createDirectory p).2 := by
  unfold createDirectory
  split
  · exact .refl
  · split
    · exact .refl
    · split
      · rename_i hn
        exact set_grows hn _
      · split
        · split <;> exact .refl
        · exact .refl

lemma createAll_grows (ps : List Str) : ∀ fs : FileSystem, Grows fs (createAll fs ps).2 := by
  induction ps with
  | nil => exact fun fs => .refl
  | cons p ps ih =>
    intro fs
    have hone : Grows fs (fs.createDirectory p).2 := createDirectory_grows p
    unfold createAll
    split
    · rename_i e fs' he
      rwa [he] at hone
    · rename_i made fs' he
      rw [he] at hone
      split
      · exact hone
      · exact hone.trans (ih fs')

lemma createDirectories_grows (p : Str) : Grows fs (fs.createDirectories p).2 := by
  unfold createDirectories
  split
  · exact .refl
  · split
    · exact .refl
    · exact .refl
    · split
      · exact .refl
      · exact createAll_grows _ fs
    · exact .refl

lemma place_of_locate (h : fs.locate p = .ok l) : fs.place p = .ok l := by
  have haux {onLink onLink' : Location → List Str → Except Errc Location}
      (hlink : ∀ cur cs, onLink cur cs = .ok l → onLink' cur cs = .ok l) (cs : List Str) :
      ∀ cur, fs.walkAux .object onLink cur cs = .ok l → fs.walkAux .place onLink' cur cs = .ok l := by
    induction cs with
    | nil => exact fun cur h => h
    | cons c cs ih =>
      intro cur h
      unfold walkAux at h ⊢
      rcases hcur : fs.node cur with _ | n <;> simp only [hcur] at h
      case none => cases h
      cases n with
      | directory =>
        dsimp only at h ⊢
        split at h
        · rename_i hdot
          rw [if_pos hdot]
          exact ih _ h
        · rename_i hdot
          rw [if_neg hdot]
          split at h
          · rename_i hdots
            rw [if_pos hdots]
            exact ih _ h
          · rename_i hdots
            rw [if_neg hdots]
            rcases hnext : fs.node (cur ++ [c]) with _ | n <;> simp only [hnext] at h
            case none => simp at h
            cases n with
            | symlink t =>
              have hgo := hlink _ _ (by simpa using h)
              simpa using hgo
            | _ => exact ih _ h
      | _ => cases h
  have hwalk (links : ℕ) : ∀ cur cs, fs.walk .object links cur cs = .ok l →
      fs.walk .place links cur cs = .ok l := by
    induction links with
    | zero => exact fun cur cs => haux (fun _ _ h => by cases h) cs cur
    | succ links ih => exact fun cur cs => haux ih cs cur
  unfold locate at h
  unfold place
  split at h
  · cases h
  · rename_i hp
    rw [if_neg hp]
    exact hwalk _ _ _ h

lemma openWrite_update : (fs.openWrite p .update).2 = fs := by
  unfold openWrite
  split
  · rfl
  · split
    · rfl
    · split <;> simp

lemma openWrite_cases {mode : OpenMode} (h : (fs.openWrite p mode).1 = .ok l) :
    (if mode = .update then fs.locate p else fs.place p) = .ok l ∧
      ((fs.node l = none ∧ (fs.openWrite p mode).2 = fs.set l (.regular [])) ∨
        (∃ b, fs.node l = some (.regular b) ∧
          (fs.openWrite p mode).2 = if mode = .truncate then fs.set l (.regular []) else fs) ∨
        (fs.node l = some .other ∧ (fs.openWrite p mode).2 = fs)) := by
  unfold openWrite at h ⊢
  split at h
  · cases h
  · rename_i hdeny
    split at h
    · cases h
    · rename_i k hk
      simp only [hk]
      rcases hn : fs.node k with _ | _ | b | t | _ <;> simp only [hn] at h ⊢
      case none =>
        split at h
        · cases h
        · rename_i hmode
          cases h
          exact ⟨rfl, .inl ⟨hn, by rw [if_neg hmode]⟩⟩
      case some.directory | some.symlink => cases h
      case some.regular =>
        cases h
        exact ⟨rfl, .inr (.inl ⟨b, hn, rfl⟩)⟩
      case some.other =>
        cases h
        exact ⟨rfl, .inr (.inr ⟨hn, trivial⟩)⟩

lemma openWrite_at {mode : OpenMode} (h : (fs.openWrite p mode).1 = .ok m) (hl : fs.locate p = .ok l) : m = l := by
  have hm := (openWrite_cases h).1
  rw [hl, place_of_locate hl, ite_self] at hm
  exact (Except.ok.inj hm).symm

lemma openWrite_node {mode : OpenMode} (h : (fs.openWrite p mode).1 = .ok l) (hb : fs.node l = some (.regular b)) :
    (fs.openWrite p mode).2.node l = some (.regular (if mode = .truncate then [] else b)) := by
  obtain ⟨_, ⟨hnone, _⟩ | ⟨b', hb', he⟩ | ⟨hother, _⟩⟩ := openWrite_cases h
  · simp [hb] at hnone
  · obtain rfl : b = b' := by simpa [hb] using hb'
    rw [he]
    split
    · rw [node_set (ne_nil_of_regular hb), if_pos rfl]
    · exact hb
  · simp [hb] at hother

lemma openWrite_end {mode : OpenMode} (h : (fs.openWrite p mode).1 = .ok l) :
    ∀ b, (fs.openWrite p mode).2.node l = some (.regular b) →
      (if mode = .truncate then 0 else (fs.content l).length) = b.length := by
  intro b hb
  obtain ⟨_, ⟨hnone, he⟩ | ⟨b', hb', _⟩ | ⟨hother, he⟩⟩ := openWrite_cases h
  · have hl : l ≠ [] := fun hl => by simp [node, hl] at hnone
    rw [he, node_set hl, if_pos rfl] at hb
    obtain rfl : [] = b := by simpa using hb
    simp [content, hnone]
  · rw [openWrite_node h hb'] at hb
    obtain rfl : (if mode = .truncate then [] else b') = b := by simpa using hb
    rw [content_regular hb']
    split <;> rfl
  · rw [he, hother] at hb
    cases hb

lemma openWrite_truncated (h : (fs.openWrite p .truncate).1 = .ok l) (hn : fs.node l ≠ some .other) :
    (fs.openWrite p .truncate).2.node l = some (.regular []) := by
  obtain ⟨_, ⟨hnone, he⟩ | ⟨b, hb, _⟩ | ⟨hother, _⟩⟩ := openWrite_cases h
  · have hl : l ≠ [] := fun hl => by simp [node, hl] at hnone
    rw [he, node_set hl, if_pos rfl]
  · exact openWrite_node h hb
  · exact absurd hother hn

end FileSystem

end SimpleSftpd.Cxx
