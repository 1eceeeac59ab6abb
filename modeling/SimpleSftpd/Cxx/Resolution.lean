import SimpleSftpd.Cxx.FileSystem

namespace SimpleSftpd.Cxx

def Node.shape : Node → Node
  | regular _ => regular []
  | n => n

namespace FileSystem

variable {fs fs' : FileSystem} {l m : Location} {n : Node} {p : Str}

lemma lookup_filter_ne (hm : m ≠ l) (es : List (Location × Node)) :
    (es.filter (·.1 ≠ l)).lookup m = es.lookup m := by
  induction es with
  | nil => rfl
  | cons e es ih =>
    obtain ⟨k, v⟩ := e
    by_cases hk : k = l
    · have hmk : (m == k) = false := beq_eq_false_iff_ne.2 fun h => hm (h.trans hk)
      rw [List.filter_cons_of_neg (by simpa using hk), ih, List.lookup_cons, hmk]
    · rw [List.filter_cons_of_pos (by simpa using hk), List.lookup_cons, List.lookup_cons, ih]

lemma node_set (hl : l ≠ []) : (fs.set l n).node m = if m = l then some n else fs.node m := by
  unfold node set
  by_cases hm : m = []
  · simp [hm, Ne.symm hl]
  · rw [if_neg hm, if_neg hm]
    split
    · rename_i h
      simp [h]
    · rename_i h
      rw [List.lookup_cons, beq_eq_false_iff_ne.2 h]
      exact lookup_filter_ne h _

structure SameShape (fs fs' : FileSystem) : Prop where
  root : fs'.root = fs.root
  deny : fs'.deny = fs.deny
  node : ∀ l, (fs'.node l).map Node.shape = (fs.node l).map Node.shape

lemma SameShape.refl : SameShape fs fs := ⟨rfl, rfl, fun _ => rfl⟩

lemma SameShape.trans {fs'' : FileSystem} (h : SameShape fs fs') (h' : SameShape fs' fs'') : SameShape fs fs'' :=
  ⟨h'.root.trans h.root, h'.deny.trans h.deny, fun l => (h'.node l).trans (h.node l)⟩

lemma set_sameShape {b : Str} (hb : fs.node l = some (.regular b)) (data : Str) :
    SameShape fs (fs.set l (.regular data)) := by
  refine ⟨rfl, rfl, fun m => ?_⟩
  have hl : l ≠ [] := fun hl => by simp [FileSystem.node, hl] at hb
  rw [node_set hl]
  split
  · rename_i hm
    simp [hm, hb, Node.shape]
  · rfl

lemma writeAt_sameShape (l : Location) (pos : ℕ) (data : Str) : SameShape fs (fs.writeAt l pos data) := by
  unfold writeAt
  split
  · rename_i b hb
    exact set_sameShape hb _
  · exact .refl

namespace SameShape

variable (h : SameShape fs fs')
include h

lemma node_cases (l : Location) :
    (fs.node l = none ∧ fs'.node l = none) ∨ (∃ n, fs.node l = some n ∧ fs'.node l = some n) ∨
      ∃ b b', fs.node l = some (.regular b) ∧ fs'.node l = some (.regular b') := by
  have hn := h.node l
  rcases hfs : fs.node l with _ | n <;> rcases hfs' : fs'.node l with _ | n' <;> rw [hfs, hfs'] at hn
  · exact .inl ⟨rfl, rfl⟩
  · cases hn
  · cases hn
  · have hshape : n'.shape = n.shape := Option.some.inj hn
    cases n <;> cases n' <;> simp [Node.shape] at hshape
    · exact .inr (.inl ⟨_, rfl, rfl⟩)
    · exact .inr (.inr ⟨_, _, rfl, rfl⟩)
    · exact .inr (.inl ⟨_, rfl, by rw [hshape]⟩)
    · exact .inr (.inl ⟨_, rfl, rfl⟩)

lemma walkAux {last : LastName} {onLink onLink' : Location → List Str → Except Errc Location}
    (hlink : ∀ cur cs, onLink' cur cs = onLink cur cs) (cur : Location) (cs : List Str) :
    fs'.walkAux last onLink' cur cs = fs.walkAux last onLink cur cs := by
  induction cs generalizing cur with
  | nil => rfl
  | cons c cs ih =>
    unfold FileSystem.walkAux
    rcases h.node_cases cur with ⟨hn, hn'⟩ | ⟨n, hn, hn'⟩ | ⟨b, b', hn, hn'⟩
    · simp only [hn, hn']
    · simp only [hn, hn']
      cases n with
      | directory =>
        rcases h.node_cases (cur ++ [c]) with ⟨hm, hm'⟩ | ⟨m, hm, hm'⟩ | ⟨d, d', hm, hm'⟩
        · simp only [hm, hm', ih, h.root]
        · simp only [hm, hm', ih, h.root]
          cases m <;> simp only [hlink]
        · simp only [hm, hm', ih, h.root]
      | _ => rfl
    · simp only [hn, hn']

lemma walk {last : LastName} (links : ℕ) (cur : Location) (cs : List Str) :
    fs'.walk last links cur cs = fs.walk last links cur cs := by
  induction links generalizing cur cs with
  | zero => exact h.walkAux (fun _ _ => rfl) cur cs
  | succ links ih => exact h.walkAux ih cur cs

lemma locate (p : Str) : fs'.locate p = fs.locate p := by
  unfold FileSystem.locate
  rw [h.walk, h.root]

lemma status (p : Str) : fs'.status p = fs.status p := by
  unfold FileSystem.status
  rw [h.deny, h.locate]
  split
  · rfl
  · split
    · rename_i l _
      rcases h.node_cases l with ⟨hn, hn'⟩ | ⟨n, hn, hn'⟩ | ⟨b, b', hn, hn'⟩ <;> simp [hn, hn', typeOf]
    all_goals rfl

lemma weaklyCanonical (p : Str) : fs'.weaklyCanonical p = fs.weaklyCanonical p := by
  have hcanon (p : Str) : fs'.canonical p = fs.canonical p := by
    have hrender : fs'.render = fs.render := by
      funext l
      unfold FileSystem.render
      rw [h.root]
    unfold FileSystem.canonical
    rw [h.deny, h.locate, hrender]
  have hprefix (found : Str) (cs : List Str) : fs'.existingPrefix found cs = fs.existingPrefix found cs := by
    induction cs generalizing found with
    | nil => rfl
    | cons c cs ih =>
      unfold FileSystem.existingPrefix
      simp only [h.status, ih]
  unfold FileSystem.weaklyCanonical
  simp only [h.status, hcanon, hprefix]

end SameShape

section Placing

variable (hroot : fs'.root = fs.root) (hsame : ∀ m, m ≠ l → fs'.node m = fs.node m)
  (hold : fs.node l ≠ some .directory ∧ ∀ t, fs.node l ≠ some (.symlink t))
  (hnew : ∃ n, fs'.node l = some n ∧ ∀ t, n ≠ .symlink t)
include hroot hsame hold hnew

lemma walkAux_placed {onLink onLink' : Location → List Str → Except Errc Location}
    (hlink : ∀ cur cs, onLink cur cs = .ok l → onLink' cur cs = .ok l) (cur : Location) (cs : List Str)
    (h : fs.walkAux .place onLink cur cs = .ok l) : fs'.walkAux .object onLink' cur cs = .ok l := by
  obtain ⟨n, hn, hns⟩ := hnew
  induction cs generalizing cur with
  | nil => exact h
  | cons c cs ih =>
    unfold walkAux at h ⊢
    rcases hcur : fs.node cur with _ | _ | _ | _ | _ <;> simp only [hcur] at h
    case none | some.regular | some.symlink | some.other => cases h
    have hcur' : fs'.node cur = some .directory := by
      rw [hsame cur fun he => hold.1 (he ▸ hcur), hcur]
    simp only [hcur', hroot]
    split at h
    · rename_i hdot
      rw [if_pos hdot]
      exact ih _ h
    · rename_i hdot
      rw [if_neg hdot]
      split at h
      · rename_i hdots
        rw [if_pos hdots]
        exact ih _ h
      · rename_i hdots
        rw [if_neg hdots]
        by_cases hend : cur ++ [c] = l
        · rw [hend] at h ⊢
          rw [hn]
          rcases hold' : fs.node l with _ | _ | _ | _ | _ <;> simp only [hold'] at h
          case none =>
            split at h
            · rename_i hlast
              rw [hlast.2]
              cases n with
              | symlink t => exact absurd rfl (hns t)
              | _ => rfl
            · cases h
          case some.directory => exact absurd hold' hold.1
          case some.symlink t => exact absurd hold' (hold.2 t)
          all_goals
            cases n with
            | symlink t => exact absurd rfl (hns t)
            | _ => exact ih _ h
        · rw [hsame _ hend]
          rcases hnext : fs.node (cur ++ [c]) with _ | _ | _ | t | _ <;> simp only [hnext] at h ⊢
          case none =>
            split at h
            · cases h
              exact absurd rfl hend
            · cases h
          case some.symlink =>
            rw [if_neg (by simp)] at h ⊢
            exact hlink _ _ h
          all_goals exact ih _ h

lemma walk_placed (links : ℕ) (cur : Location) (cs : List Str) (h : fs.walk .place links cur cs = .ok l) :
    fs'.walk .object links cur cs = .ok l := by
  induction links generalizing cur cs with
  | zero => exact walkAux_placed hroot hsame hold hnew (fun _ _ h => by cases h) cur cs h
  | succ links ih => exact walkAux_placed hroot hsame hold hnew ih cur cs h

end Placing

lemma openWrite_locate {mode : OpenMode} (h : (fs.openWrite p mode).1 = .ok l) :
    (fs.openWrite p mode).2.locate p = .ok l := by
  have hset (n : Node) (hl : l ≠ []) (hp : fs.place p = .ok l)
      (hold : fs.node l ≠ some .directory ∧ ∀ t, fs.node l ≠ some (.symlink t)) (hn : ∀ t, n ≠ .symlink t) :
      (fs.set l n).locate p = .ok l := by
    unfold place at hp
    split at hp
    · cases hp
    · rename_i hne
      unfold locate
      rw [if_neg hne]
      exact @walk_placed fs (fs.set l n) l rfl (fun m hm => by rw [node_set hl, if_neg hm]) hold
        ⟨n, by rw [node_set hl, if_pos rfl], hn⟩ _ _ _ hp
  have hstay (n : Node) (hnode : fs.node l = some n) (hp : fs.place p = .ok l) (hd : n ≠ .directory)
      (hn : ∀ t, n ≠ .symlink t) : fs.locate p = .ok l := by
    unfold place at hp
    split at hp
    · cases hp
    · rename_i hne
      unfold locate
      rw [if_neg hne]
      refine walk_placed rfl (fun _ _ => rfl) ⟨?_, fun t => ?_⟩ ⟨n, hnode, hn⟩ _ _ _ hp
      · rw [hnode]
        simpa using hd
      · rw [hnode]
        simpa using hn t
  have hroot (hnode : fs.node l ≠ some .directory) : l ≠ [] := fun hl => hnode (by simp [node, hl])
  unfold openWrite at h ⊢
  split at h
  · cases h
  · rename_i hdeny
    rcases hl : (if mode = .update then fs.locate p else fs.place p) with e | k
    · rw [hl] at h
      cases h
    · rw [hl] at h
      dsimp only at h
      rcases hnode : fs.node k with _ | _ | b | t | _ <;> simp only [hnode] at h ⊢
      case none =>
        split at h
        · cases h
        · rename_i hmode
          cases h
          rw [if_neg hmode] at hl ⊢
          exact hset _ (hroot (by simp [hnode])) hl (by simp [hnode]) (by simp)
      case some.directory | some.symlink => cases h
      case some.regular =>
        cases h
        split
        · rename_i hmode
          rw [if_neg (by simp [hmode])] at hl
          exact hset _ (hroot (by simp [hnode])) hl (by simp [hnode]) (by simp)
        · split at hl
          · exact hl
          · exact hstay _ hnode hl (by simp) (by simp)
      case some.other =>
        cases h
        split at hl
        · exact hl
        · exact hstay _ hnode hl (by simp) (by simp)

end FileSystem

end SimpleSftpd.Cxx
