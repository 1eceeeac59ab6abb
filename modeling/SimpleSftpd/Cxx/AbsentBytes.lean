import SimpleSftpd.Cxx.Normal

namespace SimpleSftpd.Cxx

variable {b : Byte} {p q : Str} {cs stack : List Str}

def Without (b : Byte) (cs : List Str) : Prop := ∀ c ∈ cs, b ∉ c

lemma without_nil : Without b [] := fun _ h => by cases h

lemma without_cons {c : Str} : Without b (c :: cs) ↔ b ∉ c ∧ Without b cs := List.forall_mem_cons

lemma without_append {ds : List Str} : Without b (cs ++ ds) ↔ Without b cs ∧ Without b ds := List.forall_mem_append

lemma Without.subset {ds : List Str} (h : Without b cs) (hsub : ds ⊆ cs) : Without b ds :=
  fun c hc => h c (hsub hc)

namespace Path

lemma notMem_slash (hslash : b ≠ 47) : b ∉ ("/" : Str) := fun h => hslash (List.mem_singleton.1 h)

lemma without_pieces (h : b ∉ p) : Without b (pieces p) := by
  induction p with
  | nil => exact without_cons.2 ⟨List.not_mem_nil, without_nil⟩
  | cons c p ih =>
    obtain ⟨hc, hp⟩ := not_or.1 (mt List.mem_cons.2 h)
    have hrest := ih hp
    by_cases hslash : c = 47
    · rw [hslash, pieces_slash]
      exact without_cons.2 ⟨List.not_mem_nil, hrest⟩
    · rw [pieces_cons hslash]
      cases hpieces : pieces p with
      | nil => exact absurd hpieces (pieces_ne_nil p)
      | cons x xs =>
        rw [hpieces, without_cons] at hrest
        refine without_cons.2 ⟨fun hmem => ?_, hrest.2⟩
        rcases List.mem_cons.1 hmem with he | hx
        · exact hc he
        · exact hrest.1 hx

lemma without_names (h : b ∉ p) : Without b (names p) := (without_pieces h).subset fun _ => List.mem_of_mem_filter

lemma notMem_joinNames (hslash : b ≠ 47) (h : Without b cs) : b ∉ joinNames cs := by
  induction cs with
  | nil => exact List.not_mem_nil
  | cons c cs ih =>
    obtain ⟨hc, hcs⟩ := without_cons.1 h
    cases cs with
    | nil => exact hc
    | cons d cs =>
      change b ∉ c ++ 47 :: joinNames (d :: cs)
      simp only [List.mem_append, List.mem_cons, not_or]
      exact ⟨hc, hslash, ih hcs⟩

lemma notMem_join (hslash : b ≠ 47) (hp : b ∉ p) (hq : b ∉ q) : b ∉ join p q := by
  unfold join
  split
  · exact hq
  · split <;> simp [hp, hq, hslash]

lemma notMem_foldl_join (hslash : b ≠ 47) (hcs : Without b cs) : ∀ {p : Str}, b ∉ p → b ∉ cs.foldl join p := by
  induction cs with
  | nil => exact fun hp => hp
  | cons c cs ih =>
    intro p hp
    obtain ⟨hc, hcs⟩ := without_cons.1 hcs
    exact ih hcs (notMem_join hslash hp hc)

lemma notMem_relativePath (h : b ∉ p) : b ∉ relativePath p :=
  fun hmem => h ((List.dropWhile_sublist _).subset hmem)

lemma without_elements (hslash : b ≠ 47) (h : b ∉ p) : Without b (elements p) := by
  unfold elements
  refine without_append.2 ⟨without_append.2 ⟨?_, without_names h⟩, ?_⟩
  · split
    · exact without_cons.2 ⟨notMem_slash hslash, without_nil⟩
    · exact without_nil
  · split
    · exact without_cons.2 ⟨List.not_mem_nil, without_nil⟩
    · exact without_nil

lemma without_normalNames {absolute : Bool} (hcs : Without b cs) : ∀ {stack : List Str}, Without b stack →
    Without b (normalNames absolute stack cs) := by
  induction cs with
  | nil => exact fun hstack => hstack
  | cons c cs ih =>
    intro stack hstack
    obtain ⟨hc, hcs⟩ := without_cons.1 hcs
    unfold normalNames
    split
    · exact ih hcs hstack
    · split
      · cases stack with
        | nil =>
          refine ih hcs ?_
          split
          · exact without_nil
          · exact without_cons.2 ⟨hc, without_nil⟩
        | cons d ds =>
          obtain ⟨hd, hds⟩ := without_cons.1 hstack
          refine ih hcs ?_
          split
          · exact without_cons.2 ⟨hc, without_cons.2 ⟨hd, hds⟩⟩
          · exact hds
      · exact ih hcs (without_cons.2 ⟨hc, hstack⟩)

lemma notMem_lexicallyNormal (hslash : b ≠ 47) (hdot : b ≠ 46) (h : b ∉ p) : b ∉ lexicallyNormal p := by
  have hstack : Without b (normalNames (isAbsolute p) [] (names p)) :=
    without_normalNames (without_names h) without_nil
  unfold lexicallyNormal
  split
  · exact List.not_mem_nil
  · dsimp only
    cases hnames : normalNames (isAbsolute p) [] (names p) with
    | nil =>
      dsimp only
      split
      · exact notMem_slash hslash
      · exact fun h => hdot (List.mem_singleton.1 h)
    | cons c stack =>
      rw [hnames] at hstack
      have hreverse : Without b (c :: stack).reverse := hstack.subset fun _ => List.mem_reverse.1
      have hjoined := notMem_joinNames hslash hreverse
      dsimp only
      simp only [List.mem_append, not_or]
      refine ⟨⟨?_, hjoined⟩, ?_⟩
      · split <;> simp [hslash]
      · split <;> simp [hslash]

lemma notMem_filename (h : b ∉ p) : b ∉ filename p := by
  unfold filename
  split
  · exact List.not_mem_nil
  · cases hlast : (names p).getLast? with
    | none => exact List.not_mem_nil
    | some c => exact without_names h c (List.mem_of_getLast? hlast)

lemma notMem_parentPath (hslash : b ≠ 47) (h : b ∉ p) : b ∉ parentPath p := by
  have hcut {q : Str} {f : Byte → Bool} (hq : b ∉ q) : b ∉ (q.reverse.dropWhile f).reverse := by
    intro hmem
    exact hq (List.mem_reverse.1 ((List.dropWhile_sublist _).subset (List.mem_reverse.1 hmem)))
  unfold parentPath
  split
  · exact h
  · split
    · exact hcut h
    · dsimp only
      split
      · exact notMem_slash hslash
      · exact hcut (hcut h)

end Path

namespace FileSystem

open Cxx.Path

structure Lacks (fs : FileSystem) (b : Byte) : Prop where
  names : ∀ e ∈ fs.nodes, Without b e.1
  targets : ∀ e ∈ fs.nodes, ∀ t, e.2 = .symlink t → b ∉ t
  root : Without b fs.root

namespace Lacks

variable {fs : FileSystem} {l m cur : Location} {last : LastName}

lemma target (h : fs.Lacks b) {t : Str} (hl : fs.node l = some (.symlink t)) : b ∉ t := by
  unfold node at hl
  split at hl
  · cases hl
  · obtain ⟨before, after, hnodes, _⟩ := List.lookup_eq_some_iff.1 hl
    exact h.targets (l, .symlink t) (hnodes ▸ by simp) t rfl

lemma walkAux (h : fs.Lacks b) {onLink : Location → List Str → Except Errc Location}
    (honLink : ∀ cur cs, Without b cur → Without b cs → onLink cur cs = .ok l → Without b l) (hcs : Without b cs) :
    ∀ {cur : Location}, Without b cur → fs.walkAux last onLink cur cs = .ok l → Without b l := by
  induction cs with
  | nil =>
    intro cur hcur hl
    cases hl
    exact hcur
  | cons c cs ih =>
    intro cur hcur hl
    obtain ⟨hc, hcs⟩ := without_cons.1 hcs
    have hdown : Without b (cur ++ [c]) := without_append.2 ⟨hcur, without_cons.2 ⟨hc, without_nil⟩⟩
    unfold FileSystem.walkAux at hl
    split at hl
    · split at hl
      · exact ih hcs hcur hl
      · split at hl
        · refine ih hcs ?_ hl
          split
          · exact hcur
          · exact hcur.subset (List.dropLast_subset _)
        · split at hl
          · split at hl
            · cases hl
              exact hdown
            · cases hl
          · rename_i t ht
            split at hl
            · cases hl
              exact hdown
            · refine honLink _ _ ?_ (without_append.2 ⟨without_pieces (h.target ht), hcs⟩) hl
              split
              · exact h.root
              · exact hcur
          · exact ih hcs hdown hl
    · cases hl
    · cases hl

lemma walk (h : fs.Lacks b) (n : ℕ) : ∀ {cur : Location} {cs : List Str}, Without b cur → Without b cs →
    fs.walk last n cur cs = .ok l → Without b l := by
  induction n with
  | zero => exact fun hcur hcs hl => h.walkAux (fun _ _ _ _ he => by cases he) hcs hcur hl
  | succ n ih => exact fun hcur hcs hl => h.walkAux (fun _ _ hcur hcs he => ih hcur hcs he) hcs hcur hl

lemma locate (h : fs.Lacks b) (hp : b ∉ p) (hl : fs.locate p = .ok l) : Without b l := by
  unfold FileSystem.locate at hl
  split at hl
  · cases hl
  · exact h.walk 40 h.root (without_pieces hp) hl

lemma place (h : fs.Lacks b) (hp : b ∉ p) (hl : fs.place p = .ok l) : Without b l := by
  unfold FileSystem.place at hl
  split at hl
  · cases hl
  · exact h.walk 40 h.root (without_pieces hp) hl

lemma entry (h : fs.Lacks b) (hp : b ∉ p) (hl : fs.entry p = .ok l) : Without b l := by
  unfold FileSystem.entry at hl
  split at hl
  · cases hl
  · exact h.walk 40 h.root (without_names hp) hl

lemma canonical (h : fs.Lacks b) (hslash : b ≠ 47) (hp : b ∉ p) (hq : fs.canonical p = .ok q) : b ∉ q := by
  unfold FileSystem.canonical at hq
  split at hq
  · cases hq
  · cases hl : fs.locate p with
    | error e =>
      rw [hl] at hq
      cases hq
    | ok l =>
      rw [hl] at hq
      cases hq
      have hnames : Without b (l.drop fs.root.length) := (h.locate hp hl).subset (List.drop_subset _ _)
      simp only [render, List.mem_cons, not_or]
      exact ⟨hslash, notMem_joinNames hslash hnames⟩

lemma existingPrefix (hslash : b ≠ 47) (hcs : Without b cs) : ∀ {found : Str} {r : Str × List Str}, b ∉ found →
    fs.existingPrefix found cs = .ok r → b ∉ r.1 ∧ Without b r.2 := by
  induction cs with
  | nil =>
    intro found r hfound hr
    cases hr
    exact ⟨hfound, without_nil⟩
  | cons c cs ih =>
    intro found r hfound hr
    have hrest := (without_cons.1 hcs)
    unfold FileSystem.existingPrefix at hr
    split at hr
    · cases hr
    · cases hr
      exact ⟨hfound, hcs⟩
    · exact ih hrest.2 (notMem_join hslash hfound hrest.1) hr

lemma weaklyCanonical (h : fs.Lacks b) (hslash : b ≠ 47) (hdot : b ≠ 46) (hp : b ∉ p)
    (hq : fs.weaklyCanonical p = .ok q) : b ∉ q := by
  unfold FileSystem.weaklyCanonical at hq
  split at hq
  · cases hq
  · cases hexisting : fs.existingPrefix [] (elements p) with
    | error e =>
      rw [hexisting] at hq
      cases hq
    | ok r =>
      obtain ⟨hfound, hrest⟩ := existingPrefix hslash (without_elements hslash hp) List.not_mem_nil hexisting
      rw [hexisting] at hq
      change Except.map _ (if r.1 = [] then .ok [] else fs.canonical r.1) = .ok q at hq
      have hbase {base : Str} (hbase : (if r.1 = [] then .ok [] else fs.canonical r.1) = .ok base) : b ∉ base := by
        split at hbase
        · cases hbase
          exact List.not_mem_nil
        · exact h.canonical hslash hfound hbase
      cases hcanonical : (if r.1 = [] then .ok [] else fs.canonical r.1 : Except Errc Str) with
      | error e =>
        rw [hcanonical] at hq
        cases hq
      | ok base =>
        rw [hcanonical] at hq
        cases hq
        exact notMem_lexicallyNormal hslash hdot (notMem_foldl_join hslash hrest (hbase hcanonical))
  · exact h.canonical hslash hp hq

lemma children (h : fs.Lacks b) : Without b (fs.children l) := by
  intro c hc
  obtain ⟨e, he, hlast⟩ := List.mem_filterMap.1 hc
  dsimp only at hlast
  split at hlast
  · exact h.names e he c (List.mem_of_getLast? hlast)
  · cases hlast

lemma readDirectory (h : fs.Lacks b) : Without b (fs.readDirectory p).1 := by
  unfold FileSystem.readDirectory
  split
  · exact without_nil
  · split
    · exact h.children
    · exact without_nil
    · exact without_nil

/-! The operations put no byte into the tree that is not in their paths. -/

lemma set (h : fs.Lacks b) (hl : Without b l) {n : Node} (hn : ∀ t, n ≠ .symlink t) : (fs.set l n).Lacks b := by
  have hcases {e : Location × Node} (he : e ∈ (fs.set l n).nodes) : e = (l, n) ∨ e ∈ fs.nodes :=
    (List.mem_cons.1 he).imp_right List.mem_of_mem_filter
  refine ⟨fun e he => ?_, fun e he t ht => ?_, h.root⟩
  · rcases hcases he with rfl | he
    · exact hl
    · exact h.names e he
  · rcases hcases he with rfl | he
    · exact absurd ht (hn t)
    · exact h.targets e he t ht

lemma delete (h : fs.Lacks b) : (fs.delete l).Lacks b :=
  ⟨fun e he => h.names e (List.mem_of_mem_filter he), fun e he => h.targets e (List.mem_of_mem_filter he), h.root⟩

lemma move (h : fs.Lacks b) (hm : Without b m) : (fs.move l m).Lacks b := by
  have hcases {e : Location × Node} (he : e ∈ (fs.move l m).nodes) :
      ∃ e' ∈ fs.nodes, e.2 = e'.2 ∧ e.1 = if l.isPrefixOf e'.1 then m ++ e'.1.drop l.length else e'.1 := by
    obtain ⟨e', he', rfl⟩ := List.mem_map.1 he
    exact ⟨e', List.mem_of_mem_filter he', rfl, rfl⟩
  refine ⟨fun e he => ?_, fun e he t ht => ?_, h.root⟩
  · obtain ⟨e', he', _, hname⟩ := hcases he
    rw [hname]
    split
    · exact without_append.2 ⟨hm, (h.names e' he').subset (List.drop_subset _ _)⟩
    · exact h.names e' he'
  · obtain ⟨e', he', hnode, _⟩ := hcases he
    exact h.targets e' he' t (hnode ▸ ht)

lemma permissions (h : fs.Lacks b) (mode : ℕ) : (fs.permissions p mode).2.Lacks b := by
  refine ⟨fun e he => ?_, fun e he t ht => ?_, ?_⟩
  · exact h.names e ((permissions_nodes fs p mode) ▸ he)
  · exact h.targets e ((permissions_nodes fs p mode) ▸ he) t ht
  · rw [permissions_root]
    exact h.root

lemma createDirectory (h : fs.Lacks b) (hp : b ∉ p) : (fs.createDirectory p).2.Lacks b := by
  unfold FileSystem.createDirectory
  split
  · exact h
  · split
    · exact h
    · rename_i l hl
      split
      · exact h.set (h.entry hp hl) (by simp)
      · split
        · split <;> exact h
        · exact h

lemma createAll {ps : List Str} (hps : Without b ps) :
    ∀ {fs : FileSystem}, fs.Lacks b → (createAll fs ps).2.Lacks b := by
  induction ps with
  | nil => exact fun h => h
  | cons p ps ih =>
    intro fs h
    obtain ⟨hp, hps⟩ := without_cons.1 hps
    have hmade := h.createDirectory hp
    unfold FileSystem.createAll
    split
    · rename_i he
      rwa [he] at hmade
    · rename_i he
      rw [he] at hmade
      split
      · exact hmade
      · exact ih hps hmade

lemma missing (hslash : b ≠ 47) (n : ℕ) :
    ∀ {p : Str} {ps : List Str}, b ∉ p → fs.missing n p = .ok ps → Without b ps := by
  induction n with
  | zero =>
    intro p ps _ hps
    cases hps
    exact without_nil
  | succ n ih =>
    intro p ps hp hps
    have hup := notMem_parentPath hslash hp
    have hhere : Without b (if isDot (filename p) ∨ isDotDot (filename p) then [] else [p]) := by
      split
      · exact without_nil
      · exact without_cons.2 ⟨hp, without_nil⟩
    unfold FileSystem.missing at hps
    dsimp only at hps
    split at hps
    · cases hps
      exact hhere
    · split at hps
      · cases hps
      · cases hps
        exact hhere
      · cases hmissing : fs.missing n (parentPath p) with
        | error e =>
          rw [hmissing] at hps
          cases hps
        | ok above =>
          rw [hmissing] at hps
          cases hps
          exact without_append.2 ⟨ih hup hmissing, hhere⟩
      · cases hps

lemma createDirectories (h : fs.Lacks b) (hslash : b ≠ 47) (hp : b ∉ p) : (fs.createDirectories p).2.Lacks b := by
  have hstart : b ∉ (if filename p = [] then parentPath p else p) := by
    split
    · exact notMem_parentPath hslash hp
    · exact hp
  unfold FileSystem.createDirectories
  split
  · exact h
  · split
    · exact h
    · exact h
    · split
      · exact h
      · rename_i ps hps
        exact createAll (missing hslash _ hstart hps) h
    · exact h

lemma remove (h : fs.Lacks b) : (fs.remove p).2.Lacks b := by
  unfold FileSystem.remove
  split
  · exact h
  · split
    · exact h
    · exact h
    · split
      · exact h
      · split
        · exact h
        · split
          · exact h
          · exact h.delete
      · exact h.delete

lemma rename (h : fs.Lacks b) (hq : b ∉ q) : (fs.rename p q).2.Lacks b := by
  unfold FileSystem.rename
  split
  · exact h
  · split
    · exact h
    · exact h
    · rename_i src dst _ hdst
      have hmoved : (fs.move src dst).Lacks b := h.move (h.entry hq hdst)
      repeat' split
      all_goals first | exact h | exact hmoved

lemma openWrite (h : fs.Lacks b) (hp : b ∉ p) (mode : OpenMode) : (fs.openWrite p mode).2.Lacks b := by
  unfold FileSystem.openWrite
  split
  · exact h
  · split
    · exact h
    · rename_i l hl
      have hnames : Without b l := by
        split at hl
        · exact h.locate hp hl
        · exact h.place hp hl
      have hset (content : Str) : (fs.set l (.regular content)).Lacks b := h.set hnames (by simp)
      repeat' split
      all_goals first | exact h | exact hset _

lemma writeAt (h : fs.Lacks b) (pos : ℕ) (data : Str) : (fs.writeAt l pos data).Lacks b := by
  unfold FileSystem.writeAt
  split
  · rename_i content hl
    refine h.set ?_ (by simp)
    unfold node at hl
    split at hl
    · cases hl
    · obtain ⟨before, after, hnodes, _⟩ := List.lookup_eq_some_iff.1 hl
      exact h.names (l, .regular content) (hnodes ▸ by simp)
  · exact h

lemma chroot (h : fs.Lacks b) (hp : b ∉ p) (hl : fs.locate p = .ok l) : Lacks { fs with root := l } b :=
  ⟨h.names, h.targets, h.locate hp hl⟩

end Lacks

end FileSystem

end SimpleSftpd.Cxx
