import SimpleSftpd.Cxx.FileSystem

namespace SimpleSftpd.Cxx

namespace Path

structure IsName (c : Str) : Prop where
  slash : 47 ∉ c
  nonempty : c ≠ []
  dot : isDot c = false
  dotDot : isDotDot c = false

def leads (p : Str) : List Str := (normalNames true [] (names p)).reverse

lemma pieces_ne_nil (p : Str) : pieces p ≠ [] := by
  cases p with
  | nil => simp [pieces]
  | cons c p =>
    unfold pieces
    split
    · simp
    · split <;> simp

lemma pieces_cons {c : Byte} (hc : c ≠ 47) (p : Str) : pieces (c :: p) = match pieces p with
    | x :: xs => (c :: x) :: xs
    | [] => [[c]] := if_neg hc

lemma pieces_slash (p : Str) : pieces (47 :: p) = [] :: pieces p := by simp [pieces]

lemma pieces_append (a b : Str) : pieces (a ++ 47 :: b) = pieces a ++ pieces b := by
  induction a with
  | nil => rw [List.nil_append, pieces_slash]; rfl
  | cons c a ih =>
    by_cases hc : c = 47
    · rw [hc, List.cons_append, pieces_slash, ih, pieces_slash, List.cons_append]
    · rw [List.cons_append, pieces_cons hc, pieces_cons hc, ih]
      cases hp : pieces a with
      | nil => exact absurd hp (pieces_ne_nil a)
      | cons x xs => rfl

lemma pieces_no_slash {c : Str} (h : 47 ∉ c) : pieces c = [c] := by
  induction c with
  | nil => rfl
  | cons b c ih =>
    rw [List.mem_cons, not_or] at h
    unfold pieces
    rw [if_neg (Ne.symm h.1), ih h.2]

lemma slash_notMem_pieces {p c : Str} (h : c ∈ pieces p) : 47 ∉ c := by
  induction p generalizing c with
  | nil =>
    rw [pieces, List.mem_singleton] at h
    simp [h]
  | cons b p ih =>
    unfold pieces at h
    split at h
    · rcases List.mem_cons.1 h with rfl | h
      · simp
      · exact ih h
    · rename_i hb
      cases hp : pieces p with
      | nil => exact absurd hp (pieces_ne_nil p)
      | cons x xs =>
        rw [hp] at h ih
        rcases List.mem_cons.1 h with rfl | h
        · have hx : 47 ∉ x := ih List.mem_cons_self
          simp [hx, Ne.symm hb]
        · exact ih (List.mem_cons_of_mem _ h)

lemma names_append (a b : Str) : names (a ++ 47 :: b) = names a ++ names b := by
  unfold names
  rw [pieces_append, List.filter_append]

@[simp] lemma names_nil : names [] = [] := rfl

lemma names_slash (p : Str) : names (47 :: p) = names p := names_append [] p

lemma names_of_mem {p c : Str} (h : c ∈ names p) : 47 ∉ c ∧ c ≠ [] := by
  obtain ⟨hp, hc⟩ := List.mem_filter.1 h
  exact ⟨slash_notMem_pieces hp, by simpa using hc⟩

lemma names_of_name {c : Str} (hs : 47 ∉ c) (hc : c ≠ []) : names c = [c] := by
  unfold names
  rw [pieces_no_slash hs, List.filter_cons_of_pos (by simpa using hc), List.filter_nil]

lemma names_joinNames {cs : List Str} (h : ∀ c ∈ cs, 47 ∉ c ∧ c ≠ []) : names (joinNames cs) = cs := by
  induction cs with
  | nil => rfl
  | cons c cs ih =>
    have hc := h c List.mem_cons_self
    have hcs := ih fun d hd => h d (List.mem_cons_of_mem _ hd)
    cases cs with
    | nil => exact names_of_name hc.1 hc.2
    | cons d ds =>
      change names (c ++ 47 :: joinNames (d :: ds)) = _
      rw [names_append, names_of_name hc.1 hc.2, hcs]
      rfl

lemma names_append_slash (p : Str) : names (p ++ [47]) = names p := by
  rw [names_append p []]
  simp

lemma names_relativePath (p : Str) : names (relativePath p) = names p := by
  induction p with
  | nil => rfl
  | cons c p ih =>
    unfold relativePath
    by_cases hc : c = 47
    · rw [hc, List.dropWhile_cons_of_pos (by simp), names_slash]
      exact ih
    · rw [List.dropWhile_cons_of_neg (by simpa using hc)]

lemma isAbsolute_relativePath (p : Str) : isAbsolute (relativePath p) = false := by
  have h := List.head?_dropWhile_not (fun b : Byte => decide (b = 47)) p
  unfold isAbsolute relativePath
  cases hp : (p.dropWhile fun b => decide (b = 47)).head? with
  | none => rfl
  | some b =>
    rw [hp] at h
    simpa using h

lemma names_join {a b : Str} (hb : isAbsolute b = false) : names (join a b) = names a ++ names b := by
  unfold join
  rw [hb, if_neg Bool.false_ne_true]
  split
  · rename_i h
    rcases h with rfl | h
    · rfl
    · have hlast : a.getLast? = some 47 := by simpa [endsWithSlash] using h
      obtain ⟨a', rfl⟩ : ∃ a', a = a' ++ [47] := by
        rw [List.getLast?_eq_some_iff] at hlast
        exact hlast
      rw [List.append_assoc, List.singleton_append, names_append, names_append_slash]
  · exact names_append a b

lemma isAbsolute_join {a : Str} (ha : isAbsolute a = true) (b : Str) : isAbsolute (join a b) = true := by
  unfold join
  split
  · assumption
  · have hne : a ≠ [] := fun h => by simp [h, isAbsolute] at ha
    obtain ⟨c, a, rfl⟩ := List.exists_cons_of_ne_nil hne
    split <;> exact ha

def push (absolute : Bool) (stack : List Str) (c : Str) : List Str :=
  if isDot c then stack
  else if isDotDot c then match stack with
    | [] => if absolute then [] else [c]
    | d :: ds => if isDotDot d then c :: d :: ds else ds
  else c :: stack

section Normal

variable {stack cs : List Str} {c : Str}

lemma normalNames_eq_foldl (absolute : Bool) : normalNames absolute stack cs = cs.foldl (push absolute) stack := by
  induction cs generalizing stack with
  | nil => rfl
  | cons c cs ih =>
    unfold normalNames push
    rw [List.foldl_cons]
    split
    · exact ih
    · split
      · split <;> exact ih
      · exact ih

lemma push_dot (absolute : Bool) (hc : isDot c = true) : push absolute stack c = stack := by simp [push, hc]

lemma push_dotDot_nil (hc : isDot c = false) (hc' : isDotDot c = true) : push true [] c = [] :=
  by simp [push, hc, hc']

lemma push_dotDot_cons (absolute : Bool) {d : Str} (hc : isDot c = false) (hc' : isDotDot c = true)
    (hd : isDotDot d = false) : push absolute (d :: stack) c = stack := by simp [push, hc, hc', hd]

lemma push_other (absolute : Bool) (hc : isDot c = false) (hc' : isDotDot c = false) :
    push absolute stack c = c :: stack := by simp [push, hc, hc']

lemma foldl_push_names (absolute : Bool) (h : ∀ c ∈ cs, IsName c) :
    cs.foldl (push absolute) stack = cs.reverse ++ stack := by
  induction cs generalizing stack with
  | nil => rfl
  | cons c cs ih =>
    have hc := h c List.mem_cons_self
    rw [List.foldl_cons, push_other absolute hc.dot hc.dotDot, ih fun d hd => h d (List.mem_cons_of_mem _ hd)]
    simp

lemma isName_push (hs : ∀ c ∈ stack, IsName c) (hc : 47 ∉ c ∧ c ≠ []) : ∀ d ∈ push true stack c, IsName d := by
  cases hdot : isDot c with
  | true => exact push_dot true hdot ▸ hs
  | false =>
    cases hdots : isDotDot c with
    | true =>
      cases stack with
      | nil => simp [push_dotDot_nil hdot hdots]
      | cons d ds =>
        rw [push_dotDot_cons true hdot hdots (hs d List.mem_cons_self).dotDot]
        exact fun e he => hs e (List.mem_cons_of_mem _ he)
    | false =>
      rw [push_other true hdot hdots]
      intro d hd
      rcases List.mem_cons.1 hd with rfl | hd
      · exact ⟨hc.1, hc.2, hdot, hdots⟩
      · exact hs d hd

lemma isName_foldl_push (hs : ∀ c ∈ stack, IsName c) (hcs : ∀ c ∈ cs, 47 ∉ c ∧ c ≠ []) :
    ∀ c ∈ cs.foldl (push true) stack, IsName c := by
  induction cs generalizing stack with
  | nil => exact hs
  | cons c cs ih =>
    refine ih (isName_push hs (hcs c List.mem_cons_self)) fun d hd => ?_
    exact hcs d (List.mem_cons_of_mem _ hd)

end Normal

lemma leads_eq_foldl (p : Str) : leads p = ((names p).foldl (push true) []).reverse := by
  rw [leads, normalNames_eq_foldl]

lemma isName_leads {p c : Str} (h : c ∈ leads p) : IsName c := by
  rw [leads_eq_foldl, List.mem_reverse] at h
  exact isName_foldl_push (by simp) (fun _ h => names_of_mem h) c h

lemma leads_eq_names {p : Str} (h : ∀ c ∈ names p, IsName c) : leads p = names p := by
  rw [leads_eq_foldl, foldl_push_names _ h]
  simp

def IsForm (q : Str) (cs : List Str) : Prop := q = 47 :: joinNames cs ∨ cs ≠ [] ∧ q = 47 :: joinNames cs ++ [47]

lemma IsForm.isAbsolute {q : Str} {cs : List Str} (h : IsForm q cs) : isAbsolute q = true := by
  rcases h with rfl | ⟨_, rfl⟩ <;> rfl

lemma IsForm.names {q : Str} {cs : List Str} (h : IsForm q cs) (hcs : ∀ c ∈ cs, 47 ∉ c ∧ c ≠ []) :
    names q = cs := by
  rcases h with rfl | ⟨_, rfl⟩
  · rw [names_slash, names_joinNames hcs]
  · rw [names_append_slash, names_slash, names_joinNames hcs]

lemma IsForm.names_leads {p q : Str} (h : IsForm q (leads p)) : Path.names q = leads p :=
  h.names fun _ hc => ⟨(isName_leads hc).slash, (isName_leads hc).nonempty⟩

lemma lexicallyNormal_form {p : Str} (hp : isAbsolute p = true) : IsForm (lexicallyNormal p) (leads p) := by
  have hne : p ≠ [] := fun h => by simp [h, isAbsolute] at hp
  rw [lexicallyNormal, if_neg hne, hp, leads]
  dsimp only
  cases hs : normalNames true [] (names p) with
  | nil => exact .inl rfl
  | cons c stack =>
    simp only [if_pos, List.singleton_append]
    split
    · exact .inr ⟨by simp, rfl⟩
    · exact .inl (List.append_nil _)

lemma names_lexicallyNormal {p : Str} (hp : isAbsolute p = true) : names (lexicallyNormal p) = leads p :=
  (lexicallyNormal_form hp).names_leads

lemma names_foldl_join {a : Str} {cs : List Str} (hcs : ∀ c ∈ cs, 47 ∉ c) :
    names (cs.foldl join a) = names a ++ cs.filter (· ≠ []) := by
  induction cs generalizing a with
  | nil => simp
  | cons c cs ih =>
    have hc := hcs c List.mem_cons_self
    have habs : isAbsolute c = false := by
      unfold isAbsolute
      rw [decide_eq_false_iff_not]
      exact fun h => hc (List.mem_of_head? h)
    rw [List.foldl_cons, ih fun d hd => hcs d (List.mem_cons_of_mem _ hd), names_join habs, List.append_assoc]
    congr 1
    by_cases hnil : c = []
    · simp [hnil]
    · rw [names_of_name hc hnil, List.filter_cons_of_pos (by simpa using hnil)]
      rfl

lemma isAbsolute_foldl_join {a : Str} (ha : isAbsolute a = true) (cs : List Str) :
    isAbsolute (cs.foldl join a) = true := by
  induction cs generalizing a with
  | nil => exact ha
  | cons c cs ih => exact ih (isAbsolute_join ha c)

lemma elements_eq {p : Str} (hp : isAbsolute p = true) : ∃ cs, elements p = [47] :: cs ∧ (∀ c ∈ cs, 47 ∉ c) ∧
    cs.filter (· ≠ []) = names p := by
  have hnames : (names p).filter (· ≠ []) = names p := by
    unfold names
    simp
  refine ⟨names p ++ (if names p ≠ [] ∧ endsWithSlash p then [[]] else []), ?_, fun c hc => ?_, ?_⟩
  · rw [elements, if_pos hp, List.append_assoc]
    rfl
  · rcases List.mem_append.1 hc with hc | hc
    · exact (names_of_mem hc).1
    · split at hc
      · rw [List.mem_singleton.1 hc]
        simp
      · cases hc
  · rw [List.filter_append, hnames]
    split <;> simp

end Path

namespace FileSystem

variable {fs : FileSystem} {p q : Str}

def LinkFree (fs : FileSystem) : Prop := ∀ l t, fs.node l ≠ some (.symlink t)

lemma linkFree_of_nodes (h : ∀ n ∈ fs.nodes, ∀ t, n.2 ≠ .symlink t) : fs.LinkFree := by
  intro l t hl
  rw [node] at hl
  split at hl
  · cases hl
  · obtain ⟨before, after, hnodes, _⟩ := List.lookup_eq_some_iff.1 hl
    exact h (l, .symlink t) (hnodes ▸ List.mem_append_right before List.mem_cons_self) t rfl

open Cxx.Path

lemma LinkFree.walkAux (h : fs.LinkFree) {last : LastName} {onLink : Location → List Str → Except Errc Location}
    {cur l : Location} {stack cs : List Str} (hcur : cur = fs.root ++ stack.reverse) (hs : ∀ c ∈ stack, IsName c)
    (hcs : ∀ c ∈ cs, 47 ∉ c) (hl : fs.walkAux last onLink cur cs = .ok l) :
    l = fs.root ++ ((cs.filter (· ≠ [])).foldl (push true) stack).reverse := by
  induction cs generalizing cur stack with
  | nil =>
    cases hl
    exact hcur
  | cons c cs ih =>
    have ih' (cur : Location) (stack : List Str) (hcur : cur = fs.root ++ stack.reverse) (hs :
        ∀ c ∈ stack, IsName c) :=
      ih hcur hs fun d hd => hcs d (List.mem_cons_of_mem _ hd)
    have hc := hcs c List.mem_cons_self
    unfold FileSystem.walkAux at hl
    split at hl
    · by_cases hnil : c = []
      · rw [if_pos (.inl hnil)] at hl
        rw [List.filter_cons_of_neg (by simpa using hnil)]
        exact ih' _ _ hcur hs hl
      · rw [List.filter_cons_of_pos (by simpa using hnil), List.foldl_cons]
        have hpush := isName_push hs ⟨hc, hnil⟩
        split at hl
        · rename_i hdot
          rw [push_dot true (hdot.resolve_left hnil)]
          exact ih' _ _ hcur hs hl
        · rename_i hdot
          have hdot : isDot c = false := by simpa [hnil] using hdot
          split at hl
          · rename_i hdots
            cases stack with
            | nil =>
              rw [push_dotDot_nil hdot hdots]
              rw [if_pos (by simpa using hcur)] at hl
              exact ih' _ _ hcur hs hl
            | cons d ds =>
              have hne : cur ≠ fs.root := fun he => by simp [he] at hcur
              rw [push_dotDot_cons true hdot hdots (hs d List.mem_cons_self).dotDot] at hpush ⊢
              rw [if_neg hne] at hl
              refine ih' _ _ ?_ hpush hl
              rw [hcur, List.reverse_cons, ← List.append_assoc, List.dropLast_concat]
          · rename_i hdots
            rw [push_other true hdot (by simpa using hdots)] at hpush ⊢
            have hnext : cur ++ [c] = fs.root ++ (c :: stack).reverse := by
              rw [hcur, List.reverse_cons, List.append_assoc]
            split at hl
            · split at hl
              · rename_i hlast
                cases hl
                rw [hlast.2]
                exact hnext
              · cases hl
            · rename_i t ht
              exact absurd ht (h _ t)
            · exact ih' _ _ hnext hpush hl
    · cases hl
    · cases hl

lemma LinkFree.walk (h : fs.LinkFree) {last : LastName} {l : Location} {links : ℕ} {cs : List Str}
    (hcs : ∀ c ∈ cs, 47 ∉ c) (hl : fs.walk last links fs.root cs = .ok l) :
    l = fs.root ++ ((cs.filter (· ≠ [])).foldl (push true) []).reverse := by
  cases links with
  | zero => exact h.walkAux (by simp) (by simp) hcs hl
  | succ links => exact h.walkAux (by simp) (by simp) hcs hl

lemma LinkFree.locate (h : fs.LinkFree) {l : Location} (hl : fs.locate p = .ok l) : l = fs.root ++ leads p := by
  unfold FileSystem.locate at hl
  split at hl
  · cases hl
  · rw [leads_eq_foldl]
    exact h.walk (fun _ => slash_notMem_pieces) hl

lemma LinkFree.canonical (h : fs.LinkFree) (hq : fs.canonical p = .ok q) : q = 47 :: joinNames (leads p) := by
  rw [FileSystem.canonical] at hq
  split at hq
  · cases hq
  · cases hl : fs.locate p with
    | error e =>
      rw [hl] at hq
      cases hq
    | ok l =>
      rw [hl] at hq
      cases hq
      rw [render, h.locate hl, List.drop_left]

lemma existingPrefix_eq {found f : Str} {cs rest : List Str} (h : fs.existingPrefix found cs = .ok (f, rest)) :
    ∃ before, cs = before ++ rest ∧ f = before.foldl join found := by
  induction cs generalizing found with
  | nil =>
    cases h
    exact ⟨[], rfl, rfl⟩
  | cons c cs ih =>
    unfold existingPrefix at h
    split at h
    · cases h
    · cases h
      exact ⟨[], rfl, rfl⟩
    · obtain ⟨before, rfl, hf⟩ := ih h
      exact ⟨c :: before, rfl, hf⟩

lemma LinkFree.weaklyCanonical (h : fs.LinkFree) (hp : isAbsolute p = true) (hq : fs.weaklyCanonical p = .ok q) :
    IsForm q (leads p) := by
  unfold FileSystem.weaklyCanonical at hq
  split at hq
  · cases hq
  · obtain ⟨cs, hcs, hslash, hnames⟩ := elements_eq hp
    rw [hcs] at hq
    cases hf : fs.existingPrefix [] ([47] :: cs) with
    | error e =>
      rw [hf] at hq
      cases hq
    | ok found =>
      obtain ⟨f, rest⟩ := found
      rw [hf] at hq
      simp only [Except.bind] at hq
      obtain ⟨before, hsplit, hjoin⟩ := existingPrefix_eq hf
      have hend {T : Str} (hT : isAbsolute T = true) (hleads : leads T = leads p) :
          IsForm (lexicallyNormal T) (leads p) :=
        hleads ▸ lexicallyNormal_form hT
      cases before with
      | nil =>
        -- nothing on the way exists: the path is only put in its normal form
        subst hjoin
        rw [List.nil_append] at hsplit
        subst hsplit
        cases hq
        refine hend (isAbsolute_foldl_join rfl cs) ?_
        have hall : names (cs.foldl join [47]) = names p := by
          rw [names_foldl_join hslash, hnames]
          rfl
        rw [leads, leads, ← hall]
        rfl
      | cons c before =>
        rw [List.cons_append, List.cons.injEq] at hsplit
        obtain ⟨rfl, rfl⟩ := hsplit
        have hbefore : ∀ c ∈ before, 47 ∉ c := fun c hc => hslash c (List.mem_append_left _ hc)
        have hrest : ∀ c ∈ rest, 47 ∉ c := fun c hc => hslash c (List.mem_append_right _ hc)
        have hfabs : isAbsolute f = true := hjoin ▸ isAbsolute_foldl_join rfl before
        have hne : f ≠ [] := fun he => by simp [he, isAbsolute] at hfabs
        have hfnames : names f = before.filter (· ≠ []) := by
          rw [hjoin]
          change names (before.foldl join [47]) = _
          rw [names_foldl_join hbefore]
          rfl
        rw [if_neg hne] at hq
        cases hbase : fs.canonical f with
        | error e =>
          rw [hbase] at hq
          cases hq
        | ok base =>
          rw [hbase] at hq
          cases hq
          have hform : IsForm base (leads f) := .inl (h.canonical hbase)
          have hbabs := hform.isAbsolute
          have hbnames := hform.names_leads
          refine hend (isAbsolute_foldl_join hbabs rest) ?_
          rw [leads_eq_foldl, names_foldl_join hrest, hbnames, List.foldl_append,
            foldl_push_names _ fun c hc => isName_leads hc, List.append_nil, leads_eq_foldl, List.reverse_reverse,
            hfnames, ← List.foldl_append, ← List.filter_append, hnames, leads_eq_foldl]
  · exact .inl (h.canonical hq)

end FileSystem

end SimpleSftpd.Cxx
