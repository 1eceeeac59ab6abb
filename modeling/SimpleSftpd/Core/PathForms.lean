import SimpleSftpd.Core.LinkedPaths

namespace SimpleSftpd

open Cxx Path

namespace Cxx.Path

def trunk (p : Str) : List Str := (if isAbsolute p then [[47]] else []) ++ names p

variable {p q child parent : Str} {ns cs : List Str}

lemma nil_notMem_trunk (p : Str) : ([] : Str) ∉ trunk p := by
  intro h
  rcases List.mem_append.1 h with h | h
  · split at h
    · cases List.mem_singleton.1 h
    · cases h
  · exact (names_of_mem h).2 rfl

lemma elements_of_plain (h : Plain p) : elements p = trunk p := by
  have hnone : ¬(names p ≠ [] ∧ endsWithSlash p = true) := fun hends => hends.1 (h hends.2)
  rw [elements, if_neg hnone, List.append_nil, trunk]
  rfl

lemma elements_of_not_plain (h : ¬Plain p) : elements p = trunk p ++ [[]] := by
  have hends : names p ≠ [] ∧ endsWithSlash p = true := by
    obtain ⟨hslash, hnames⟩ := Classical.not_imp.1 h
    exact ⟨hnames, hslash⟩
  rw [elements, if_pos hends, trunk]
  rfl

lemma prefix_of_append {as bs tail : List Str} (ha : ([] : Str) ∉ as) (htail : tail = [] ∨ tail = [[]])
    (h : as <+: bs ++ tail) :
    as <+: bs := by
  rcases htail with rfl | rfl
  · rwa [List.append_nil] at h
  · rcases List.prefix_concat_iff.1 h with rfl | h
    · exact absurd (List.mem_append_right bs (List.mem_singleton.2 rfl)) ha
    · exact h

lemma isWithin_iff : isWithin child parent = true ↔
    trunk parent <+: trunk child ∧ (¬Plain parent → trunk parent = trunk child ∧ ¬Plain child) := by
  have hchild : ∃ tail, elements child = trunk child ++ tail ∧
      (tail = [] ∧ Plain child ∨ tail = [[]] ∧ ¬Plain child) := by
    by_cases hplain : Plain child
    · exact ⟨[], by rw [elements_of_plain hplain, List.append_nil], .inl ⟨rfl, hplain⟩⟩
    · exact ⟨[[]], elements_of_not_plain hplain, .inr ⟨rfl, hplain⟩⟩
  obtain ⟨tail, helements, htail⟩ := hchild
  have htails : tail = [] ∨ tail = [[]] := htail.imp And.left And.left
  rw [isWithin, List.isPrefixOf_iff_prefix, helements]
  by_cases hplain : Plain parent
  · rw [elements_of_plain hplain]
    constructor
    · exact fun h => ⟨prefix_of_append (nil_notMem_trunk parent) htails h, fun h => absurd hplain h⟩
    · exact fun h => h.1.trans (List.prefix_append _ _)
  · rw [elements_of_not_plain hplain, imp_iff_right hplain]
    constructor
    · intro h
      have hwhole : trunk parent <+: trunk child :=
        prefix_of_append (nil_notMem_trunk parent) htails ((List.prefix_append _ _).trans h)
      obtain ⟨more, hmore⟩ := hwhole
      rw [← hmore, List.append_assoc, List.prefix_append_right_inj] at h
      cases more with
      | nil =>
        rw [List.append_nil] at hmore
        rcases htail with ⟨rfl, _⟩ | ⟨_, hc⟩
        · exact absurd h.length_le (by simp)
        · exact ⟨hmore ▸ List.prefix_rfl, hmore, hc⟩
      | cons c more =>
        obtain ⟨hc, _⟩ := List.cons_prefix_cons.1 h
        refine absurd ?_ (nil_notMem_trunk child)
        rw [← hmore, hc]
        exact List.mem_append_right _ List.mem_cons_self
    · rintro ⟨_, hsame, hc⟩
      rcases htail with ⟨_, hnot⟩ | ⟨rfl, _⟩
      · exact absurd hnot hc
      · rw [hsame]

lemma isWithin_congr (h : trunk p = trunk q) : isWithin child p = isWithin child q ↔
    ¬(¬(Plain p ↔ Plain q) ∧ trunk q <+: trunk child ∧ (trunk q = trunk child → Plain child)) := by
  rw [Bool.eq_iff_iff, isWithin_iff, isWithin_iff, h]
  by_cases hp : Plain p <;> by_cases hq : Plain q <;> simp [hp, hq]

lemma elements_relative (hp : isAbsolute p = false) (hnames : names p = ns) : ∃ tail, elements p = ns ++ tail ∧
    (∀ c ∈ elements p, 47 ∉ c) ∧ (elements p).filter (· ≠ []) = ns := by
  have hkept : ns.filter (· ≠ []) = ns := List.filter_eq_self.2 fun c hc => by
    simpa using (names_of_mem (hnames ▸ hc)).2
  have hslash : ∀ c ∈ ns, 47 ∉ c := fun c hc => (names_of_mem (hnames ▸ hc)).1
  by_cases hplain : Plain p
  · have helements : elements p = ns := by
      rw [elements_of_plain hplain, trunk, hp, hnames]
      rfl
    rw [helements]
    exact ⟨[], (List.append_nil ns).symm, hslash, hkept⟩
  · have helements : elements p = ns ++ [[]] := by
      rw [elements_of_not_plain hplain, trunk, hp, hnames]
      rfl
    rw [helements]
    refine ⟨[[]], rfl, List.forall_mem_append.2 ⟨hslash, by simp⟩, ?_⟩
    rw [List.filter_append, hkept]
    exact List.append_nil ns

lemma lexicallyNormal_append {base f : Str} {rest : List Str} (hbase : IsForm base (leads f))
    (hrest : ∀ c ∈ rest, 47 ∉ c)
    (hnames : names p = names f ++ rest.filter (· ≠ [])) :
    IsForm (lexicallyNormal (rest.foldl join base)) (leads p) := by
  have hleads : leads (rest.foldl join base) = leads p := by
    rw [leads_eq_foldl, names_foldl_join hrest, hbase.names_leads, List.foldl_append,
      foldl_push_names _ fun c hc => isName_leads hc, List.append_nil, leads_eq_foldl, List.reverse_reverse,
        leads_eq_foldl p,
      hnames, List.foldl_append]
  exact hleads ▸ lexicallyNormal_form (isAbsolute_foldl_join hbase.isAbsolute rest)

lemma mem_normalNames {absolute : Bool} {stack : List Str} {c : Str} (h : c ∈ normalNames absolute stack cs) :
    c ∈ stack ∨ c ∈ cs := by
  rw [normalNames_eq_foldl] at h
  induction cs generalizing stack with
  | nil => exact .inl h
  | cons d cs ih =>
    rw [List.foldl_cons] at h
    rcases ih h with hpushed | hrest
    · have hpush : c ∈ stack ∨ c = d := by
        simp only [push] at hpushed
        split at hpushed
        · exact .inl hpushed
        · split at hpushed
          · split at hpushed
            · split at hpushed
              · cases hpushed
              · exact .inr (List.mem_singleton.1 hpushed)
            · split at hpushed
              · exact (List.mem_cons.1 hpushed).symm
              · exact .inl (List.mem_cons_of_mem _ hpushed)
          · exact (List.mem_cons.1 hpushed).symm
      rcases hpush with hstack | rfl
      · exact .inl hstack
      · exact .inr List.mem_cons_self
    · exact .inr (List.mem_cons_of_mem _ hrest)

lemma isAbsolute_joinNames (hcs : ∀ c ∈ cs, 47 ∉ c ∧ c ≠ []) (q : Str) (hq : cs = [] → isAbsolute q = false) :
    isAbsolute (joinNames cs ++ q) = false := by
  cases cs with
  | nil => exact hq rfl
  | cons c cs =>
    obtain ⟨hc, hne⟩ := hcs c List.mem_cons_self
    obtain ⟨b, c, rfl⟩ := List.exists_cons_of_ne_nil hne
    have hb : b ≠ 47 := fun h => hc (h ▸ List.mem_cons_self)
    have hhead : (joinNames ((b :: c) :: cs) ++ q).head? = some b := by
      cases cs <;> rfl
    rw [isAbsolute, hhead]
    exact decide_eq_false fun h => hb (Option.some.inj h)

lemma lexicallyNormal_relative (hp : isAbsolute p = false) (hne : p ≠ []) : lexicallyNormal p ≠ [] ∧
    trunk (lexicallyNormal p) = if normalNames false [] (names p) = [] then [ascii "."] else
      (normalNames false [] (names p)).reverse := by
  rw [lexicallyNormal, if_neg hne, hp]
  cases hstack : normalNames false [] (names p) with
  | nil => exact ⟨List.cons_ne_nil _ _, rfl⟩
  | cons c stack =>
    have hall : ∀ d ∈ (c :: stack).reverse, 47 ∉ d ∧ d ≠ [] := by
      intro d hd
      rw [List.mem_reverse, ← hstack] at hd
      rcases mem_normalNames hd with hd | hd
      · cases hd
      · exact names_of_mem hd
    have hshown : (c :: stack).reverse ≠ [] := List.reverse_ne_nil_iff.2 (List.cons_ne_nil c stack)
    have hrelative (q : Str) : isAbsolute (joinNames (c :: stack).reverse ++ q) = false :=
      isAbsolute_joinNames hall q fun h => absurd h hshown
    have hnames := names_joinNames hall
    simp only [Bool.false_eq_true, if_false, List.nil_append, reduceCtorEq]
    refine ⟨fun h => joinNames_ne_nil hshown (fun d hd => (hall d hd).2) (List.append_eq_nil_iff.1 h).1, ?_⟩
    rw [trunk, hrelative, if_neg Bool.false_ne_true, List.nil_append]
    split
    · rw [names_append_slash, hnames]
    · rw [List.append_nil, hnames]

end Cxx.Path

namespace Cxx.FileSystem

variable {fs : FileSystem} {p f : Str} {e : Errc} {c : Str} {cs : List Str} {l : Location}

lemma LinkFree.walkAux_error (h : fs.LinkFree) {last : LastName}
    {onLink : Location → List Str → Except Errc Location}
    {cur : Location} (he : fs.walkAux last onLink cur cs = .error e) : e = .enoent ∨ e = .enotdir := by
  induction cs generalizing cur with
  | nil => cases he
  | cons c cs ih =>
    rw [FileSystem.walkAux] at he
    split at he
    · split at he
      · exact ih he
      · split at he
        · exact ih he
        · split at he
          · split at he
            · cases he
            · cases he
              exact .inl rfl
          · rename_i t ht
            exact absurd ht (h _ t)
          · exact ih he
    · cases he
      exact .inr rfl
    · cases he
      exact .inl rfl

lemma LinkFree.status_eq (h : fs.LinkFree) (hfs : fs.Answers) (p : Str) :
    (∃ l t, fs.locate p = .ok l ∧ t ≠ .notFound ∧ fs.status p = .ok t ∧
      fs.canonical p = .ok (47 :: joinNames (leads p))) ∨
      (∀ l, fs.locate p ≠ .ok l) ∧ fs.status p = .ok .notFound := by
  cases hl : fs.locate p with
  | ok l =>
    obtain ⟨t, ht, hstatus⟩ := status_of_locate hfs hl
    have hcanonical : fs.canonical p = .ok (fs.render l) := by
      rw [FileSystem.canonical, (hfs p).2, hl]
      rfl
    have hplain := h.canonical hcanonical
    exact .inl ⟨l, t, rfl, ht, hstatus, hplain ▸ hcanonical⟩
  | error e =>
    refine .inr ⟨fun l h => (by cases h), ?_⟩
    have he : e = .enoent ∨ e = .enotdir := by
      rw [FileSystem.locate] at hl
      split at hl
      · cases hl
        exact .inl rfl
      · obtain ⟨onLink, hwalk⟩ := fs.walk_eq_walkAux .object 40
        rw [hwalk] at hl
        exact h.walkAux_error hl
    rw [status, (hfs p).1, hl]
    rcases he with rfl | rfl <;> rfl

lemma LinkFree.existingPrefix_ok (h : fs.LinkFree) (hfs : fs.Answers) (cs : List Str) {found : Str}
    (hfound : ∃ l, fs.locate found = .ok l) :
    ∃ f rest, fs.existingPrefix found cs = .ok (f, rest) ∧ ∃ l, fs.locate f = .ok l := by
  induction cs generalizing found with
  | nil => exact ⟨found, [], rfl, hfound⟩
  | cons c cs ih =>
    rw [existingPrefix]
    rcases h.status_eq hfs (join found c) with ⟨l, t, hl, ht, hstatus, _⟩ | ⟨_, hstatus⟩
    · rw [hstatus]
      cases t with
      | notFound => exact absurd rfl ht
      | _ => exact ih ⟨l, hl⟩
    · rw [hstatus]
      exact ⟨found, c :: cs, rfl, hfound⟩

lemma locate_beginning (h : fs.locate p = .ok l) (hsplit : pieces p = pieces f ++ cs) (hf : f ≠ []) :
    ∃ l, fs.locate f = .ok l := by
  obtain ⟨_, k, hk, hwalks⟩ := locate_walks h
  rcases hwalks.cut (pieces f) hsplit with ⟨k₁, k₂, m, rfl, hfirst, _⟩ | ⟨rest, hne, hnil⟩
  · exact ⟨m, locate_of_walks hfirst (by omega) hf⟩
  · exact absurd (List.append_eq_nil_iff.1 hnil.symm).1 hne

lemma pieces_relative (hp : isAbsolute p = false) (hne : p ≠ []) :
    ∃ c cs, pieces p = c :: cs ∧ c ≠ [] ∧ ∃ ns, names p = c :: ns := by
  obtain ⟨b, q, rfl⟩ := List.exists_cons_of_ne_nil hne
  have hb : b ≠ 47 := fun h => of_decide_eq_false hp (congrArg some h)
  obtain ⟨x, xs, hx⟩ := List.exists_cons_of_ne_nil (pieces_ne_nil q)
  have hpieces : pieces (b :: q) = (b :: x) :: xs := by rw [pieces_cons hb, hx]
  exact ⟨b :: x, xs, hpieces, List.cons_ne_nil b x, xs.filter (· ≠ []), by rw [names, hpieces]; rfl⟩

lemma LinkFree.weaklyCanonical_relative (h : fs.LinkFree) (hfs : fs.Answers) (hp : isAbsolute p = false)
    (hne : p ≠ [])
    {ns : List Str} (hnames : names p = c :: ns) :
    ((∃ l, fs.locate c = .ok l) → ∃ q, fs.weaklyCanonical p = .ok q ∧ IsForm q (leads p)) ∧
      ((∀ l, fs.locate c ≠ .ok l) →
        fs.weaklyCanonical p = .ok (lexicallyNormal ((elements p).foldl join []))) := by
  obtain ⟨hc, hcne⟩ := names_of_mem (hnames ▸ List.mem_cons_self : c ∈ names p)
  have hjoin : join [] c = c := by
    have hrelative : isAbsolute c = false := decide_eq_false fun h => hc (List.mem_of_head? h)
    rw [join, hrelative, if_neg Bool.false_ne_true, if_pos (.inl rfl), List.nil_append]
  obtain ⟨tail, helements, hslash, hfilter⟩ := elements_relative hp hnames
  rw [List.cons_append] at helements
  constructor
  · intro hfirst
    obtain ⟨l, hl⟩ := hfirst
    rcases h.status_eq hfs p with ⟨_, t, _, ht, hstatus, hcanonical⟩ | ⟨_, hstatus⟩
    · refine ⟨_, ?_, .inl rfl⟩
      rw [FileSystem.weaklyCanonical, hstatus]
      cases t with
      | notFound => exact absurd rfl ht
      | _ => exact hcanonical
    · obtain ⟨f, rest, hfound, m, hm⟩ := h.existingPrefix_ok hfs (ns ++ tail) ⟨l, hl⟩
      have hall : fs.existingPrefix [] (elements p) = .ok (f, rest) := by
        obtain ⟨t, ht, hcstatus⟩ := status_of_locate hfs hl
        rw [helements, existingPrefix, hjoin, hcstatus]
        cases t with
        | notFound => exact absurd rfl ht
        | _ => exact hfound
      obtain ⟨before, hsplit, hf⟩ := existingPrefix_eq hall
      have hfne : f ≠ [] := fun he => by
        rw [he] at hm
        cases hm
      have hbase : fs.canonical f = .ok (47 :: joinNames (leads f)) := by
        rcases h.status_eq hfs f with ⟨_, _, _, _, _, hcanonical⟩ | ⟨hmissing, _⟩
        · exact hcanonical
        · exact absurd hm (hmissing m)
      rw [hsplit] at hslash hfilter
      obtain ⟨hbefore, hrest⟩ := List.forall_mem_append.1 hslash
      have hfnames : names f = before.filter (· ≠ []) := by
        rw [hf, names_foldl_join hbefore]
        rfl
      refine ⟨_, ?_, lexicallyNormal_append (f := f) (.inl rfl) hrest ?_⟩
      · rw [FileSystem.weaklyCanonical, hstatus]
        simp only [hall, Except.bind, if_neg hfne, hbase]
        rfl
      · rw [hnames, hfnames, ← List.filter_append, hfilter]
  · intro hfirst
    have hmissing : fs.status c = .ok .notFound := by
      rcases h.status_eq hfs c with ⟨l, _, hl, _⟩ | ⟨_, hstatus⟩
      · exact absurd hl (hfirst l)
      · exact hstatus
    have hstatus : fs.status p = .ok .notFound := by
      rcases h.status_eq hfs p with ⟨l, _, hl, _⟩ | ⟨_, hstatus⟩
      · obtain ⟨d, ds, hpieces, _, ms, hd⟩ := pieces_relative hp hne
        obtain ⟨rfl, _⟩ := List.cons.inj (hnames.symm.trans hd)
        obtain ⟨m, hm⟩ := locate_beginning (f := c) hl (by rw [hpieces, pieces_no_slash hc]; rfl) hcne
        exact absurd hm (hfirst m)
      · exact hstatus
    rw [FileSystem.weaklyCanonical, hstatus]
    have hall : fs.existingPrefix [] (elements p) = .ok ([], elements p) := by
      rw [helements, existingPrefix, hjoin, hmissing]
    simp only [hall, Except.bind, if_true]
    rfl

end Cxx.FileSystem

variable {fs : FileSystem} {d p : Str}

lemma isAbsolute_slash (hd : d ≠ []) : isAbsolute (d ++ [47]) = isAbsolute d := by
  obtain ⟨b, d, rfl⟩ := List.exists_cons_of_ne_nil hd
  rfl

lemma Cxx.Path.IsForm.ne_nil {cs : List Str} (h : IsForm p cs) : p ≠ [] := fun hnil => by
  have habs := h.isAbsolute
  rw [hnil] at habs
  cases habs

lemma trunk_of_form {cs : List Str} (h : IsForm p cs) (hcs : ∀ c ∈ cs, IsName c) : trunk p = [47] :: cs := by
  have hnames : names p = cs := h.names fun c hc => ⟨(hcs c hc).slash, (hcs c hc).nonempty⟩
  rw [trunk, if_pos h.isAbsolute, hnames]
  rfl

lemma head_foldl_join {a : Str} {cs : List Str} (ha : a ≠ []) (hcs : ∀ c ∈ cs, 47 ∉ c) :
    (cs.foldl join a).head? = a.head? := by
  induction cs generalizing a with
  | nil => rfl
  | cons c cs ih =>
    obtain ⟨hc, hcs⟩ := List.forall_mem_cons.1 hcs
    have hrelative : isAbsolute c = false := decide_eq_false fun h => hc (List.mem_of_head? h)
    have hjoin : ∃ b, join a c = a ++ b := by
      rw [join, hrelative, if_neg Bool.false_ne_true]
      split
      · exact ⟨c, rfl⟩
      · exact ⟨47 :: c, rfl⟩
    obtain ⟨b, hb⟩ := hjoin
    rw [List.foldl_cons, hb, ih (List.append_ne_nil_of_left_ne_nil ha b) hcs, List.head?_append_of_ne_nil a ha]

lemma normalizeForComparison_eq {q : Str} (hp : fs.weaklyCanonical p = .ok q) (hq : q ≠ []) :
    normalizeForComparison fs p = q := by
  rw [normalizeForComparison, hp]
  cases q with
  | nil => exact absurd rfl hq
  | cons c q => rfl

lemma trunk_relative (hd : isAbsolute d = false) (hne : d ≠ [])
    (hp : fs.weaklyCanonical d = .ok (lexicallyNormal ((elements d).foldl join []))) :
    trunk (normalizeForComparison fs d) =
      if normalNames false [] (names d) = [] then [ascii "."] else (normalNames false [] (names d)).reverse := by
  obtain ⟨c, _, _, hc, ns, hnames⟩ := FileSystem.pieces_relative hd hne
  obtain ⟨tail, helements, hslash, hfilter⟩ := elements_relative hd hnames
  rw [List.cons_append] at helements
  obtain ⟨hcslash, hrest⟩ := List.forall_mem_cons.1 (helements ▸ hslash)
  have hrelative : isAbsolute c = false := decide_eq_false fun h => hcslash (List.mem_of_head? h)
  have hjoin : join [] c = c := by
    rw [join, hrelative, if_neg Bool.false_ne_true, if_pos (.inl rfl), List.nil_append]
  have hhead : ((elements d).foldl join []).head? = c.head? := by
    rw [helements, List.foldl_cons, hjoin, head_foldl_join hc hrest]
  have hbuilt : isAbsolute ((elements d).foldl join []) = false := by rwa [isAbsolute, hhead]
  have hshown : (elements d).foldl join [] ≠ [] := fun h => by
    rw [h] at hhead
    exact hc (List.head?_eq_none_iff.1 hhead.symm)
  have hsame : names ((elements d).foldl join []) = names d := by
    rw [names_foldl_join hslash, hfilter, hnames]
    rfl
  obtain ⟨hnormal, htrunk⟩ := lexicallyNormal_relative hbuilt hshown
  rw [normalizeForComparison_eq hp hnormal, htrunk, hsame]

lemma trunk_normalizeForComparison (h : fs.LinkFree) (hforms : isAbsolute d = true ∨ fs.Answers) (hd : d ≠ []) :
    trunk (normalizeForComparison fs (d ++ [47])) = trunk (normalizeForComparison fs d) := by
  have hslash := isAbsolute_slash hd
  have hleads : leads (d ++ [47]) = leads d := by rw [leads, leads, names_append_slash]
  by_cases habs : isAbsolute d = true
  · have hform := normalizeForComparison_form h habs
    have hform' := normalizeForComparison_form h (hslash.trans habs)
    rw [components_eq] at hform hform'
    rw [trunk_of_form hform fun c hc => isName_leads hc, trunk_of_form hform' fun c hc => isName_leads hc, hleads]
  · have hrelative : isAbsolute d = false := Bool.eq_false_iff.2 habs
    have hfs := hforms.resolve_left habs
    obtain ⟨c, _, _, _, ns, hnames⟩ := FileSystem.pieces_relative hrelative hd
    have hfirst := h.weaklyCanonical_relative hfs hrelative hd hnames
    have hsecond := h.weaklyCanonical_relative hfs (hslash.trans hrelative) (by simp)
      ((names_append_slash d).trans hnames)
    by_cases hc : ∃ l, fs.locate c = .ok l
    · obtain ⟨q, hq, hform⟩ := hfirst.1 hc
      obtain ⟨q', hq', hform'⟩ := hsecond.1 hc
      rw [normalizeForComparison_eq hq hform.ne_nil, normalizeForComparison_eq hq' hform'.ne_nil,
        trunk_of_form hform fun c hc => isName_leads hc, trunk_of_form hform' fun c hc => isName_leads hc, hleads]
    · rw [not_exists] at hc
      rw [trunk_relative hrelative hd (hfirst.2 hc), trunk_relative (hslash.trans hrelative) (by simp)
        (hsecond.2 hc), names_append_slash]

/-! When the normal form of an absolute path ends in a slash. -/

namespace Cxx.Path

def squeeze (cs : List Str) : List Str := cs.filter (· ≠ []) ++ if cs.getLast? = some [] then [[]] else []

variable {p : Str} {cs : List Str}

lemma pieces_singleton_ne_nil {c : Str} (hp : p ≠ []) (h : pieces p = [c]) : c ≠ [] := by
  obtain ⟨b, q, rfl⟩ := List.exists_cons_of_ne_nil hp
  obtain ⟨x, xs, hx⟩ := List.exists_cons_of_ne_nil (pieces_ne_nil q)
  by_cases hb : b = 47
  · rw [hb, pieces_slash, hx] at h
    cases h
  · rw [pieces_cons hb, hx] at h
    cases h
    exact List.cons_ne_nil b x

lemma pieces_getLast (hp : p ≠ []) : (pieces p).getLast? = some [] ↔ endsWithSlash p = true := by
  induction p with
  | nil => exact absurd rfl hp
  | cons c p ih =>
    by_cases hnil : p = []
    · subst hnil
      by_cases hc : c = 47
      · subst hc
        exact iff_of_true rfl rfl
      · rw [pieces_cons hc]
        exact iff_of_false (by simp [pieces]) (by simpa [endsWithSlash] using hc)
    · have hends : endsWithSlash (c :: p) = endsWithSlash p := by
        obtain ⟨d, q, rfl⟩ := List.exists_cons_of_ne_nil hnil
        rfl
      rw [hends, ← ih hnil]
      obtain ⟨x, xs, hx⟩ := List.exists_cons_of_ne_nil (pieces_ne_nil p)
      by_cases hc : c = 47
      · rw [hc, pieces_slash, hx, List.getLast?_cons_cons]
      · rw [pieces_cons hc, hx]
        cases xs with
        | nil => simpa using pieces_singleton_ne_nil hnil hx
        | cons y ys => exact Iff.rfl

lemma squeeze_cons {c : Str} (hc : c ≠ []) (cs : List Str) : squeeze (c :: cs) = c :: squeeze cs := by
  have hkept : (c :: cs).filter (· ≠ []) = c :: cs.filter (· ≠ []) := List.filter_cons_of_pos (by simpa using hc)
  rw [squeeze, squeeze, hkept, List.cons_append]
  cases cs with
  | nil => simp [hc]
  | cons d ds => rw [List.getLast?_cons_cons]

lemma squeeze_nil_cons (c : Str) (cs : List Str) : squeeze ([] :: c :: cs) = squeeze (c :: cs) := by
  rw [squeeze, squeeze, List.getLast?_cons_cons]
  rfl

lemma squeeze_pieces (hp : p ≠ []) :
    squeeze (pieces p) = names p ++ if endsWithSlash p = true then [[]] else [] := by
  rw [squeeze, names]
  simp only [pieces_getLast hp]

lemma lexicallyNormal_not_plain (hp : isAbsolute p = true) (hkeeps : keepsSlash p = true) (hleads : leads p ≠ []) :
    ¬Plain (lexicallyNormal p) := by
  have hne : p ≠ [] := fun hnil => by simp [hnil, isAbsolute] at hp
  have hnames := names_lexicallyNormal hp
  intro hplain
  apply hleads
  rw [← hnames]
  apply hplain
  rw [lexicallyNormal, if_neg hne, hp, hkeeps]
  cases hstack : normalNames true [] (names p) with
  | nil =>
    rw [leads, hstack] at hleads
    exact absurd rfl hleads
  | cons c stack =>
    have hc : isDotDot c = false := (isName_leads (p := p) (by rw [leads, hstack]; simp)).dotDot
    have hlast : (47 :: (joinNames (c :: stack).reverse ++ [47])).getLast? = some 47 :=
      List.getLast?_concat (l := 47 :: joinNames (c :: stack).reverse) ..
    simpa [hc, endsWithSlash] using hlast

lemma foldl_join_end {base : Str} {before rest : List Str} (hbase : isAbsolute base = true)
    (hp : isAbsolute p = true)
    (hnames : names p ≠ []) (hsplit : elements p = before ++ rest) (hrest : rest ≠ []) :
    endsWithSlash (rest.foldl join base) = endsWithSlash p ∧
      (endsWithSlash p = false → (names (rest.foldl join base)).getLast? = (names p).getLast?) := by
  cases rest using List.reverseRecOn with
  | nil => exact absurd rfl hrest
  | append_singleton rest c =>
    have hfront := isAbsolute_foldl_join hbase rest
    have hne : rest.foldl join base ≠ [] := fun hnil => by simp [hnil, isAbsolute] at hfront
    have hlast : (elements p).getLast? = some c := by rw [hsplit, ← List.append_assoc, List.getLast?_concat]
    rw [List.foldl_append, List.foldl_cons, List.foldl_nil]
    by_cases hslash : endsWithSlash p = true
    · have hplain : ¬Plain p := fun hplain => hnames (hplain hslash)
      rw [elements_of_not_plain hplain, List.getLast?_concat] at hlast
      obtain rfl : [] = c := Option.some.inj hlast
      refine ⟨?_, fun h => absurd (hslash.symm.trans h) (by decide)⟩
      rw [hslash, join, if_neg (by decide)]
      split
      · rename_i h
        rw [List.append_nil]
        exact h.resolve_left hne
      · simp [endsWithSlash]
    · have hplain : Plain p := fun h => absurd h hslash
      obtain ⟨front, d, hfrontd⟩ : ∃ front d, names p = front ++ [d] :=
        ⟨_, _, (List.dropLast_append_getLast hnames).symm⟩
      have htrunk : trunk p = ([47] :: front) ++ [d] := by
        rw [trunk, if_pos hp, hfrontd]
        rfl
      rw [elements_of_plain hplain, htrunk, List.getLast?_concat] at hlast
      obtain rfl : d = c := Option.some.inj hlast
      have hd := names_of_mem (p := p) (hfrontd ▸ List.mem_append_right front (List.mem_singleton.2 rfl))
      have hrelative : isAbsolute d = false := decide_eq_false fun h => hd.1 (List.mem_of_head? h)
      rw [endsWithSlash_join hd.1 hd.2, names_join hrelative, names_of_name hd.1 hd.2, hfrontd,
        List.getLast?_concat, List.getLast?_concat]
      exact ⟨(Bool.not_eq_true _ ▸ hslash : endsWithSlash p = false).symm, fun _ => rfl⟩

lemma keepsSlash_foldl_join {base : Str} {before rest : List Str} (hbase : isAbsolute base = true)
    (hp : isAbsolute p = true)
    (hnames : names p ≠ []) (hsplit : elements p = before ++ rest) (hrest : rest ≠ [])
    (hkeeps : keepsSlash p = true) :
    keepsSlash (rest.foldl join base) = true := by
  obtain ⟨hends, hlast⟩ := foldl_join_end hbase hp hnames hsplit hrest
  rw [keepsSlash] at hkeeps ⊢
  rw [hends]
  cases hslash : endsWithSlash p with
  | true => rfl
  | false =>
    rw [hslash] at hkeeps
    rwa [hlast hslash]

end Cxx.Path

namespace Cxx.FileSystem

variable {fs : FileSystem} {p q : Str} {cs : List Str}

lemma LinkFree.walkAux_squeeze (h : fs.LinkFree) {onLink : Location → List Str → Except Errc Location}
    (cs : List Str) :
    ∀ cur, fs.walkAux .object onLink cur cs = fs.walkAux .object onLink cur (squeeze cs) := by
  induction cs with
  | nil => exact fun _ => rfl
  | cons c cs ih =>
    intro cur
    by_cases hc : c = []
    · subst hc
      cases cs with
      | nil => rfl
      | cons d ds =>
        rw [squeeze_nil_cons, ← ih cur]
        cases hnode : fs.node cur with
        | none => simp only [FileSystem.walkAux, hnode]
        | some n => cases n <;> simp [FileSystem.walkAux, hnode]
    · rw [squeeze_cons hc]
      cases hnode : fs.node cur with
      | none => simp only [FileSystem.walkAux, hnode]
      | some n =>
        cases hnext : fs.node (cur ++ [c]) with
        | none => simp only [FileSystem.walkAux, hnode, hnext, ← ih]; simp
        | some m =>
          cases m with
          | symlink t => exact absurd hnext (h _ t)
          | _ => simp only [FileSystem.walkAux, hnode, hnext, ← ih]

lemma LinkFree.locate_congr (h : fs.LinkFree) (hp : p ≠ []) (hq : q ≠ []) (hnames : names p = names q)
    (hslash : endsWithSlash p = endsWithSlash q) : fs.locate p = fs.locate q := by
  obtain ⟨onLink, hwalk⟩ := fs.walk_eq_walkAux .object 40
  rw [FileSystem.locate, FileSystem.locate, if_neg hp, if_neg hq, hwalk, h.walkAux_squeeze, squeeze_pieces hp,
    h.walkAux_squeeze (pieces q),
    squeeze_pieces hq, hnames, hslash]

lemma LinkFree.weaklyCanonical_rest (h : fs.LinkFree) (hfs : fs.Answers) (hp : isAbsolute p = true)
    (hnames : names p ≠ [])
    (hmissing : ∀ l, fs.locate p ≠ .ok l) :
    ∃ base before rest, isAbsolute base = true ∧ elements p = before ++ rest ∧ rest ≠ [] ∧
      fs.weaklyCanonical p = .ok (lexicallyNormal (rest.foldl join base)) := by
  obtain ⟨cs, helements, hslash, hfilter⟩ := elements_eq hp
  have hcs : cs ≠ [] := fun hnil => hnames (by rw [← hfilter, hnil]; rfl)
  have hstatus : fs.status p = .ok .notFound := by
    rcases h.status_eq hfs p with ⟨l, _, hl, _⟩ | ⟨_, hstatus⟩
    · exact absurd hl (hmissing l)
    · exact hstatus
  have hroot : join [] [47] = [47] := rfl
  rw [FileSystem.weaklyCanonical, hstatus]
  rcases h.status_eq hfs [47] with ⟨l, t, hl, ht, hfirst, _⟩ | ⟨_, hfirst⟩
  · obtain ⟨f, rest, hfound, m, hm⟩ := h.existingPrefix_ok hfs cs ⟨l, hl⟩
    have hall : fs.existingPrefix [] (elements p) = .ok (f, rest) := by
      rw [helements, existingPrefix, hroot, hfirst]
      cases t with
      | notFound => exact absurd rfl ht
      | _ => exact hfound
    obtain ⟨before, hsplit, hf⟩ := existingPrefix_eq hfound
    have hfabs : isAbsolute f = true := hf ▸ isAbsolute_foldl_join rfl before
    have hfne : f ≠ [] := fun hnil => by simp [hnil, isAbsolute] at hfabs
    have hrest : rest ≠ [] := by
      rintro rfl
      rw [List.append_nil] at hsplit
      subst hsplit
      have habs : isAbsolute [47] = true := rfl
      have hwhole : elements p = [[47]] ++ cs := helements
      have hends : endsWithSlash f = endsWithSlash p := hf ▸ (foldl_join_end habs hp hnames hwhole hcs).1
      have hfnames : names f = names p := by
        rw [hf, names_foldl_join hslash, hfilter]
        rfl
      rw [h.locate_congr hfne (fun hnil => by simp [hnil, isAbsolute] at hp) hfnames hends] at hm
      exact hmissing m hm
    have hbase : fs.canonical f = .ok (47 :: joinNames (leads f)) := by
      rcases h.status_eq hfs f with ⟨_, _, _, _, _, hcanonical⟩ | ⟨hnone, _⟩
      · exact hcanonical
      · exact absurd hm (hnone m)
    refine ⟨47 :: joinNames (leads f), [47] :: before, rest, rfl, by rw [helements, hsplit]; rfl, hrest, ?_⟩
    simp only [hall, Except.bind, if_neg hfne, hbase]
    rfl
  · have hall : fs.existingPrefix [] (elements p) = .ok ([], elements p) := by
      rw [helements, existingPrefix, hroot, hfirst]
    refine ⟨[47], [[47]], cs, rfl, helements, hcs, ?_⟩
    simp only [hall, Except.bind, if_true]
    rw [helements]
    rfl

end Cxx.FileSystem

lemma normalizeForComparison_plain_iff {fs : FileSystem} {p : Str} (h : fs.LinkFree) (hfs : fs.Answers)
    (hp : isAbsolute p = true) :
    Plain (normalizeForComparison fs p) ↔ (∃ l, fs.locate p = .ok l) ∨ keepsSlash p = false ∨ leads p = [] := by
  have hform := normalizeForComparison_form h hp
  rw [components_eq] at hform
  constructor
  · intro hplain
    by_contra hnot
    simp only [not_or, not_exists, Bool.not_eq_false] at hnot
    obtain ⟨hmissing, hkeeps, hleads⟩ := hnot
    have hnames : names p ≠ [] := fun hnil => hleads (by rw [leads, hnil]; rfl)
    obtain ⟨base, before, rest, hbase, hsplit, hrest, hweakly⟩ := h.weaklyCanonical_rest hfs hp hnames hmissing
    have hTform := h.weaklyCanonical hp hweakly
    have hTleads : leads (rest.foldl join base) = leads p := by
      rw [← names_lexicallyNormal (isAbsolute_foldl_join hbase rest)]
      exact hTform.names_leads
    rw [normalizeForComparison_eq hweakly hTform.ne_nil] at hplain
    exact lexicallyNormal_not_plain (isAbsolute_foldl_join hbase rest)
      (keepsSlash_foldl_join hbase hp hnames hsplit hrest hkeeps)
      (hTleads ▸ hleads) hplain
  · rintro (⟨l, hl⟩ | hkeeps | hleads)
    · rcases h.status_eq hfs p with ⟨_, t, _, ht, hstatus, hcanonical⟩ | ⟨hnone, _⟩
      · have hweakly : fs.weaklyCanonical p = .ok (47 :: joinNames (leads p)) := by
          rw [FileSystem.weaklyCanonical, hstatus]
          cases t with
          | notFound => exact absurd rfl ht
          | _ => exact hcanonical
        rw [normalizeForComparison_eq hweakly (List.cons_ne_nil _ _)]
        exact plain_root_join fun c hc => isName_leads hc
      · exact absurd hl (hnone l)
    · exact normalizeForComparison_plain h hp hkeeps
    · exact fun _ => by rw [hform.names_leads, hleads]

end SimpleSftpd
