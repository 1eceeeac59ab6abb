import SimpleSftpd.Core.PathForms

namespace SimpleSftpd

open Cxx Path

namespace Cxx.Path

variable {p q child parent : Str} {cs ds ns : List Str}

lemma foldl_push_relative (ns : List Str) : ∀ (k : ℕ) (cs : List Str), (∀ c ∈ cs, IsName c) →
    (∀ c ∈ ns, 47 ∉ c ∧ c ≠ []) → ∃ k' cs',
      ns.foldl (push false) (cs ++ List.replicate k (ascii "..")) = cs' ++ List.replicate k' (ascii "..") ∧
        (∀ c ∈ cs', IsName c) ∧ ns.foldl (push true) cs = cs' := by
  induction ns with
  | nil => exact fun _ _ hcs _ => ⟨_, _, rfl, hcs, rfl⟩
  | cons c ns ih =>
    intro k cs hcs hns
    obtain ⟨hc, hns⟩ := List.forall_mem_cons.1 hns
    rw [List.foldl_cons, List.foldl_cons]
    cases hdot : isDot c with
    | true =>
      rw [push_dot false hdot, push_dot true hdot]
      exact ih _ _ hcs hns
    | false =>
      cases hdots : isDotDot c with
      | true =>
        cases cs with
        | nil =>
          have hc : c = ascii ".." := of_decide_eq_true hdots
          have hup : push false ([] ++ List.replicate k (ascii "..")) c =
              [] ++ List.replicate (k + 1) (ascii "..") := by
            subst hc
            cases k <;> rfl
          rw [hup, push_dotDot_nil hdot hdots]
          exact ih _ _ hcs hns
        | cons d cs =>
          have hd : isDotDot d = false := (hcs d List.mem_cons_self).dotDot
          rw [List.cons_append, push_dotDot_cons false hdot hdots hd, push_dotDot_cons true hdot hdots hd]
          exact ih _ _ (fun e he => hcs e (List.mem_cons_of_mem _ he)) hns
      | false =>
        rw [push_other false hdot hdots, push_other true hdot hdots, ← List.cons_append]
        exact ih _ _ (List.forall_mem_cons.2 ⟨⟨hc.1, hc.2, hdot, hdots⟩, hcs⟩) hns

/-- A path in normal form that leads to `cs`: absolute, or relative with nothing but names upwards before them. -/
def Spells (q : Str) (cs : List Str) : Prop :=
  isAbsolute q = true ∧ names q = cs ∨
    isAbsolute q = false ∧ ((∃ k, names q = List.replicate k (ascii "..") ++ cs) ∨ names q = [ascii "."] ∧ cs = [])

lemma IsForm.spells (h : IsForm q (leads p)) : Spells q (leads p) := .inl ⟨h.isAbsolute, h.names_leads⟩

lemma spells_of_relative (hq : isAbsolute q = false) (hne : q ≠ []) (hnames : names q = names p) :
    Spells (lexicallyNormal q) (leads p) := by
  obtain ⟨_, htrunk⟩ := lexicallyNormal_relative hq hne
  obtain ⟨k, cs, hstack, hcs, hleads⟩ :=
    foldl_push_relative (names p) 0 [] (by simp) fun _ h => names_of_mem h
  rw [List.replicate_zero, List.append_nil, ← normalNames_eq_foldl] at hstack
  have hp : leads p = cs.reverse := by rw [leads_eq_foldl, hleads]
  rw [hnames, hstack] at htrunk
  have hrelative (hslash : ([47] : Str) ∉ trunk (lexicallyNormal q)) :
      isAbsolute (lexicallyNormal q) = false ∧ names (lexicallyNormal q) = trunk (lexicallyNormal q) := by
    cases habs : isAbsolute (lexicallyNormal q) with
    | true => exact absurd (by rw [trunk, if_pos habs]; exact List.mem_cons_self) hslash
    | false => exact ⟨rfl, by rw [trunk, habs]; rfl⟩
  split at htrunk
  · rename_i hnil
    have hcs : cs = [] := (List.append_eq_nil_iff.1 hnil).1
    obtain ⟨habs, hsame⟩ := hrelative (by rw [htrunk]; decide)
    refine .inr ⟨habs, .inr ⟨hsame.trans htrunk, by rw [hp, hcs]; rfl⟩⟩
  · rw [List.reverse_append, List.reverse_replicate] at htrunk
    have hslash : ([47] : Str) ∉ trunk (lexicallyNormal q) := by
      rw [htrunk, List.mem_append, not_or]
      refine ⟨fun h => absurd (List.eq_of_mem_replicate h) (by decide), fun h => ?_⟩
      exact (hcs _ (List.mem_reverse.1 h)).slash List.mem_cons_self
    obtain ⟨habs, hsame⟩ := hrelative hslash
    exact .inr ⟨habs, .inl ⟨k, by rw [hsame, htrunk, hp]⟩⟩

lemma Spells.leads_eq (h : Spells q cs) (hcs : ∀ c ∈ cs, IsName c) : leads q = cs := by
  rcases h with ⟨_, hnames⟩ | ⟨_, ⟨k, hnames⟩ | ⟨hnames, rfl⟩⟩
  · rw [leads_eq_names (by rwa [hnames]), hnames]
  · have hups (n : ℕ) : (List.replicate n (ascii "..")).foldl (push true) [] = [] := by
      induction n with
      | zero => rfl
      | succ n ih => exact ih
    rw [leads_eq_foldl, hnames, List.foldl_append, hups, foldl_push_names true hcs, List.append_nil,
      List.reverse_reverse]
  · rw [leads_eq_foldl, hnames]
    rfl

lemma prefix_of_ups {k k' : ℕ} (hds : ∀ d ∈ ds, IsName d) (hcs : ∀ c ∈ cs, IsName c) (hne : ds ≠ [])
    (h : List.replicate k (ascii "..") ++ ds <+: List.replicate k' (ascii "..") ++ cs) : ds <+: cs := by
  induction k generalizing k' with
  | zero =>
    cases k' with
    | zero => exact h
    | succ k' =>
      obtain ⟨d, ds, rfl⟩ := List.exists_cons_of_ne_nil hne
      rw [List.replicate_succ, List.cons_append] at h
      obtain ⟨rfl, _⟩ := List.cons_prefix_cons.1 h
      exact absurd (hds _ List.mem_cons_self).dotDot (by decide)
  | succ k ih =>
    rw [List.replicate_succ, List.cons_append] at h
    cases k' with
    | zero => exact absurd (hcs _ (h.subset List.mem_cons_self)).dotDot (by decide)
    | succ k' =>
      rw [List.replicate_succ, List.cons_append] at h
      exact ih (List.cons_prefix_cons.1 h).2

lemma Spells.prefix_of_isWithin (hc : Spells child cs) (hp : Spells parent ds) (hcs : ∀ c ∈ cs, IsName c)
    (hds : ∀ d ∈ ds, IsName d) (h : isWithin child parent = true) : ds <+: cs := by
  by_cases hne : ds = []
  · rw [hne]
    exact List.nil_prefix
  obtain ⟨hbegins, _⟩ := isWithin_iff.1 h
  rw [trunk, trunk] at hbegins
  rcases hp with ⟨hpabs, hpnames⟩ | ⟨hpabs, ⟨k, hpnames⟩ | ⟨_, hnil⟩⟩
  · rw [if_pos hpabs, hpnames] at hbegins
    have hslash : ([47] : Str) ∈ (if isAbsolute child then [[47]] else []) ++ names child :=
      hbegins.subset List.mem_cons_self
    rcases hc with ⟨hcabs, hcnames⟩ | ⟨hcabs, _⟩
    · rw [if_pos hcabs, hcnames] at hbegins
      exact (List.prefix_append_right_inj _).1 hbegins
    · rw [hcabs, if_neg Bool.false_ne_true, List.nil_append] at hslash
      exact absurd List.mem_cons_self (names_of_mem hslash).1
  · rw [hpabs, if_neg Bool.false_ne_true, List.nil_append, hpnames] at hbegins
    rcases hc with ⟨hcabs, hcnames⟩ | ⟨hcabs, hcnames⟩
    · obtain ⟨d, ds, rfl⟩ := List.exists_cons_of_ne_nil hne
      rw [if_pos hcabs] at hbegins
      cases k with
      | zero =>
        obtain ⟨rfl, _⟩ := List.cons_prefix_cons.1 hbegins
        exact absurd List.mem_cons_self (hds _ List.mem_cons_self).slash
      | succ k =>
        rw [List.replicate_succ, List.cons_append] at hbegins
        exact absurd (List.cons_prefix_cons.1 hbegins).1 (by decide)
    · rw [hcabs, if_neg Bool.false_ne_true, List.nil_append] at hbegins
      rcases hcnames with ⟨k', hcnames⟩ | ⟨hcnames, rfl⟩
      · rw [hcnames] at hbegins
        exact prefix_of_ups hds hcs hne hbegins
      · rw [hcnames] at hbegins
        obtain ⟨d, ds, rfl⟩ := List.exists_cons_of_ne_nil hne
        cases k with
        | zero =>
          obtain ⟨rfl, _⟩ := List.cons_prefix_cons.1 hbegins
          exact absurd (hds _ List.mem_cons_self).dot (by decide)
        | succ k =>
          rw [List.replicate_succ, List.cons_append] at hbegins
          exact absurd (List.cons_prefix_cons.1 hbegins).1 (by decide)
  · exact absurd hnil hne

end Cxx.Path

variable {fs : FileSystem} {p d : Str}

lemma elements_built (hp : isAbsolute p = false) (hne : p ≠ []) :
    (∀ before rest, elements p = before ++ rest → before.foldl join [] = [] → rest = elements p) ∧
      isAbsolute ((elements p).foldl join []) = false ∧ (elements p).foldl join [] ≠ [] ∧
      names ((elements p).foldl join []) = names p := by
  obtain ⟨c, _, _, hc, ns, hnames⟩ := FileSystem.pieces_relative hp hne
  obtain ⟨tail, helements, hslash, hfilter⟩ := elements_relative hp hnames
  rw [List.cons_append] at helements
  obtain ⟨hcslash, hrest⟩ := List.forall_mem_cons.1 (helements ▸ hslash)
  have hrelative : isAbsolute c = false := decide_eq_false fun h => hcslash (List.mem_of_head? h)
  have hjoin : join [] c = c := by
    rw [join, hrelative, if_neg Bool.false_ne_true, if_pos (.inl rfl), List.nil_append]
  have hhead (more : List Str) (hmore : ∀ e ∈ more, 47 ∉ e) : ((c :: more).foldl join []).head? = c.head? := by
    rw [List.foldl_cons, hjoin, head_foldl_join hc hmore]
  have hshown (more : List Str) (hmore : ∀ e ∈ more, 47 ∉ e) : (c :: more).foldl join [] ≠ [] := fun h => by
    have hnone := hhead more hmore
    rw [h] at hnone
    exact hc (List.head?_eq_none_iff.1 hnone.symm)
  refine ⟨fun before rest hsplit hnil => ?_, ?_, ?_, ?_⟩
  · cases before with
    | nil => exact hsplit.symm
    | cons d before =>
      rw [helements, List.cons_append] at hsplit
      obtain ⟨rfl, hmore⟩ := List.cons.inj hsplit
      refine absurd hnil (hshown before fun e he => hrest e ?_)
      rw [hmore]
      exact List.mem_append_left rest he
  · rw [isAbsolute, helements, hhead _ hrest]
    exact hrelative
  · rw [helements]
    exact hshown _ hrest
  · rw [names_foldl_join hslash, hfilter, hnames]
    rfl

lemma weaklyCanonical_nil {q : Str} (h : fs.weaklyCanonical [] = .ok q) : q = [] := by
  rw [FileSystem.weaklyCanonical] at h
  split at h
  · cases h
  · cases h
    rfl
  · rw [FileSystem.canonical] at h
    split at h <;> cases h

lemma spells_normalizeForComparison (h : fs.LinkFree) (p : Str) :
    Spells (normalizeForComparison fs p) (leads p) := by
  by_cases habs : isAbsolute p = true
  · have hform := normalizeForComparison_form h habs
    rw [components_eq] at hform
    exact hform.spells
  have hp : isAbsolute p = false := Bool.eq_false_iff.2 habs
  by_cases hne : p = []
  · subst hne
    have hnil : normalizeForComparison fs [] = [] := by
      rw [normalizeForComparison]
      split
      · rfl
      · rename_i hq
        exact weaklyCanonical_nil hq
      · rfl
    rw [hnil]
    exact .inr ⟨rfl, .inl ⟨0, rfl⟩⟩
  have hlexical : Spells (lexicallyNormal p) (leads p) := spells_of_relative hp hne rfl
  rw [normalizeForComparison]
  split
  · exact hlexical
  · rename_i q _ hq
    rw [FileSystem.weaklyCanonical] at hq
    split at hq
    · cases hq
    · cases hbegins : fs.existingPrefix [] (elements p) with
      | error e =>
        rw [hbegins] at hq
        cases hq
      | ok found =>
        obtain ⟨f, rest⟩ := found
        obtain ⟨before, hsplit, hf⟩ := FileSystem.existingPrefix_eq hbegins
        obtain ⟨hnothing, hrelative, hshown, hnames⟩ := elements_built hp hne
        rw [hbegins] at hq
        by_cases hnil : f = []
        · rw [hnil] at hf
          rw [hnothing before rest hsplit hf.symm, hnil] at hq
          cases hq
          exact spells_of_relative hrelative hshown hnames
        · simp only [Except.bind, if_neg hnil] at hq
          cases hbase : fs.canonical f with
          | error e =>
            rw [hbase] at hq
            cases hq
          | ok base =>
            rw [hbase] at hq
            cases hq
            obtain ⟨c, _, _, _, ns, hfirst⟩ := FileSystem.pieces_relative hp hne
            obtain ⟨tail, _, hslash, hfilter⟩ := elements_relative hp hfirst
            rw [hsplit] at hslash hfilter
            obtain ⟨hbefore, hrest⟩ := List.forall_mem_append.1 hslash
            refine (lexicallyNormal_append (f := f) (.inl (h.canonical hbase)) hrest ?_).spells
            rw [hfirst, ← hfilter, List.filter_append, hf, names_foldl_join hbefore]
            rfl
    · rw [h.canonical hq]
      exact IsForm.spells (.inl rfl)
  · exact hlexical

/-- In a tree without links the text of a normal form leads where the path leads, and what `isWithin` accepts is
inside component by component. -/
lemma components_normalizeForComparison (h : fs.LinkFree) (p : Str) :
    components (normalizeForComparison fs p) = components p := by
  rw [components_eq, components_eq]
  exact (spells_normalizeForComparison h p).leads_eq fun c hc => isName_leads hc

lemma inside_of_isWithin (h : fs.LinkFree)
    (hwithin : isWithin (normalizeForComparison fs p) (normalizeForComparison fs d) = true) :
    components d <+: components p := by
  rw [components_eq, components_eq]
  exact (spells_normalizeForComparison h p).prefix_of_isWithin (spells_normalizeForComparison h d)
    (fun c hc => isName_leads hc) (fun c hc => isName_leads hc) hwithin

end SimpleSftpd
