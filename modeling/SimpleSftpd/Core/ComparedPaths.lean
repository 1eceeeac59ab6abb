import SimpleSftpd.Cxx.Normal
import SimpleSftpd.User.User

namespace SimpleSftpd

open Cxx Path

namespace Cxx.Path

def step (cs : List Str) (c : Str) : List Str :=
  if c = [] ∨ isDot c then cs else if isDotDot c then cs.dropLast else cs ++ [c]

def walkFrom (cs : List Str) (p : Str) : List Str := (pieces p).foldl step cs

def components (p : Str) : List Str := walkFrom [] p

variable {cs : List Str} {c p q : Str}

lemma reverse_push (hs : ∀ d ∈ cs, IsName d) (hc : c ≠ []) : (push true cs.reverse c).reverse = step cs c := by
  rw [step]
  cases hdot : isDot c with
  | true => rw [push_dot true hdot, if_pos (.inr rfl), List.reverse_reverse]
  | false =>
    rw [if_neg (by simp [hc])]
    cases hdots : isDotDot c with
    | true =>
      rw [if_pos rfl]
      cases cs using List.reverseRecOn with
      | nil => rw [List.reverse_nil, push_dotDot_nil hdot hdots]; rfl
      | append_singleton cs d =>
        have hd : isDotDot d = false := (hs d (by simp)).dotDot
        rw [List.reverse_append, List.reverse_singleton, List.singleton_append,
          push_dotDot_cons true hdot hdots hd,
          List.reverse_reverse, List.dropLast_concat]
    | false => rw [push_other true hdot hdots, List.reverse_cons, List.reverse_reverse, if_neg Bool.false_ne_true]

lemma isName_step (hs : ∀ d ∈ cs, IsName d) (hc : 47 ∉ c) : ∀ d ∈ step cs c, IsName d := by
  by_cases hnil : c = []
  · rwa [step, if_pos (.inl hnil)]
  · intro d hd
    rw [← reverse_push hs hnil, List.mem_reverse] at hd
    exact isName_push (fun e he => hs e (List.mem_reverse.1 he)) ⟨hc, hnil⟩ d hd

lemma foldl_step (ds : List Str) : ∀ {cs : List Str}, (∀ d ∈ cs, IsName d) → (∀ d ∈ ds, 47 ∉ d) →
    ds.foldl step cs = ((ds.filter (· ≠ [])).foldl (push true) cs.reverse).reverse ∧
      ∀ d ∈ ds.foldl step cs, IsName d := by
  induction ds with
  | nil => exact fun hs _ => ⟨(List.reverse_reverse _).symm, hs⟩
  | cons c ds ih =>
    intro cs hs hds
    obtain ⟨hc, hds⟩ := List.forall_mem_cons.1 hds
    obtain ⟨heq, hnames⟩ := ih (isName_step hs hc) hds
    refine ⟨?_, hnames⟩
    rw [List.foldl_cons, heq]
    by_cases hnil : c = []
    · rw [List.filter_cons_of_neg (by simpa using hnil), step, if_pos (.inl hnil)]
    · rw [List.filter_cons_of_pos (by simpa using hnil), List.foldl_cons, ← reverse_push hs hnil,
        List.reverse_reverse]

lemma walkFrom_eq (hs : ∀ d ∈ cs, IsName d) (p : Str) :
    walkFrom cs p = ((names p).foldl (push true) cs.reverse).reverse :=
  (foldl_step _ hs fun _ => slash_notMem_pieces).1

lemma isName_walkFrom (hs : ∀ d ∈ cs, IsName d) (p : Str) : ∀ d ∈ walkFrom cs p, IsName d :=
  (foldl_step _ hs fun _ => slash_notMem_pieces).2

lemma components_eq (p : Str) : components p = leads p := by
  rw [components, walkFrom_eq (by simp), leads_eq_foldl]
  rfl

lemma isName_components (p : Str) : ∀ d ∈ components p, IsName d := isName_walkFrom (by simp) p

lemma leads_join (hq : isAbsolute q = false) : leads (join p q) = walkFrom (components p) q := by
  rw [leads_eq_foldl, names_join hq, List.foldl_append, walkFrom_eq (isName_components p), components_eq,
    leads_eq_foldl,
    List.reverse_reverse]

lemma walkFrom_relativePath (p : Str) (hs : ∀ d ∈ cs, IsName d) :
    walkFrom cs (relativePath p) = walkFrom cs p := by
  rw [walkFrom_eq hs, walkFrom_eq hs, names_relativePath]

def Plain (q : Str) : Prop := endsWithSlash q = true → names q = []

lemma IsForm.elements (h : IsForm q cs) (hcs : ∀ c ∈ cs, IsName c) : ∃ rest, elements q = [47] :: (cs ++ rest) ∧
    (rest = [] ∧ Plain q ∨ rest = [[]] ∧ ¬Plain q) := by
  have hnames : Path.names q = cs := h.names fun c hc => ⟨(hcs c hc).slash, (hcs c hc).nonempty⟩
  rw [Path.elements, if_pos h.isAbsolute, hnames, Plain, hnames]
  by_cases hslash : cs ≠ [] ∧ endsWithSlash q = true
  · rw [if_pos hslash]
    exact ⟨[[]], rfl, .inr ⟨rfl, fun hplain => hslash.1 (hplain hslash.2)⟩⟩
  · rw [if_neg hslash, List.append_nil]
    exact ⟨[], by rw [List.append_nil]; rfl, .inl ⟨rfl, fun hends => by_contra fun hne => hslash ⟨hne, hends⟩⟩⟩

lemma IsForm.isWithin_iff {child parent : Str} {cs ds : List Str} (hc : IsForm child cs) (hp : IsForm parent ds)
    (hcs : ∀ c ∈ cs, IsName c) (hds : ∀ d ∈ ds, IsName d) : (isWithin child parent = true → ds <+: cs) ∧
      (ds <+: cs → Plain parent → isWithin child parent = true) ∧
      (isWithin child parent = true → ds.length < cs.length → Plain parent) := by
  obtain ⟨rest, hchild, hrest⟩ := hc.elements hcs
  obtain ⟨rest', hparent, hrest'⟩ := hp.elements hds
  rw [isWithin, hchild, hparent, List.isPrefixOf_iff_prefix, List.cons_prefix_cons]
  have hempty : ([] : Str) ∉ cs := fun h => (hcs [] h).nonempty rfl
  have hbegins : ds ++ rest' <+: cs ++ rest → ds.length ≤ cs.length := by
    intro h
    by_contra hlong
    have hlast : cs ++ [[]] <+: ds := by
      have hwhole : ds <+: cs ++ rest := (List.prefix_append ds rest').trans h
      rcases hrest with ⟨rfl, _⟩ | ⟨rfl, _⟩
      · rw [List.append_nil] at hwhole
        exact absurd hwhole.length_le (by omega)
      · have hsame := hwhole.eq_of_length_le (by rw [List.length_append]; exact not_le.1 hlong)
        exact hsame ▸ List.prefix_rfl
    exact (hds [] (hlast.subset (by simp))).nonempty rfl
  refine ⟨?_, ?_, ?_⟩
  · rintro ⟨_, h⟩
    exact List.prefix_of_prefix_length_le ((List.prefix_append _ _).trans h) (List.prefix_append _ _) (hbegins h)
  · intro h hplain
    rcases hrest' with ⟨rfl, _⟩ | ⟨_, hnot⟩
    · rw [List.append_nil]
      exact ⟨rfl, h.trans (List.prefix_append _ _)⟩
    · exact absurd hplain hnot
  · rintro ⟨_, h⟩ hlength
    rcases hrest' with ⟨_, hplain⟩ | ⟨rfl, _⟩
    · exact hplain
    · have hinside : ds ++ [[]] <+: cs := List.prefix_of_prefix_length_le h (List.prefix_append _ _)
        (by rw [List.length_append]; exact hlength)
      exact absurd (hinside.subset (by simp)) hempty

end Cxx.Path

namespace Cxx.Path

variable {cs : List Str} {p : Str}

lemma endsWithSlash_append {a c : Str} (hc : 47 ∉ c) (hne : c ≠ []) : endsWithSlash (a ++ c) = false := by
  rw [endsWithSlash, List.getLast?_append_of_ne_nil a hne]
  exact decide_eq_false fun h => hc (List.mem_of_getLast? h)

lemma endsWithSlash_join {a c : Str} (hc : 47 ∉ c) (hne : c ≠ []) : endsWithSlash (join a c) = false := by
  have hrelative : isAbsolute c = false := decide_eq_false fun h => hc (List.mem_of_head? h)
  rw [join, hrelative, if_neg Bool.false_ne_true]
  split
  · exact endsWithSlash_append hc hne
  · have hsplit : a ++ 47 :: c = (a ++ [47]) ++ c := by rw [List.append_assoc]; rfl
    rw [hsplit]
    exact endsWithSlash_append hc hne

lemma plain_root_join (hcs : ∀ c ∈ cs, IsName c) : Plain (47 :: joinNames cs) := by
  intro hslash
  have hnames : names (47 :: joinNames cs) = cs := by
    rw [names_slash, names_joinNames fun c hc => ⟨(hcs c hc).slash, (hcs c hc).nonempty⟩]
  rw [hnames]
  by_contra hne
  have hsplit : ∀ ds : List Str, ds ≠ [] → (∀ c ∈ ds, IsName c) → ∃ a c, IsName c ∧ joinNames ds = a ++ c := by
    intro ds
    induction ds with
    | nil => exact fun h => absurd rfl h
    | cons d ds ih =>
      intro _ hds
      cases ds with
      | nil => exact ⟨[], d, hds d List.mem_cons_self, rfl⟩
      | cons e es =>
        obtain ⟨a, c, hc, hjoin⟩ := ih (List.cons_ne_nil e es) fun c hc => hds c (List.mem_cons_of_mem _ hc)
        refine ⟨d ++ 47 :: a, c, hc, ?_⟩
        change d ++ 47 :: joinNames (e :: es) = _
        rw [hjoin, List.append_assoc]
        rfl
  obtain ⟨a, c, hc, hjoin⟩ := hsplit cs hne hcs
  have hends := endsWithSlash_append (a := 47 :: a) hc.slash hc.nonempty
  rw [List.cons_append, ← hjoin, hslash] at hends
  cases hends

lemma lexicallyNormal_eq (hp : isAbsolute p = true) (hkeeps : keepsSlash p = false) :
    lexicallyNormal p = 47 :: joinNames (leads p) := by
  have hne : p ≠ [] := fun hnil => by simp [hnil, isAbsolute] at hp
  rw [lexicallyNormal, if_neg hne, hp, hkeeps, leads]
  dsimp only
  cases normalNames true [] (names p) with
  | nil => rfl
  | cons c stack => simp

lemma lexicallyNormal_plain (hp : isAbsolute p = true) (h : names p = [] ∨ keepsSlash p = false) :
    Plain (lexicallyNormal p) := by
  rcases h with hnil | hkeeps
  · intro _
    rw [names_lexicallyNormal hp, leads, hnil]
    rfl
  · rw [lexicallyNormal_eq hp hkeeps]
    exact plain_root_join fun c hc => isName_leads hc

lemma foldl_join_concat (a c : Str) (cs : List Str) (hcs : ∀ d ∈ cs ++ [c], 47 ∉ d ∧ d ≠ []) :
    endsWithSlash ((cs ++ [c]).foldl join a) = false ∧ (names ((cs ++ [c]).foldl join a)).getLast? = some c := by
  obtain ⟨hc, hne⟩ := hcs c (by simp)
  rw [names_foldl_join fun d hd => (hcs d hd).1, List.foldl_append]
  refine ⟨endsWithSlash_join hc hne, ?_⟩
  have hkept : (cs ++ [c]).filter (· ≠ []) = cs ++ [c] := List.filter_eq_self.2 fun d hd => by
    simpa using (hcs d hd).2
  rw [hkept, ← List.append_assoc, List.getLast?_concat]

lemma keepsSlash_congr {q : Str} (hslash : endsWithSlash q = false)
    (hlast : (names q).getLast? = (names p).getLast?)
    (h : keepsSlash p = false) : keepsSlash q = false := by
  rw [keepsSlash, Bool.or_eq_false_iff] at h ⊢
  rw [hlast]
  exact ⟨hslash, h.2⟩

lemma keepsSlash_root_join (hcs : ∀ c ∈ cs, IsName c) :
    names (47 :: joinNames cs) = [] ∨ keepsSlash (47 :: joinNames cs) = false := by
  have hnames : names (47 :: joinNames cs) = cs := by
    rw [names_slash, names_joinNames fun c hc => ⟨(hcs c hc).slash, (hcs c hc).nonempty⟩]
  by_cases hne : cs = []
  · exact .inl (hnames.trans hne)
  · refine .inr ?_
    have hslash : endsWithSlash (47 :: joinNames cs) = false := by
      by_contra h
      rw [Bool.not_eq_false] at h
      exact hne (hnames.symm.trans (plain_root_join hcs h))
    rw [keepsSlash, hslash, hnames]
    cases hlast : cs.getLast? with
    | none => rfl
    | some c =>
      have hc := hcs c (List.mem_of_getLast? hlast)
      simp [hc.dot, hc.dotDot]

end Cxx.Path

namespace Cxx.FileSystem

variable {fs : FileSystem} {p q : Str}

lemma LinkFree.weaklyCanonical_plain (h : fs.LinkFree) (hp : isAbsolute p = true) (hkeeps : keepsSlash p = false)
    (hq : fs.weaklyCanonical p = .ok q) : Plain q := by
  have helements : elements p = [47] :: names p := by
    have hslash : endsWithSlash p = false := (Bool.or_eq_false_iff.1 hkeeps).1
    rw [elements, if_pos hp, hslash, if_neg (by simp), List.append_nil]
    rfl
  rw [FileSystem.weaklyCanonical] at hq
  split at hq
  · cases hq
  · rw [helements] at hq
    cases hf : fs.existingPrefix [] ([47] :: names p) with
    | error e =>
      rw [hf] at hq
      cases hq
    | ok found =>
      obtain ⟨f, rest⟩ := found
      rw [hf] at hq
      simp only [Except.bind] at hq
      obtain ⟨before, hsplit, hjoin⟩ := existingPrefix_eq hf
      have hnames : ∀ d ∈ names p, 47 ∉ d ∧ d ≠ [] := fun d hd => names_of_mem hd
      -- the last name of the path is still the last, if any of them is left to append
      have hend (base : Str) (ds earlier : List Str) (hbase : isAbsolute base = true) (hds :
        names p = earlier ++ ds)
          (hnone : ds = [] → names base = [] ∨ keepsSlash base = false) :
          Plain (lexicallyNormal (ds.foldl join base)) := by
        apply lexicallyNormal_plain (isAbsolute_foldl_join hbase ds)
        cases ds using List.reverseRecOn with
        | nil => exact hnone rfl
        | append_singleton ds c =>
          obtain ⟨hslash, hlast⟩ := foldl_join_concat base c ds fun d hd =>
            hnames d (by rw [hds]; exact List.mem_append_right _ hd)
          refine .inr (keepsSlash_congr hslash (hlast.trans ?_) hkeeps)
          rw [hds, ← List.append_assoc, List.getLast?_concat]
      cases before with
      | nil =>
        rw [List.nil_append] at hsplit
        subst hjoin hsplit
        cases hq
        exact hend [47] (names p) [] rfl rfl fun _ => .inl rfl
      | cons c before =>
        rw [List.cons_append, List.cons.injEq] at hsplit
        obtain ⟨rfl, hsplit⟩ := hsplit
        have hne : f ≠ [] := fun he => by
          have hfabs : isAbsolute f = true := hjoin ▸ isAbsolute_foldl_join rfl before
          simp [he, isAbsolute] at hfabs
        rw [if_neg hne] at hq
        cases hbase : fs.canonical f with
        | error e =>
          rw [hbase] at hq
          cases hq
        | ok base =>
          rw [hbase] at hq
          cases hq
          rw [h.canonical hbase]
          refine hend _ rest before rfl hsplit fun _ => ?_
          exact keepsSlash_root_join fun c hc => isName_leads hc
  · rw [h.canonical hq]
    exact plain_root_join fun c hc => isName_leads hc

end Cxx.FileSystem

variable {fs : FileSystem} {p : Str}

lemma normalizeForComparison_form (h : fs.LinkFree) (hp : isAbsolute p = true) :
    IsForm (normalizeForComparison fs p) (components p) := by
  rw [components_eq, normalizeForComparison]
  split
  · exact lexicallyNormal_form hp
  · rename_i q _ hq
    exact h.weaklyCanonical hp hq
  · exact lexicallyNormal_form hp

lemma normalizeForComparison_plain (h : fs.LinkFree) (hp : isAbsolute p = true) (hkeeps : keepsSlash p = false) :
    Plain (normalizeForComparison fs p) := by
  rw [normalizeForComparison]
  split
  · exact lexicallyNormal_plain hp (.inr hkeeps)
  · rename_i q _ hq
    exact h.weaklyCanonical_plain hp hkeeps hq
  · exact lexicallyNormal_plain hp (.inr hkeeps)

end SimpleSftpd
