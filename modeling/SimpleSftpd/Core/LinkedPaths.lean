import SimpleSftpd.Core.ComparedPaths
import SimpleSftpd.Cxx.Contents
import SimpleSftpd.Cxx.Walking

namespace SimpleSftpd

open Cxx Path

namespace Cxx.Path

def spell (absolute : Bool) (cs : List Str) : Str := (if absolute then [47] else []) ++ joinNames cs

variable {cs ds : List Str} {c p : Str} {absolute : Bool}

lemma joinNames_concat (hcs : cs ≠ []) (c : Str) : joinNames (cs ++ [c]) = joinNames cs ++ 47 :: c := by
  induction cs with
  | nil => exact absurd rfl hcs
  | cons d ds ih =>
    cases ds with
    | nil => rfl
    | cons e es =>
      change d ++ 47 :: joinNames (e :: es ++ [c]) = (d ++ 47 :: joinNames (e :: es)) ++ 47 :: c
      rw [ih (List.cons_ne_nil e es), List.append_assoc]
      rfl

lemma pieces_joinNames (hcs : cs ≠ []) (hslash : ∀ c ∈ cs, 47 ∉ c) : pieces (joinNames cs) = cs := by
  induction cs with
  | nil => exact absurd rfl hcs
  | cons d ds ih =>
    obtain ⟨hd, hds⟩ := List.forall_mem_cons.1 hslash
    cases ds with
    | nil => exact pieces_no_slash hd
    | cons e es =>
      change pieces (d ++ 47 :: joinNames (e :: es)) = _
      rw [pieces_append, pieces_no_slash hd, ih (List.cons_ne_nil e es) hds]
      rfl

lemma pieces_spell (hcs : cs ≠ []) (hslash : ∀ c ∈ cs, 47 ∉ c) (absolute : Bool) :
    pieces (spell absolute cs) = (if absolute then [[]] else []) ++ cs := by
  cases absolute with
  | false => exact pieces_joinNames hcs hslash
  | true =>
    change pieces (47 :: joinNames cs) = _
    rw [pieces_slash, pieces_joinNames hcs hslash]
    rfl

lemma endsWithSlash_joinNames (hcs : ∀ c ∈ cs, 47 ∉ c ∧ c ≠ []) : endsWithSlash (joinNames cs) = false := by
  cases cs using List.reverseRecOn with
  | nil => rfl
  | append_singleton cs c =>
    obtain ⟨hc, hne⟩ := hcs c (by simp)
    by_cases hnil : cs = []
    · subst hnil
      exact endsWithSlash_append (a := []) hc hne
    · have hsplit : joinNames cs ++ 47 :: c = (joinNames cs ++ [47]) ++ c := by rw [List.append_assoc]; rfl
      rw [joinNames_concat hnil, hsplit]
      exact endsWithSlash_append hc hne

lemma joinNames_ne_nil (hcs : cs ≠ []) (hne : ∀ c ∈ cs, c ≠ []) : joinNames cs ≠ [] := by
  cases cs with
  | nil => exact absurd rfl hcs
  | cons c ds =>
    have hc := hne c List.mem_cons_self
    cases ds with
    | nil => exact hc
    | cons d ds => exact fun h => hc (List.append_eq_nil_iff.1 h).1

lemma foldl_join_spell (hcs : ∀ c ∈ cs, 47 ∉ c ∧ c ≠ []) (absolute : Bool) :
    ((if absolute then [[47]] else []) ++ cs).foldl join [] = spell absolute cs := by
  induction cs using List.reverseRecOn with
  | nil => cases absolute <;> rfl
  | append_singleton cs c ih =>
    obtain ⟨hcs, hc⟩ := List.forall_mem_append.1 hcs
    obtain ⟨hc, hne⟩ := hc c (by simp)
    have hrelative : isAbsolute c = false := decide_eq_false fun h => hc (List.mem_of_head? h)
    rw [← List.append_assoc, List.foldl_append, ih hcs, List.foldl_cons, List.foldl_nil, join, hrelative,
      if_neg Bool.false_ne_true]
    by_cases hnil : cs = []
    · subst hnil
      cases absolute <;> rfl
    · have hjoin := joinNames_ne_nil hnil fun c hc => (hcs c hc).2
      have hslash : endsWithSlash (spell absolute cs) = false := by
        have hlast := List.getLast?_append_of_ne_nil (if absolute then [47] else []) hjoin
        rw [endsWithSlash, spell, hlast]
        exact endsWithSlash_joinNames hcs
      have hempty : spell absolute cs ≠ [] := fun h => hjoin (List.append_eq_nil_iff.1 h).2
      rw [if_neg (by simp [hempty, hslash]), spell, spell, joinNames_concat hnil, List.append_assoc]

lemma foldl_step_names (hcs : ∀ c ∈ cs, IsName c) : cs.foldl step ds = ds ++ cs := by
  induction cs generalizing ds with
  | nil => exact (List.append_nil ds).symm
  | cons c cs ih =>
    obtain ⟨hc, hcs⟩ := List.forall_mem_cons.1 hcs
    rw [List.foldl_cons, ih hcs, step, if_neg (by simp [hc.nonempty, hc.dot]), if_neg (by simp [hc.dotDot]),
      List.append_assoc]
    rfl

lemma lexicallyNormal_foldl (hds : ∀ d ∈ ds, IsName d) (hcs : ∀ d ∈ cs, 47 ∉ d ∧ d ≠ []) (hc : IsName c) :
    lexicallyNormal ((cs ++ [c]).foldl join (47 :: joinNames ds)) = 47 :: joinNames (cs.foldl step ds ++ [c]) := by
  have hall : ∀ d ∈ cs ++ [c], 47 ∉ d ∧ d ≠ [] := by
    rw [List.forall_mem_append]
    exact ⟨hcs, by simpa using ⟨hc.slash, hc.nonempty⟩⟩
  have hnames : names ((cs ++ [c]).foldl join (47 :: joinNames ds)) = ds ++ (cs ++ [c]) := by
    rw [names_foldl_join fun d hd => (hall d hd).1, names_slash,
      names_joinNames fun d hd => ⟨(hds d hd).slash, (hds d hd).nonempty⟩]
    congr 1
    exact List.filter_eq_self.2 fun d hd => by simpa using (hall d hd).2
  obtain ⟨hslash, hlast⟩ := foldl_join_concat (47 :: joinNames ds) c cs hall
  have hkeeps : keepsSlash ((cs ++ [c]).foldl join (47 :: joinNames ds)) = false := by
    rw [keepsSlash, hslash, hlast]
    simp [hc.dot, hc.dotDot]
  rw [lexicallyNormal_eq (isAbsolute_foldl_join rfl _) hkeeps]
  have hwalk : ds ++ (cs ++ [c]) = (ds ++ (cs ++ [c])).filter (· ≠ []) := by
    refine (List.filter_eq_self.2 fun d hd => ?_).symm
    rcases List.mem_append.1 hd with hd | hd
    · simpa using (hds d hd).nonempty
    · simpa using (hall d hd).2
  have hslashes : ∀ d ∈ ds ++ (cs ++ [c]), 47 ∉ d :=
    List.forall_mem_append.2 ⟨fun d hd => (hds d hd).slash, fun d hd => (hall d hd).1⟩
  have hstart : ∀ d ∈ ([] : List Str), IsName d := by simp
  have hleads := (foldl_step (ds ++ (cs ++ [c])) hstart hslashes).1
  rw [← hwalk] at hleads
  rw [leads_eq_foldl, hnames]
  refine congrArg (fun ns => 47 :: joinNames ns) (hleads.symm.trans ?_)
  rw [List.foldl_append, foldl_step_names hds, List.foldl_append, List.nil_append]
  change step (cs.foldl step ds) c = _
  rw [step, if_neg (by simp [hc.nonempty, hc.dot]), if_neg (by simp [hc.dotDot])]

lemma relativePath_of_relative {b : Str} (hb : isAbsolute b = false) : relativePath (47 :: b) = b := by
  rw [relativePath, List.dropWhile_cons_of_pos (by simp)]
  cases b with
  | nil => rfl
  | cons c b =>
    have hc : c ≠ 47 := by simpa [isAbsolute] using hb
    exact List.dropWhile_cons_of_neg (by simpa using hc)

lemma endsWithSlash_join_of {a b : Str} (hb : isAbsolute b = false) (hne : b ≠ [])
    (hslash : endsWithSlash b = false) :
    endsWithSlash (Path.join a b) = false := by
  have happend (a : Str) : endsWithSlash (a ++ b) = false := by
    rwa [endsWithSlash, List.getLast?_append_of_ne_nil a hne]
  rw [Path.join, hb, if_neg Bool.false_ne_true]
  split
  · exact happend a
  · have hsplit : a ++ 47 :: b = (a ++ [47]) ++ b := by rw [List.append_assoc]; rfl
    rw [hsplit]
    exact happend (a ++ [47])

end Cxx.Path

namespace Cxx.FileSystem

variable {fs : FileSystem} {k : ℕ} {m l d : Location} {ns before rest cs : List Str} {found c p q : Str}
    {absolute : Bool}

def Answers (fs : FileSystem) : Prop := ∀ p, fs.deny .status p = none ∧ fs.deny .canonical p = none

lemma locate_of_walks (h : fs.Walks k fs.root (pieces p) m []) (hk : k ≤ 40) (hp : p ≠ []) :
    fs.locate p = .ok m := by
  obtain ⟨n, hn⟩ := Nat.exists_eq_add_of_le' hk
  obtain ⟨onLink, hwalk⟩ := fs.walk_eq_walkAux .object n
  rw [locate, if_neg hp, hn, h.walk (by decide), hwalk]
  rfl

lemma locate_missing (h : fs.Walks k fs.root (pieces p) m (c :: cs)) (hk : k ≤ 40) (hfree : fs.Vacant m c) :
    fs.locate p = .error .enoent := by
  obtain ⟨n, hn⟩ := Nat.exists_eq_add_of_le' hk
  obtain ⟨onLink, hwalk⟩ := fs.walk_eq_walkAux .object n
  rw [locate]
  split
  · rfl
  · rw [hn, h.walk (by decide), hwalk, walkAux, hfree.directory]
    simp [hfree.entry.passes, hfree.entry.dotDot, hfree.free]

lemma place_vacant (h : fs.Walks k fs.root (pieces p) m [c]) (hk : k ≤ 40) (hfree : fs.Vacant m c) (hp : p ≠ []) :
    fs.place p = .ok (m ++ [c]) := by
  obtain ⟨n, hn⟩ := Nat.exists_eq_add_of_le' hk
  obtain ⟨onLink, hwalk⟩ := fs.walk_eq_walkAux .place n
  rw [place, if_neg hp, hn, h.walk (by decide), hwalk, walkAux, hfree.directory]
  simp [hfree.entry.passes, hfree.entry.dotDot, hfree.free]

lemma locate_walks (h : fs.locate p = .ok l) : p ≠ [] ∧ ∃ k ≤ 40, fs.Walks k fs.root (pieces p) l [] := by
  rw [locate] at h
  split at h
  · cases h
  · rename_i hp
    obtain ⟨k, hk, hwalks | ⟨hplace, _⟩⟩ := walk_comes (by decide) 40 h
    · exact ⟨hp, k, hk, hwalks⟩
    · cases hplace

lemma place_walks (h : fs.place p = .ok l) : p ≠ [] ∧ ∃ k ≤ 40, fs.Walks k fs.root (pieces p) l [] ∨
    ∃ d c, fs.Walks k fs.root (pieces p) d [c] ∧ fs.Vacant d c ∧ l = d ++ [c] := by
  rw [place] at h
  split at h
  · cases h
  · rename_i hp
    obtain ⟨k, hk, hwalks | ⟨_, hwalks⟩⟩ := walk_comes (by decide) 40 h
    · exact ⟨hp, k, hk, .inl hwalks⟩
    · exact ⟨hp, k, hk, .inr hwalks⟩

lemma locate_real (h : fs.locate p = .ok l) : fs.Real l := by
  obtain ⟨_, k, _, hwalks⟩ := locate_walks h
  have hroot := hwalks.directory (.inl (pieces_ne_nil p).symm)
  exact (hwalks.real (.root hroot) fun _ => slash_notMem_pieces).1

lemma status_of_locate (hfs : fs.Answers) (h : fs.locate p = .ok l) :
    ∃ t, t ≠ .notFound ∧ fs.status p = .ok t := by
  obtain ⟨e, he, _⟩ := (locate_real h).node
  refine ⟨typeOf e, by cases e <;> simp [typeOf], ?_⟩
  rw [status, (hfs p).1, h]
  dsimp only
  rw [he]

lemma locate_of_status {t : FileType} (h : fs.status p = .ok t) (ht : t ≠ .notFound) :
    ∃ l, fs.locate p = .ok l := by
  rw [status] at h
  split at h
  · cases h
  · cases hl : fs.locate p with
    | ok l => exact ⟨l, rfl⟩
    | error e =>
      rw [hl] at h
      cases e with
      | enoent | enotdir =>
        cases h
        exact absurd rfl ht
      | _ => cases h

lemma status_of_missing (hfs : fs.Answers) (h : fs.locate p = .error .enoent) : fs.status p = .ok .notFound := by
  rw [status, (hfs p).1, h]

lemma render_root_append (fs : FileSystem) (ns : List Str) : fs.render (fs.root ++ ns) = 47 :: joinNames ns := by
  rw [render, List.drop_left]

lemma existingPrefix_stops (rest : List Str) (hbefore : ∀ as bs, before = as ++ bs → as ≠ [] → ∃ t,
    t ≠ .notFound ∧ fs.status (as.foldl join found) = .ok t)
    (hc : fs.status (join (before.foldl join found) c) = .ok .notFound) :
    fs.existingPrefix found (before ++ c :: rest) = .ok (before.foldl join found, c :: rest) := by
  induction before generalizing found with
  | nil =>
    rw [List.foldl_nil] at hc
    rw [List.nil_append, existingPrefix, hc]
    rfl
  | cons d before ih =>
    obtain ⟨t, ht, hstatus⟩ := hbefore [d] before rfl (List.cons_ne_nil d [])
    rw [List.foldl_cons, List.foldl_nil] at hstatus
    rw [List.cons_append, existingPrefix, hstatus]
    have hrest := ih (fun as bs hsplit _ => hbefore (d :: as) bs (congrArg _ hsplit) (List.cons_ne_nil d as)) hc
    cases t with
    | notFound => exact absurd rfl ht
    | _ => exact hrest

lemma spell_ne_nil (hcs : ∀ c ∈ cs, 47 ∉ c ∧ c ≠ []) (h : absolute = true ∨ cs ≠ []) : spell absolute cs ≠ [] := by
  intro hspell
  obtain ⟨hroot, hjoin⟩ := List.append_eq_nil_iff.1 hspell
  rcases h with rfl | hne
  · cases hroot
  · exact joinNames_ne_nil hne (fun c hc => (hcs c hc).2) hjoin

lemma walks_spell (hroot : fs.node fs.root = some .directory) (hcs : ∀ c ∈ cs, 47 ∉ c ∧ c ≠ []) (hne : cs ≠ [])
    (h : fs.Walks k fs.root cs m ns) (absolute : Bool) : fs.Walks k fs.root (pieces (spell absolute cs)) m ns := by
  rw [pieces_spell hne fun c hc => (hcs c hc).1]
  cases absolute with
  | false => exact h
  | true => exact .step hroot (.skip (.inl rfl)) h

lemma locate_spell (hroot : fs.node fs.root = some .directory) (hcs : ∀ c ∈ cs, 47 ∉ c ∧ c ≠ [])
    (h : fs.Walks k fs.root cs m [])
    (hk : k ≤ 40) (hshown : absolute = true ∨ cs ≠ []) : fs.locate (spell absolute cs) = .ok m := by
  have hspell := spell_ne_nil hcs hshown
  by_cases hne : cs = []
  · subst hne
    obtain rfl := hshown.resolve_right fun h => h rfl
    have hslash : fs.Walks 0 fs.root (pieces (spell true [])) fs.root [] :=
      .step hroot (.skip (.inl rfl)) (.step hroot (.skip (.inl rfl)) (.refl _ _))
    cases h
    exact locate_of_walks hslash (Nat.zero_le 40) hspell
  · exact locate_of_walks (walks_spell hroot hcs hne h absolute) hk hspell

lemma status_beginning (hfs : fs.Answers) (hroot : fs.node fs.root = some .directory)
    (hns : ∀ c ∈ ns, 47 ∉ c ∧ c ≠ [])
    (h : fs.Walks k fs.root ns m []) (hk : k ≤ 40) {as bs : List Str}
    (hsplit : (if absolute then [[47]] else []) ++ ns = as ++ bs)
    (has : as ≠ []) : ∃ t, t ≠ .notFound ∧ fs.status (as.foldl join []) = .ok t := by
  obtain ⟨cs, hcs, rfl, hshown⟩ : ∃ cs, ns = cs ++ bs ∧ as = (if absolute then [[47]] else []) ++ cs ∧
    (absolute = true ∨ cs ≠ []) := by
    cases absolute with
    | false => exact ⟨as, hsplit, rfl, .inr has⟩
    | true =>
      obtain ⟨a, as, rfl⟩ := List.exists_cons_of_ne_nil has
      change [47] :: ns = a :: (as ++ bs) at hsplit
      obtain ⟨ha, hrest⟩ := List.cons.inj hsplit
      subst ha
      exact ⟨as, hrest, rfl, .inl rfl⟩
  have hnames : ∀ c ∈ cs, 47 ∉ c ∧ c ≠ [] := fun c hc => hns c (hcs ▸ List.mem_append_left _ hc)
  rw [foldl_join_spell hnames]
  rcases h.cut cs hcs with ⟨k₁, k₂, m₁, rfl, hfirst, _⟩ | ⟨rest, hne, hnil⟩
  · exact status_of_locate hfs (locate_spell hroot hnames hfirst (by omega) hshown)
  · exact absurd (List.append_eq_nil_iff.1 hnil.symm).1 hne

lemma weaklyCanonical_missing (hfs : fs.Answers) (hroot : fs.node fs.root = some .directory)
    (hns : ∀ c ∈ ns, 47 ∉ c ∧ c ≠ [])
    (h : fs.Walks k fs.root ns m []) (hk : k ≤ 40) (hc : 47 ∉ c ∧ c ≠ []) (hq : fs.status q = .ok .notFound)
    (hshown : absolute = true ∨ ns ≠ [])
    (helements : elements q = ((if absolute then [[47]] else []) ++ ns) ++ c :: rest)
    (hmissing : fs.status (spell absolute (ns ++ [c])) = .ok .notFound) :
    fs.weaklyCanonical q = .ok (lexicallyNormal ((c :: rest).foldl join (fs.render m))) := by
  have hall : ∀ d ∈ ns ++ [c], 47 ∉ d ∧ d ≠ [] := List.forall_mem_append.2 ⟨hns, by simpa using hc⟩
  have hstop : fs.status (join (((if absolute then [[47]] else []) ++ ns).foldl join []) c) = .ok .notFound := by
    have hnext := foldl_join_spell hall absolute
    rw [← List.append_assoc, List.foldl_append] at hnext
    rwa [← hnext] at hmissing
  have hfound :=
    existingPrefix_stops rest (fun _ _ hsplit has => status_beginning hfs hroot hns h hk hsplit has) hstop
  rw [← helements, foldl_join_spell hns] at hfound
  rw [weaklyCanonical, hq]
  dsimp only
  rw [hfound]
  have hcanonical : fs.canonical (spell absolute ns) = .ok (fs.render m) := by
    rw [canonical, (hfs _).2, locate_spell hroot hns h hk hshown]
    rfl
  simp only [Except.bind, if_neg (spell_ne_nil hns hshown), hcanonical]
  rfl

lemma weaklyCanonical_first (hfs : fs.Answers) (hc : IsName c) (hq : fs.status q = .ok .notFound)
    (helements : elements q = [c])
    (hmissing : fs.locate c = .error .enoent) : fs.weaklyCanonical q = .ok c := by
  have hrelative : isAbsolute c = false := decide_eq_false fun h => hc.slash (List.mem_of_head? h)
  have hslash : endsWithSlash c = false := decide_eq_false fun h => hc.slash (List.mem_of_getLast? h)
  have hjoin : join [] c = c := by
    rw [join, hrelative, if_neg Bool.false_ne_true, if_pos (.inl rfl), List.nil_append]
  have hnormal : lexicallyNormal c = c := by
    rw [lexicallyNormal, if_neg hc.nonempty, names_of_name hc.slash hc.nonempty, hrelative, keepsSlash, hslash,
      names_of_name hc.slash hc.nonempty]
    simp [normalNames, hc.dot, hc.dotDot, joinNames]
  rw [weaklyCanonical, hq, helements]
  simp only [existingPrefix, hjoin, status_of_missing hfs hmissing, Except.bind, if_true, Except.map,
    List.foldl_cons,
    List.foldl_nil, hnormal]

lemma Real.locate (h : fs.Real m) (hroot : fs.node fs.root = some .directory) :
    fs.locate (fs.render m) = .ok m := by
  obtain ⟨ms, rfl, hms, hwalks⟩ := h.names
  rw [render_root_append]
  exact locate_spell hroot (fun c hc => ⟨(hms c hc).slash, (hms c hc).nonempty⟩) hwalks (Nat.zero_le 40)
    (.inl (Eq.refl true))

lemma normalizeForComparison_located (hfs : fs.Answers) (h : fs.locate q = .ok l) :
    normalizeForComparison fs q = fs.render l := by
  obtain ⟨t, ht, hstatus⟩ := status_of_locate hfs h
  have hcanonical : fs.canonical q = .ok (fs.render l) := by
    rw [canonical, (hfs q).2, h]
    rfl
  have hweakly : fs.weaklyCanonical q = .ok (fs.render l) := by
    rw [weaklyCanonical, hstatus]
    cases t with
    | notFound => exact absurd rfl ht
    | _ => exact hcanonical
  rw [normalizeForComparison, hweakly]
  rfl

section Made

variable {fs' : FileSystem}

section

variable (hroot : fs'.root = fs.root) (hnode : ∀ l n, fs.node l = some n → fs'.node l = some n)
include hroot hnode

lemma Step.keep {j : ℕ} {cur cur' : Location} {more : List Str} (hstep : fs.Step j cur c cur' more) :
    fs'.Step j cur c cur' more := by
  cases hstep with
  | skip hc => exact .skip hc
  | up hc hup =>
    rw [← hroot]
    exact .up hc hup
  | down hc he hlink => exact .down hc (hnode _ _ he) hlink
  | link hc he =>
    rw [← hroot]
    exact .link hc (hnode _ _ he)

lemma Walks.keep {cur : Location} {ms : List Str} (hw : fs.Walks k cur cs m ms) : fs'.Walks k cur cs m ms := by
  induction hw with
  | refl => exact .refl _ _
  | step hcur hstep _ ih => exact .step (hnode _ _ hcur) (hstep.keep hroot hnode) ih

end

lemma createDirectory_entry (h : (fs.createDirectory p).1 = .ok true) :
    ∃ l, fs.entry p = .ok l ∧ fs.node l = none ∧ (fs.createDirectory p).2 = fs.set l .directory := by
  unfold createDirectory at h ⊢
  split at h
  · cases h
  · split at h
    · cases h
    · rename_i l hl
      split at h
      · rename_i hnone
        exact ⟨l, hl, hnone, by simp [*]⟩
      · split at h
        · split at h <;> cases h
        · cases h

lemma createDirectory_made (h : (fs.createDirectory p).1 = .ok true) :
    ∃ l, (fs.createDirectory p).2.locate p = .ok l ∧
    ∀ m, fs.node m = none ∧ (fs.createDirectory p).2.node m = some .directory ↔ m = l := by
  obtain ⟨l, hentry, hnone, hset⟩ := createDirectory_entry h
  have hgrows := fs.createDirectory_grows p
  have hl : l ≠ [] := fun hl => by simp [FileSystem.node, hl] at hnone
  have hmade : (fs.createDirectory p).2.node l = some .directory := by rw [hset, node_set hl, if_pos rfl]
  have honly (m : Location) : fs.node m = none ∧ (fs.createDirectory p).2.node m = some .directory ↔ m = l := by
    constructor
    · rintro ⟨hm, hnew⟩
      by_contra hne
      rw [hset, node_set hl, if_neg hne, hm] at hnew
      cases hnew
    · rintro rfl
      exact ⟨hnone, hmade⟩
  refine ⟨l, ?_, honly⟩
  unfold entry at hentry
  split at hentry
  · cases hentry
  rename_i hp
  obtain ⟨k, hk, hcomes⟩ := walk_comes (by decide) 40 (walk_vacant hnone 40 _ _ hentry)
  have hnames : (fs.createDirectory p).2.Walks k fs.root (names p) l [] := by
    rcases hcomes with hwalks | ⟨_, d, c, hwalks, hvacant, rfl⟩
    · exact hwalks.keep hgrows.root hgrows.node
    · have hstep : (fs.createDirectory p).2.Walks 0 d [c] (d ++ [c]) [] :=
        .step (hgrows.node _ _ hvacant.directory) (.down hvacant.entry hmade (by simp)) (.refl _ _)
      simpa using (hwalks.keep hgrows.root hgrows.node).trans hstep
  rw [← hgrows.root] at hnames
  exact locate_of_walks (hnames.spread hmade [] (pieces p) rfl) hk hp

end Made

end Cxx.FileSystem

end SimpleSftpd
