import SimpleSftpd.Core.LinkedPaths
import SimpleSftpd.Core.Session

namespace SimpleSftpd

open Cxx Path

namespace Cxx.FileSystem

variable {fs : FileSystem} {k : ℕ} {m l d h : Location} {ns : List Str} {c p q a b : Str}

structure Dangling (fs : FileSystem) (d : Location) (c : Str) (l : Location) : Prop where
  reached : fs.locate (fs.render d) = .ok d
  directory : fs.node d = some .directory
  name : IsName c
  link : ∃ t, fs.node (d ++ [c]) = some (.symlink t)
  missing : fs.locate (fs.render (d ++ [c])) = .error .enoent
  leads : fs.place (fs.render (d ++ [c])) = .ok l

lemma exists_free_name (fs : FileSystem) (d : Location) : ∃ x, IsName x ∧ fs.node (d ++ [x]) = none := by
  obtain ⟨total, htotal⟩ : ∃ total, ∀ n ∈ fs.nodes, n.1.flatten.length ≤ total := by
    induction fs.nodes with
    | nil => exact ⟨0, by simp⟩
    | cons n ns ih =>
      obtain ⟨total, htotal⟩ := ih
      refine ⟨max n.1.flatten.length total, List.forall_mem_cons.2 ⟨le_max_left _ _, fun m hm => ?_⟩⟩
      exact (htotal m hm).trans (le_max_right _ _)
  refine ⟨List.replicate (total + 1) 120, ⟨by simp, by simp, ?_, ?_⟩, ?_⟩
  · rw [List.replicate_succ]
    exact decide_eq_false fun he => by injection he with he; cases he
  · rw [List.replicate_succ]
    exact decide_eq_false fun he => by injection he with he; cases he
  · rw [node, if_neg (by simp), List.lookup_eq_none_iff]
    intro n hn
    simp only [bne_iff_ne, ne_eq]
    intro he
    have hle := htotal n hn
    rw [← he, List.flatten_append, List.length_append] at hle
    simp at hle
    omega

lemma elements_plain (h : endsWithSlash q = false) :
    elements q = (if isAbsolute q then [[47]] else []) ++ names q := by
  have hlast : (if names q ≠ [] ∧ endsWithSlash q = true then [[]] else []) = ([] : List Str) :=
    if_neg fun hends => by simp [h] at hends
  rw [elements, hlast, List.append_nil]
  rfl

structure Missing (fs : FileSystem) (q : Str) (m : Location) (c : Str) : Prop where
  status : fs.locate q = .error .enoent
  plain : endsWithSlash q = false
  name : IsName c
  directory : fs.node m = some .directory
  real : fs.Real m
  walked : ∃ ns, names q = ns ++ [c] ∧ (∃ k ≤ 40, fs.Walks k fs.root ns m []) ∧
    fs.locate (spell (isAbsolute q) (ns ++ [c])) = .error .enoent

lemma Missing.normalizeForComparison (hfs : fs.Answers) (h : fs.Missing q m c)
    (hroot : isAbsolute q = true ∨ names q ≠ [c]) :
    normalizeForComparison fs q = fs.render (m ++ [c]) := by
  obtain ⟨ns, hnames, ⟨k, hk, hwalks⟩, hmissing⟩ := h.walked
  have hns : ∀ d ∈ ns, 47 ∉ d ∧ d ≠ [] := fun d hd => names_of_mem (hnames ▸ List.mem_append_left _ hd)
  have helements : elements q = ((if isAbsolute q then [[47]] else []) ++ ns) ++ [c] := by
    rw [elements_plain h.plain, hnames, List.append_assoc]
  have hshown : isAbsolute q = true ∨ ns ≠ [] := hroot.imp_right fun hne hnil => hne (by rw [hnames, hnil]; rfl)
  have hweakly := weaklyCanonical_missing hfs (h.real.root_directory h.directory) hns hwalks hk ⟨h.name.slash,
    h.name.nonempty⟩
    (status_of_missing hfs h.status) hshown helements (status_of_missing hfs hmissing)
  obtain ⟨ms, rfl, hms, _⟩ := h.real.names
  have hnone : ∀ d ∈ ([] : List Str), 47 ∉ d ∧ d ≠ [] := by simp
  have hnormal := lexicallyNormal_foldl hms hnone h.name
  rw [List.foldl_nil, List.nil_append] at hnormal
  rw [render_root_append, hnormal] at hweakly
  rw [SimpleSftpd.normalizeForComparison, hweakly, List.append_assoc, render_root_append]

lemma Missing.relative (hfs : fs.Answers) (h : fs.Missing q m c) (hq : isAbsolute q = false)
    (hnames : names q = [c]) :
    SimpleSftpd.normalizeForComparison fs q = c := by
  obtain ⟨ns, hsplit, _, hmissing⟩ := h.walked
  have helements : elements q = [c] := by
    rw [elements_plain h.plain, hq, hnames]
    rfl
  obtain rfl : ns = [] := by simpa [hnames] using hsplit
  rw [hq] at hmissing
  have hweakly := weaklyCanonical_first hfs h.name (status_of_missing hfs h.status) helements hmissing
  obtain ⟨b, c, rfl⟩ := List.exists_cons_of_ne_nil h.name.nonempty
  rw [SimpleSftpd.normalizeForComparison, hweakly]

lemma Real.walks (h : fs.Real m) (hroot : fs.node fs.root = some .directory) (hc : IsName c)
    (hwalks : fs.Walks k m [c] d ns) :
    fs.Walks (k + 0) fs.root (pieces (fs.render (m ++ [c]))) d ns := by
  obtain ⟨ms, rfl, hms, hfirst⟩ := h.names
  have hall : ∀ e ∈ ms ++ [c], 47 ∉ e ∧ e ≠ [] := by
    rw [List.forall_mem_append]
    exact ⟨fun e he => ⟨(hms e he).slash, (hms e he).nonempty⟩, by simpa using ⟨hc.slash, hc.nonempty⟩⟩
  rw [List.append_assoc, render_root_append]
  exact walks_spell hroot hall (by simp) ((hfirst.append [c]).trans hwalks) true

lemma endsWithSlash_pieces {as : List Str} (h : pieces q = as ++ [c]) (hc : c ≠ []) : endsWithSlash q = false := by
  by_contra hslash
  rw [Bool.not_eq_false] at hslash
  obtain ⟨q', rfl⟩ : ∃ q', q = q' ++ [47] := by
    have hlast : q.getLast? = some 47 := by simpa [endsWithSlash] using hslash
    rwa [List.getLast?_eq_some_iff] at hlast
  rw [pieces_append] at h
  have hempty := List.append_inj_right' h rfl
  exact hc (List.cons.inj hempty).1.symm

lemma place_cases (h : fs.place q = .ok l) :
    fs.locate q = .ok l ∨ ∃ m c, fs.Missing q m c ∧ (l = m ++ [c] ∨ fs.Dangling m c l) := by
  obtain ⟨hq, k, hk, hwalks | ⟨d, x, hwalks, hfree, rfl⟩⟩ := place_walks h
  · exact .inl (locate_of_walks hwalks hk hq)
  right
  have hroot := hwalks.directory (.inr hfree.directory)
  obtain ⟨as, c, hsplit⟩ := (List.eq_nil_or_concat (pieces q)).resolve_left (pieces_ne_nil q)
  rw [List.concat_eq_append] at hsplit
  have hslashes : ∀ e ∈ as ++ [c], 47 ∉ e := fun e he => slash_notMem_pieces (hsplit ▸ he)
  obtain ⟨has, hc⟩ := List.forall_mem_append.1 hslashes
  have hc := hc c (by simp)
  rcases hwalks.cut as hsplit with ⟨k₁, k₂, m, rfl, hfirst, hsecond⟩ | ⟨rest, hne, hlast⟩
  swap
  · have hlength := congrArg List.length hlast
    rw [List.length_append, List.length_singleton, List.length_singleton] at hlength
    have := List.length_pos_iff.2 hne
    omega
  have hm : fs.Real m := (hfirst.real (.root hroot) has).1
  have hnext : fs.node m = some .directory ∧ IsEntry c ∧
      (m = d ∧ c = x ∨ ∃ t, fs.node (m ++ [c]) = some (.symlink t)) := by
    cases hsecond with
    | refl => exact ⟨hfree.directory, hfree.entry, .inl ⟨rfl, rfl⟩⟩
    | step hcur hstep hrest =>
      cases hstep with
      | link hentry he => exact ⟨hcur, hentry, .inr ⟨_, he⟩⟩
      | _ => cases hrest
  obtain ⟨hdir, hentry, hlast⟩ := hnext
  have hname := hentry.isName hc
  have hns : names q = as.filter (· ≠ []) ++ [c] := by
    rw [names, hsplit, List.filter_append, List.filter_cons_of_pos (by simpa using hname.nonempty)]
    rfl
  have hfiltered : fs.Walks k₁ fs.root (as.filter (· ≠ [])) m [] := hfirst.filter [] as rfl
  have hspelled := walks_spell hroot (fun e he => names_of_mem (hns ▸ he)) (by simp)
    ((hfiltered.append [c]).trans hsecond) (isAbsolute q)
  refine ⟨m, c, ⟨locate_missing hwalks hk hfree, endsWithSlash_pieces hsplit hname.nonempty, hname,
    hdir, hm, _, hns,
    ⟨k₁, by omega, hfiltered⟩, locate_missing hspelled hk hfree⟩, ?_⟩
  rcases hlast with ⟨rfl, rfl⟩ | hlink
  · exact .inl rfl
  · have hbehind := hm.walks hroot hname hsecond
    have hk₂ : k₂ + 0 ≤ 40 := by omega
    exact .inr ⟨hm.locate hroot, hdir, hname, hlink, locate_missing hbehind hk₂ hfree,
      place_vacant hbehind hk₂ hfree (List.cons_ne_nil _ _)⟩

lemma isWithin_render {hs : List Str} (hns : ∀ c ∈ ns, IsName c) (hhs : ∀ c ∈ hs, IsName c) :
    isWithin (fs.render (fs.root ++ ns)) (fs.render (fs.root ++ hs)) = true ↔ fs.root ++ hs <+: fs.root ++ ns := by
  rw [render_root_append, render_root_append, List.prefix_append_right_inj]
  have hforms := IsForm.isWithin_iff (.inl rfl) (.inl rfl) hns hhs
  exact ⟨hforms.1, fun h => hforms.2.1 h (plain_root_join hhs)⟩

lemma Walks.nothing (h : fs.Walks k d [[]] m []) : k = 0 ∧ m = d := by
  cases h with
  | step hcur hstep hrest =>
    cases hstep with
    | skip =>
      cases hrest
      exact ⟨rfl, rfl⟩
    | up hpasses => exact absurd (.inl rfl) hpasses
    | down hentry => exact absurd (.inl rfl) hentry.passes
    | link hentry => exact absurd (.inl rfl) hentry.passes

lemma Walks.join (h : fs.Walks k fs.root (pieces a) m []) (hb : isAbsolute b = false) :
    fs.Walks k fs.root (pieces (Path.join a b)) m (pieces b) := by
  have hdirect (a : Str) (h : fs.Walks k fs.root (pieces a) m []) :
      fs.Walks k fs.root (pieces (a ++ 47 :: b)) m (pieces b) := by
    rw [pieces_append]
    exact h.append (pieces b)
  rw [Path.join, hb, if_neg Bool.false_ne_true]
  split
  · rename_i hslash
    rcases hslash with rfl | hslash
    · obtain ⟨rfl, rfl⟩ := Walks.nothing h
      exact .refl _ _
    · obtain ⟨a', rfl⟩ : ∃ a', a = a' ++ [47] := by
        have hlast : a.getLast? = some 47 := by simpa [endsWithSlash] using hslash
        rwa [List.getLast?_eq_some_iff] at hlast
      rw [List.append_assoc]
      apply hdirect a'
      have hpieces : pieces (a' ++ [47]) = pieces a' ++ [[]] := pieces_append a' []
      rcases h.cut (pieces a') hpieces with ⟨k₁, k₂, m₁, rfl, hfirst, hsecond⟩ | ⟨rest, hne, hnil⟩
      · obtain ⟨rfl, rfl⟩ := Walks.nothing hsecond
        rwa [Nat.zero_add]
      · exact absurd (List.append_eq_nil_iff.1 hnil.symm).1 hne
  · exact hdirect a h

lemma names_ne_nil (ha : a ≠ []) (hrelative : isAbsolute a = false) : names a ≠ [] := by
  obtain ⟨e, a, rfl⟩ := List.exists_cons_of_ne_nil ha
  have he : e ≠ 47 := by simpa [isAbsolute] using hrelative
  rw [names, pieces_cons he]
  cases hp : pieces a with
  | nil => exact absurd hp (pieces_ne_nil a)
  | cons x xs =>
    dsimp only
    rw [List.filter_cons_of_pos (by simp)]
    exact List.cons_ne_nil _ _

lemma normalizeForComparison_detour (hfs : fs.Answers) (ha : fs.locate a = .ok h)
    (hdir : fs.node h = some .directory)
    {rel : List Str} (hrel : ∀ e ∈ rel, IsName e) (hc : IsName c) :
    ∃ b, isAbsolute b = false ∧ normalizeForComparison fs (Path.join a b) = fs.render (h ++ (rel ++ [c])) := by
  obtain ⟨x, hx, hfree⟩ := fs.exists_free_name h
  obtain ⟨hne, k, hk, hwalks⟩ := locate_walks ha
  have hroot := hwalks.directory (.inl (pieces_ne_nil a).symm)
  let ds := x :: ascii ".." :: (rel ++ [c])
  have hds : ∀ e ∈ ds, 47 ∉ e ∧ e ≠ [] := by
    have hplain {e : Str} (he : IsName e) : 47 ∉ e ∧ e ≠ [] := ⟨he.slash, he.nonempty⟩
    rw [List.forall_mem_cons, List.forall_mem_cons, List.forall_mem_append, List.forall_mem_singleton]
    exact ⟨hplain hx, by decide, fun e he => hplain (hrel e he), hplain hc⟩
  have hjoined : joinNames ds = x ++ 47 :: joinNames (ascii ".." :: (rel ++ [c])) := rfl
  have hb : isAbsolute (joinNames ds) = false := by
    obtain ⟨e, x', rfl⟩ := List.exists_cons_of_ne_nil hx.nonempty
    have he : e ≠ 47 := fun heq => hx.slash (heq ▸ List.mem_cons_self)
    rw [hjoined, isAbsolute]
    simpa using he
  refine ⟨joinNames ds, hb, ?_⟩
  have hbne : joinNames ds ≠ [] := joinNames_ne_nil (List.cons_ne_nil _ _) fun e he => (hds e he).2
  have hslash := endsWithSlash_join_of (a := a) hb hbne (endsWithSlash_joinNames hds)
  have hnames : names (Path.join a (joinNames ds)) = names a ++ ds := by rw [names_join hb, names_joinNames hds]
  have hvacant : fs.Vacant h x := ⟨hdir, hx.isEntry, hfree⟩
  have hmissing : fs.locate (Path.join a (joinNames ds)) = .error .enoent := by
    have hall := hwalks.join hb
    rw [pieces_joinNames (List.cons_ne_nil _ _) fun e he => (hds e he).1] at hall
    exact locate_missing hall hk hvacant
  have hhome : fs.Walks k fs.root (names a) h [] := hwalks.filter [] (pieces a) rfl
  have hspelled : fs.locate (spell (isAbsolute (Path.join a (joinNames ds))) (names a ++ [x])) =
      .error .enoent := by
    have hall : ∀ e ∈ names a ++ [x], 47 ∉ e ∧ e ≠ [] := by
      rw [List.forall_mem_append, List.forall_mem_singleton]
      exact ⟨fun e he => names_of_mem he, hx.slash, hx.nonempty⟩
    exact locate_missing (walks_spell hroot hall (by simp) (hhome.append [x]) _) hk hvacant
  have hshown : isAbsolute (Path.join a (joinNames ds)) = true ∨ names a ≠ [] := by
    cases habsolute : isAbsolute a with
    | true => exact .inl (isAbsolute_join habsolute _)
    | false => exact .inr (names_ne_nil hne habsolute)
  have helements := elements_plain hslash
  rw [hnames, ← List.append_assoc] at helements
  have hweakly := weaklyCanonical_missing hfs hroot (fun e he => names_of_mem he) hhome hk ⟨hx.slash, hx.nonempty⟩
    (status_of_missing hfs hmissing) hshown helements (status_of_missing hfs hspelled)
  obtain ⟨hs, rfl, hhs, _⟩ := (locate_real ha).names
  have hway : (x :: ascii ".." :: rel).foldl step hs = hs ++ rel := by
    have hthere : step hs x = hs ++ [x] := by
      rw [step, if_neg (by simp [hx.nonempty, hx.dot]), if_neg (by simp [hx.dotDot])]
    have hback : step (hs ++ [x]) (ascii "..") = hs := by
      rw [step, if_neg (by decide), if_pos (by decide), List.dropLast_concat]
    rw [List.foldl_cons, List.foldl_cons, hthere, hback, foldl_step_names hrel]
  have hbefore : ∀ e ∈ x :: ascii ".." :: rel, 47 ∉ e ∧ e ≠ [] := fun e he => hds e (List.mem_append_left [c] he)
  have hnormal : lexicallyNormal (ds.foldl Path.join (47 :: joinNames hs)) = 47 :: joinNames (hs ++ rel ++ [c]) :=
    hway ▸ lexicallyNormal_foldl hhs hbefore hc
  rw [render_root_append, hnormal] at hweakly
  rw [normalizeForComparison, hweakly, List.append_assoc fs.root, render_root_append, ← List.append_assoc]

end Cxx.FileSystem

namespace Cxx.FileSystem

variable {fs : FileSystem} {d h l : Cxx.Location} {c q : Str} {hs : List Str}

lemma Dangling.missingName (h : fs.Dangling d c l) : fs.Missing (fs.render (d ++ [c])) d c := by
  have hreal := locate_real h.reached
  obtain ⟨ns, rfl, hns, hwalks⟩ := hreal.names
  have hall : ∀ e ∈ ns ++ [c], 47 ∉ e ∧ e ≠ [] := by
    rw [List.forall_mem_append, List.forall_mem_singleton]
    exact ⟨fun e he => ⟨(hns e he).slash, (hns e he).nonempty⟩, h.name.slash, h.name.nonempty⟩
  have hrender : fs.render (fs.root ++ ns ++ [c]) = 47 :: joinNames (ns ++ [c]) := by
    rw [List.append_assoc, render_root_append]
  have hnames : names (fs.render (fs.root ++ ns ++ [c])) = ns ++ [c] := by
    rw [hrender, names_slash, names_joinNames hall]
  have hpieces : pieces (fs.render (fs.root ++ ns ++ [c])) = ([] :: ns) ++ [c] := by
    rw [hrender, pieces_slash, pieces_joinNames (by simp) fun e he => (hall e he).1]
    rfl
  have hspelled := h.missing
  rw [hrender] at hspelled
  exact ⟨h.missing, endsWithSlash_pieces hpieces h.name.nonempty, h.name, h.directory, hreal, ns, hnames,
    ⟨0, Nat.zero_le 40, hwalks⟩, by rw [hrender]; exact hspelled⟩

lemma Missing.prefix_of_isWithin {m : Cxx.Location} (hfs : fs.Answers) (hq : fs.Missing q m c)
    (hhs : ∀ e ∈ hs, IsName e)
    (h : isWithin (SimpleSftpd.normalizeForComparison fs q) (fs.render (fs.root ++ hs)) = true) :
    fs.root ++ hs <+: m ++ [c] := by
  by_cases hroot : isAbsolute q = true ∨ names q ≠ [c]
  · rw [hq.normalizeForComparison hfs hroot] at h
    obtain ⟨ms, rfl, hms, _⟩ := hq.real.names
    rw [List.append_assoc] at h ⊢
    exact (isWithin_render (List.forall_mem_append.2 ⟨hms, by simpa using hq.name⟩) hhs).1 h
  · rw [not_or, Bool.not_eq_true, not_not] at hroot
    have hrelative : isAbsolute c = false := decide_eq_false fun he => hq.name.slash (List.mem_of_head? he)
    have hplain : endsWithSlash c = false := decide_eq_false fun he => hq.name.slash (List.mem_of_getLast? he)
    rw [hq.relative hfs hroot.1 hroot.2, isWithin, elements_plain hplain, hrelative,
      names_of_name hq.name.slash hq.name.nonempty,
      render_root_append, List.isPrefixOf_iff_prefix] at h
    have hslash : ([47] : Str) ∈ elements (47 :: joinNames hs) :=
      List.mem_append_left _ (List.mem_append_left _ (by simp [isAbsolute]; rfl))
    have hmem := h.subset hslash
    rw [if_neg Bool.false_ne_true, List.nil_append, List.mem_singleton] at hmem
    exact absurd (hmem ▸ List.mem_singleton_self 47) hq.name.slash

end Cxx.FileSystem

namespace Session

variable {s : Session} {u : FTPUser} {fs : FileSystem} {h l : Cxx.Location} {q : Str}

lemma validatePath_home (hu : s.current_user_ = some u) (hv : s.current_virtual_host_ = none) :
    s.validatePath fs q = isWithin (normalizeForComparison fs q)
      (normalizeForComparison fs u.home_directory_) := by
  rw [validatePath, isPathWithinHome, hu, hv, Bool.and_true]

end Session

theorem accepted_paths_open_inside (fs : FileSystem) (hfs : fs.Answers) (s : Session) (u : FTPUser)
    (hu : s.current_user_ = some u)
    (hv : s.current_virtual_host_ = none) (h : Location) (hhome : fs.locate u.home_directory_ = .ok h) :
    (∀ p, s.validatePath fs (s.resolvePath fs p) = true →
      ∀ l, fs.locate (s.resolvePath fs p) = .ok l ∨ fs.place (s.resolvePath fs p) = .ok l → h <+: l) ↔
    ∀ d c l, fs.Dangling d c l → h <+: d ++ [c] → h <+: l := by
  have hreal := FileSystem.locate_real hhome
  have hnormal := FileSystem.normalizeForComparison_located hfs hhome
  obtain ⟨hs, rfl, hhs, _⟩ := hreal.names
  constructor
  · intro hall d c l hdangling hinside
    have hd := FileSystem.locate_real hdangling.reached
    rcases List.prefix_concat_iff.1 hinside with heq | ⟨rel, rfl⟩
    · obtain ⟨e, he, hlink⟩ := hreal.node
      obtain ⟨t, ht⟩ := hdangling.link
      rw [heq, ht] at he
      exact absurd (Option.some.inj he).symm (hlink t)
    · obtain ⟨ns, hns, hnames, _⟩ := hd.names
      rw [List.append_assoc] at hns
      obtain rfl := List.append_cancel_left hns
      have hrel : ∀ e ∈ rel, IsName e := fun e he => hnames e (List.mem_append_right hs he)
      have hdir : fs.node (fs.root ++ hs) = some .directory := by
        by_cases hnil : rel = []
        · have := hdangling.directory
          rwa [hnil, List.append_nil] at this
        · exact hd.directory _ rel rfl hnil (by simp)
      obtain ⟨b, hb, hdetour⟩ := FileSystem.normalizeForComparison_detour hfs hhome hdir hrel hdangling.name
      have hresolve : s.resolvePath fs (47 :: b) = fs.render (fs.root ++ hs ++ rel ++ [c]) := by
        have hhead : (47 :: b : Str).head? = some 47 := rfl
        rw [Session.resolvePath, if_neg (List.cons_ne_nil 47 b), List.append_assoc, ← hdetour]
        simp only [if_pos hhead, hu, Path.relativePath_of_relative hb]
      apply hall (47 :: b) _ l (.inr (hresolve ▸ hdangling.leads))
      rw [Session.validatePath_home hu hv, hnormal, hresolve,
        hdangling.missingName.normalizeForComparison hfs (.inl rfl)]
      have hlonger : ∀ e ∈ hs ++ rel ++ [c], IsName e :=
        List.forall_mem_append.2 ⟨hnames, by simpa using hdangling.name⟩
      have hsplit : fs.root ++ hs ++ rel ++ [c] = fs.root ++ (hs ++ rel ++ [c]) := by simp only [List.append_assoc]
      rw [hsplit] at hinside ⊢
      exact (FileSystem.isWithin_render hlonger hhs).2 hinside
  · intro hall p hvalid l hl
    rw [Session.validatePath_home hu hv, hnormal] at hvalid
    have hopened : fs.locate (s.resolvePath fs p) = .ok l ∨ ∃ m c, fs.Missing (s.resolvePath fs p) m c ∧
        (l = m ++ [c] ∨ fs.Dangling m c l) := hl.elim .inl FileSystem.place_cases
    rcases hopened with hlocated | ⟨m, c, hmissing, hplace⟩
    · obtain ⟨ls, rfl, hls, _⟩ := (FileSystem.locate_real hlocated).names
      rw [FileSystem.normalizeForComparison_located hfs hlocated] at hvalid
      exact (FileSystem.isWithin_render hls hhs).1 hvalid
    · have hinside := hmissing.prefix_of_isWithin hfs hhs hvalid
      rcases hplace with rfl | hdangling
      · exact hinside
      · exact hall m c l hdangling hinside

namespace DanglingLinks

def tree (target : Str) : FileSystem :=
  ⟨[(["h"], .directory), (["h", "docs"], .directory), (["h", "a"], .symlink target), (["out"], .directory)],
    [], fun _ _ _ => none, []⟩

def user : FTPUser := ⟨"u", "p", "/h", [], [], false, 0, 0⟩

def session : Session := { socket_ := some 3, current_user_ := some user, current_directory_ := "/h" }

end DanglingLinks

theorem accepted_paths_open_inside_sample :
    let fs := DanglingLinks.tree "/h/new"
    fs.Dangling ["h"] "a" ["h", "new"] ∧
      ∀ p, DanglingLinks.session.validatePath fs (DanglingLinks.session.resolvePath fs p) = true →
        ∀ l, fs.locate (DanglingLinks.session.resolvePath fs p) = .ok l ∨
          fs.place (DanglingLinks.session.resolvePath fs p) = .ok l → [ascii "h"] <+: l := by
  refine ⟨⟨by decide +kernel, by decide +kernel, ⟨by decide, by decide, by decide, by decide⟩, ⟨_, rfl⟩,
    by decide +kernel, by decide +kernel⟩, ?_⟩
  apply (accepted_paths_open_inside (DanglingLinks.tree "/h/new") (fun _ => ⟨rfl, rfl⟩) DanglingLinks.session
    DanglingLinks.user
    rfl rfl ["h"] (by decide +kernel)).2
  intro d c l hdangling _
  obtain ⟨t, ht⟩ := hdangling.link
  have hat : d ++ [c] = ["h", "a"] := by
    rw [FileSystem.node, if_neg (by simp)] at ht
    simp only [DanglingLinks.tree, List.lookup_cons, List.lookup_nil] at ht
    split at ht
    · cases ht
    split at ht
    · cases ht
    split at ht
    · rename_i heq
      exact eq_of_beq heq
    · split at ht <;> cases ht
  have hleads := hdangling.leads
  rw [hat] at hleads
  have hplace : (DanglingLinks.tree "/h/new").place ((DanglingLinks.tree "/h/new").render ["h", "a"]) = .ok
      ["h", "new"] := by
    decide +kernel
  obtain rfl := Except.ok.inj (hleads.symm.trans hplace)
  exact ⟨[ascii "new"], rfl⟩

theorem accepted_paths_open_outside :
    let fs := DanglingLinks.tree "/out/new"
    let q := DanglingLinks.session.resolvePath fs "a"
    fs.Answers ∧ DanglingLinks.session.validatePath fs q = true ∧ fs.locate "/h" = .ok ["h"] ∧
      fs.place q = .ok ["out", "new"] ∧ ¬([ascii "h"] <+: [ascii "out", ascii "new"]) := by
  exact ⟨fun _ => ⟨rfl, rfl⟩, by decide +kernel⟩

end SimpleSftpd
