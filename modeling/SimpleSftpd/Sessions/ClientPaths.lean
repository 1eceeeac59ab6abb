import SimpleSftpd.Core.ComparedPaths
import SimpleSftpd.Core.Session

namespace SimpleSftpd

open Cxx Path

namespace Session

variable (s : Session) (u : FTPUser) (fs : FileSystem)

def start (p : Str) : Str := if p.head? = some 47 then u.home_directory_ else s.current_directory_

def walked (p : Str) : List Str := walkFrom (components (s.start u p)) p

def bounds : List Str := u.home_directory_ :: match s.current_virtual_host_ with
  | none => []
  | some h => [h.root_directory_]

/-- No path of a client leads into all of the bounds, or none of them ends in a slash once it is normalised. -/
def Bounded : Prop := ∀ p, 0 ∉ p → (∀ b ∈ s.bounds u, components b <+: s.walked u p) →
  ∀ b ∈ s.bounds u, Plain (normalizeForComparison fs b)

/-- The system calls read a path up to its first NUL, so the paths that the session keeps have none. -/
def NulFree : Prop := 0 ∉ s.current_directory_ ∧ ∀ b ∈ s.bounds u, 0 ∉ b

variable {s u fs} {p : Str}

lemma isName_walked (p : Str) : ∀ c ∈ s.walked u p, IsName c := isName_walkFrom (isName_components _) p

lemma resolvePath_form (hfs : fs.LinkFree) (hu : s.current_user_ = some u)
    (hhome : isAbsolute u.home_directory_ = true)
    (hdir : isAbsolute s.current_directory_ = true) (hp : p ≠ []) :
    IsForm (s.resolvePath fs p) (s.walked u p) := by
  rw [resolvePath, if_neg hp, walked, start]
  by_cases hhead : p.head? = some 47
  · simp only [if_pos hhead, hu]
    have hjoin : components (join u.home_directory_ (relativePath p)) = walkFrom
        (components u.home_directory_) p := by
      rw [components_eq, leads_join (isAbsolute_relativePath p), walkFrom_relativePath p (isName_components _)]
    rw [← hjoin]
    exact normalizeForComparison_form hfs (isAbsolute_join hhome _)
  · simp only [if_neg hhead]
    have hrelative : isAbsolute p = false := decide_eq_false hhead
    rw [← leads_join hrelative, ← components_eq]
    exact normalizeForComparison_form hfs (isAbsolute_join hdir p)

lemma components_of_form {q : Str} {cs : List Str} (h : IsForm q cs) (hcs : ∀ c ∈ cs, IsName c) :
    components q = cs := by
  have hnames : names q = cs := h.names fun c hc => ⟨(hcs c hc).slash, (hcs c hc).nonempty⟩
  rw [components_eq, leads_eq_names (by rwa [hnames]), hnames]

lemma resolvePath_walks (hfs : fs.LinkFree) (hu : s.current_user_ = some u)
    (hhome : isAbsolute u.home_directory_ = true)
    (hdir : isAbsolute s.current_directory_ = true) (p : Str) :
    isAbsolute (s.resolvePath fs p) = true ∧ components (s.resolvePath fs p) = s.walked u p := by
  by_cases hp : p = []
  · subst hp
    rw [resolvePath, if_pos rfl]
    exact ⟨hdir, rfl⟩
  · have hform := resolvePath_form hfs hu hhome hdir hp
    exact ⟨hform.isAbsolute, components_of_form hform (isName_walked p)⟩

def further (p : Str) : Str := if p = [] then "x" else p ++ "/x"

lemma nul_further {p : Str} (hp : 0 ∉ p) : 0 ∉ further p := by
  unfold further
  split
  · decide
  · rw [List.mem_append, not_or]
    exact ⟨hp, by decide⟩

lemma walked_further (p : Str) : s.walked u (further p) = s.walked u p ++ [ascii "x"] := by
  have hstep (cs : List Str) : step cs "x" = cs ++ [ascii "x"] := rfl
  by_cases hp : p = []
  · subst hp
    exact hstep _
  · have hhead : (p ++ ascii "/x").head? = p.head? := List.head?_append_of_ne_nil p hp
    have hpieces : pieces (p ++ ascii "/x") = pieces p ++ [ascii "x"] := pieces_append p "x"
    have hfurther : further p = p ++ ascii "/x" := if_neg hp
    rw [hfurther, walked, start, hhead, walkFrom, hpieces, List.foldl_append]
    exact hstep _

lemma validatePath_bounds (hu : s.current_user_ = some u)
    (hroot : ∀ h ∈ s.current_virtual_host_, isAbsolute h.root_directory_ = true)
    (q : Str) : s.validatePath fs q = true ↔
      ∀ b ∈ s.bounds u, isWithin (normalizeForComparison fs q) (normalizeForComparison fs b) = true := by
  rw [validatePath, isPathWithinHome, hu, bounds, List.forall_mem_cons, Bool.and_eq_true]
  apply and_congr_right
  intro _
  cases hhost : s.current_virtual_host_ with
  | none => simp
  | some h =>
    have hne : h.root_directory_ ≠ [] := fun hnil => by
      have habsolute := hroot h hhost
      rw [hnil] at habsolute
      cases habsolute
    simp [hne]

end Session

theorem client_paths_lead_by_components (fs : FileSystem) (hfs : fs.LinkFree) (s : Session) (u : FTPUser)
    (hu : s.current_user_ = some u) (hhome : isAbsolute u.home_directory_ = true)
    (hdir : isAbsolute s.current_directory_ = true)
    (hroot : ∀ h ∈ s.current_virtual_host_, isAbsolute h.root_directory_ = true) (_hnul : s.NulFree u) :
    (∀ p, 0 ∉ p → (p ≠ [] → IsForm (s.resolvePath fs p) (s.walked u p)) ∧ isAbsolute (s.resolvePath fs p) = true ∧
      components (s.resolvePath fs p) = s.walked u p) ∧
    ((∀ p, 0 ∉ p → (s.validatePath fs (s.resolvePath fs p) = true ↔ ∀ b ∈ s.bounds u,
      components b <+: s.walked u p)) ↔
      s.Bounded u fs) ∧
    ∀ b, 0 ∉ b → isAbsolute b = true → keepsSlash b = false → Plain (normalizeForComparison fs b) := by
  have hbounds : ∀ b ∈ s.bounds u, isAbsolute b = true := by
    rw [Session.bounds, List.forall_mem_cons]
    refine ⟨hhome, ?_⟩
    cases hhost : s.current_virtual_host_ with
    | none => simp
    | some h => simpa using hroot h hhost
  have hwithin (p : Str) (b : Str) (hb : b ∈ s.bounds u) := by
    obtain ⟨habs, hcomponents⟩ := Session.resolvePath_walks hfs hu hhome hdir p
    have hchild := normalizeForComparison_form hfs habs
    rw [hcomponents] at hchild
    exact hchild.isWithin_iff (normalizeForComparison_form hfs (hbounds b hb)) (Session.isName_walked p)
      (isName_components b)
  refine ⟨fun p _ => ⟨Session.resolvePath_form hfs hu hhome hdir,
    Session.resolvePath_walks hfs hu hhome hdir p⟩, ?_,
    fun b _ hb => normalizeForComparison_plain hfs hb⟩
  constructor
  · intro h p hnul hp b hb
    -- one component further than `p`, no bound but a plain one lets the path pass
    have hlonger : ∀ b ∈ s.bounds u, components b <+: s.walked u (Session.further p) := by
      intro b hb
      rw [Session.walked_further]
      exact (hp b hb).trans (List.prefix_append _ _)
    have hvalid := (Session.validatePath_bounds hu hroot _).1 ((h _ (Session.nul_further hnul)).2 hlonger) b hb
    apply (hwithin _ b hb).2.2 hvalid
    rw [Session.walked_further, List.length_append]
    exact Nat.lt_succ_of_le (hp b hb).length_le
  · intro h p hnul
    rw [Session.validatePath_bounds hu hroot]
    constructor
    · exact fun hvalid b hb => (hwithin p b hb).1 (hvalid b hb)
    · exact fun hp b hb => (hwithin p b hb).2.1 (hp b hb) (h p hnul hp b hb)

namespace ClientPaths

def tree : FileSystem := ⟨[(["srv"], .directory), (["srv", "ftp"], .directory)], [], fun _ _ _ => none, []⟩

def user (home : Str) : FTPUser := ⟨"u", "p", home, [], [], false, 0, 0⟩

def session (home : Str) : Session :=
  { socket_ := some 3, current_user_ := some (user home), current_directory_ := home }

lemma tree_linkFree : tree.LinkFree := FileSystem.linkFree_of_nodes (by simp [tree])

end ClientPaths

theorem client_paths_lead_by_components_sample :
    (ClientPaths.session "/srv/ftp").validatePath ClientPaths.tree
      ((ClientPaths.session "/srv/ftp").resolvePath ClientPaths.tree "a/../b") = true ∧
    ¬(ClientPaths.session "/srv/ftp").validatePath ClientPaths.tree
      ((ClientPaths.session "/srv/ftp").resolvePath ClientPaths.tree "../ftp-evil") = true := by
  obtain ⟨_, hvalid, hplain⟩ := client_paths_lead_by_components ClientPaths.tree ClientPaths.tree_linkFree
    (ClientPaths.session "/srv/ftp") (ClientPaths.user "/srv/ftp") rfl rfl rfl (by rintro _ ⟨⟩)
      ⟨by decide, by decide⟩
  have hbounded : (ClientPaths.session "/srv/ftp").Bounded (ClientPaths.user "/srv/ftp") ClientPaths.tree := by
    intro _ _ _ b hb
    obtain rfl := List.mem_singleton.1 hb
    exact hplain _ (by decide) rfl (by decide)
  rw [hvalid.2 hbounded _ (by decide), hvalid.2 hbounded _ (by decide)]
  decide +kernel

theorem client_paths_do_not_lead_by_components :
    isAbsolute "/srv/ftp/." = true ∧ endsWithSlash "/srv/ftp/." = false ∧
    ¬((ClientPaths.session "/srv/ftp/.").validatePath ⟨[], [], fun _ _ _ => none, []⟩
        ((ClientPaths.session "/srv/ftp/.").resolvePath ⟨[], [], fun _ _ _ => none, []⟩ "/x") = true ↔
      ∀ b ∈ (ClientPaths.session "/srv/ftp/.").bounds (ClientPaths.user "/srv/ftp/."),
        components b <+: (ClientPaths.session "/srv/ftp/.").walked (ClientPaths.user "/srv/ftp/.") "/x") := by
  decide +kernel

end SimpleSftpd
