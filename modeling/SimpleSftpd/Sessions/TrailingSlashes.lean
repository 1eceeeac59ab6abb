import Mathlib.Data.List.TakeWhile
import SimpleSftpd.Core.PathForms
import SimpleSftpd.Core.Session

namespace SimpleSftpd

open Cxx Path

variable {fs : FileSystem} {s : Session} {u : FTPUser} {operation path d scope : Str}

def Slashless (d : Str) : Prop := d ≠ [] ∧ endsWithSlash d = false

/-- Exactly one of the two forms of a directory ends in an empty component, and the path is in the directory;
the directory itself matches such a form only if it ends so too. -/
def Parts (fs : FileSystem) (d path : Str) : Prop :=
  ¬(Plain (normalizeForComparison fs (d ++ [47])) ↔ Plain (normalizeForComparison fs d)) ∧
    trunk (normalizeForComparison fs d) <+: trunk (normalizeForComparison fs path) ∧
    (trunk (normalizeForComparison fs d) = trunk (normalizeForComparison fs path) →
      Plain (normalizeForComparison fs path))

structure IgnoresSlashes (fs : FileSystem) (s : Session) (u : FTPUser) (operation path : Str) : Prop where
  home : Slashless u.home_directory_ →
    let u' := { u with home_directory_ := u.home_directory_ ++ [47] }
    u'.hasPermission fs operation path = u.hasPermission fs operation path ∧
      ({ s with current_user_ := some u' } : Session).isPathWithinHome fs path =
        ({ s with current_user_ := some u } : Session).isPathWithinHome fs path
  scope : ∀ before allowed scope after, 58 ∉ allowed → Slashless scope →
    u.permissions_ = before ++ (allowed ++ 58 :: scope) :: after →
    ({ u with permissions_ := before ++ (allowed ++ 58 :: (scope ++ [47])) :: after } :
      FTPUser).hasPermission fs operation path =
      u.hasPermission fs operation path

def scopeRoot (u : FTPUser) (scope : Str) : Str := join u.home_directory_ (relativePath scope)

structure Decides (fs : FileSystem) (u : FTPUser) (operation path : Str) (before after : List Str)
    (allowed scope : Str) : Prop where
  applies : allowed = operation ∨ allowed = "all"
  named : path ≠ []
  alone : ∀ entry ∈ before ++ after, FTPUser.entryAllows fs u.home_directory_ operation path entry = false
  parts : Parts fs (scopeRoot u scope) path

lemma isWithin_slash (h : fs.LinkFree) (hforms : isAbsolute d = true ∨ fs.Answers) (hd : d ≠ []) (path : Str) :
    isWithin (normalizeForComparison fs path) (normalizeForComparison fs (d ++ [47])) =
      isWithin (normalizeForComparison fs path) (normalizeForComparison fs d) ↔ ¬Parts fs d path :=
  isWithin_congr (trunk_normalizeForComparison h hforms hd)

lemma join_slash (hd : Slashless d) {r : Str} (hr : isAbsolute r = false) : join (d ++ [47]) r = join d r := by
  have hends : endsWithSlash (d ++ [47]) = true := by simp [endsWithSlash]
  have hnot : ¬(d = [] ∨ endsWithSlash d = true) := by simp [hd.1, hd.2]
  rw [join, join, hr, if_neg Bool.false_ne_true, if_neg Bool.false_ne_true, if_pos (.inr hends), if_neg hnot,
    List.append_assoc]
  rfl

lemma entryAllows_home (hd : Slashless d) (entry : Str) :
    FTPUser.entryAllows fs (d ++ [47]) operation path entry = FTPUser.entryAllows fs d operation path entry := by
  simp only [FTPUser.entryAllows, join_slash hd (isAbsolute_relativePath _)]

lemma entryAllows_iff (fs : FileSystem) (home operation path : Str) {allowed : Str} (hallowed : 58 ∉ allowed)
    (hscope : scope ≠ [] ∧ scope ≠ "/") :
    FTPUser.entryAllows fs home operation path (allowed ++ 58 :: scope) = true ↔
      (allowed = operation ∨ allowed = "all") ∧ path ≠ [] ∧
      isWithin (normalizeForComparison fs path)
        (normalizeForComparison fs (join home (relativePath scope))) = true := by
  have hall : ∀ c ∈ allowed, decide (c ≠ 58) = true := fun c hc => decide_eq_true fun h => hallowed (h ▸ hc)
  have htake : (allowed ++ 58 :: scope).takeWhile (· ≠ 58) = allowed := by
    rw [List.takeWhile_append_of_pos hall]
    exact List.append_nil allowed
  have hdrop : (allowed ++ 58 :: scope).dropWhile (· ≠ 58) = 58 :: scope := by
    rw [List.dropWhile_append_of_pos hall]
    rfl
  have hscopes : ¬(scope = [] ∨ scope = "/") := by simp [hscope.1, hscope.2]
  rw [FTPUser.entryAllows, htake, hdrop]
  dsimp only
  rw [if_neg hscopes]
  by_cases happlies : allowed = operation ∨ allowed = "all"
  · have hnot : ¬(allowed ≠ operation ∧ allowed ≠ "all") := by tauto
    rw [if_neg hnot, and_iff_right happlies]
    by_cases hpath : path = []
    · simp [hpath]
    · rw [if_neg hpath, and_iff_right hpath]
  · have hnot : allowed ≠ operation ∧ allowed ≠ "all" := by tauto
    rw [if_pos hnot]
    exact iff_of_false Bool.false_ne_true fun h => happlies h.1

lemma scopeRoot_slash (u : FTPUser) (hscope : Slashless scope) :
    join u.home_directory_ (relativePath (scope ++ [47])) = scopeRoot u scope ++ [47] ∧
      scopeRoot u scope ≠ [] := by
  have hshown : relativePath scope ≠ [] := by
    intro hnil
    have hall := List.dropWhile_eq_nil_iff.1 hnil
    have hlast := hall _ (List.getLast_mem hscope.1)
    have hends : endsWithSlash scope = true := by
      rw [endsWithSlash, List.getLast?_eq_some_getLast hscope.1]
      exact decide_eq_true (congrArg some (of_decide_eq_true hlast))
    exact absurd (hscope.2.symm.trans hends) (by decide)
  have hrelative : relativePath (scope ++ [47]) = relativePath scope ++ [47] := by
    have hfalse : (scope.dropWhile fun c : Byte => decide (c = 47)).isEmpty = false :=
      List.isEmpty_eq_false_iff.2 hshown
    rw [relativePath, List.dropWhile_append, hfalse, if_neg Bool.false_ne_true]
    rfl
  have habs := isAbsolute_relativePath scope
  have habs' := isAbsolute_relativePath (scope ++ [47])
  rw [hrelative] at habs' ⊢
  rw [scopeRoot, join, join, habs, habs', if_neg Bool.false_ne_true, if_neg Bool.false_ne_true]
  split
  · exact ⟨(List.append_assoc ..).symm, List.append_ne_nil_of_right_ne_nil _ hshown⟩
  · exact ⟨by rw [List.append_assoc]; rfl, List.append_ne_nil_of_right_ne_nil _ (List.cons_ne_nil _ _)⟩

lemma hasPermission_entry (before after : List Str) (entry : Str)
    (hu : u.permissions_ = before ++ entry :: after) :
    u.hasPermission fs operation path =
      ((before ++ after).any (FTPUser.entryAllows fs u.home_directory_ operation path) ||
      FTPUser.entryAllows fs u.home_directory_ operation path entry) := by
  have hne : u.permissions_ ≠ [] := by
    rw [hu]
    exact List.append_ne_nil_of_right_ne_nil _ (List.cons_ne_nil _ _)
  rw [FTPUser.hasPermission, if_neg hne, hu, List.any_append, List.any_append, List.any_cons]
  cases before.any (FTPUser.entryAllows fs u.home_directory_ operation path) <;>
    cases FTPUser.entryAllows fs u.home_directory_ operation path entry <;> simp

lemma home_ignored (h : fs.LinkFree) (hforms : isAbsolute u.home_directory_ = true ∨ fs.Answers)
    (hd : Slashless u.home_directory_) :
    let u' := { u with home_directory_ := u.home_directory_ ++ [47] }
    (u'.hasPermission fs operation path = u.hasPermission fs operation path ∧
      ({ s with current_user_ := some u' } : Session).isPathWithinHome fs path =
        ({ s with current_user_ := some u } : Session).isPathWithinHome fs path) ↔
      ¬Parts fs u.home_directory_ path := by
  have hpermission : ({ u with home_directory_ := u.home_directory_ ++ [47] } :
    FTPUser).hasPermission fs operation path =
      u.hasPermission fs operation path := by
    have hentries : FTPUser.entryAllows fs (u.home_directory_ ++ [47]) operation path = FTPUser.entryAllows fs
        u.home_directory_ operation path :=
      funext fun entry => entryAllows_home hd entry
    rw [FTPUser.hasPermission, FTPUser.hasPermission, hentries]
  dsimp only
  rw [and_iff_right hpermission]
  exact isWithin_slash h hforms hd.1 path

lemma scope_ignored (h : fs.LinkFree) (hforms : isAbsolute u.home_directory_ = true ∨ fs.Answers)
    {before after : List Str} {allowed : Str}
    (hallowed : 58 ∉ allowed) (hscope : Slashless scope)
    (hu : u.permissions_ = before ++ (allowed ++ 58 :: scope) :: after) :
    ({ u with permissions_ := before ++ (allowed ++ 58 :: (scope ++ [47])) :: after } :
      FTPUser).hasPermission fs operation path =
      u.hasPermission fs operation path ↔ ¬Decides fs u operation path before after allowed scope := by
  obtain ⟨hslash, hroot⟩ := scopeRoot_slash u hscope
  have hroots : isAbsolute (scopeRoot u scope) = true ∨ fs.Answers := hforms.imp_left fun habs =>
    isAbsolute_join habs _
  have hwithin := isWithin_slash h hroots hroot path
  rw [← hslash] at hwithin
  have hscopes : scope ≠ [] ∧ scope ≠ "/" := ⟨hscope.1, fun he => by
    have hends := hscope.2
    rw [he] at hends
    cases hends⟩
  have hslashed : scope ++ [47] ≠ [] ∧ scope ++ [47] ≠ ascii "/" := by
    refine ⟨by simp, fun he => hscope.1 ?_⟩
    have hempty : ascii "/" = [] ++ [47] := rfl
    exact List.append_left_injective [47] (he.trans hempty)
  have hentry := entryAllows_iff fs u.home_directory_ operation path hallowed hscopes
  have hentry' := entryAllows_iff fs u.home_directory_ operation path hallowed hslashed
  rw [hasPermission_entry before after _ hu, hasPermission_entry before after _ rfl]
  dsimp only
  have hdecides : Decides fs u operation path before after allowed scope ↔
    ((allowed = operation ∨ allowed = "all") ∧ path ≠ []) ∧
      (before ++ after).any (FTPUser.entryAllows fs u.home_directory_ operation path) = false ∧
        Parts fs (scopeRoot u scope) path := by
    rw [List.any_eq_false]
    constructor
    · exact fun hd =>
        ⟨⟨hd.applies, hd.named⟩, fun entry hentry => Bool.eq_false_iff.1 (hd.alone entry hentry), hd.parts⟩
    · exact fun hd => ⟨hd.1.1, hd.1.2, fun entry hentry => Bool.eq_false_iff.2 (hd.2.1 entry hentry), hd.2.2⟩
  rw [hdecides, Bool.eq_iff_iff, Bool.or_eq_true, Bool.or_eq_true, hentry, hentry']
  by_cases hgranted : (before ++ after).any (FTPUser.entryAllows fs u.home_directory_ operation path) = true
  · simp [hgranted]
  · by_cases happlies : (allowed = operation ∨ allowed = "all") ∧ path ≠ []
    · rw [Bool.eq_iff_iff] at hwithin
      simpa [hgranted, happlies, scopeRoot] using hwithin
    · have hnot (b : Prop) : ¬((allowed = operation ∨ allowed = "all") ∧ path ≠ [] ∧ b) :=
        fun hb => happlies ⟨hb.1, hb.2.1⟩
      simp only [hnot, or_false, iff_self, true_iff]
      exact fun hb => happlies hb.1

theorem trailing_slashes_are_ignored (fs : FileSystem) (h : fs.LinkFree) (s : Session) (u : FTPUser)
    (hforms : isAbsolute u.home_directory_ = true ∨ fs.Answers) (operation path : Str) :
    (IgnoresSlashes fs s u operation path ↔ (Slashless u.home_directory_ → ¬Parts fs u.home_directory_ path) ∧
      ∀ before allowed scope after, 58 ∉ allowed → Slashless scope →
        u.permissions_ = before ++ (allowed ++ 58 :: scope) :: after →
        ¬Decides fs u operation path before after allowed scope) ∧
    (fs.Answers → ∀ p, isAbsolute p = true → (Plain (normalizeForComparison fs p) ↔
      (∃ l, fs.locate p = .ok l) ∨ keepsSlash p = false ∨ leads p = [])) := by
  refine ⟨⟨fun hsame => ⟨fun hd => ?_, fun before allowed scope after hallowed hscope hu => ?_⟩,
    fun hnot => ⟨fun hd => ?_, ?_⟩⟩, fun hfs p hp => normalizeForComparison_plain_iff h hfs hp⟩
  · exact (home_ignored h hforms hd).1 (hsame.home hd)
  · exact (scope_ignored h hforms hallowed hscope hu).1 (hsame.scope _ _ _ _ hallowed hscope hu)
  · exact (home_ignored h hforms hd).2 (hnot.1 hd)
  · intro before allowed scope after hallowed hscope hu
    exact (scope_ignored h hforms hallowed hscope hu).2 (hnot.2 _ _ _ _ hallowed hscope hu)

def uploadsTree : FileSystem :=
  ⟨[(["home"], .directory), (["home", "testuser"], .directory)], [], fun _ _ _ => none, []⟩

def uploadsUser (home : Str) (permissions : List Str) : FTPUser :=
  ⟨"testuser", "p", home, permissions, [], false, 0, 0⟩

def uploadsSession (home : Str) (permissions : List Str) : Session :=
  { socket_ := some 3, current_user_ := some (uploadsUser home permissions) }

lemma uploadsTree_linkFree : uploadsTree.LinkFree := FileSystem.linkFree_of_nodes (by simp [uploadsTree])

instance (p : Str) : Decidable (Plain p) := inferInstanceAs (Decidable (endsWithSlash p = true → names p = []))

def storedTree : FileSystem :=
  { uploadsTree with nodes := (["home", "testuser", "uploads"], .directory) :: uploadsTree.nodes }

theorem trailing_slashes_are_ignored_existing :
    IgnoresSlashes storedTree (uploadsSession "/" ["write:/uploads"])
      (uploadsUser "/home/testuser" ["write:/uploads"]) "write"
      "/home/testuser/uploads/report.csv" := by
  have htree : storedTree.LinkFree := FileSystem.linkFree_of_nodes (by simp [storedTree, uploadsTree])
  apply (trailing_slashes_are_ignored storedTree htree (uploadsSession "/" ["write:/uploads"])
    (uploadsUser "/home/testuser" ["write:/uploads"]) (.inl rfl) "write" "/home/testuser/uploads/report.csv").1.2
  constructor
  · exact fun _ hparts => hparts.1 (by decide +kernel)
  · intro before allowed scope after _ _ hu hdecides
    have hentry : allowed ++ 58 :: scope ∈ [ascii "write:/uploads"] := by
      change [ascii "write:/uploads"] = before ++ (allowed ++ 58 :: scope) :: after at hu
      rw [hu]
      exact List.mem_append_right before List.mem_cons_self
    have hsplit : (ascii "write") ++ 58 :: (ascii "/uploads") = allowed ++ 58 :: scope :=
      (List.mem_singleton.1 hentry).symm
    obtain ⟨rfl, _, rfl⟩ := (List.append_cons_inj_of_notMem (by decide) (by decide)).1 hsplit
    exact hdecides.parts.1 (by decide +kernel)

theorem trailing_slashes_are_not_ignored :
    (uploadsUser "/home/testuser" ["write:/uploads"]).hasPermission uploadsTree "write"
    "/home/testuser/uploads/report.csv" = true ∧
    (uploadsUser "/home/testuser" ["write:/uploads/"]).hasPermission uploadsTree "write"
      "/home/testuser/uploads/report.csv" = false ∧
    (uploadsSession "/home/new" []).isPathWithinHome uploadsTree "/home/new/report.csv" = true ∧
    (uploadsSession "/home/new/" []).isPathWithinHome uploadsTree "/home/new/report.csv" = false ∧
      uploadsTree.LinkFree :=
  ⟨by decide +kernel, by decide +kernel, by decide +kernel, by decide +kernel, uploadsTree_linkFree⟩

end SimpleSftpd
