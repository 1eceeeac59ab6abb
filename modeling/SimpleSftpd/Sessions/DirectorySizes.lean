import Mathlib.Algebra.Order.BigOperators.Group.List
import Mathlib.Algebra.Order.Group.Nat
import SimpleSftpd.Core.Transfer
import SimpleSftpd.Core.World
import SimpleSftpd.Cxx.Normal

namespace SimpleSftpd

open Cxx

def added : Except Errc ℕ → ℕ
  | .ok n => n
  | .error _ => 2 ^ 64 - 1

def answered : Except Errc ℕ → ℕ
  | .ok n => n
  | .error _ => 0

def fails : Except Errc ℕ → Bool
  | .ok _ => false
  | .error _ => true

lemma foldl_added (sizes : List (Except Errc ℕ)) (total : ℕ) :
    sizes.foldl (fun total size => (total + added size) % 2 ^ 64) (total % 2 ^ 64) =
      (total + (sizes.map added).sum) % 2 ^ 64 := by
  induction sizes generalizing total with
  | nil => rfl
  | cons size sizes ih =>
    rw [List.foldl_cons, Nat.mod_add_mod, ih, List.map_cons, List.sum_cons, Nat.add_assoc]

lemma directorySize_eq (sizes : List (Except Errc ℕ)) :
    Session.directorySize sizes = (sizes.map added).sum % 2 ^ 64 := by
  have hsum := foldl_added sizes 0
  rw [Nat.zero_add] at hsum
  exact hsum

lemma sum_added (sizes : List (Except Errc ℕ)) :
    (sizes.map added).sum + sizes.countP fails = (sizes.map answered).sum + 2 ^ 64 * sizes.countP fails := by
  induction sizes with
  | nil => rfl
  | cons size sizes ih =>
    cases size with
    | ok n =>
      simp only [List.map_cons, List.sum_cons, List.countP_cons, added, answered, fails,
        Bool.false_eq_true, if_false]
      omega
    | error e =>
      simp only [List.map_cons, List.sum_cons, List.countP_cons, added, answered, fails, if_true]
      omega

namespace Cxx.FileSystem

variable (fs : FileSystem)

def filesBelow : ℕ → Location → Str → List (Except Errc ℕ)
  | 0, _, _ => []
  | depth + 1, l, p => (fs.children l).flatMap fun c => match fs.node (l ++ [c]) with
    | some .directory => filesBelow depth (l ++ [c]) (Path.join p c)
    | some (.regular _) => [fs.fileSize (Path.join p c)]
    | _ => []

section Totals

variable (p : Str)

def answeredBelow : ℕ := match fs.locate p with
  | .error _ => 0
  | .ok l => if fs.node l = some .directory then ((fs.filesBelow (fs.nodes.length + 1) l p).map
    answered).sum else 0

def foundBelow (isLink : Bool) : ℕ :=
  (((fs.regularEntries p).filter (·.isLink = isLink)).map fun e => answered e.size).sum

def missedBelow : ℕ := fs.answeredBelow p - fs.foundBelow p false

def failuresBelow : ℕ := (fs.regularFilesBelow p).countP fails

end Totals

lemma visitAll_sublist {visit : Str → List SizedEntry × Bool} {files : Str → List (Except Errc ℕ)}
    (h : ∀ c, List.Sublist (((visit c).1.filter (·.isLink = false)).map SizedEntry.size) (files c))
    (cs : List Str) :
    List.Sublist (((visitAll visit cs).1.filter (·.isLink = false)).map SizedEntry.size) (cs.flatMap files) := by
  induction cs with
  | nil => exact List.Sublist.refl _
  | cons c cs ih =>
    have hc := h c
    unfold visitAll
    rw [List.flatMap_cons]
    split
    · rename_i found hfound
      rw [hfound] at hc
      exact hc.trans (List.sublist_append_left _ _)
    · rename_i found hfound
      rw [hfound] at hc
      rw [List.filter_append, List.map_append]
      exact hc.append ih

lemma sizedEntries_sublist (depth : ℕ) (l : Location) (p : Str) :
    List.Sublist (((fs.sizedEntries depth l p).1.filter (·.isLink = false)).map SizedEntry.size)
      (fs.filesBelow depth l p) := by
  induction depth generalizing l p with
  | zero => exact List.Sublist.refl _
  | succ depth ih =>
    unfold sizedEntries filesBelow
    split
    · exact List.nil_sublist _
    · exact List.nil_sublist _
    · apply visitAll_sublist
      intro c
      cases hnode : fs.node (l ++ [c]) with
      | none => exact List.nil_sublist _
      | some n =>
        cases n with
        | directory => exact ih _ _
        | regular b => exact List.Sublist.refl _
        | other => exact List.nil_sublist _
        | symlink target =>
          dsimp only
          split <;> exact List.nil_sublist _

variable (p : Str)

lemma foundBelow_le : fs.foundBelow p false ≤ fs.answeredBelow p := by
  unfold foundBelow regularEntries answeredBelow
  cases fs.locate p with
  | error e => exact le_rfl
  | ok l =>
    dsimp only
    split
    · have hsublist := (fs.sizedEntries_sublist (fs.nodes.length + 1) l p).map answered
      rw [List.map_map] at hsublist
      exact hsublist.sum_le_sum (fun _ _ => Nat.zero_le _)
    · exact le_rfl

lemma visitAll_plain {visit : Str → List SizedEntry × Bool} {files : Str → List (Except Errc ℕ)}
    (h : ∀ c, visit c = ((files c).map (SizedEntry.mk false), false)) (cs : List Str) :
    visitAll visit cs = ((cs.flatMap files).map (SizedEntry.mk false), false) := by
  induction cs with
  | nil => rfl
  | cons c cs ih => rw [visitAll, h c, ih, List.flatMap_cons, List.map_append]

lemma sizedEntries_plain (hfs : fs.LinkFree) (hread : ∀ q, fs.deny .readDirectory q = none) (depth : ℕ)
    (l : Location) (p : Str) :
    fs.sizedEntries depth l p = ((fs.filesBelow depth l p).map (SizedEntry.mk false), false) := by
  induction depth generalizing l p with
  | zero => rfl
  | succ depth ih =>
    unfold sizedEntries filesBelow
    rw [hread]
    apply visitAll_plain
    intro c
    cases hnode : fs.node (l ++ [c]) with
    | none => rfl
    | some n =>
      cases n with
      | directory => exact ih _ _
      | regular b => rfl
      | other => rfl
      | symlink target => exact absurd hnode (hfs _ _)

lemma found_of_plain (hfs : fs.LinkFree) (hread : ∀ q, fs.deny .readDirectory q = none) :
    fs.foundBelow p true = 0 ∧ fs.missedBelow p = 0 := by
  unfold missedBelow foundBelow regularEntries answeredBelow
  cases fs.locate p with
  | error e => exact ⟨rfl, rfl⟩
  | ok l =>
    dsimp only
    split
    · rw [sizedEntries_plain fs hfs hread]
      have hnone (files : List (Except Errc ℕ)) :
          (files.map (SizedEntry.mk false)).filter (·.isLink = true) = [] := by
        induction files <;> simp_all
      have hall (files : List (Except Errc ℕ)) :
          (files.map (SizedEntry.mk false)).filter (·.isLink = false) = files.map (SizedEntry.mk false) := by
        induction files <;> simp_all
      rw [hnone, hall, List.map_map]
      exact ⟨rfl, Nat.sub_self _⟩
    · exact ⟨rfl, rfl⟩

lemma answered_regularFilesBelow :
    ((fs.regularFilesBelow p).map answered).sum = fs.foundBelow p false + fs.foundBelow p true := by
  unfold regularFilesBelow foundBelow
  induction fs.regularEntries p with
  | nil => rfl
  | cons e es ih =>
    obtain ⟨isLink, size⟩ := e
    cases isLink with
    | false =>
      simp only [List.map_cons, List.sum_cons, List.filter_cons] at ih ⊢
      simp only [decide_true, if_true, List.map_cons, List.sum_cons, ih, Bool.false_eq_true,
        decide_false, if_false]
      omega
    | true =>
      simp only [List.map_cons, List.sum_cons, List.filter_cons] at ih ⊢
      simp only [decide_true, if_true, List.map_cons, List.sum_cons, ih, Bool.true_eq_false, decide_false,
        Bool.false_eq_true, if_false]
      omega

lemma directorySize_below : (Session.directorySize (fs.regularFilesBelow p) + fs.failuresBelow p) % 2 ^ 64 =
    (fs.foundBelow p false + fs.foundBelow p true) % 2 ^ 64 ∧
      Session.directorySize (fs.regularFilesBelow p) < 2 ^ 64 := by
  have hsum := sum_added (fs.regularFilesBelow p)
  rw [answered_regularFilesBelow] at hsum
  rw [directorySize_eq]
  unfold failuresBelow
  omega

end Cxx.FileSystem

namespace Session

variable {s : Session} {u : FTPUser} {w : World} {me : SessionId}

lemma quotaExceeded_exec (hu : s.current_user_ = some u) (hquota : 0 < s.storageQuota) :
    s.quotaExceeded.exec (World.machine me) w =
      (.ok (decide (s.storageQuota ≤ directorySize (w.fs.regularFilesBelow u.home_directory_))), w) := by
  rw [quotaExceeded, hu]
  dsimp only
  rw [if_pos hquota]
  rfl

end Session

/-- The total of a directory is that of the regular files below it whose sizes can be had, and the quota is
compared with it. -/
def CountsAnswered (fs : FileSystem) (p : Str) : Prop :=
  Session.directorySize (fs.regularFilesBelow p) = fs.answeredBelow p ∧
  ∀ (s : Session) (u : FTPUser) (w : World) (me : SessionId), s.current_user_ = some u →
    u.home_directory_ = p → w.fs = fs →
    0 < s.storageQuota →
      s.quotaExceeded.exec (World.machine me) w = (.ok (decide (s.storageQuota ≤ fs.answeredBelow p)), w)

theorem failed_sizes_are_left_out (fs : FileSystem) (p : Str) (hsum : fs.answeredBelow p < 2 ^ 64) :
    (CountsAnswered fs p ↔ fs.foundBelow p true % 2 ^ 64 = (fs.missedBelow p + fs.failuresBelow p) % 2 ^ 64) ∧
    (fs.LinkFree → (∀ q, fs.deny .readDirectory q = none) →
      (CountsAnswered fs p ↔ 2 ^ 64 ∣ fs.failuresBelow p)) := by
  have hcounts : CountsAnswered fs p ↔
      fs.foundBelow p true % 2 ^ 64 = (fs.missedBelow p + fs.failuresBelow p) % 2 ^ 64 := by
    obtain ⟨htotal, hrange⟩ := fs.directorySize_below p
    have hfound := fs.foundBelow_le p
    unfold FileSystem.missedBelow
    constructor
    · rintro ⟨hsize, _⟩
      omega
    · intro hbalance
      have hsize : Session.directorySize (fs.regularFilesBelow p) = fs.answeredBelow p := by omega
      refine ⟨hsize, ?_⟩
      rintro s u w me hu rfl rfl hquota
      rw [Session.quotaExceeded_exec hu hquota, hsize]
  refine ⟨hcounts, fun hfs hread => ?_⟩
  obtain ⟨hlinks, hmissed⟩ := fs.found_of_plain p hfs hread
  rw [hcounts, hlinks, hmissed]
  omega

def sizeTree : FileSystem where
  nodes := [(["d"], .directory), (["d", "a"], .regular "hello"), (["l"], .symlink "nowhere")]
  root := []
  refuses _ _ _ := none
  modes := []

theorem failed_sizes_are_left_out_none : CountsAnswered sizeTree "/" :=
  (failed_sizes_are_left_out sizeTree "/" (by decide +kernel)).1.2 (by decide +kernel)

def vanishing : FileSystem where
  nodes := [(["a"], .regular "hello"), (["b"], .regular "x")]
  root := []
  refuses _ call path := if call = .fileSize ∧ path = "/b" then some .enoent else none
  modes := []

theorem failed_sizes_are_not_left_out : ¬CountsAnswered vanishing "/" ∧
    Session.directorySize (vanishing.regularFilesBelow "/") = 4 ∧ vanishing.answeredBelow "/" = 5 ∧
    Session.directorySize [.error .enoent] = 2 ^ 64 - 1 := by
  have hsizes : Session.directorySize (vanishing.regularFilesBelow "/") = 4 ∧ vanishing.answeredBelow "/" = 5 := by
    decide +kernel
  refine ⟨fun h => ?_, hsizes.1, hsizes.2, by decide⟩
  exact absurd ((hsizes.1.symm.trans h.1).trans hsizes.2) (by decide)

example : Session.directorySize ((FileSystem.mk [(["a"], .regular "hello"), (["l"], .symlink "a")] []
    (fun _ _ _ => none) []).regularFilesBelow "/") = 10 ∧
  Session.directorySize ((FileSystem.mk [(["loop"], .symlink "loop"), (["a"], .regular "hello")] []
    (fun _ _ _ => none) []).regularFilesBelow "/") = 0 := by decide +kernel

end SimpleSftpd
