import SimpleSftpd.Core.Login
import SimpleSftpd.Core.PathForms

namespace SimpleSftpd

open Cxx Path Interaction Prog

namespace Cxx.Path

variable {a b r d : Str}

lemma pieces_merge (a b : Str) :
    ∃ front x y rest, pieces a = front ++ [x] ∧ pieces b = y :: rest ∧
    pieces (a ++ b) = front ++ (x ++ y) :: rest := by
  obtain ⟨y, rest, hb⟩ := List.exists_cons_of_ne_nil (pieces_ne_nil b)
  induction a with
  | nil => exact ⟨[], [], y, rest, rfl, hb, hb⟩
  | cons c a ih =>
    obtain ⟨front, x, y', rest', ha, hb', hboth⟩ := ih
    obtain ⟨rfl, rfl⟩ := List.cons.inj (hb.symm.trans hb')
    by_cases hc : c = 47
    · subst hc
      refine ⟨[] :: front, x, y, rest, ?_, hb, ?_⟩
      · rw [pieces_slash, ha]
        rfl
      · rw [List.cons_append, pieces_slash, hboth]
        rfl
    · cases front with
      | nil =>
        refine ⟨[], c :: x, y, rest, ?_, hb, ?_⟩
        · rw [pieces_cons hc, ha]
          rfl
        · rw [List.cons_append, pieces_cons hc, hboth]
          rfl
      | cons z front =>
        refine ⟨(c :: z) :: front, x, y, rest, ?_, hb, ?_⟩
        · rw [pieces_cons hc, ha]
          rfl
        · rw [List.cons_append, pieces_cons hc, hboth]
          rfl

lemma names_not_prefix (hne : a ≠ []) (ha : endsWithSlash a = false) (hb : b ≠ [])
    (hhead : isAbsolute b = false) : ¬names a <+: names (a ++ b) := by
  obtain ⟨front, x, y, rest, hpa, hpb, hboth⟩ := pieces_merge a b
  have hx : x ≠ [] := by
    rintro rfl
    have hends := (pieces_getLast hne).1 (by rw [hpa, List.getLast?_concat])
    exact absurd (ha.symm.trans hends) (by decide)
  have hy : y ≠ [] := by
    obtain ⟨c, cs, hcons, hc, _⟩ := FileSystem.pieces_relative hhead hb
    obtain ⟨rfl, _⟩ := List.cons.inj (hcons.symm.trans hpb)
    exact hc
  intro h
  have hxy : x ++ y ≠ [] := List.append_ne_nil_of_left_ne_nil hx y
  have hnames : names a = front.filter (· ≠ []) ++ [x] := by
    rw [names, hpa, List.filter_append]
    simp [hx]
  have hnames' : names (a ++ b) = front.filter (· ≠ []) ++ (x ++ y) :: rest.filter (· ≠ []) := by
    have hkept : ((x ++ y) :: rest).filter (· ≠ []) = (x ++ y) :: rest.filter (· ≠ []) :=
      List.filter_cons_of_pos (decide_eq_true hxy)
    rw [names, hboth, List.filter_append, hkept]
  rw [hnames, hnames', List.prefix_append_right_inj] at h
  have hsame : x = x ++ y := (List.cons_prefix_cons.1 h).1
  exact hy (List.self_eq_append_right.1 hsame)

lemma names_beyond (b : Str) (ha : endsWithSlash a = true) : names (a ++ b) = names a ++ names b := by
  obtain ⟨front, rfl⟩ := List.getLast?_eq_some_iff.1 (of_decide_eq_true ha)
  rw [List.append_assoc, List.singleton_append, names_append, names_append_slash]

end Cxx.Path

/-- What a directory inside a new root directory `r` has to be for the directory `d` outside. -/
structure Confines (r d d' : Str) : Prop where
  absolute : isAbsolute d' = true
  below : names r <+: names d → names (join r (relativePath d')) = names d
  elsewhere : ¬names r <+: names d → d' = "/"

/-- The text of the directory goes on behind the root's at the end of a name, or does not begin with it; in
that case it is not below the root in another spelling. -/
def SplitsAtName (r d : Str) : Prop :=
  if r.isPrefixOf d = true then endsWithSlash r = true ∨ d = r ∨ isAbsolute (d.drop r.length) = true
  else names r <+: names d → names r = names d

variable {r d : Str}

instance : Decidable (SplitsAtName r d) := inferInstanceAs (Decidable (if r.isPrefixOf d = true then
  endsWithSlash r = true ∨ d = r ∨ isAbsolute (d.drop r.length) = true else names r <+: names d →
    names r = names d))

lemma names_below (r d' : Str) : names (join r (relativePath d')) = names r ++ names d' := by
  rw [names_join (isAbsolute_relativePath d'), names_relativePath]

lemma confines_rest {rest d' : Str} (hd' : isAbsolute d' = true) (hnames : names d' = names rest)
    (hsplit : names (r ++ rest) = names r ++ names rest) :
    Confines r (r ++ rest) d' := by
  refine ⟨hd', fun _ => ?_, fun h => absurd ?_ h⟩
  · rw [names_below, hnames, hsplit]
  · rw [hsplit]
    exact List.prefix_append _ _

lemma chrootRelative_confines (hr : isAbsolute r = true) :
    Confines r d (Session.chrootRelative r d) ↔ SplitsAtName r d := by
  rw [SplitsAtName, Session.chrootRelative]
  by_cases hprefix : r.isPrefixOf d = true
  · obtain ⟨rest, rfl⟩ := List.isPrefixOf_iff_prefix.1 hprefix
    rw [if_pos hprefix, if_pos hprefix, List.drop_left]
    dsimp only
    by_cases hrest : isAbsolute rest = true
    · have hhead : rest.head? = some 47 := of_decide_eq_true hrest
      obtain ⟨more, rfl⟩ := List.head?_eq_some_iff.1 hhead
      rw [if_pos hhead]
      exact iff_of_true (confines_rest hrest rfl (by rw [names_append, names_slash])) (.inr (.inr hrest))
    · have hhead : rest.head? ≠ some 47 := fun h => hrest (decide_eq_true h)
      rw [if_neg hhead]
      by_cases hends : endsWithSlash r = true
      · exact iff_of_true (confines_rest rfl (names_slash rest) (names_beyond rest hends)) (.inl hends)
      · by_cases hnil : rest = []
        · subst hnil
          exact iff_of_true (confines_rest rfl rfl (by simp)) (.inr (.inl (List.append_nil r)))
        · have hne : r ≠ [] := fun h => by simp [h, isAbsolute] at hr
          have hnot := names_not_prefix hne (Bool.eq_false_iff.2 hends) hnil (Bool.eq_false_iff.2 hrest)
          refine iff_of_false (fun h => hnil (List.cons.inj (h.elsewhere hnot)).2) ?_
          simp [hends, hnil, hrest]
  · rw [if_neg hprefix, if_neg hprefix]
    have hroot : names (join r (relativePath "/")) = names r := by
      rw [names_below]
      exact List.append_nil _
    constructor
    · exact fun h hbelow => hroot.symm.trans (h.below hbelow)
    · exact fun h => ⟨rfl, fun hbelow => hroot.trans (h hbelow), fun _ => rfl⟩

theorem applyChroot_confines {W : Type 1} (M : Machine Call W) (w : W) (env : Service) (dir : Str)
    (found : FileType)
    (henabled : env.config_.security.chroot_enabled = true)
    (hr : isAbsolute env.config_.security.chroot_directory = true)
    (hstatus : (M w (.status env.config_.security.chroot_directory)).1 = .ok found) (hfound : found ≠ .notFound)
    (hchroot : (M (M w (.status env.config_.security.chroot_directory)).2
      (.chroot env.config_.security.chroot_directory)).1 = true) :
    ∃ dir' w', (Session.applyChroot env dir).exec M w = (.ok dir', w') ∧
      (Confines env.config_.security.chroot_directory dir dir' ↔
        SplitsAtName env.config_.security.chroot_directory dir) := by
  refine ⟨Session.chrootRelative env.config_.security.chroot_directory dir,
    (M (M w (.status env.config_.security.chroot_directory)).2
      (.chroot env.config_.security.chroot_directory)).2, ?_, chrootRelative_confines hr⟩
  have hend (confined : Bool) (hconfined : confined = true) (v : W) :
      (pure (if confined then Session.chrootRelative env.config_.security.chroot_directory dir else dir) :
        Io Str).exec M v =
        (.ok (Session.chrootRelative env.config_.security.chroot_directory dir), v) := by
    rw [hconfined]
    rfl
  have hne : env.config_.security.chroot_directory ≠ [] := fun hnil => by simp [hnil, isAbsolute] at hr
  rw [Session.applyChroot, if_pos ⟨henabled, hne⟩, exec_perform_bind, hstatus]
  change (if found = .notFound then pure dir else _ : Io Str).exec M _ = _
  rw [if_neg hfound, exec_perform_bind]
  exact hend _ hchroot _

namespace Confined

def service : Service :=
  let env : Service := .standard [] []
  { env with config_ :=
    { env.config_ with security := { env.config_.security with chroot_enabled := true, chroot_directory :=
    "/srv/ftp" } } }

def world : World :=
  .favourable ⟨[(["srv"], .directory), (["srv", "ftp"], .directory), (["srv", "ftp2"], .directory)], [],
  fun _ _ _ => none, []⟩

end Confined

theorem applyChroot_confines_below :
    ∃ dir' w', (Session.applyChroot Confined.service "/srv/ftp/alice").exec (World.machine 0) Confined.world =
    (.ok dir', w') ∧
    Confines "/srv/ftp" "/srv/ftp/alice" dir' := by
  obtain ⟨dir', w', hexec, hiff⟩ :=
    applyChroot_confines (World.machine 0) Confined.world Confined.service "/srv/ftp/alice" .directory rfl rfl
    (by decide +kernel) (by decide) (by decide +kernel)
  exact ⟨dir', w', hexec, hiff.2 (by decide +kernel)⟩

theorem applyChroot_does_not_confine :
    ((Session.applyChroot Confined.service "/srv/ftp2").exec (World.machine 0) Confined.world).1 = .ok
      (ascii "/2") ∧
    ¬Confines "/srv/ftp" "/srv/ftp2" "/2" ∧
    ((Session.applyChroot Confined.service "/srv//ftp/alice").exec (World.machine 0) Confined.world).1 =
      .ok (ascii "/") ∧
    ¬Confines "/srv/ftp" "/srv//ftp/alice" "/" := by
  refine ⟨by decide +kernel, fun h => ?_, by decide +kernel, fun h => ?_⟩
  · exact absurd (h.elsewhere (by decide +kernel)) (by decide)
  · exact absurd (h.below (by decide +kernel)) (by decide +kernel)

end SimpleSftpd
