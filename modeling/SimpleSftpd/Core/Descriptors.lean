import SimpleSftpd.Core.Access

namespace SimpleSftpd

open Cxx

namespace World

variable {w : World} {fd n : Fd} {d : Descriptor} {l : Location} {pos : Int} {me : SessionId} {β : Type}

lemma le_foldl_max (ns : List Fd) (start : Fd) :
    start ≤ ns.foldl max start ∧ ∀ n ∈ ns, n ≤ ns.foldl max start := by
  induction ns generalizing start with
  | nil => simp
  | cons m ns ih =>
    obtain ⟨hstart, hall⟩ := ih (max start m)
    refine ⟨(Nat.le_max_left _ _).trans hstart, fun n hn => ?_⟩
    rcases List.mem_cons.1 hn with rfl | hn
    · exact (Nat.le_max_right _ _).trans hstart
    · exact hall n hn

lemma lookup_freshFd (w : World) (n : Fd) : w.fds.lookup (w.freshFd n) = none := by
  unfold freshFd
  split
  · rw [List.lookup_eq_none_iff]
    intro e he
    have hle := (le_foldl_max (w.fds.map Prod.fst) 0).2 e.1 (List.mem_map_of_mem he)
    exact bne_iff_ne.2 (Nat.ne_of_gt (Nat.lt_succ_of_le hle))
  · rename_i h
    exact Option.not_isSome_iff_eq_none.1 h

lemma lookup_openFd (h : w.fds.lookup fd = some d) (d' : Descriptor) :
    (w.openFd n d').fds.lookup fd = some d := by
  have hne : (fd == w.freshFd n) = false := by
    refine beq_eq_false_iff_ne.2 fun he => ?_
    rw [he, lookup_freshFd] at h
    cases h
  simp [openFd, List.lookup_cons, hne, h]

lemma lookup_closeFd (hn : n ≠ fd) : (w.closeFd n).fds.lookup fd = w.fds.lookup fd := by
  unfold closeFd
  induction w.fds with
  | nil => rfl
  | cons e es ih =>
    obtain ⟨k, v⟩ := e
    by_cases hk : k = n
    · have hfd : (fd == k) = false := beq_eq_false_iff_ne.2 fun h => hn (h.trans hk).symm
      rw [List.filter_cons_of_neg (by simpa using hk), ih, List.lookup_cons, hfd]
    · rw [List.filter_cons_of_pos (by simpa using hk), List.lookup_cons, List.lookup_cons, ih]

lemma fileAt_iff : w.fileAt fd = some (l, pos) ↔ ∃ me, w.fds.lookup fd = some ⟨me, .file l pos⟩ := by
  unfold fileAt
  split
  · rename_i me k at_ h
    simp [h]
  · rename_i h
    constructor
    · intro he
      cases he
    · rintro ⟨me, hl⟩
      exact absurd hl (h me l pos)

lemma lookup_seek (m : Fd) (p : Int) : (w.seek m p).fds.lookup fd =
    (w.fds.lookup fd).map fun d => if fd = m then match d.what with
      | .file l _ => { d with what := .file l p }
      | .socket => d
    else d := by
  unfold seek
  induction w.fds with
  | nil => rfl
  | cons e es ih =>
    obtain ⟨k, v⟩ := e
    by_cases hk : k = m
    · by_cases hf : fd = k
      · subst hf
        subst hk
        rcases v with ⟨owner, _ | _⟩ <;> simp
      · have hfd : (fd == k) = false := beq_eq_false_iff_ne.2 hf
        simp only [List.map_cons, hk, ↓reduceIte, List.lookup_cons] at ih ⊢
        rw [← hk, hfd]
        simpa [hk] using ih
    · by_cases hf : fd = k
      · subst hf
        simp [hk]
      · have hfd : (fd == k) = false := beq_eq_false_iff_ne.2 hf
        simpa [hk, List.lookup_cons, hfd] using ih

lemma answer_fileAt (c : Call β) (hopen : ∃ pos, w.fileAt fd = some (l, pos))
    (hc : c.kind ∈ Kind.write :: Kind.openRead :: Kind.query :: quietKinds) :
    ∃ pos, (answer me w c).2.fileAt fd = some (l, pos) := by
  obtain ⟨pos, hopen⟩ := hopen
  obtain ⟨owner, hfd⟩ := fileAt_iff.1 hopen
  have hsame {w' : World} (h : w'.fds = w.fds) : ∃ pos, w'.fileAt fd = some (l, pos) :=
    ⟨pos, fileAt_iff.2 ⟨owner, by rw [h, hfd]⟩⟩
  have hopened {w' : World} {n : Fd} {d : Descriptor} (h : w'.fds = (w.openFd n d).fds) :
      ∃ pos, w'.fileAt fd = some (l, pos) :=
    ⟨pos, fileAt_iff.2 ⟨owner, by rw [h]; exact lookup_openFd hfd d⟩⟩
  have hsought {w' : World} {m : Fd} {p : Int} (h : w'.fds = (w.seek m p).fds) :
      ∃ pos, w'.fileAt fd = some (l, pos) := by
    by_cases hm : fd = m
    · exact ⟨p, fileAt_iff.2 ⟨owner, by rw [h, lookup_seek, hfd]; simp [hm]⟩⟩
    · exact ⟨pos, fileAt_iff.2 ⟨owner, by rw [h, lookup_seek, hfd]; simp [hm]⟩⟩
  cases c with
  | close | createDirectory | createDirectories | remove | rename | permissions | openWrite | chroot =>
    simp [Call.kind, quietKinds] at hc
  | socket =>
    simp only [answer, openSocket]
    split
    · exact hopened rfl
    · exact hsame rfl
  | openRead =>
    simp only [answer, openPath]
    split
    · exact hopened rfl
    · exact hsame rfl
  | accept =>
    simp only [answer, openSocket]
    split
    · exact hopened rfl
    · exact hsame rfl
  | lseek =>
    simp only [answer]
    split
    · exact hsought rfl
    · exact hsame rfl
  | read =>
    simp only [answer]
    split
    · exact hsought rfl
    · exact hsame rfl
  | sendfile | mmap | write | appendTo =>
    simp only [answer]
    split <;> exact hsame rfl
  | _ => exact hsame rfl

lemma answer_fs (c : Call β) (hc : c.kind ∉ [Kind.change, Kind.write, Kind.chroot]) :
    (answer me w c).2.fs = w.fs := by
  cases c with
  | createDirectory | createDirectories | remove | rename | permissions | openWrite | chroot | write | appendTo =>
    simp [Call.kind] at hc
  | socket | openRead =>
    simp only [answer, openSocket, openPath]
    split <;> rfl
  | accept =>
    simp only [answer, openSocket]
    split <;> rfl
  | lseek | read | sendfile | mmap =>
    simp only [answer]
    split <;> rfl
  | _ => rfl

end World

end SimpleSftpd
