import SimpleSftpd.Core.Descriptors
import SimpleSftpd.Cxx.Numerals
import SimpleSftpd.Cxx.Resolution
import SimpleSftpd.Sessions.DanglingLinks
import SimpleSftpd.Sessions.Serving

namespace SimpleSftpd

open Cxx Path Interaction Prog

namespace Cxx.FileSystem

variable {fs : FileSystem} {n k : ℕ} {d l : Location} {a c p q : Str}

lemma locate_walked {m : Location} {ms : List Str} (h : fs.Walks k fs.root (pieces p) m ms) (hn : 40 = n + k)
    (hp : p ≠ []) :
    fs.locate p = fs.walk .object n m ms := by
  rw [locate, if_neg hp, hn, h.walk (by decide)]

lemma notFound_iff (hfs : fs.Answers) :
    fs.status p = .ok .notFound ↔ fs.locate p = .error .enoent ∨ fs.locate p = .error .enotdir := by
  rw [status, (hfs p).1]
  cases h : fs.locate p with
  | ok l =>
    obtain ⟨e, he, _⟩ := (locate_real h).node
    simp only [he, reduceCtorEq, or_self, iff_false]
    cases e <;> simp [typeOf]
  | error e => cases e <;> simp

lemma free_of_notFound (h : fs.status p = .ok .notFound) (hl : fs.place p = .ok l) : fs.node l = none := by
  obtain ⟨hp, k, hk, hwalks | ⟨d, c, _, hfree, rfl⟩⟩ := place_walks hl
  · rw [status, locate_of_walks hwalks hk hp] at h
    split at h
    · cases h
    · cases hn : fs.node l with
      | none => rfl
      | some e =>
        dsimp only at h
        rw [hn] at h
        cases e <;> simp [typeOf] at h
  · exact hfree.free

lemma openWrite_new (h : fs.status p = .ok .notFound) (hl : (fs.openWrite p .truncate).1 = .ok l) :
    fs.node l = none ∧ ∀ m, m ≠ l → (fs.openWrite p .truncate).2.node m = fs.node m := by
  rw [openWrite] at hl ⊢
  split at hl
  · cases hl
  · rename_i hdeny
    simp only [if_neg (show ¬OpenMode.truncate = .update by decide)] at hl ⊢
    cases hplace : fs.place p with
    | error e =>
      rw [hplace] at hl
      cases hl
    | ok m =>
      have hfree := free_of_notFound h hplace
      rw [hplace] at hl
      simp only [hfree, Except.ok.injEq] at hl ⊢
      subst hl
      have hm : m ≠ [] := fun hm => by simp [node, hm] at hfree
      exact ⟨hfree, fun m' hne => by rw [node_set hm, if_neg hne]⟩

lemma status_beside (hfs : fs.Answers) (hwalks : fs.Walks k fs.root (pieces p) d [c]) (hk : k ≤ 40) (hp : p ≠ [])
    (hd : fs.Real d) (hdir : fs.node d = some .directory) (hc : IsName c) (h : fs.status p = .ok .notFound) :
    fs.status (fs.render (d ++ [c])) = .ok .notFound := by
  obtain ⟨n, hn⟩ := Nat.exists_eq_add_of_le' hk
  have hrender : fs.locate (fs.render (d ++ [c])) = fs.walk .object 40 d [c] :=
    locate_walked (hd.walks (hd.root_directory hdir) hc (.refl d [c])) rfl (List.cons_ne_nil _ _)
  have hlonger (e : Errc) (he : e ≠ .eloop) (hlocate : fs.locate p = .error e) :
      fs.locate (fs.render (d ++ [c])) = .error e := by
    rw [locate_walked hwalks hn hp] at hlocate
    rw [hrender, hn]
    exact walk_mono (by simpa using he) n k d [c] hlocate
  rw [notFound_iff hfs] at h ⊢
  exact h.imp (hlonger _ (by decide)) (hlonger _ (by decide))

lemma resolved_free (hfs : fs.Answers) (ha : fs.locate a = .ok d) (hdir : fs.node d = some .directory)
    (hc : IsName c)
    (h : fs.status (a ++ 47 :: c) = .ok .notFound) :
    fs.status (normalizeForComparison fs (Path.join a c)) = .ok .notFound := by
  obtain ⟨hne, k, hk, hwalks⟩ := locate_walks ha
  obtain ⟨n, hn⟩ := Nat.exists_eq_add_of_le' hk
  have hroot := hwalks.directory (.inl (pieces_ne_nil a).symm)
  have hd := locate_real ha
  have hrelative : isAbsolute c = false := decide_eq_false fun he => hc.slash (List.mem_of_head? he)
  have hdirect : fs.Walks k fs.root (pieces (a ++ 47 :: c)) d [c] := by
    rw [pieces_append, pieces_no_slash hc.slash]
    exact hwalks.append [c]
  have hprobed : fs.locate (a ++ 47 :: c) = fs.walk .object n d [c] := locate_walked hdirect hn (by simp)
  have hsame {q : Str} (hq : fs.Walks k fs.root (pieces q) d [c]) (hne : q ≠ []) :
      fs.status q = .ok .notFound := by
    rw [notFound_iff hfs, locate_walked hq hn hne, ← hprobed, ← notFound_iff hfs]
    exact h
  have hjoined := hwalks.join hrelative
  rw [pieces_no_slash hc.slash] at hjoined
  have hslash : endsWithSlash c = false := decide_eq_false fun he => hc.slash (List.mem_of_getLast? he)
  have hnames : names (Path.join a c) = names a ++ [c] := by
    rw [names_join hrelative, names_of_name hc.slash hc.nonempty]
  have helements := elements_plain (endsWithSlash_join_of (a := a) hrelative hc.nonempty hslash)
  rw [hnames, ← List.append_assoc] at helements
  have hshown : isAbsolute (Path.join a c) = true ∨ names a ≠ [] := by
    cases habsolute : isAbsolute a with
    | true => exact .inl (isAbsolute_join habsolute _)
    | false => exact .inr (names_ne_nil hne habsolute)
  have hall : ∀ e ∈ names a ++ [c], 47 ∉ e ∧ e ≠ [] := by
    rw [List.forall_mem_append, List.forall_mem_singleton]
    exact ⟨fun e he => names_of_mem he, hc.slash, hc.nonempty⟩
  have hfiltered : fs.Walks k fs.root (names a) d [] := hwalks.filter [] (pieces a) rfl
  have hspelled := hsame (walks_spell hroot hall (by simp) (hfiltered.append [c]) (isAbsolute (Path.join a c)))
    (spell_ne_nil hall (.inr (by simp)))
  have hjoin : Path.join a c ≠ [] := by
    intro hnil
    rw [hnil] at hnames
    exact List.cons_ne_nil c [] (List.append_eq_nil_iff.1 hnames.symm).2
  have hweakly := weaklyCanonical_missing hfs hroot (fun e he => names_of_mem he) hfiltered hk
    ⟨hc.slash, hc.nonempty⟩
    (hsame hjoined hjoin) hshown helements hspelled
  have hbeside := status_beside hfs hdirect hk (by simp) hd hdir hc h
  obtain ⟨ms, rfl, hms, _⟩ := hd.names
  have hnone : ∀ d ∈ ([] : List Str), 47 ∉ d ∧ d ≠ [] := by simp
  have hnormal := lexicallyNormal_foldl hms hnone hc
  rw [List.foldl_nil, List.nil_append] at hnormal
  rw [render_root_append, hnormal] at hweakly
  rw [List.append_assoc, render_root_append] at hbeside
  rw [normalizeForComparison, hweakly]
  exact hbeside

lemma createDirectory_refuses (p : Str) : (fs.createDirectory p).2.refuses = fs.refuses := by
  unfold createDirectory
  repeat' split
  all_goals rfl

lemma createAll_refuses (ps : List Str) : ∀ fs : FileSystem, (fs.createAll ps).2.refuses = fs.refuses := by
  induction ps with
  | nil => exact fun _ => rfl
  | cons p ps ih =>
    intro fs
    have hfirst := fs.createDirectory_refuses p
    unfold createAll
    split
    · rename_i h
      rw [h] at hfirst
      exact hfirst
    · rename_i h
      rw [h] at hfirst
      split
      · exact hfirst
      · rw [ih]; exact hfirst

lemma createDirectories_refuses (p : Str) : (fs.createDirectories p).2.refuses = fs.refuses := by
  unfold createDirectories
  repeat' split
  any_goals rfl
  exact createAll_refuses _ fs

lemma remove_refuses (p : Str) : (fs.remove p).2.refuses = fs.refuses := by
  unfold remove
  repeat' split
  all_goals rfl

lemma rename_refuses (p q : Str) : (fs.rename p q).2.refuses = fs.refuses := by
  unfold rename
  repeat' split
  all_goals rfl

lemma openWrite_refuses (p : Str) (m) : (fs.openWrite p m).2.refuses = fs.refuses := by
  unfold openWrite
  repeat' split
  all_goals rfl

lemma writeAt_refuses (l : Location) (n) (p : Str) : (fs.writeAt l n p).refuses = fs.refuses := by
  unfold writeAt
  split <;> rfl
end Cxx.FileSystem

lemma World.answer_refuses {β : Type} (i : SessionId) (w : World) (o : Call β) :
    (World.answer i w o).2.fs.refuses = w.fs.refuses := by
  by_cases h : o.kind ∈ [Kind.change, Kind.write, Kind.chroot]
  · cases o with
    | createDirectory p => exact FileSystem.createDirectory_refuses p
    | createDirectories p => exact FileSystem.createDirectories_refuses p
    | remove p => exact FileSystem.remove_refuses p
    | rename p q => exact FileSystem.rename_refuses p q
    | permissions p mode => exact FileSystem.permissions_refuses _ p mode
    | openWrite p mode =>
      simp only [answer, openPath]
      split <;> exact FileSystem.openWrite_refuses p mode
    | write | appendTo =>
      simp only [answer]
      split
      · exact FileSystem.writeAt_refuses _ _ _
      · rfl
    | chroot p =>
      simp only [answer]
      split <;> rfl
    | _ => simp [Call.kind] at h
  · rw [World.answer_fs o h]

inductive UploadStage
  | outside
  | choosing (s : Session)
  | chosen (s : Session) (name : Str)
  | resolved (s : Session) (name : Str) (fs : FileSystem) (lines : List Reply)
  | opened

def Session.announced (s : Session) (name : Str) : List Reply :=
  if s.socket_ = none then [] else [(Reply.final 150 ("FILE: " ++ name)).customized s.current_virtual_host_]

namespace UploadStage

variable {β : Type}

def begin (_ : UploadStage) (s : Session) : Turn → UploadStage
  | .line line => if (Command.parse line).verb = .stou then .choosing s else .outside
  | .stop => .outside

def watched : UploadStage → Option Str
  | chosen s name => some (s.current_directory_ ++ "/" ++ name)
  | resolved s name fs _ => some (s.resolvePath fs name)
  | _ => none

def next : UploadStage → Call β → β → UploadStage
  | choosing s, .status p, .ok .notFound => chosen s (p.drop (s.current_directory_.length + 1))
  | chosen s name, .nameSpace, fs => resolved s name fs []
  | resolved s name fs lines, .sendControl _ line, _ => resolved s name fs (lines ++ [line])
  | resolved _ _ _ _, .openWrite _ _, _ => opened
  | g, _, _ => g

/-- Names are looked for beside each other, and one file is opened: the one announced. Until then nothing is
changed but that the directories of its path are made. -/
def permits : UploadStage → Call β → Prop
  | choosing s, .status p => ∃ c, IsName c ∧ p = s.current_directory_ ++ "/" ++ c
  | resolved s name fs lines, .openWrite p mode =>
    p = s.resolvePath fs name ∧ mode = .truncate ∧ lines = s.announced name
  | resolved _ _ _ _, .createDirectories _ => True
  | opened, .openWrite _ _ => False
  | outside, _ => True
  | opened, _ => True
  | _, o => o.kind ∉ [Kind.change, .write, .chroot]

def expects : UploadStage → Call β → β → Prop
  | choosing _, .status _, r => ∃ t, r = .ok t
  | _, _, _ => True

end UploadStage

def uploading : Contract Call UploadStage where
  pre g o := g.permits o
  post g o r := g.expects o r
  next g o r := g.next o r

section

variable {env : Service} {s : Session} {α β : Type} {name base : Str} {fs : FileSystem} {lines : List Reply}
    {g : UploadStage}
  {ks : List Kind} {Q : β → Prop}

lemma outside_uploading (p : Io α) : Meets uploading p (fun _ _ => True) .outside :=
  (within_any p).meets (fun _ _ => ⟨trivial, fun _ => rfl⟩) fun _ _ => trivial

lemma quiet_permits {o : Call β} (ho : o.kind ∉ [Kind.change, .write, .chroot]) (hquery : o.kind ≠ .query) :
    g.permits o := by
  cases o with
  | status => exact absurd rfl hquery
  | openWrite | createDirectories => simp [Call.kind] at ho
  | _ => cases g <;> first | exact ho | trivial

lemma kinds_uploading {p : Io β} (hp : p.Within (Kinds ks) Q) (hquery : .query ∉ ks)
    (hks : ∀ k ∈ ks, k ∉ [Kind.change, .write, .chroot]) : ∀ g, Meets uploading p (fun _ _ => True) g := by
  induction p with
  | ret r => exact fun _ => (meets_pure r).2 trivial
  | throw e => exact fun _ => meets_throw e
  | call o k ih =>
    obtain ⟨ho, hk⟩ := (within_call o k).1 hp
    intro g
    refine (meets_call o k).2 ⟨quiet_permits (hks _ ho) fun he => hquery (he ▸ ho), fun r _ => ?_⟩
    exact ih r (hk r) _

lemma opened_uploading {p : Io β} (hp : p.Within (Kinds ks) Q) (hchange : .change ∉ ks) :
    Meets uploading p (fun _ _ => True) .opened := by
  refine hp.meets (fun o ho => ?_) fun _ _ => trivial
  cases o with
  | openWrite => exact absurd ho hchange
  | _ => exact ⟨trivial, fun _ => rfl⟩

lemma resolved_uploading {p : Io β} (hp : p.Within (Kinds ks) Q) (hreply : .reply ∉ ks)
    (hks : ∀ k ∈ ks, k ∉ [Kind.change, .write, .chroot]) :
    Meets uploading p (fun r g => Q r ∧ g = .resolved s name fs lines) (.resolved s name fs lines) := by
  refine hp.meets (fun o ho => ?_) fun r hr => ⟨hr, rfl⟩
  have hkind := hks _ ho
  cases o with
  | sendControl => exact absurd ho hreply
  | openWrite | createDirectories => simp [Call.kind] at hkind
  | _ => exact ⟨hkind, fun _ => rfl⟩

lemma return_uploading (code : ℕ) (text : Str) (a : α) :
    Meets uploading (s.reply code text >>= fun _ => pure a) (fun _ _ => True) g := by
  have hp : (s.reply code text >>= fun _ => pure a).Within (Kinds [.reply]) fun _ => True := by simp
  exact kinds_uploading hp (by simp) (by simp) g

lemma slash_base (filename : Str) : 47 ∉ (if filename = [] then "ftpd" else Path.filename filename : Str) := by
  split
  · decide
  · unfold Path.filename
    split
    · simp
    · cases h : (names filename).getLast? with
      | none => simp
      | some c => exact (names_of_mem (List.mem_of_getLast? h)).1

lemma isName_candidate (hbase : 47 ∉ base) (n : ℕ) : IsName (base ++ "." ++ decimal n) := by
  have hlast : ∃ c, (base ++ "." ++ decimal n).getLast? = some c ∧ (digit 10 c).isSome = true := by
    obtain ⟨c, hc⟩ := Option.isSome_iff_exists.1 (List.getLast?_isSome.2 (decimal_ne_nil n))
    exact ⟨c, by rw [List.getLast?_append, hc, Option.some_or], decimal_isDigit n c (List.mem_of_getLast? hc)⟩
  obtain ⟨c, hc, hdigit⟩ := hlast
  have hdot : c ≠ 46 := by
    rintro rfl
    cases hdigit
  refine ⟨?_, ?_, ?_, ?_⟩
  · have hdecimal : 47 ∉ decimal n := not_mem_decimal (by decide) n
    simpa [List.mem_append, hbase, hdecimal] using (by decide : (47 : Byte) ∉ (("." : Str)))
  · intro h
    rw [h] at hc
    cases hc
  · refine decide_eq_false fun h => hdot ?_
    rw [h] at hc
    exact (Option.some.inj hc).symm
  · refine decide_eq_false fun h => hdot ?_
    rw [h] at hc
    exact (Option.some.inj hc).symm

lemma uniqueName_uploading (hbase : 47 ∉ base) (n : ℕ) : ∀ attempt,
    Meets uploading (Session.uniqueName s.current_directory_ base attempt n)
      (fun r g => g = r.elim (.choosing s) (.chosen s) ∧ ∀ c, r = some c → IsName c) (.choosing s) := by
  induction n with
  | zero => exact fun _ => (meets_pure _).2 ⟨rfl, by simp⟩
  | succ n ih =>
    intro attempt
    have hname := isName_candidate hbase attempt
    refine meets_bind.2 ((meets_perform _).2 ⟨⟨_, hname, rfl⟩, fun r hr => ?_⟩)
    obtain ⟨t, rfl⟩ := hr
    have hdrop : (s.current_directory_ ++ "/" ++ (base ++ "." ++ decimal attempt)).drop
      (s.current_directory_.length + 1) =
        base ++ "." ++ decimal attempt := List.drop_left' (by rw [List.length_append]; rfl)
    cases t with
    | notFound =>
      refine (meets_pure _).2 ⟨?_, ?_⟩
      · change UploadStage.chosen s _ = .chosen s _
        rw [hdrop]
      · rintro c hc
        cases hc
        exact hname
    | _ => exact ih _

lemma announce_uploading {s₀ : Session} (hname : s.store_unique_name_ = name) (hne : name ≠ []) {other : Str}
    (hsocket : s₀.socket_ = s.socket_) (hhost : s₀.current_virtual_host_ = s.current_virtual_host_)
    {f : Unit → Io α} {P : α → UploadStage → Prop}
    (hf : Meets uploading (f ()) P (.resolved s₀ name fs (s₀.announced name))) :
    Meets uploading (s.reply 150 (if s.store_unique_name_ = [] then other else
      "FILE: " ++ s.store_unique_name_) >>= f) P
      (.resolved s₀ name fs []) := by
  rw [hname, if_neg hne]
  refine meets_bind.2 ?_
  unfold Session.reply Session.sendResponse
  unfold Session.announced at hf
  rw [hsocket, hhost] at hf
  split
  · rename_i hnone
    rw [if_pos hnone] at hf
    exact (meets_pure _).2 hf
  · rename_i hsome
    rw [if_neg hsome] at hf
    have hquiet {β : Type} (o : Call β) (ho : o.kind = .reply) (g : UploadStage) : uploading.pre g o :=
      quiet_permits (by simp [ho]) (by simp [ho])
    refine meets_bind.2 ((meets_perform _).2 ⟨hquiet _ rfl _, fun sent _ => ?_⟩)
    refine meets_ite.2 ⟨fun _ => (meets_pure _).2 hf, fun _ => ?_⟩
    exact (meets_perform _).2 ⟨hquiet _ rfl _, fun _ _ => hf⟩

lemma try_uploading (r : Except Errc β) {f : β → Io α} {P : α → UploadStage → Prop}
    (hf : ∀ a, Meets uploading (f a) P g) :
    Meets uploading (orThrow r >>= f) P g := by
  cases r with
  | error e => exact meets_throw _
  | ok a => exact hf a

lemma openTarget_uploading {path : Str} (hresume : s.resume_position_ = 0) {s₀ : Session}
    (hpath : path = s₀.resolvePath fs name)
    {f : Option Session.OutFile → Io α} (hnone : Meets uploading (f none) (fun _ _ => True) .opened)
    (hsome : ∀ o, Meets uploading (f (some o)) (fun _ _ => True) .opened) :
    Meets uploading (s.openTarget path >>= f) (fun _ _ => True) (.resolved s₀ name fs (s₀.announced name)) := by
  have hzero : ¬0 < s.resume_position_ := by rw [hresume]; decide
  unfold Session.openTarget
  rw [if_neg hzero]
  refine meets_bind.2
    (meets_bind.2 ((meets_pure _).2 (meets_bind.2 ((meets_perform _).2 ⟨⟨hpath, rfl, rfl⟩, fun opened _ => ?_⟩))))
  refine (meets_pure _).2 ?_
  cases opened with
  | none => exact hnone
  | some fd => exact hsome _

lemma storeFrom_uploading {path : Str} (data_fd : Fd) (peer : Peer) (hresume : s.resume_position_ = 0)
    {s₀ : Session}
    (hpath : path = s₀.resolvePath fs name) :
    Meets uploading (s.storeFrom env data_fd peer path) (fun _ _ => True)
      (.resolved s₀ name fs (s₀.announced name)) := by
  have hnone : Meets uploading (do perform (.close data_fd); return (550, ascii "Failed to create file", false))
      (fun _ _ => True) .opened := by
    have hp : (perform (.close data_fd) >>= fun _ => pure (550, ascii "Failed to create file",
      false) : Io _).Within
        (Kinds [.close]) fun _ => True := by simp [Call.kind]
    exact opened_uploading hp (by simp)
  have hsome (o : Session.OutFile) : Meets uploading (s.receiveTo env data_fd peer o) (fun _ _ => True) .opened :=
    opened_uploading (Session.receiveTo_within (List.Subset.refl _) data_fd peer o) (by simp)
  refine meets_bind.2 (meets_ite.2 ⟨fun _ => ?_, fun _ => (meets_pure _).2 ?_⟩)
  · refine meets_bind.2 ((meets_perform _).2 ⟨trivial, fun r _ => ?_⟩)
    refine try_uploading r fun _ => (meets_pure _).2 ?_
    exact openTarget_uploading hresume hpath hnone hsome
  · exact openTarget_uploading hresume hpath hnone hsome

lemma modeZRefusal_uploading (hresume : s.resume_position_ = 0) :
    Meets uploading (s.modeZRefusal env) (fun r g' => r = none → g' = g) g := by
  have hzero : ¬s.resume_position_ > 0 := by rw [hresume]; decide
  unfold Session.modeZRefusal
  rw [if_neg hzero]
  refine meets_ite.2 ⟨fun _ => (meets_pure _).2 fun _ => rfl, fun _ => ?_⟩
  refine meets_ite.2 ⟨fun _ => meets_bind.2 ?_, fun _ => ?_⟩
  · have hp : (s.reply 504 "MODE Z is not enabled").Within (Kinds [.reply]) fun _ => True := by simp
    exact (kinds_uploading hp (by simp) (by simp) g).mono fun _ _ _ => (meets_pure _).2 (by simp)
  · exact (meets_pure _).2 fun _ => rfl

lemma handleSTOR_uploading {s₀ : Session} (hunique : s.store_unique_name_ = name)
    (hresume : s.resume_position_ = 0)
    (hpath : ∀ fs, s.resolvePath fs name = s₀.resolvePath fs name) (hsocket : s₀.socket_ = s.socket_)
    (hhost : s₀.current_virtual_host_ = s.current_virtual_host_) (hname : IsName name) :
    Meets uploading (s.handleSTOR env name) (fun _ _ => True) (.chosen s₀ name) := by
  have hask : uploading.pre (.chosen s₀ name) .nameSpace :=
    show Call.nameSpace.kind ∉ [Kind.change, .write, .chroot] by simp [Call.kind]
  refine meets_bind.2 ((meets_perform _).2 ⟨hask, fun fs _ => ?_⟩)
  refine meets_ite.2 ⟨fun _ => return_uploading _ _ _, fun _ => ?_⟩
  refine meets_ite.2 ⟨fun _ => return_uploading _ _ _, fun _ => ?_⟩
  have hquota := Session.quotaExceeded_within (s := s) (by simp : Kind.query ∈ [.query])
  refine meets_bind.2 ((resolved_uploading hquota (by simp) (by simp)).mono ?_)
  rintro exceeded _ ⟨-, rfl⟩
  refine meets_ite.2 ⟨fun _ => return_uploading _ _ _, fun _ => ?_⟩
  refine meets_bind.2 ((modeZRefusal_uploading hresume).mono fun refused g hg => ?_)
  cases refused with
  | some s' => exact (meets_pure _).2 trivial
  | none =>
    rw [hg rfl]
    refine announce_uploading hunique hname.nonempty hsocket hhost ?_
    have haccept : s.data.acceptDataConnection.Within (Kinds ([.opens, .close, .transfer] ++ s.data.connectKinds))
        fun _ => True := s.data.acceptDataConnection_within (List.Subset.refl _) fun _ _ _ => trivial
    have hquiet : ∀ k ∈ [Kind.opens, .close, .transfer] ++ s.data.connectKinds,
        k ∉ [Kind.change, .write, .chroot] := by
      simp
    refine meets_bind.2 ((resolved_uploading haccept (by simp) hquiet).mono ?_)
    rintro ⟨opened, d⟩ _ ⟨-, rfl⟩
    cases opened with
    | none => exact return_uploading _ _ _
    | some accepted =>
      let s₁ : Session := { s with data := d }
      have hstore : Meets uploading (s₁.storeFrom env accepted.1 accepted.2 _) _ _ :=
        storeFrom_uploading accepted.1 accepted.2 hresume (hpath fs)
      exact meets_bind.2 (hstore.mono fun _ _ _ => return_uploading _ _ _)

lemma handleSTOU_uploading (filename : Str) :
    Meets uploading (s.handleSTOU env filename) (fun _ _ => True) (.choosing s) := by
  refine meets_bind.2 ((uniqueName_uploading (slash_base filename) 10000 0).mono ?_)
  rintro r _ ⟨rfl, hname⟩
  cases r with
  | none => exact return_uploading _ _ _
  | some c =>
    let s₁ : Session := { s with store_unique_name_ := c, resume_position_ := 0 }
    have hstor : Meets uploading (s₁.handleSTOR env c) _ (.chosen s c) :=
      handleSTOR_uploading rfl rfl (fun _ => rfl) rfl rfl (hname c rfl)
    exact meets_bind.2 (hstor.mono fun _ _ _ => (meets_pure _).2 trivial)

lemma take_uploading (t : Turn) : Meets uploading (s.take env t) (fun _ _ => True) (g.begin s t) := by
  cases t with
  | stop => exact outside_uploading _
  | line line =>
    change Meets uploading (s.dispatch env line) _ (if _ then _ else _)
    split
    · rename_i hstou
      rcases Session.dispatch_cases env s line with ⟨_, hd⟩ | ⟨_, _, hd⟩
      · rw [hd]
        cases hc : Command.parse line with
        | mk v a =>
          rw [hc] at hstou
          obtain rfl : v = .stou := hstou
          exact handleSTOU_uploading a
      · rw [hd]
        exact return_uploading _ _ _
    · exact outside_uploading _

end

namespace UploadStage

def Holds (w : World) : UploadStage → Prop
  | chosen s name => IsName name ∧ w.fs.status (s.current_directory_ ++ "/" ++ name) = .ok .notFound
  | resolved s name fs _ => w.fs.status (s.resolvePath fs name) = .ok .notFound
  | _ => True

/-- A look for a name is answered, the directory is there when a name has been found, and making the
directories of its path does not take the name. -/
def Steady {β : Type} (w : World) : UploadStage → Call β → Prop
  | choosing _, .status p => (w.fs.status p).isOk = true
  | chosen s _, .nameSpace => (w.fs.locate s.current_directory_).toOption.bind w.fs.node = some .directory
  | resolved s name fs _, .createDirectories p =>
    (w.fs.createDirectories p).2.status (s.resolvePath fs name) = .ok .notFound
  | _, _ => True

end UploadStage

def uploads (env : Service) : Threads Call Abort Session Accepted Turn UploadStage World :=
  serving env (fun _ => .outside) UploadStage.begin (fun g o r => g.next o r) fun _ => .outside

def Cxx.FileSystem.KeepsAnswering (fs : FileSystem) : Prop :=
  ∀ modes p, fs.refuses modes .status p = none ∧ fs.refuses modes .canonical p = none

lemma Cxx.FileSystem.KeepsAnswering.answers {fs : FileSystem} (h : fs.KeepsAnswering) : fs.Answers := h fs.modes

def Serving.Answering (st : Serving UploadStage) : Prop := st.Unopened .outside ∧ st.world.fs.KeepsAnswering

def Serving.Undisturbed (st : Serving UploadStage) : PoolStep Accepted Turn → Prop
  | .call j => ∀ {β : Type} (o : Call β), st.About j o → (st.history j).Steady st.world o ∧
      ∀ i, i ≠ j → ∀ p, (st.history i).watched = some p → (World.answer j st.world o).2.fs.status p = .ok .notFound
  | _ => True

section

variable {env : Service} {w : World} {g : UploadStage} {β : Type} {i : SessionId}

lemma UploadStage.Holds.own (h : g.Holds w) (hfs : w.fs.Answers) (o : Call β) (hpre : g.permits o)
    (hsteady : g.Steady w o) :
    g.expects o (World.answer i w o).1 ∧ (g.next o (World.answer i w o).1).Holds (World.answer i w o).2 := by
  have hkept (hquiet : o.kind ∉ [Kind.change, .write, .chroot]) : g.Holds (World.answer i w o).2 := by
    unfold Holds
    rw [World.answer_fs o hquiet]
    exact h
  cases g with
  | outside | opened => exact ⟨trivial, trivial⟩
  | choosing s =>
    cases o with
    | status p =>
      obtain ⟨c, hc, rfl⟩ := hpre
      obtain ⟨t, ht⟩ : ∃ t, w.fs.status (s.current_directory_ ++ "/" ++ c) = .ok t := by
        change (w.fs.status (s.current_directory_ ++ "/" ++ c)).isOk = true at hsteady
        cases h : w.fs.status (s.current_directory_ ++ "/" ++ c) with
        | ok t => exact ⟨t, rfl⟩
        | error e =>
          rw [h] at hsteady
          cases hsteady
      have hdrop : (s.current_directory_ ++ "/" ++ c).drop (s.current_directory_.length + 1) = c :=
        List.drop_left' (by rw [List.length_append]; rfl)
      refine ⟨⟨t, ht⟩, ?_⟩
      change (next _ _ (w.fs.status _)).Holds w
      rw [ht]
      cases t with
      | notFound =>
        change IsName _ ∧ _
        rw [hdrop]
        exact ⟨hc, ht⟩
      | _ => trivial
    | _ => exact ⟨trivial, trivial⟩
  | chosen s name =>
    cases o with
    | nameSpace =>
      obtain ⟨d, hd, hdir⟩ : ∃ d, w.fs.locate s.current_directory_ = .ok d ∧ w.fs.node d = some .directory := by
        change (w.fs.locate s.current_directory_).toOption.bind w.fs.node = some .directory at hsteady
        cases h : w.fs.locate s.current_directory_ with
        | ok d =>
          rw [h] at hsteady
          exact ⟨d, rfl, hsteady⟩
        | error e =>
          rw [h] at hsteady
          cases hsteady
      refine ⟨trivial, ?_⟩
      change w.fs.status (s.resolvePath w.fs name) = _
      have hrelative : name.head? ≠ some 47 := fun he => h.1.slash (List.mem_of_head? he)
      have hfound := h.2
      rw [List.append_assoc] at hfound
      rw [Session.resolvePath, if_neg h.1.nonempty, if_neg hrelative]
      exact FileSystem.resolved_free hfs hd hdir h.1 hfound
    | _ => exact ⟨trivial, hkept hpre⟩
  | resolved s name fs lines =>
    cases o with
    | openWrite => exact ⟨trivial, trivial⟩
    | createDirectories p => exact ⟨trivial, hsteady⟩
    | _ => exact ⟨trivial, hkept hpre⟩

lemma UploadStage.Holds.watched {w' : World} (h : g.Holds w)
    (hw : ∀ p, g.watched = some p → w'.fs.status p = .ok .notFound) :
    g.Holds w' := by
  cases g with
  | chosen s name => exact ⟨h.1, hw _ rfl⟩
  | resolved s name fs lines => exact hw _ rfl
  | _ => trivial

lemma uploads_keep {st : Serving UploadStage}
    (h : ((uploads env).system Serving.Answering).Reach Serving.Undisturbed st) :
    st.Keeps uploading (fun _ g w => w.fs.KeepsAnswering ∧ g.Holds w) fun _ _ _ => True := by
  refine Pool.keeps_of_reach ?_ ?_ ?_ ?_ ?_ (fun _ _ _ => rfl) h
  · intro st hst i
    rw [(hst.1 i).1, (hst.1 i).2]
    exact ⟨⟨hst.2, trivial⟩, by simp⟩
  · intro st i e hst _
    exact ⟨⟨(hst i).1.1, trivial⟩, outside_uploading _, fun j _ => (hst j).1⟩
  · intro st i s t hst _ _ _
    refine ⟨⟨(hst i).1.1, ?_⟩, take_uploading (g := st.history i) t⟩
    change ((st.history i).begin s t).Holds st.world
    cases t with
    | stop => trivial
    | line line =>
      dsimp only [UploadStage.begin]
      split <;> trivial
  · intro β st i o hst habout hok hpre
    obtain ⟨hsteady, hothers⟩ := hok o habout
    obtain ⟨hpost, hholds⟩ := (hst i).1.2.own (hst i).1.1.answers o hpre hsteady (i := i)
    have hanswers : (World.answer i st.world o).2.fs.KeepsAnswering := by
      intro modes p
      rw [World.answer_refuses]
      exact (hst i).1.1 modes p
    exact ⟨hpost, ⟨hanswers, hholds⟩, fun j hj => ⟨hanswers, (hst j).1.2.watched (hothers j hj)⟩⟩
  · exact fun st i s hR _ => ⟨⟨hR.1, trivial⟩, trivial⟩

lemma opening_free {st : Serving UploadStage}
    (h : st.Keeps uploading (fun _ g w => w.fs.KeepsAnswering ∧ g.Holds w) fun _ _ _ => True) {p : Str}
    {mode : FileSystem.OpenMode} (hstou : st.history i ≠ .outside) (ho : st.About i (.openWrite p mode)) :
    ∃ s name fs, st.history i = .resolved s name fs (s.announced name) ∧ p = s.resolvePath fs name ∧
      mode = .truncate ∧ st.world.fs.status p = .ok .notFound := by
  obtain ⟨hpre, _, hholds⟩ := h.pre ho
  change (st.history i).permits (.openWrite p mode) at hpre
  cases hg : st.history i with
  | outside => exact absurd hg hstou
  | choosing | chosen =>
    rw [hg] at hpre
    simp [UploadStage.permits, Call.kind] at hpre
  | opened =>
    rw [hg] at hpre
    exact hpre.elim
  | resolved s name fs lines =>
    rw [hg] at hpre hholds
    obtain ⟨rfl, rfl, rfl⟩ := hpre
    exact ⟨s, name, fs, rfl, rfl, rfl, hholds⟩

end

namespace Serving

instance {β : Type} (w : World) (g : UploadStage) (o : Call β) : Decidable (g.Steady w o) := by
  unfold UploadStage.Steady
  split <;> infer_instance

def alone (st : Serving UploadStage) : PoolStep Accepted Turn → Bool
  | .call i => decide (i = 0) && match st.thread i with
    | some (.busy (.call o _)) => decide ((st.history i).Steady st.world o)
    | _ => true
  | .enter i _ | .turn i _ | .done i => decide (i = 0)

abbrev Alone (st : Serving UploadStage) (l : PoolStep Accepted Turn) : Prop := st.alone l = true

def Beside (st : Serving UploadStage) : Prop := ∀ i, i ≠ 0 → st.history i = .outside

lemma Beside.step {env : Service} {st st' : Serving UploadStage} {l : PoolStep Accepted Turn} (hst : st.Beside)
    (hok : st.Alone l) (hnext : (uploads env).step st l = some st') : st'.Beside := by
  intro i hi
  have hset (t : Thread Call Abort Session) (x : UploadStage) (w : World) :
      (st.set 0 t x w).history i = .outside := by
    simp only [Pool.set, Function.update_of_ne hi]
    exact hst i hi
  cases (uploads env).step_effect hnext with
  | entered | began | finished =>
    obtain rfl := of_decide_eq_true hok
    exact hset _ _ _
  | called =>
    obtain rfl := of_decide_eq_true (Bool.and_eq_true_iff.1 hok).1
    exact hset _ _ _

lemma Beside.undisturbed {st : Serving UploadStage} {l : PoolStep Accepted Turn} (hst : st.Beside)
    (hok : st.Alone l) : st.Undisturbed l := by
  cases l with
  | call i =>
    obtain ⟨hzero, hsteady⟩ := Bool.and_eq_true_iff.1 hok
    obtain rfl := of_decide_eq_true hzero
    rintro β o ⟨k, hk⟩
    rw [hk] at hsteady
    refine ⟨of_decide_eq_true hsteady, fun i hi p hp => ?_⟩
    rw [hst i hi] at hp
    cases hp
  | _ => trivial

lemma undisturbed_alone {env : Service} {st : Serving UploadStage}
    (h : ((uploads env).system Answering).Reach Alone st) :
    ((uploads env).system Answering).Reach Undisturbed st := by
  refine h.under (P := Beside) ?_ ?_ ?_
  · exact fun st hst i _ => (hst.1 i).2
  · exact fun st l st' hst hok hnext => hst.step hok hnext
  · exact fun st l hst hok => hst.undisturbed hok

def uploading (st : Serving UploadStage) : Option (Str × FileSystem.OpenMode) :=
  match st.thread 0 with
  | some (.busy (.call (.openWrite p mode) _)) => some (p, mode)
  | _ => none

lemma about_of_uploading {st : Serving UploadStage} {p : Str} {mode : FileSystem.OpenMode}
    (h : uploading st = some (p, mode)) :
    st.About 0 (.openWrite p mode) := by
  unfold uploading at h
  split at h
  · rename_i k ht
    cases h
    exact ⟨k, ht⟩
  · cases h

end Serving

end SimpleSftpd
