import SimpleSftpd.Core.Descriptors
import SimpleSftpd.Cxx.AbsentBytes
import SimpleSftpd.Cxx.Numerals
import SimpleSftpd.User.UserManager

/-! What a session says on its control connection, against the line feeds of the names it says and the
handshake it has made. -/

namespace SimpleSftpd

open Cxx Interaction Prog

inductive Said
  | line (tls : Bool) (r : Reply)
  | secured
  deriving DecidableEq

/-- No line feed, where texts are held to it: with `lf` false only the encryption is followed. -/
def Clean (lf : Prop) (s : Str) : Prop := lf → 10 ∉ s

section

variable {lf : Prop} {p q : Str}

lemma clean_const (h : 10 ∉ p) : Clean lf p := fun _ => h

lemma clean_append : Clean lf (p ++ q) ↔ Clean lf p ∧ Clean lf q := by
  simp only [Clean, List.mem_append, not_or, imp_and]

lemma clean_cons {c : Byte} (hc : c ≠ 10) : Clean lf (c :: p) ↔ Clean lf p := by
  simp only [Clean, List.mem_cons, not_or, hc.symm, not_false_iff, true_and]

lemma clean_decimal (n : ℕ) : Clean lf (decimal n) := fun _ => not_mem_decimal rfl n

lemma clean_decimalInt (n : Int) : Clean lf (decimalInt n) := fun _ => not_mem_decimalInt rfl (by decide) n

lemma Clean.sublist (h : Clean lf p) (hq : q.Sublist p) : Clean lf q := fun hlf hmem => h hlf (hq.subset hmem)

lemma Clean.if {c : Prop} [Decidable c] (hp : Clean lf p) (hq : Clean lf q) : Clean lf (if c then p else q) := by
  split
  · exact hp
  · exact hq

end

namespace Said

variable (lf : Prop)

def next {β : Type} (g : List Said) (o : Call β) : β → List Said := match o with
  | .sendControl tls r => fun _ => .line tls r :: g
  | .sslAccept => fun upgraded => if upgraded = true then .secured :: g else g
  | _ => fun _ => g

/-- Replies go through TLS as soon as it is there, are one line each, and no line feed gets into the tree;
there is one handshake at most. -/
def owes {β : Type} (g : List Said) : Call β → Prop
  | .sendControl tls r => (tls = true ↔ .secured ∈ g) ∧ Clean lf r.render
  | .sslAccept => .secured ∉ g
  | .createDirectory p | .createDirectories p | .rename _ p | .openWrite p _ | .chroot p => Clean lf p
  | _ => True

def given {β : Type} (o : Call β) : β → Prop := match o with
  | .nameSpace => fun fs => lf → fs.Lacks 10
  | .readDirectory _ => fun r => lf → Without 10 r.1
  | .modifiedTimeUtc _ | .getpwnam _ => fun r => ∀ text, r = some text → Clean lf text
  | _ => fun _ => True

def Orderly : List Said → Prop
  | [] => True
  | .line tls r :: g => (tls = true ↔ .secured ∈ g) ∧ Clean lf r.render ∧ Orderly g
  | .secured :: g => .secured ∉ g ∧ Orderly g

def Silent (o : Σ β, Call β) : Prop := ∀ g, owes lf g o.2 ∧ ∀ r, next g o.2 r = g

end Said

def speaking (lf : Prop) : Contract Call (List Said) where
  pre g o := Said.owes lf g o
  post _ o r := Said.given lf o r
  next g o r := Said.next g o r

structure World.SingleLine (lf : Prop) (w : World) : Prop where
  fs : lf → w.fs.Lacks 10
  times : ∀ t p text, w.choose t (.modifiedTimeUtc p) = some text → Clean lf text
  homes : ∀ t u text, w.choose t (.getpwnam u) = some text → Clean lf text

section

variable {lf : Prop} {g : List Said} {w : World} {me : SessionId} {β : Type}

lemma World.answer_choose (o : Call β) : @World.choose (answer me w o).2 = @World.choose w := by
  cases o with
  | chroot | accept | lseek | read | sendfile | mmap | write | appendTo =>
    simp only [answer]
    split <;> rfl
  | socket | openRead | openWrite =>
    simp only [answer, openSocket, openPath]
    split <;> rfl
  | _ => rfl

lemma World.SingleLine.answer (h : w.SingleLine lf) (o : Call β) (ho : Said.owes lf g o) :
    Said.given lf o (World.answer me w o).1 ∧ (World.answer me w o).2.SingleLine lf := by
  have hslash : (10 : Byte) ≠ 47 := by decide
  refine ⟨?_, fun hlf => ?_, fun t p => ?_, fun t u => ?_⟩
  · cases o with
    | nameSpace => exact h.fs
    | readDirectory p => exact fun hlf => (h.fs hlf).readDirectory
    | modifiedTimeUtc p => exact h.times _ _
    | getpwnam u => exact h.homes _ _
    | _ => trivial
  · have hfs := h.fs hlf
    by_cases hquiet : o.kind ∉ [Kind.change, .write, .chroot]
    · rwa [World.answer_fs o hquiet]
    · cases o with
      | createDirectory p => exact hfs.createDirectory (ho hlf)
      | createDirectories p => exact hfs.createDirectories hslash (ho hlf)
      | remove p => exact hfs.remove
      | rename p q => exact hfs.rename (ho hlf)
      | permissions p mode => exact hfs.permissions mode
      | openWrite p mode =>
        have hopened := hfs.openWrite (ho hlf) mode
        simp only [World.answer, openPath]
        split <;> exact hopened
      | chroot p =>
        simp only [World.answer]
        split
        · rename_i l _ hl
          exact hfs.chroot (ho hlf) hl
        · exact hfs
      | write fd pos data =>
        simp only [World.answer]
        split
        · exact hfs.writeAt pos data
        · exact hfs
      | appendTo fd data =>
        simp only [World.answer]
        split
        · exact hfs.writeAt _ data
        · exact hfs
      | _ => simp [Call.kind] at hquiet
  · rw [World.answer_choose o]
    exact h.times t p
  · rw [World.answer_choose o]
    exact h.homes t u

lemma Said.Orderly.next (h : Said.Orderly lf g) (o : Call β) (ho : Said.owes lf g o) (r : β) :
    Said.Orderly lf (Said.next g o r) := by
  cases o with
  | sendControl tls line => exact ⟨ho.1, ho.2, h⟩
  | sslAccept =>
    dsimp only [Said.next]
    split
    · exact ⟨ho, h⟩
    · exact h
  | _ => exact h

end

def FTPUserManager.SingleLine (lf : Prop) (m : FTPUserManager) : Prop :=
  ∀ name u, m.getUser name = some u → Clean lf u.home_directory_

structure FTPVirtualHost.SingleLine (lf : Prop) (h : FTPVirtualHost) : Prop where
  errors : ∀ code, Clean lf (h.getCustomError code)
  users : ∀ m, h.user_manager_ = some m → m.SingleLine lf

structure Service.SingleLine (lf : Prop) (env : Service) : Prop where
  users : env.user_manager_.SingleLine lf
  hosts : ∀ v, env.virtual_host_manager_ = some v → ∀ name h, v.getVirtualHost name = some h → h.SingleLine lf
  jail : Clean lf env.config_.security.chroot_directory

namespace Session

structure SingleLine (lf : Prop) (s : Session) : Prop where
  username : Clean lf s.username_
  directory : Clean lf s.current_directory_
  level : Clean lf s.protection_level_
  type : Clean lf s.transfer_type_
  mode : Clean lf s.transfer_mode_
  source : Clean lf s.rename_from_path_
  unique : Clean lf s.store_unique_name_
  home : ∀ u, s.current_user_ = some u → Clean lf u.home_directory_
  host : ∀ h, s.current_virtual_host_ = some h → h.SingleLine lf

def Matches (s : Session) (g : List Said) : Prop :=
  (s.ssl_active_ = true ↔ .secured ∈ g) ∧
    (s.socket_ = none ∨ ((s.ssl_active_ && s.ssl_ && s.ssl_context_) = true ↔ .secured ∈ g))

variable {lf : Prop} {s : Session} {g : List Said}

lemma SingleLine.data (hs : s.SingleLine lf) (d : DataConnection) : SingleLine lf { s with data := d } :=
  ⟨hs.username, hs.directory, hs.level, hs.type, hs.mode, hs.source, hs.unique, hs.home, hs.host⟩

lemma SingleLine.position (hs : s.SingleLine lf) (n : Int) : SingleLine lf { s with resume_position_ := n } :=
  ⟨hs.username, hs.directory, hs.level, hs.type, hs.mode, hs.source, hs.unique, hs.home, hs.host⟩

lemma SingleLine.named (hs : s.SingleLine lf) {unique : Str} (hu : Clean lf unique) :
    SingleLine lf { s with store_unique_name_ := unique } :=
  ⟨hs.username, hs.directory, hs.level, hs.type, hs.mode, hs.source, hu, hs.home, hs.host⟩

lemma clean_normalize {fs : FileSystem} {p : Str} (hfs : lf → fs.Lacks 10) (hp : Clean lf p) :
    Clean lf (normalizeForComparison fs p) := by
  intro hlf
  have hnormal : 10 ∉ Path.lexicallyNormal p := Path.notMem_lexicallyNormal (by decide) (by decide) (hp hlf)
  unfold normalizeForComparison
  split
  · exact hnormal
  · rename_i q _ hq
    exact (hfs hlf).weaklyCanonical (by decide) (by decide) (hp hlf) hq
  · exact hnormal

lemma clean_join {p q : Str} (hp : Clean lf p) (hq : Clean lf q) : Clean lf (Path.join p q) :=
  fun hlf => Path.notMem_join (by decide) (hp hlf) (hq hlf)

lemma SingleLine.resolvePath (hs : s.SingleLine lf) {fs : FileSystem} (hfs : lf → fs.Lacks 10) {p : Str}
    (hp : Clean lf p) :
    Clean lf (s.resolvePath fs p) := by
  unfold Session.resolvePath
  split
  · exact hs.directory
  · apply clean_normalize hfs
    split
    · refine clean_join ?_ fun hlf => Path.notMem_relativePath (hp hlf)
      cases hu : s.current_user_ with
      | none => exact clean_const (by decide)
      | some u => exact hs.home u hu
    · exact clean_join hs.directory hp

lemma SingleLine.customized (hs : s.SingleLine lf) {r : Reply} (hr : Clean lf r.render) :
    Clean lf (r.customized s.current_virtual_host_).render := by
  cases r with
  | opening | inner => exact hr
  | final code text =>
    cases hhost : s.current_virtual_host_ with
    | none => exact hr
    | some h =>
      dsimp only [Reply.customized]
      split
      · exact hr
      · exact clean_append.2 ⟨(clean_append.1 hr).1, (hs.host h hhost).errors _⟩

end Session

lemma clean_final {lf : Prop} {code : ℕ} {text : Str} (ht : Clean lf text) :
    Clean lf (Reply.final code text).render :=
  clean_append.2 ⟨clean_append.2 ⟨clean_decimal code, clean_const (by decide)⟩, ht⟩

lemma clean_opening {lf : Prop} {code : ℕ} {text : Str} (ht : Clean lf text) :
    Clean lf (Reply.opening code text).render :=
  clean_append.2 ⟨clean_append.2 ⟨clean_decimal code, clean_const (by decide)⟩, ht⟩

lemma clean_inner {lf : Prop} {text : Str} (ht : Clean lf text) : Clean lf (Reply.inner text).render :=
  clean_append.2 ⟨clean_const (by decide), ht⟩

def Speaks {α : Type} (lf : Prop) (s : Session) (p : Io α) (P : α → Prop) : Prop :=
  ∀ g, s.Matches g → Meets (speaking lf) p (fun a g' => s.Matches g' ∧ P a) g

section

variable {lf : Prop} {s : Session} {α β : Type} {P : α → Prop} {Q : β → Prop}

lemma speaks_pure {a : α} (h : P a) : Speaks lf s (pure a) P := fun _ hg => (meets_pure a).2 ⟨hg, h⟩

lemma speaks_bind {p : Io β} {f : β → Io α} (hp : Speaks lf s p Q) (hf : ∀ b, Q b → Speaks lf s (f b) P) :
    Speaks lf s (p >>= f) P :=
  fun g hg => meets_bind.2 ((hp g hg).mono fun b g' h => hf b h.2 g' h.1)

lemma speaks_ite {c : Prop} [Decidable c] {p q : Io α} (hp : c → Speaks lf s p P) (hq : ¬c → Speaks lf s q P) :
    Speaks lf s (if c then p else q) P := by
  split
  · exact hp ‹_›
  · exact hq ‹_›

lemma speaks_ask {o : Call β} (ho : Said.Silent lf ⟨β, o⟩) {f : β → Io α}
    (hf : ∀ r, Said.given lf o r → Speaks lf s (f r) P) : Speaks lf s (perform o >>= f) P := by
  intro g hg
  refine (meets_call o f).2 ⟨(ho g).1, fun r hr => ?_⟩
  have hsame : (speaking lf).next g o r = g := (ho g).2 r
  rw [hsame]
  exact hf r hr g hg

lemma speaks_try (x : Except Errc β) {f : β → Io α} (hf : ∀ r, Speaks lf s (f r) P) :
    Speaks lf s (orThrow x >>= f) P := by
  cases x with
  | ok a => exact hf a
  | error e => exact fun g _ => meets_throw _

lemma silent_of_kinds {ks : List Kind} (hks : ∀ k ∈ [Kind.reply, .account, .change, .chroot], k ∉ ks)
    {o : Σ β, Call β}
    (ho : Kinds ks o) : Said.Silent lf o := by
  obtain ⟨β, o⟩ := o
  have hkind : o.kind ∉ [Kind.reply, .account, .change, .chroot] := fun hk => hks _ hk ho
  cases o with
  | sendControl | sslAccept | createDirectory | createDirectories | rename | openWrite | chroot =>
    simp [Call.kind] at hkind
  | _ => exact fun _ => ⟨trivial, fun _ => rfl⟩

section

variable {p q : Str}

lemma silent_remove : Said.Silent lf ⟨_, .remove p⟩ := fun _ => ⟨trivial, fun _ => rfl⟩

lemma silent_permissions (mode : ℕ) : Said.Silent lf ⟨_, .permissions p mode⟩ := fun _ => ⟨trivial, fun _ => rfl⟩

lemma silent_deactivate : Said.Silent lf ⟨_, .deactivate⟩ := fun _ => ⟨trivial, fun _ => rfl⟩

lemma silent_pamAuthenticate : Said.Silent lf ⟨_, .pamAuthenticate p q⟩ := fun _ => ⟨trivial, fun _ => rfl⟩

lemma silent_getpwnam : Said.Silent lf ⟨_, .getpwnam p⟩ := fun _ => ⟨trivial, fun _ => rfl⟩

lemma silent_randBytes (n : ℕ) : Said.Silent lf ⟨_, .randBytes n⟩ := fun _ => ⟨trivial, fun _ => rfl⟩

lemma silent_sslInitialize (ca : Str) : Said.Silent lf ⟨_, .sslInitialize p q ca⟩ :=
  fun _ => ⟨trivial, fun _ => rfl⟩

variable (hp : Clean lf p)
include hp

lemma silent_createDirectory : Said.Silent lf ⟨_, .createDirectory p⟩ := fun _ => ⟨hp, fun _ => rfl⟩

lemma silent_createDirectories : Said.Silent lf ⟨_, .createDirectories p⟩ := fun _ => ⟨hp, fun _ => rfl⟩

lemma silent_rename : Said.Silent lf ⟨_, .rename q p⟩ := fun _ => ⟨hp, fun _ => rfl⟩

lemma silent_openWrite (mode : FileSystem.OpenMode) : Said.Silent lf ⟨_, .openWrite p mode⟩ :=
  fun _ => ⟨hp, fun _ => rfl⟩

lemma silent_chroot : Said.Silent lf ⟨_, .chroot p⟩ := fun _ => ⟨hp, fun _ => rfl⟩

end

lemma speaks_within {ks : List Kind} {p : Io β} (hp : p.Within (Kinds ks) Q)
    (hks : ∀ k ∈ [Kind.reply, .account, .change, .chroot], k ∉ ks) {f : β → Io α}
    (hf : ∀ b, Q b → Speaks lf s (f b) P) :
    Speaks lf s (p >>= f) P := by
  refine speaks_bind (Q := Q) (fun g hg => ?_) hf
  refine hp.meets (fun o ho => ?_) fun b hb => ⟨hg, hb⟩
  have hsilent : Said.Silent lf ⟨_, o⟩ := silent_of_kinds hks ho
  exact hsilent g

lemma speaks_query {o : Call β}
    (ho : o.kind ∈ [Kind.clock, .query, .openRead, .close, .transfer, .register, .census]) {f : β → Io α}
    (hf : ∀ r, Said.given lf o r → Speaks lf s (f r) P) : Speaks lf s (perform o >>= f) P :=
  speaks_ask (silent_of_kinds (by decide) ho) hf

lemma speaks_send (hs : s.SingleLine lf) {r : Reply} (hr : Clean lf r.render) {f : Unit → Io α}
    (hf : Speaks lf s (f ()) P) : Speaks lf s (s.sendResponse r >>= f) P := by
  intro g hg
  unfold Session.sendResponse
  by_cases hsocket : s.socket_ = none
  · rw [if_pos hsocket]
    exact hf g hg
  · have htls := hg.2.resolve_left hsocket
    rw [if_neg hsocket, bind_assoc']
    refine (meets_call _ _).2 ⟨⟨htls, hs.customized hr⟩, fun sent _ => ?_⟩
    have hnext : s.Matches (.line (s.ssl_active_ && s.ssl_ && s.ssl_context_)
        (r.customized s.current_virtual_host_) :: g) := by
      unfold Session.Matches
      simp only [List.mem_cons, reduceCtorEq, false_or]
      exact hg
    cases sent with
    | true => exact hf _ hnext
    | false => exact (meets_call _ _).2 ⟨trivial, fun _ _ => hf _ hnext⟩

variable (hs : s.SingleLine lf)
include hs

lemma speaks_reply {code : ℕ} {text : Str} (ht : Clean lf text) {f : Unit → Io α} (hf : Speaks lf s (f ()) P) :
    Speaks lf s (s.reply code text >>= f) P := speaks_send hs (clean_final ht) hf

lemma speaks_return {code : ℕ} {text : Str} (ht : Clean lf text) {a : α} (hP : P a) :
    Speaks lf s (s.reply code text >>= fun _ => pure a) P := speaks_reply hs ht (speaks_pure hP)

lemma speaks_last {r : Reply} (hr : Clean lf r.render) : Speaks lf s (s.sendResponse r) fun _ => True := by
  rw [← bind_pure' (s.sendResponse r)]
  exact speaks_send hs hr (speaks_pure trivial)

lemma speaks_answer {code : ℕ} {text : Str} (ht : Clean lf text) : Speaks lf s (s.reply code text) fun _ => True :=
  speaks_last hs (clean_final ht)

lemma speaks_lines {rs : List Reply} (h : ∀ r ∈ rs, Clean lf r.render) :
    Speaks lf s (s.sendLines rs) fun _ => True := by
  induction rs with
  | nil => exact speaks_pure trivial
  | cons r rs ih =>
    obtain ⟨hr, hrs⟩ := List.forall_mem_cons.1 h
    exact speaks_send hs hr (ih hrs)

end

end SimpleSftpd
