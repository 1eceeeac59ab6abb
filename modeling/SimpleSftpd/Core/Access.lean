import SimpleSftpd.Core.Run

namespace SimpleSftpd

open Cxx Interaction Prog

inductive Act
  | status (p : Str) | fileSize (p : Str) | lastWriteTime (p : Str) | modifiedTime (p : Str)
  | readDirectory (p : Str) | scan (p : Str) | openRead (p : Str)
  | createDirectory (p : Str) | createDirectories (p : Str) | remove (p : Str) | rename (p q : Str)
  | permissions (p : Str) | openWrite (p : Str) (mode : FileSystem.OpenMode) | write (p : Str)
  | chroot (p : Str)
  deriving DecidableEq

namespace Call

def act? {β : Type} : Call β → Option Act
  | status p => some (.status p)
  | fileSize p => some (.fileSize p)
  | lastWriteTime p => some (.lastWriteTime p)
  | modifiedTimeUtc p => some (.modifiedTime p)
  | readDirectory p => some (.readDirectory p)
  | regularFilesBelow p => some (.scan p)
  | openRead p => some (.openRead p)
  | createDirectory p => some (.createDirectory p)
  | createDirectories p => some (.createDirectories p)
  | remove p => some (.remove p)
  | rename p q => some (.rename p q)
  | permissions p _ => some (.permissions p)
  | openWrite p mode => some (.openWrite p mode)
  | chroot p => some (.chroot p)
  | _ => none

def writesTo {β : Type} : Call β → Option Fd
  | write fd _ _ => some fd
  | appendTo fd _ => some fd
  | _ => none

lemma kind_of_act {β : Type} {c : Call β} {act : Act} (h : c.act? = some act) : c.kind ≠ .reply := by
  intro hk
  cases c <;> cases hk <;> cases h

lemma kind_of_writesTo {β : Type} {c : Call β} {fd : Fd} (h : c.writesTo = some fd) : c.kind ≠ .reply := by
  intro hk
  cases c <;> cases hk <;> cases h

end Call

inductive Phase
  | named (fs : FileSystem)
  | writing (fs : FileSystem) (fd : Fd) (p : Str)
  | ended

def quietKinds : List Kind := [.reply, .clock, .account, .census, .register, .opens, .transfer, .memory]

def onFiles (A : FileSystem → Act → Prop) : Contract Call Phase where
  pre g o := match g with
    | .named fs => (∀ act, o.act? = some act → A fs act) ∧ o.writesTo = none
    | .writing fs fd p => o.act? = none ∧ ∀ fd', o.writesTo = some fd' → fd' = fd ∧ A fs (.write p)
    | .ended => o.act? = none ∧ o.writesTo = none
  post g o := match g, o with
    | .named fs, .nameSpace => fun r => r = fs
    | .named fs, .status p => fun r => r = fs.status p
    | .named fs, .readDirectory p => fun r => r = fs.readDirectory p
    | .named fs, .regularFilesBelow p => fun r => r = fs.regularFilesBelow p
    | .named fs, .createDirectories p => fun r => r = (fs.createDirectories p).1
    | _, _ => fun _ => True
  next g o := match g, o with
    | .named fs, .createDirectory p => fun _ => .named (fs.createDirectory p).2
    | .named fs, .createDirectories p => fun _ => .named (fs.createDirectories p).2
    | .named fs, .remove p => fun _ => .named (fs.remove p).2
    | .named fs, .rename p q => fun _ => .named (fs.rename p q).2
    | .named fs, .permissions p mode => fun _ => .named (fs.permissions p mode).2
    | .named fs, .openWrite p mode => fun
      | some fd => .writing (fs.openWrite p mode).2 fd p
      | none => .named (fs.openWrite p mode).2
    | .named _, .chroot _ => fun _ => .ended
    | .writing fs fd p, .close n => fun _ => if n = fd then .ended else .writing fs fd p
    | g, _ => fun _ => g

section Rules

variable {A : FileSystem → Act → Prop} {fs : FileSystem} {α β : Type} {g : Phase} {s : Session}

lemma onFiles_quiet (o : Call β) (ho : o.kind ∈ quietKinds) :
    (onFiles A).pre g o ∧ ∀ r, (onFiles A).next g o r = g := by
  cases o with
  | nameSpace | status | fileSize | lastWriteTime | modifiedTimeUtc | readDirectory | regularFilesBelow
  | createDirectory | createDirectories | remove | rename | permissions | chroot | openRead | openWrite
  | write | appendTo | close => simp [Call.kind, quietKinds] at ho
  | _ =>
    refine ⟨?_, fun _ => by cases g <;> rfl⟩
    cases g with
    | named fs => exact ⟨fun _ h => absurd h (Option.some_ne_none _).symm, rfl⟩
    | writing fs fd p => exact ⟨rfl, fun _ h => absurd h (Option.some_ne_none _).symm⟩
    | ended => exact ⟨rfl, rfl⟩

lemma meets_quiet {ks : List Kind} {p : Io α} {P : α → Prop} {P' : α → Phase → Prop}
    (h : p.Within (Kinds ks) P) (hk : ks ⊆ quietKinds) (hP : ∀ a, P a → P' a g) :
    Meets (onFiles A) p P' g :=
  h.meets (fun o ho => onFiles_quiet o (hk ho)) hP

lemma meets_closing {ks : List Kind} {p : Io α} {P : α → Prop} {P' : α → Phase → Prop}
    (h : p.Within (Kinds ks) P) (hk : ks ⊆ .close :: quietKinds) (hP : ∀ a, P a → P' a (.named fs)) :
    Meets (onFiles A) p P' (.named fs) := by
  refine h.meets (fun o ho => ?_) hP
  rcases List.mem_cons.1 (hk ho) with hc | hq
  · cases o with
    | close => exact ⟨⟨fun _ h => absurd h (Option.some_ne_none _).symm, rfl⟩, fun _ => rfl⟩
    | _ => cases hc
  · exact onFiles_quiet o hq

lemma meets_known {o : Call β} {act : Act} {r₀ : β} (ho : o.act? = some act) (hw : o.writesTo = none)
    (hr : ∀ r, (onFiles A).post (.named fs) o r ↔ r = r₀) {P : β → Phase → Prop} :
    Meets (onFiles A) (perform o) P (.named fs) ↔ A fs act ∧ P r₀ ((onFiles A).next (.named fs) o r₀) := by
  rw [meets_perform]
  constructor
  · exact fun h => ⟨h.1.1 _ ho, h.2 _ ((hr _).2 rfl)⟩
  · rintro ⟨ha, hP⟩
    refine ⟨⟨fun act' h => Option.some.inj (ho.symm.trans h) ▸ ha, hw⟩, fun r h => ?_⟩
    rw [(hr r).1 h]
    exact hP

lemma meets_act {o : Call β} {act : Act} (ho : o.act? = some act) (hw : o.writesTo = none)
    (hr : ∀ r, (onFiles A).post (.named fs) o r) {P : β → Phase → Prop} :
    Meets (onFiles A) (perform o) P (.named fs) ↔
      A fs act ∧ ∀ r, P r ((onFiles A).next (.named fs) o r) := by
  rw [meets_perform]
  constructor
  · exact fun h => ⟨h.1.1 _ ho, fun r => h.2 r (hr r)⟩
  · rintro ⟨ha, hP⟩
    exact ⟨⟨fun act' h => Option.some.inj (ho.symm.trans h) ▸ ha, hw⟩, fun r _ => hP r⟩

lemma meets_other {o : Call β} (ho : o.act? = none) (hw : o.writesTo = none)
    (hr : ∀ r, (onFiles A).post (.named fs) o r) {P : β → Phase → Prop} :
    Meets (onFiles A) (perform o) P (.named fs) ↔ ∀ r, P r ((onFiles A).next (.named fs) o r) := by
  rw [meets_perform]
  constructor
  · exact fun h r => h.2 r (hr r)
  · refine fun hP => ⟨⟨fun act h => absurd (ho.symm.trans h) (Option.some_ne_none _).symm, hw⟩, fun r _ => ?_⟩
    exact hP r

@[simp] lemma meets_nameSpace {P : FileSystem → Phase → Prop} :
    Meets (onFiles A) (perform .nameSpace : Io FileSystem) P (.named fs) ↔ P fs (.named fs) := by
  rw [meets_perform]
  refine ⟨fun h => h.2 fs rfl, fun h => ?_⟩
  exact ⟨⟨fun act h => (by cases h), rfl⟩, fun r hr => hr ▸ h⟩

@[simp] lemma meets_status {p : Str} {P : Except Errc FileType → Phase → Prop} :
    Meets (onFiles A) (perform (.status p) : Io _) P (.named fs) ↔
      A fs (.status p) ∧ P (fs.status p) (.named fs) :=
  meets_known (o := .status p) rfl rfl fun _ => Iff.rfl

@[simp] lemma meets_fileSize {p : Str} {P : Except Errc ℕ → Phase → Prop} :
    Meets (onFiles A) (perform (.fileSize p) : Io _) P (.named fs) ↔
      A fs (.fileSize p) ∧ ∀ r, P r (.named fs) :=
  meets_act (o := .fileSize p) rfl rfl fun _ => trivial

@[simp] lemma meets_lastWriteTime {p : Str} {P : Except Errc Unit → Phase → Prop} :
    Meets (onFiles A) (perform (.lastWriteTime p) : Io _) P (.named fs) ↔
      A fs (.lastWriteTime p) ∧ ∀ r, P r (.named fs) :=
  meets_act (o := .lastWriteTime p) rfl rfl fun _ => trivial

@[simp] lemma meets_modifiedTimeUtc {p : Str} {P : Option Str → Phase → Prop} :
    Meets (onFiles A) (perform (.modifiedTimeUtc p) : Io _) P (.named fs) ↔
      A fs (.modifiedTime p) ∧ ∀ r, P r (.named fs) :=
  meets_act (o := .modifiedTimeUtc p) rfl rfl fun _ => trivial

@[simp] lemma meets_readDirectory {p : Str} {P : List Str × Option Errc → Phase → Prop} :
    Meets (onFiles A) (perform (.readDirectory p) : Io _) P (.named fs) ↔
      A fs (.readDirectory p) ∧ P (fs.readDirectory p) (.named fs) :=
  meets_known (o := .readDirectory p) rfl rfl fun _ => Iff.rfl

@[simp] lemma meets_regularFilesBelow {p : Str} {P : List (Except Errc ℕ) → Phase → Prop} :
    Meets (onFiles A) (perform (.regularFilesBelow p) : Io _) P (.named fs) ↔
      A fs (.scan p) ∧ P (fs.regularFilesBelow p) (.named fs) :=
  meets_known (o := .regularFilesBelow p) rfl rfl fun _ => Iff.rfl

@[simp] lemma meets_openRead {p : Str} {P : Option Fd → Phase → Prop} :
    Meets (onFiles A) (perform (.openRead p) : Io _) P (.named fs) ↔
      A fs (.openRead p) ∧ ∀ r, P r (.named fs) :=
  meets_act (o := .openRead p) rfl rfl fun _ => trivial

@[simp] lemma meets_createDirectory {p : Str} {P : Except Errc Bool → Phase → Prop} :
    Meets (onFiles A) (perform (.createDirectory p) : Io _) P (.named fs) ↔
      A fs (.createDirectory p) ∧ ∀ r, P r (.named (fs.createDirectory p).2) :=
  meets_act (o := .createDirectory p) rfl rfl fun _ => trivial

@[simp] lemma meets_createDirectories {p : Str} {P : Except Errc Bool → Phase → Prop} :
    Meets (onFiles A) (perform (.createDirectories p) : Io _) P (.named fs) ↔
      A fs (.createDirectories p) ∧ P (fs.createDirectories p).1 (.named (fs.createDirectories p).2) :=
  meets_known (o := .createDirectories p) rfl rfl fun _ => Iff.rfl

@[simp] lemma meets_remove {p : Str} {P : Except Errc Bool → Phase → Prop} :
    Meets (onFiles A) (perform (.remove p) : Io _) P (.named fs) ↔
      A fs (.remove p) ∧ ∀ r, P r (.named (fs.remove p).2) :=
  meets_act (o := .remove p) rfl rfl fun _ => trivial

@[simp] lemma meets_rename {p q : Str} {P : Except Errc Unit → Phase → Prop} :
    Meets (onFiles A) (perform (.rename p q) : Io _) P (.named fs) ↔
      A fs (.rename p q) ∧ ∀ r, P r (.named (fs.rename p q).2) :=
  meets_act (o := .rename p q) rfl rfl fun _ => trivial

@[simp] lemma meets_permissions {p : Str} {mode : ℕ} {P : Option Errc → Phase → Prop} :
    Meets (onFiles A) (perform (.permissions p mode) : Io _) P (.named fs) ↔
      A fs (.permissions p) ∧ ∀ r, P r (.named (fs.permissions p mode).2) :=
  meets_act (o := .permissions p mode) rfl rfl fun _ => trivial

@[simp] lemma meets_socket {P : Option Fd → Phase → Prop} :
    Meets (onFiles A) (perform (.socket) : Io _) P (.named fs) ↔
      ∀ r, P r (.named fs) :=
  meets_other (o := .socket) rfl rfl fun _ => trivial

@[simp] lemma meets_connect {fd : Fd} {ip : Str} {port : Int} {P : Option Peer → Phase → Prop} :
    Meets (onFiles A) (perform (.connect fd ip port) : Io _) P (.named fs) ↔
      ∀ r, P r (.named fs) :=
  meets_other (o := .connect fd ip port) rfl rfl fun _ => trivial

@[simp] lemma meets_select {fd : Fd} {P : Bool → Phase → Prop} :
    Meets (onFiles A) (perform (.select fd) : Io _) P (.named fs) ↔
      ∀ r, P r (.named fs) :=
  meets_other (o := .select fd) rfl rfl fun _ => trivial

@[simp] lemma meets_accept {fd : Fd} {P : Option (Fd × Peer) → Phase → Prop} :
    Meets (onFiles A) (perform (.accept fd) : Io _) P (.named fs) ↔
      ∀ r, P r (.named fs) :=
  meets_other (o := .accept fd) rfl rfl fun _ => trivial

@[simp] lemma meets_close {fd : Fd} {P : Unit → Phase → Prop} :
    Meets (onFiles A) (perform (.close fd) : Io _) P (.named fs) ↔
      ∀ r, P r (.named fs) :=
  meets_other (o := .close fd) rfl rfl fun _ => trivial

@[simp] lemma meets_send {fd : Fd} {data : Str} {P : Int → Phase → Prop} :
    Meets (onFiles A) (perform (.send fd data) : Io _) P (.named fs) ↔
      ∀ r, P r (.named fs) :=
  meets_other (o := .send fd data) rfl rfl fun _ => trivial

@[simp] lemma meets_steadyNow {P : ℕ → Phase → Prop} :
    Meets (onFiles A) (perform (.steadyNow) : Io _) P (.named fs) ↔ ∀ r, P r (.named fs) :=
  meets_other (o := .steadyNow) rfl rfl fun _ => trivial

@[simp] lemma meets_systemNow {P : Int → Phase → Prop} :
    Meets (onFiles A) (perform (.systemNow) : Io _) P (.named fs) ↔ ∀ r, P r (.named fs) :=
  meets_other (o := .systemNow) rfl rfl fun _ => trivial

@[simp] lemma meets_fstat {fd : Fd} {P : Option (Bool × ℕ) → Phase → Prop} :
    Meets (onFiles A) (perform (.fstat fd) : Io _) P (.named fs) ↔ ∀ r, P r (.named fs) :=
  meets_other (o := .fstat fd) rfl rfl fun _ => trivial

@[simp] lemma meets_orThrow (x : Except Errc α) {P : α → Phase → Prop} :
    Meets (onFiles A) (orThrow x) P g ↔ ∀ a, x = .ok a → P a g := by
  cases x <;> simp [orThrow]

@[simp] lemma meets_sendResponse (r : Reply) {P : Unit → Phase → Prop} :
    Meets (onFiles A) (s.sendResponse r) P g ↔ P () g := by
  have hquiet {α : Type} {o : Call α} (ho : o.kind ∈ quietKinds) (hpost : ∀ r, (onFiles A).post g o r)
      {P : α → Phase → Prop} : Meets (onFiles A) (perform o : Io α) P g ↔ ∀ r, P r g := by
    simp [meets_perform, onFiles_quiet o ho, hpost]
  unfold Session.sendResponse
  split
  · simp
  · rw [meets_bind, hquiet (by simp [Call.kind, quietKinds]) (fun _ => by cases g <;> trivial)]
    simp only [meets_ite, meets_pure, hquiet (o := .deactivate) (by simp [Call.kind, quietKinds])
      (fun _ => by cases g <;> trivial)]
    refine ⟨fun h => (h true).1 rfl, fun h r => ?_⟩
    exact ⟨fun _ => h, fun _ _ => h⟩

@[simp] lemma meets_reply (code : ℕ) (text : Str) {P : Unit → Phase → Prop} :
    Meets (onFiles A) (s.reply code text) P g ↔ P () g := meets_sendResponse _

@[simp] lemma meets_sendLines (rs : List Reply) {P : Unit → Phase → Prop} :
    Meets (onFiles A) (s.sendLines rs) P g ↔ P () g := by
  induction rs with
  | nil => simp [Session.sendLines]
  | cons r rs ih => simp [Session.sendLines, ih]

lemma meets_closing_any (n : Fd) {P : Unit → Phase → Prop} :
    Meets (onFiles A) (perform (.close n)) P g ↔ P () ((onFiles A).next g (.close n) ()) := by
  rw [meets_perform]
  constructor
  · exact fun h => h.2 () (by cases g <;> trivial)
  · refine fun h => ⟨?_, fun _ _ => h⟩
    cases g with
    | named fs => exact ⟨fun _ h => absurd h (Option.some_ne_none _).symm, rfl⟩
    | writing fs fd p => exact ⟨rfl, fun _ h => absurd h (Option.some_ne_none _).symm⟩
    | ended => exact ⟨rfl, rfl⟩

lemma meets_openWrite {p : Str} {mode : FileSystem.OpenMode} {P : Option Fd → Phase → Prop}
    (ha : A fs (.openWrite p mode)) (hnone : P none (.named (fs.openWrite p mode).2))
    (hsome : ∀ fd, P (some fd) (.writing (fs.openWrite p mode).2 fd p)) :
    Meets (onFiles A) (perform (.openWrite p mode) : Io _) P (.named fs) := by
  refine (meets_act (o := .openWrite p mode) rfl rfl fun _ => trivial).2 ⟨ha, fun r => ?_⟩
  cases r with
  | none => exact hnone
  | some fd => exact hsome fd

end Rules

namespace DataConnection

variable (d : DataConnection)

def CanOpen : Prop :=
  if d.active_mode_enabled_ then
    d.active_mode_ip_ ≠ [] ∧ 0 < d.active_mode_port_ ∧ (inetPton d.active_mode_ip_).isSome
  else d.passive_listen_socket_.isSome

instance : Decidable d.CanOpen := by
  unfold CanOpen
  infer_instance

end DataConnection

def chmodTarget (argument : Str) : Str := trimLeft (getline (extract (extract argument).2).2)

namespace Command

def permit : Command → Option (Str × Str)
  | ⟨.list, _⟩ => some ("list", [])
  | ⟨.mlsd, a⟩ => some ("list", a)
  | ⟨.retr, a⟩ => some ("read", a)
  | ⟨.appe, a⟩ | ⟨.dele, a⟩ | ⟨.mkd, a⟩ | ⟨.rmd, a⟩ | ⟨.rnfr, a⟩ | ⟨.rnto, a⟩ => some ("write", a)
  | ⟨.site, a⟩ => some ("write", chmodTarget a)
  | _ => none

def named : Command → Option Str
  | ⟨.cwd, a⟩ | ⟨.list, a⟩ | ⟨.mlsd, a⟩ | ⟨.mlst, a⟩ | ⟨.mdtm, a⟩ | ⟨.stat, a⟩ | ⟨.retr, a⟩
  | ⟨.appe, a⟩ | ⟨.dele, a⟩ | ⟨.mkd, a⟩ | ⟨.rmd, a⟩ | ⟨.rnfr, a⟩ | ⟨.rnto, a⟩ => some a
  | ⟨.cdup, _⟩ => some ".."
  | ⟨.site, a⟩ => some (chmodTarget a)
  | _ => none

end Command

def Verb.acts (p : Str) : Verb → List Act
  | .cwd | .cdup | .mlsd | .rnfr | .rnto => [.status p]
  | .list => [.status p, .fileSize p]
  | .mlst | .stat => [.status p, .fileSize p, .modifiedTime p]
  | .mdtm => [.status p, .modifiedTime p]
  | .retr => [.status p, .openRead p]
  | .dele | .rmd => [.status p, .remove p]
  | .mkd => [.createDirectory p]
  | .site => [.permissions p]
  | .appe => [.status p, .openWrite p .append, .openWrite p .truncate]
  | _ => []

namespace Session

variable (env : Service) (s : Session) (fs : FileSystem)

structure Vets (c : Command) (a : Str) : Prop where
  named : c.named = some a
  permitted : ∀ operation path, c.permit = some (operation, path) → s.hasPermission fs operation path = true
  valid : s.validatePath fs (s.resolvePath fs a) = true

def allows (operation p : Str) : Bool := s.current_user_.any fun u => u.hasPermission fs operation p

variable {s fs} in
lemma allows_of_hasPermission {operation name : Str} (h : s.hasPermission fs operation name = true) :
    s.allows fs operation (s.resolvePath fs name) = true := by
  unfold hasPermission at h
  unfold allows
  split at h
  · cases h
  · rename_i u hu
    rw [hu]
    split at h
    · rename_i hname
      simpa [hname, resolvePath] using h
    · exact h

def Admits (name : Str) : Prop :=
  s.hasPermission fs "write" name = true ∧ s.validatePath fs (s.resolvePath fs name) = true

def withParents (p : Str) : FileSystem :=
  if Path.hasParentPath p then (fs.createDirectories (Path.parentPath p)).2 else fs

def HasParents (p : Str) : Prop :=
  Path.hasParentPath p = true → ∃ made, (fs.createDirectories (Path.parentPath p)).1 = .ok made

/-- What STOR asks for before it stores a file it may store: room, a mode it can be sent in, and an
endpoint or a listener for the data connection. -/
structure Proceeds : Prop where
  room : ∀ u, s.current_user_ = some u → 0 < s.storageQuota →
    directorySize (fs.regularFilesBelow u.home_directory_) < s.storageQuota
  mode : s.transferModeZ = true → s.resume_position_ ≤ 0 ∧ env.compressionEnabled = true
  opens : s.data.CanOpen

inductive StoreAccess (name : Str) : FileSystem → Act → Prop
  | scan (u : FTPUser) : s.Admits fs name → s.current_user_ = some u → 0 < s.storageQuota →
    StoreAccess name fs (.scan u.home_directory_)
  | parents : s.Admits fs name → s.Proceeds env fs → Path.hasParentPath (s.resolvePath fs name) = true →
    StoreAccess name fs (.createDirectories (Path.parentPath (s.resolvePath fs name)))
  | resume : s.Admits fs name → s.Proceeds env fs → HasParents fs (s.resolvePath fs name) →
    0 < s.resume_position_ →
    StoreAccess name (withParents fs (s.resolvePath fs name)) (.status (s.resolvePath fs name))
  | target (mode : FileSystem.OpenMode) : s.Admits fs name → s.Proceeds env fs →
    HasParents fs (s.resolvePath fs name) →
    StoreAccess name (withParents fs (s.resolvePath fs name)) (.openWrite (s.resolvePath fs name) mode)
  | content (mode : FileSystem.OpenMode) : s.Admits fs name → s.Proceeds env fs →
    HasParents fs (s.resolvePath fs name) →
    StoreAccess name ((withParents fs (s.resolvePath fs name)).openWrite (s.resolvePath fs name) mode).2
      (.write (s.resolvePath fs name))

def candidate (argument : Str) (n : ℕ) : Str :=
  (if argument = [] then ("ftpd" : Str) else Path.filename argument) ++ "." ++ decimal n

def candidatePath (argument : Str) (n : ℕ) : Str := s.current_directory_ ++ "/" ++ candidate argument n

def Tries (argument : Str) (n : ℕ) : Prop :=
  n < 10000 ∧ ∀ m < n, isThere (fs.status (s.candidatePath argument m)) = true

def storingUnique (name : Str) : Session := { s with store_unique_name_ := name, resume_position_ := 0 }

/-- What a command does to files when its session finds the tree `fs`: each act, the checks that
passed before it, and the tree it meets. -/
inductive Access : Command → FileSystem → Act → Prop
  | path {c : Command} {a : Str} {act : Act} : s.Vets fs c a →
    act ∈ c.verb.acts (s.resolvePath fs a) → Access c fs act
  | listing {c : Command} {a : Str} : s.Vets fs c a → c.verb ∈ [.list, .mlsd, .stat] →
    fs.status (s.resolvePath fs a) = .ok .directory → (c.verb = .stat → a ≠ []) →
    (c.verb ≠ .stat → s.data.CanOpen) → Access c fs (.readDirectory (s.resolvePath fs a))
  | entry {c : Command} {a name q : Str} {act : Act} : s.Vets fs c a →
    name ∈ (fs.readDirectory (s.resolvePath fs a)).1 → q = Path.join (s.resolvePath fs a) name →
    act ∈ [.status q, .fileSize q, .lastWriteTime q, .modifiedTime q] → Access c fs act
  | size {a : Str} {act : Act} : act ∈ [.status (s.resolvePath fs a), .fileSize (s.resolvePath fs a)] →
    Access ⟨.size, a⟩ fs act
  | unique {a : Str} {n : ℕ} : s.Tries fs a n → Access ⟨.stou, a⟩ fs (.status (s.candidatePath a n))
  | store {a : Str} {fs' : FileSystem} {act : Act} : s.StoreAccess env fs a fs' act → Access ⟨.stor, a⟩ fs' act
  | storeUnique {a : Str} {n : ℕ} {fs' : FileSystem} {act : Act} : s.Tries fs a n →
    isThere (fs.status (s.candidatePath a n)) = false →
    (s.storingUnique (candidate a n)).StoreAccess env fs (candidate a n) fs' act → Access ⟨.stou, a⟩ fs' act
  | append {a : Str} {found : FileType} : s.Vets fs ⟨.appe, a⟩ a → s.transferModeZ = false →
    s.data.CanOpen → fs.status (s.resolvePath fs a) = .ok found →
    Access ⟨.appe, a⟩ (fs.openWrite (s.resolvePath fs a) (if found ≠ .notFound then .append else .truncate)).2
      (.write (s.resolvePath fs a))
  | rename {a : Str} : s.Vets fs ⟨.rnto, a⟩ a → s.rename_from_path_ ≠ [] →
    fs.status (s.resolvePath fs a) = .ok .notFound →
    Access ⟨.rnto, a⟩ fs (.rename s.rename_from_path_ (s.resolvePath fs a))
  | confine {a : Str} {act : Act} : env.config_.security.chroot_enabled = true →
    act ∈ [.status env.config_.security.chroot_directory, .chroot env.config_.security.chroot_directory] →
    Access ⟨.pass, a⟩ fs act

end Session

end SimpleSftpd
