import SimpleSftpd.Core.Conduct
import SimpleSftpd.Core.InsidePaths
import SimpleSftpd.Core.Transfers
import SimpleSftpd.Sessions.ClientPaths
import SimpleSftpd.Sessions.CurrentDirectory
import SimpleSftpd.Sessions.UniqueNames

/-! Which paths a command touches, in trees without links, and what its reply tells of those it refuses. The
look-ups of `weakly_canonical`, with which paths are resolved and judged, do not count as touching them. -/

namespace SimpleSftpd

open Cxx Path Interaction Prog

namespace Cxx.FileSystem

/-- Every node stands under names, as `mkdir` and `creat` take them. -/
def Named (fs : FileSystem) : Prop := ∀ e ∈ fs.nodes, ∀ c ∈ e.1, IsName c

/-- What `create_directories` looks at or makes: a path and, while it is missing, what is above it. -/
def climbed (fs : FileSystem) : ℕ → Str → List Str
  | 0, _ => []
  | n + 1, p =>
    if p = [] then [] else p :: if fs.status p = .ok .notFound then fs.climbed n (parentPath p) else []

lemma Named.readDirectory {fs : FileSystem} (h : fs.Named) {p name : Str} (hn : name ∈ (fs.readDirectory p).1) :
    IsName name := by
  unfold FileSystem.readDirectory at hn
  split at hn
  · cases hn
  · split at hn
    · obtain ⟨⟨l, n⟩, he, hlast⟩ := List.mem_filterMap.1 hn
      dsimp only at hlast
      split at hlast
      · exact h _ he name (List.mem_of_getLast? hlast)
      · cases hlast
    · cases hn
    · cases hn

end Cxx.FileSystem

def Act.paths (fs : FileSystem) : Act → List Str
  | .status p | .fileSize p | .lastWriteTime p | .modifiedTime p | .readDirectory p | .scan p | .openRead p
  | .createDirectory p | .remove p | .permissions p | .openWrite p _ | .write p | .chroot p => [p]
  | .createDirectories p => fs.climbed p.length p
  | .rename p q => [p, q]

def Call.files (fs : FileSystem) {β : Type} : Call β → List Str
  | .sslInitialize cert key ca => [cert, key] ++ if ca = [] then [] else [ca]
  | c => (c.act?.map (Act.paths fs)).getD []

def Session.clientPath? (s : Session) : Command → Option Str
  | ⟨.cdup, _⟩ => some ".."
  | ⟨.mdtm, a⟩ | ⟨.stat, a⟩ => if a = [] then none else some a
  | ⟨.rnto, a⟩ => if s.rename_from_path_ = [] then none else some a
  | ⟨.site, a⟩ =>
    if upper (extract a).1 = "CHMOD" ∧ (extract (extract a).2).1 ≠ [] ∧ chmodTarget a ≠ [] then
      some (chmodTarget a)
    else none
  | ⟨.cwd, a⟩ | ⟨.list, a⟩ | ⟨.mlsd, a⟩ | ⟨.mlst, a⟩ | ⟨.size, a⟩ | ⟨.retr, a⟩ | ⟨.stor, a⟩ | ⟨.appe, a⟩
  | ⟨.dele, a⟩ | ⟨.mkd, a⟩ | ⟨.rmd, a⟩ | ⟨.rnfr, a⟩ => some a
  | _ => none

def Command.asks : Command → Option (Str × Str)
  | ⟨.stor, a⟩ => some ("write", a)
  | c => c.permit

def Service.confinements (env : Service) : List Str :=
  let chroot_dir := env.config_.security.chroot_directory
  if env.config_.security.chroot_enabled ∧ chroot_dir ≠ [] then [chroot_dir] else []

namespace Session

variable (env : Service) (me : SessionId) (s : Session) (fs : FileSystem)

/-- Component by component, the path is inside the user's home directory and the root of the selected host. -/
def Encloses (p : Str) : Prop := ∃ u ∈ s.current_user_, ∀ b ∈ s.bounds u, components b <+: components p

/-- The session as it acts for a command: PASS has looked up its user by then. -/
def acting (a : Arrival) : Session :=
  if a.command.verb = .pass then
    { s with current_user_ := (s.verifiedUser env a.world a.command.argument).or (s.storedUser env) }
  else s

def StaysInside (a : Arrival) : Prop :=
  ∀ c ∈ s.trace env me a, ∀ p ∈ c.2.2.files c.1.fs, (s.acting env a).Encloses p

def permits (c : Command) : Bool := match c.asks with
  | some (operation, path) => s.hasPermission fs operation path
  | none => true

/-- Trees without links that differ from `fs` only at a path and below it. -/
def Elsewhere (p : Str) (fs' : FileSystem) : Prop :=
  (∃ nodes, fs' = { fs with nodes }) ∧ fs'.LinkFree ∧
    ∀ m, ¬(fs.root ++ components p) <+: m → fs'.node m = fs.node m

/-- A command that names a path outside is refused, and the refusal says nothing of what there is at the path. -/
def RefusesAlike (a : Arrival) : Prop :=
  ∀ name, s.clientPath? a.command = some name → ¬s.Encloses (s.resolvePath a.world.fs name) →
    (∀ c ∈ s.trace env me a, c.2.2.files c.1.fs = []) ∧
    (∃ code text, (s.trace env me a).replies = [.final code text] ∧ 500 ≤ code) ∧
    ∀ fs', Elsewhere a.world.fs (s.resolvePath a.world.fs name) fs' →
      (s.trace env me (a.on fs')).replies = (s.trace env me a).replies

/-- The files with which AUTH sets up TLS for the selected host. -/
def certificates (method : Str) : List Str :=
  if (upper method = "TLS" ∨ upper method = "SSL") ∧ s.ssl_active_ = false then
    match s.current_virtual_host_ with
    | none => []
    | some h =>
      if h.ssl_cert_file_ = [] ∨ h.ssl_key_file_ = [] then []
      else [h.ssl_cert_file_, h.ssl_key_file_] ++ if h.ssl_ca_file_ = [] then [] else [h.ssl_ca_file_]
  else []

/-- Storing under `name` looks into the home directory for the quota, and climbs from the target for the
directories that are missing. -/
def StoresInside (name : Str) : Prop :=
  s.Admits fs name →
    (∀ u ∈ s.current_user_, ∀ h ∈ s.current_virtual_host_, 0 < s.storageQuota →
      components h.root_directory_ <+: components u.home_directory_) ∧
    (s.Proceeds env fs → hasParentPath (s.resolvePath fs name) = true →
      ∀ p ∈ fs.climbed (parentPath (s.resolvePath fs name)).length (parentPath (s.resolvePath fs name)),
        s.Encloses p)

/-- What the handlers leave unchecked: the certificates of AUTH, the directory a login is confined to, the path
of SIZE, what STOR and STOU look at beside their target, the directory in which STOU tries names and the source
RNTO moves. -/
def ActsInside (w : World) : Command → Prop
  | ⟨.auth, a⟩ => ∀ p ∈ s.certificates a, s.Encloses p
  | ⟨.pass, a⟩ => ∀ u ∈ s.verifiedUser env w a, s.hasRoom env w = true → ∀ p ∈ env.confinements,
      { s with current_user_ := some u }.Encloses p
  | ⟨.size, a⟩ => s.authenticated_ = true → s.Encloses (s.resolvePath w.fs a)
  | ⟨.stor, a⟩ => s.authenticated_ = true → s.StoresInside env w.fs a
  | ⟨.stou, a⟩ => s.authenticated_ = true → s.Encloses s.current_directory_ ∧ ∀ n, s.Tries w.fs a n →
      isThere (w.fs.status (s.candidatePath a n)) = false →
        (s.storingUnique (candidate a n)).StoresInside env w.fs (candidate a n)
  | ⟨.rnto, a⟩ => s.authenticated_ = true → s.Vets w.fs ⟨.rnto, a⟩ a → s.rename_from_path_ ≠ [] →
      w.fs.status (s.resolvePath w.fs a) = .ok .notFound → s.Encloses s.rename_from_path_
  | _ => True

/-- The permission, asked for before the path is checked, does not hang on what there is at a path outside,
unless the host gives both refusals one text. -/
def DecidesAlike (c : Command) : Prop :=
  s.authenticated_ = true → ∀ a, s.clientPath? c = some a → ¬s.Encloses (s.resolvePath fs a) →
    ∀ fs', Elsewhere fs (s.resolvePath fs a) fs' → s.permits fs' c = s.permits fs c ∨
      ∃ h ∈ s.current_virtual_host_, h.getCustomError (decimal 550) ≠ []

/-- In a tree without links, and with no NUL in the line or in a path that is kept, at which the system calls
would stop. -/
structure KeepsInside (a : Arrival) : Prop where
  linkFree : a.world.fs.LinkFree
  named : a.world.fs.Named
  nulFree : 0 ∉ a.line ∧ ∀ p ∈ s.rename_from_path_ :: s.landmarks, 0 ∉ p
  acts : s.ActsInside env a.world a.command
  decides : s.DecidesAlike a.world.fs a.command

variable {env me s fs} {fs' : FileSystem} {p a : Str} {w : World} {α : Type}

lemma encloses_of_valid (hfs : fs.LinkFree) (h : s.validatePath fs p = true) : s.Encloses p := by
  obtain ⟨⟨u, hu, hhome⟩, hhost⟩ := validatePath_iff.1 h
  refine ⟨u, hu, ?_⟩
  rw [bounds, List.forall_mem_cons]
  refine ⟨inside_of_isWithin hfs hhome, ?_⟩
  cases hh : s.current_virtual_host_ with
  | none => simp
  | some host =>
    rw [List.forall_mem_singleton]
    by_cases hroot : host.root_directory_ = []
    · rw [hroot]
      exact List.nil_prefix
    · exact inside_of_isWithin hfs (hhost host hh hroot)

lemma components_resolvePath (hfs : fs.LinkFree) (hfs' : fs'.LinkFree) (a : Str) :
    components (s.resolvePath fs' a) = components (s.resolvePath fs a) := by
  unfold resolvePath
  split
  · rfl
  · rw [components_normalizeForComparison hfs, components_normalizeForComparison hfs']

lemma Encloses.congr {q : Str} (h : s.Encloses p) (hq : components q = components p) : s.Encloses q := by
  obtain ⟨u, hu, hbounds⟩ := h
  exact ⟨u, hu, fun b hb => hq ▸ hbounds b hb⟩

lemma walkFrom_name {name : Str} (hname : IsName name) (cs : List Str) : walkFrom cs name = cs ++ [name] := by
  rw [walkFrom, pieces_no_slash hname.slash, List.foldl_cons, List.foldl_nil, step, if_neg, hname.dotDot]
  · rfl
  · rw [hname.dot]
    simpa using hname.nonempty

lemma Encloses.join {name : Str} (h : s.Encloses p) (hname : IsName name) : s.Encloses (join p name) := by
  obtain ⟨u, hu, hbounds⟩ := h
  refine ⟨u, hu, fun b hb => (hbounds b hb).trans ?_⟩
  have hrelative : isAbsolute name = false := decide_eq_false fun he => hname.slash (List.mem_of_head? he)
  rw [components_eq (Path.join p name), leads_join hrelative, walkFrom_name hname]
  exact List.prefix_append _ _

lemma Encloses.candidate (h : s.Encloses s.current_directory_) (a : Str) (n : ℕ) :
    s.Encloses (s.candidatePath a n) := by
  obtain ⟨u, hu, hbounds⟩ := h
  have hname : IsName (Session.candidate a n) := isName_candidate (slash_base a) n
  refine ⟨u, hu, fun b hb => (hbounds b hb).trans ?_⟩
  have hpath : s.candidatePath a n = s.current_directory_ ++ 47 :: Session.candidate a n := by
    rw [candidatePath, List.append_assoc]
    rfl
  have hwalk : components (s.candidatePath a n) = walkFrom (components s.current_directory_)
      (Session.candidate a n) := by
    rw [hpath, components, walkFrom, pieces_append, List.foldl_append]
    rfl
  rw [hwalk, walkFrom_name hname]
  exact List.prefix_append _ _

def Touches (ps : List Str) (o : Σ β, Call β) : Prop := ∀ fs, o.2.files fs ⊆ ps

lemma touches_of_kinds {ks : List Kind} {ps : List Str} {q : Io α} {P : α → Prop} (h : q.Within (Kinds ks) P)
    (hk : ks ⊆ [.reply, .clock, .census, .register]) : q.Within (Touches ps) fun _ => True := by
  refine h.mono (fun o ho fs => ?_) fun _ _ => trivial
  have hkind := hk ho
  obtain ⟨_, c⟩ := o
  cases c <;> first | exact List.nil_subset _ | simp [Call.kind] at hkind

lemma touches_reply (ps : List Str) (code : ℕ) (text : Str) (t : α) :
    (s.reply code text >>= fun _ => pure t).Within (Touches ps) fun _ => True := by
  have hreply : (s.reply code text >>= fun _ => pure t).Within (Kinds [.reply]) fun _ => True := by simp
  exact touches_of_kinds hreply (by simp)

lemma not_mem_files {q : Io α} {P : α → Prop} (h : q.Within (Touches []) P) {c : World × Σ β, Call β}
    (hc : c ∈ q.calls (World.machine me) w) : p ∉ c.2.2.files c.1.fs :=
  fun hp => List.not_mem_nil (h.calls _ w c hc c.1.fs hp)

lemma mem_files {c : Call β} (h : p ∈ c.files fs) (hk : c.kind ≠ .account) :
    ∃ act, c.act? = some act ∧ p ∈ act.paths fs := by
  cases c with
  | sslInitialize => exact absurd rfl hk
  | _ => first | exact ⟨_, rfl, h⟩ | cases h

lemma loadHostCertificate_files {method : Str} (hmethod : upper method = "TLS" ∨ upper method = "SSL")
    (hactive : s.ssl_active_ = false) :
    s.loadHostCertificate.Within (Touches (s.certificates method)) fun _ => True := by
  rw [certificates, if_pos ⟨hmethod, hactive⟩]
  unfold loadHostCertificate
  cases s.current_virtual_host_ with
  | none => exact (within_pure _).2 trivial
  | some h =>
    refine within_ite.2 ⟨fun _ => (within_pure _).2 trivial, fun hfiles => ?_⟩
    refine (within_call _ _).2 ⟨fun fs => ?_, fun _ => (within_pure _).2 trivial⟩
    simp only [if_neg hfiles]
    exact List.Subset.refl _

lemma handleAUTH_files (method : Str) :
    (s.handleAUTH method).Within (Touches (s.certificates method)) fun _ => True := by
  refine within_ite.2 ⟨fun hmethod => within_ite.2 ⟨fun _ => touches_reply _ _ _ _, fun hactive => ?_⟩,
    fun _ => touches_reply _ _ _ _⟩
  refine (loadHostCertificate_files hmethod (Bool.eq_false_iff.2 hactive)).bind fun t => ?_
  refine within_ite.2 ⟨fun _ => touches_reply _ _ _ _, fun _ => ?_⟩
  have hreply : (t.reply 234 "AUTH TLS successful").Within (Kinds [.reply]) fun _ => True := by simp
  refine (touches_of_kinds hreply (by simp)).bind fun _ => ?_
  refine (within_call _ _).2 ⟨fun _ => List.nil_subset _, fun upgraded => within_ite.2 ⟨fun _ => ?_, fun _ => ?_⟩⟩
  · exact (within_call _ _).2 ⟨fun _ => List.nil_subset _, fun _ => (within_pure _).2 trivial⟩
  · exact (within_pure _).2 trivial

lemma checkPassword_files (password : Str) :
    (s.checkPassword env password).Within (Touches []) fun _ => True := by
  refine (within_call _ _).2 ⟨fun _ => List.nil_subset _, fun now => within_ite.2 ⟨fun _ => ?_, fun _ => ?_⟩⟩
  · exact (within_pure _).2 trivial
  refine within_ite.2 ⟨fun _ => ?_, fun _ => (within_pure _).2 trivial⟩
  refine (within_call _ _).2 ⟨fun _ => List.nil_subset _, fun accepted => within_ite.2 ⟨fun _ => ?_, fun _ => ?_⟩⟩
  · refine (within_call _ _).2 ⟨fun _ => List.nil_subset _, fun pw_dir => ?_⟩
    exact (within_call _ _).2 ⟨fun _ => List.nil_subset _, fun salt => (within_pure _).2 trivial⟩
  · exact (within_pure _).2 trivial

lemma loginDirectory_files (u : FTPUser) :
    (loginDirectory env u).Within (Touches env.confinements) fun _ => True := by
  rw [loginDirectory_eq, applyChroot, Service.confinements]
  refine within_ite.2 ⟨fun hguard => ?_, fun _ => (within_pure _).2 trivial⟩
  rw [if_pos hguard]
  have hfound (x : Except Errc FileType) : (orThrow x).Within (Touches [env.config_.security.chroot_directory])
      fun _ => True := by
    cases x with
    | ok t => exact (within_pure t).2 trivial
    | error e => exact within_throw _
  refine within_bind.2 ((within_perform _).2 ⟨fun _ => List.Subset.refl _, fun x => ?_⟩)
  refine (hfound x).bind fun found => ?_
  refine within_ite.2 ⟨fun _ => (within_pure _).2 trivial, fun _ => ?_⟩
  exact within_bind.2 ((within_perform _).2 ⟨fun _ => List.Subset.refl _, fun _ => (within_pure _).2 trivial⟩)

lemma logIn_files (u : FTPUser) : (s.logIn env u).Within (Touches env.confinements) fun _ => True := by
  have hregister : (s.register env).Within (Kinds [.register]) fun _ => True := by
    simp [register, Call.kind]
  refine (loginDirectory_files u).bind fun dir => ?_
  exact (touches_of_kinds hregister (by simp)).bind fun _ => touches_reply _ _ _ _

lemma finishLogin_files {u : FTPUser} (hu : s.current_user_ = some u) {c : World × Σ β, Call β}
    (hc : c ∈ (s.finishLogin env true).calls (World.machine me) w) (hp : p ∈ c.2.2.files c.1.fs) :
    s.hasRoom env w = true ∧ p ∈ env.confinements := by
  unfold finishLogin at hc
  rw [hu] at hc
  obtain ⟨r, hr, hroom⟩ := s.sessionLimit_exec env me w
  have hlimit : (s.sessionLimit env).Within (Kinds [.census]) fun _ => True := sessionLimit_within (by simp)
  rw [calls_bind, hr, List.mem_append] at hc
  rcases hc with hc | hc
  · exact absurd hp (not_mem_files (touches_of_kinds hlimit (by simp)) hc)
  · cases r with
    | some refusal => exact absurd hp (not_mem_files (touches_reply [] 530 refusal s) hc)
    | none => exact ⟨hroom.1 rfl, (logIn_files u).calls _ w c hc c.1.fs hp⟩

lemma handlePASS_files {password : Str} {c : World × Σ β, Call β}
    (hc : c ∈ (s.handlePASS env password).calls (World.machine me) w) (hp : p ∈ c.2.2.files c.1.fs) :
    ∃ u ∈ s.verifiedUser env w password, s.hasRoom env w = true ∧ p ∈ env.confinements := by
  by_cases hname : s.username_ = []
  · rw [handlePASS, if_pos hname] at hc
    exact absurd hp (not_mem_files (touches_reply [] 503 _ s) hc)
  · rw [handlePASS, if_neg hname, calls_bind, checkPassword_exec, List.mem_append] at hc
    rcases hc with hc | hc
    · exact absurd hp (not_mem_files (checkPassword_files password) hc)
    · cases hu : s.verifiedUser env w password with
      | none =>
        rw [hu] at hc
        dsimp only at hc
        rw [finishLogin_false] at hc
        exact absurd hp (not_mem_files (touches_reply [] 530 _ _) hc)
      | some u =>
        rw [hu] at hc
        have hfinish := finishLogin_files (s := { s with current_user_ := some u }) rfl hc hp
        exact ⟨u, rfl, hfinish⟩

lemma StoreAccess.enclosed {name : Str} {fs' : FileSystem} {act : Act} (hfs : fs.LinkFree)
    (hstores : s.StoresInside env fs name) (h : s.StoreAccess env fs name fs' act) :
    ∀ p ∈ act.paths fs', s.Encloses p := by
  have htarget (ha : s.Admits fs name) : s.Encloses (s.resolvePath fs name) := encloses_of_valid hfs ha.2
  cases h with
  | scan u ha hu hquota =>
    intro p hp
    rw [List.mem_singleton.1 hp]
    refine ⟨u, hu, ?_⟩
    rw [bounds, List.forall_mem_cons]
    refine ⟨List.prefix_rfl, ?_⟩
    cases hh : s.current_virtual_host_ with
    | none => simp
    | some h =>
      rw [List.forall_mem_singleton]
      exact (hstores ha).1 u hu h hh hquota
  | parents ha hproceeds hparent => exact (hstores ha).2 hproceeds hparent
  | resume ha | target _ ha | content _ ha =>
    intro p hp
    rw [List.mem_singleton.1 hp]
    exact htarget ha

lemma Access.enclosed {c : Command} {act : Act} (hfs : w.fs.LinkFree) (hnamed : w.fs.Named)
    (hpass : c.verb ≠ .pass) (hlogged : s.authenticated_ = true) (hacts : s.ActsInside env w c)
    (h : s.Access env w.fs c fs' act) : ∀ p ∈ act.paths fs', s.Encloses p := by
  have hvetted {c : Command} {a : Str} (hv : s.Vets w.fs c a) : s.Encloses (s.resolvePath w.fs a) :=
    encloses_of_valid hfs hv.valid
  have hat {q : Str} {act : Act} {fs' : FileSystem} (hpaths : act.paths fs' = [q]) (hq : s.Encloses q) :
      ∀ p ∈ act.paths fs', s.Encloses p := by
    rw [hpaths, List.forall_mem_singleton]
    exact hq
  cases h with
  | @path c a act hvets hact =>
    refine hat ?_ (hvetted hvets)
    revert hact
    cases c.verb <;> simp only [Verb.acts, List.mem_cons, List.not_mem_nil, or_false, false_implies]
    all_goals rintro (rfl | rfl | rfl)
    all_goals rfl
  | listing hvets => exact hat rfl (hvetted hvets)
  | @entry c a name q act hvets hname hq hact =>
    refine hat (q := q) ?_ (hq ▸ (hvetted hvets).join (hnamed.readDirectory hname))
    simp only [List.mem_cons, List.not_mem_nil, or_false] at hact
    rcases hact with rfl | rfl | rfl | rfl <;> rfl
  | @size a act hact =>
    refine hat ?_ (hacts hlogged)
    simp only [List.mem_cons, List.not_mem_nil, or_false] at hact
    rcases hact with rfl | rfl <;> rfl
  | unique => exact hat rfl ((hacts hlogged).1.candidate _ _)
  | store haccess => exact haccess.enclosed hfs (hacts hlogged)
  | @storeUnique a n _ _ htries hfree haccess =>
    have hstore := StoreAccess.enclosed (s := s.storingUnique (candidate a n)) hfs
      ((hacts hlogged).2 n htries hfree) haccess
    exact hstore
  | append hvets => exact hat rfl (hvetted hvets)
  | rename hvets hsource hmissing =>
    rw [Act.paths, List.forall_mem_cons, List.forall_mem_singleton]
    exact ⟨hacts hlogged hvets hsource hmissing, hvetted hvets⟩
  | confine => exact absurd rfl hpass

lemma named_afterLogin {c : Command} {name : Str} (h : c.named = some name) : c.verb.beforeLogin = false := by
  rcases c with ⟨v, b⟩
  cases v <;> first | rfl | cases h

lemma Access.afterLogin {c : Command} {act : Act} (h : s.Access env fs c fs' act)
    (hb : c.verb.beforeLogin = true) : c.verb = .pass := by
  have hunnamed {name : Str} (hname : c.named = some name) : c.verb = .pass := by
    rw [named_afterLogin hname] at hb
    cases hb
  cases h with
  | path hvets | listing hvets | entry hvets => exact hunnamed hvets.named
  | confine => rfl
  | _ => cases hb

lemma account_notMem {v : Verb} (hauth : v ≠ .auth) (hpass : v ≠ .pass) (d : DataConnection) :
    .account ∉ v.kinds d := by
  cases v <;> simp [Verb.kinds, dataKinds, storeKinds, retrieveKinds, DataConnection.connectKinds] at hauth hpass ⊢

lemma trace_files {a : Arrival} (hauth : a.command.verb ≠ .auth) (hpass : a.command.verb ≠ .pass)
    {c : World × Σ β, Call β} (hc : c ∈ s.trace env me a) (hp : p ∈ c.2.2.files c.1.fs) :
    s.authenticated_ = true ∧ ∃ act, s.Access env a.world.fs a.command c.1.fs act ∧ p ∈ act.paths c.1.fs := by
  have hkind : c.2.2.kind ∈ .reply :: a.command.verb.kinds s.data := (dispatch_within a.line).calls _ _ c hc
  obtain ⟨act, hact, hin⟩ := mem_files hp fun haccount => by
    rw [haccount] at hkind
    exact account_notMem hauth hpass s.data ((List.mem_cons.1 hkind).resolve_left nofun)
  have haccess := trace_access hc hact
  rcases trace_logged hc (Call.kind_of_act hact) with hb | hlogged
  · exact absurd (haccess.afterLogin hb) hpass
  · exact ⟨hlogged, act, haccess, hin⟩

lemma KeepsInside.staysInside {a : Arrival} (h : s.KeepsInside env a) : s.StaysInside env me a := by
  intro c hc p hp
  have hacts := h.acts
  by_cases hpass : a.command.verb = .pass
  · rw [trace, dispatch_pass hpass] at hc
    obtain ⟨u, hu, hroom, hin⟩ := handlePASS_files hc hp
    rw [Arrival.command_eq hpass] at hacts
    rw [acting, if_pos hpass, hu]
    exact hacts u hu hroom p hin
  · rw [acting, if_neg hpass]
    by_cases hauth : a.command.verb = .auth
    · have hearly : a.command.verb.beforeLogin = true := by rw [hauth]; rfl
      rw [trace, dispatch_handle (.inl hearly), Arrival.command_eq hauth] at hc
      rw [Arrival.command_eq hauth] at hacts
      exact hacts p ((handleAUTH_files _).calls _ _ c hc c.1.fs hp)
    · obtain ⟨hlogged, act, haccess, hin⟩ := trace_files hauth hpass hc hp
      exact haccess.enclosed h.linkFree h.named hpass hlogged hacts p hin

lemma Access.inside {c : Command} {name : Str} {act : Act} (hfs : fs.LinkFree) (hc : s.clientPath? c = some name)
    (hsize : c.verb = .size → s.Encloses (s.resolvePath fs name)) (h : s.Access env fs c fs' act) :
    s.Encloses (s.resolvePath fs name) := by
  have hnamed {a : Str} (hv : s.Vets fs c a) : s.Encloses (s.resolvePath fs name) := by
    have hsame : a = name := by
      have hnamed := hv.named
      rcases c with ⟨v, b⟩
      cases v <;> simp only [clientPath?, Command.named, reduceCtorEq, Option.some.injEq,
        Option.ite_none_left_eq_some, Option.ite_none_right_eq_some] at hc hnamed
      all_goals grind
    exact encloses_of_valid hfs (hsame ▸ hv.valid)
  cases h with
  | path hvets | listing hvets | entry hvets | append hvets | rename hvets => exact hnamed hvets
  | size => exact hsize rfl
  | store haccess =>
    cases hc
    cases haccess with
    | scan _ ha | parents ha | resume ha | target _ ha | content _ ha => exact encloses_of_valid hfs ha.2
  | unique | storeUnique | confine => cases hc

variable (s fs) in
def refusal (c : Command) : Str := if s.permits fs c then "Invalid path" else "Permission denied"

section Refused

variable (me s w) in
def Denies {α : Type} (q : Io α) (text : Str) : Prop :=
  Trace.replies (q.calls (World.machine me) w) = [(Reply.final 550 text).customized s.current_virtual_host_]

lemma denies_reply (hs : s.socket_ ≠ none) (text : Str) : Denies me s w (s.reply 550 text) text :=
  sendResponse_replies me hs _ w

lemma Denies.return {β : Type} {q : Io α} {text : Str} (h : Denies me s w q text) (f : α → β) :
    Denies me s w (q >>= fun a => pure (f a)) text := by
  rw [Denies, calls_bind_pure]
  exact h

lemma Denies.named {q : FileSystem → Io α} {text : Str} (h : Denies me s w (q w.fs) text) :
    Denies me s w (perform .nameSpace >>= q) text := by
  rw [Denies, calls_perform_bind]
  exact h

lemma denies_permitted {permitted valid : Bool} {q r t : Io α} (hv : valid = false)
    (hq : Denies me s w q "Permission denied") (hr : Denies me s w r "Invalid path") :
    Denies me s w (if !permitted then q else if !valid then r else t)
      (if permitted then "Invalid path" else "Permission denied") := by
  subst hv
  cases permitted
  · exact hq
  · exact hr

lemma denies_valid {valid : Bool} {r t : Io α} (hv : valid = false) (hr : Denies me s w r "Invalid path") :
    Denies me s w (if !valid then r else t) "Invalid path" := by
  subst hv
  exact hr

lemma handle_denies {c : Command} {name : Str} (hs : s.socket_ ≠ none) (hc : s.clientPath? c = some name)
    (hsize : c.verb ≠ .size) (hv : s.validatePath w.fs (s.resolvePath w.fs name) = false) :
    Denies me s w (s.handle env c) (s.refusal w.fs c) := by
  have hreply (text : Str) := @denies_reply me s w hs text
  have hreturn {β : Type} (text : Str) (t : β) : Denies me s w (s.reply 550 text >>= fun _ => pure t) text :=
    (hreply text).return fun _ => t
  rcases c with ⟨v, a⟩
  cases v with
  | cwd | cdup =>
    cases hc
    exact (Denies.named (denies_valid hv (hreturn _ _))).return _
  | list | mlsd =>
    cases hc
    refine (Denies.named (denies_permitted ?_ (hreturn _ _) (hreturn _ _))).return _
    rwa [resolvePath_named]
  | mlst =>
    cases hc
    refine (Denies.named (denies_valid ?_ (hreply _))).return _
    rwa [resolvePath_named]
  | mdtm =>
    simp only [clientPath?, Option.ite_none_left_eq_some, Option.some.injEq] at hc
    obtain ⟨ha, rfl⟩ := hc
    refine Denies.return ?_ _
    rw [handleMDTM, if_neg ha]
    exact Denies.named (denies_valid hv (hreply _))
  | stat =>
    simp only [clientPath?, Option.ite_none_left_eq_some, Option.some.injEq] at hc
    obtain ⟨ha, rfl⟩ := hc
    refine Denies.return ?_ _
    rw [handleSTAT, if_neg ha]
    exact Denies.named (denies_valid hv (hreply _))
  | site =>
    simp only [clientPath?, Option.ite_none_right_eq_some, Option.some.injEq] at hc
    obtain ⟨⟨hword, hmode, htarget⟩, rfl⟩ := hc
    have hchmod : s.handleSITE a = s.siteChmod (extract (extract a).2).1 (chmodTarget a) := by
      have hhelp : ¬((ascii "CHMOD") = [] ∨ (ascii "CHMOD") = ascii "HELP") := by decide
      have hmask : ¬(ascii "CHMOD") = ascii "UMASK" := by decide
      unfold handleSITE
      simp only [hword]
      rw [if_neg hhelp, if_neg hmask, if_pos trivial]
      rfl
    refine Denies.return ?_ _
    rw [hchmod, siteChmod, if_neg (not_or.2 ⟨hmode, htarget⟩)]
    exact Denies.named (denies_permitted hv (hreply _) (hreply _))
  | retr | stor | appe =>
    cases hc
    exact Denies.named (denies_permitted hv (hreturn _ _) (hreturn _ _))
  | dele | mkd | rmd =>
    cases hc
    exact (Denies.named (denies_permitted hv (hreply _) (hreply _))).return _
  | rnfr =>
    cases hc
    exact (Denies.named (denies_permitted hv (hreturn _ _) (hreturn _ _))).return _
  | rnto =>
    simp only [clientPath?, Option.ite_none_left_eq_some, Option.some.injEq] at hc
    obtain ⟨hsource, rfl⟩ := hc
    refine Denies.return ?_ _
    rw [handleRNTO, if_neg hsource]
    exact (Denies.named (denies_permitted hv (hreply _) (hreply _))).return _
  | size => exact absurd rfl hsize
  | _ => cases hc

variable {a : Arrival}

lemma client_afterLogin {c : Command} {name : Str} (h : s.clientPath? c = some name) :
    c.verb.beforeLogin = false := by
  rcases c with ⟨v, b⟩
  cases v <;> first | rfl | cases h

lemma trace_refused (hs : s.socket_ ≠ none) (hlogged : s.authenticated_ = true) {name : Str}
    (hc : s.clientPath? a.command = some name) (hsize : a.command.verb ≠ .size)
    (hv : s.validatePath a.world.fs (s.resolvePath a.world.fs name) = false) : (s.trace env me a).replies =
      [(Reply.final 550 (s.refusal a.world.fs a.command)).customized s.current_virtual_host_] := by
  rw [trace, dispatch_handle (.inr hlogged)]
  exact handle_denies hs hc hsize hv

lemma trace_locked (hs : s.socket_ ≠ none) (hlocked : s.authenticated_ = false)
    (hb : a.command.verb.beforeLogin = false) : (s.trace env me a).replies =
      [(Reply.final 530 "Please login with USER and PASS").customized s.current_virtual_host_] := by
  rcases dispatch_cases env s a.line with ⟨hlogin, _⟩ | ⟨_, _, hd⟩
  · change a.command.verb.beforeLogin = true ∨ _ at hlogin
    simp [hb, hlocked] at hlogin
  · rw [trace, hd, calls_bind_pure]
    exact sendResponse_replies me hs _ _

lemma customized_custom {host : FTPVirtualHost} {code : ℕ} (h : host.getCustomError (decimal code) ≠ [])
    (text text' : Str) :
    (Reply.final code text).customized (some host) = (Reply.final code text').customized (some host) := by
  simp only [Reply.customized, if_neg h]

lemma KeepsInside.refusesAlike (hs : s.socket_ ≠ none) (h : s.KeepsInside env a) : s.RefusesAlike env me a := by
  intro name hc hout
  have hb := client_afterLogin hc
  have hauth : a.command.verb ≠ .auth := fun hverb => by
    rw [hverb] at hb
    cases hb
  have hpass : a.command.verb ≠ .pass := fun hverb => by
    rw [hverb] at hb
    cases hb
  by_cases hlogged : s.authenticated_ = true
  · have hsize : a.command.verb ≠ .size := by
      intro hverb
      have hacts := h.acts
      rw [Arrival.command_eq hverb] at hc hacts
      cases hc
      exact hout (hacts hlogged)
    have hrefused (fs' : FileSystem) (hfs : fs'.LinkFree) : (s.trace env me (a.on fs')).replies =
        [(Reply.final 550 (s.refusal fs' a.command)).customized s.current_virtual_host_] := by
      refine trace_refused hs hlogged hc hsize (Bool.eq_false_iff.2 fun hvalid => hout ?_)
      exact (encloses_of_valid hfs hvalid).congr (components_resolvePath hfs h.linkFree name)
    have hhere := hrefused a.world.fs h.linkFree
    obtain ⟨text, htext⟩ := Conduct.customized_final s.current_virtual_host_ 550 (s.refusal a.world.fs a.command)
    refine ⟨fun c hin => ?_, ⟨550, text, hhere.trans (by rw [htext]), by decide⟩, fun fs' helse => ?_⟩
    · refine List.eq_nil_iff_forall_not_mem.2 fun p hp => hout ?_
      obtain ⟨_, act, haccess, _⟩ := trace_files hauth hpass hin hp
      exact haccess.inside h.linkFree hc fun hverb => absurd hverb hsize
    · refine (hrefused fs' helse.2.1).trans (Eq.trans ?_ hhere.symm)
      rcases h.decides hlogged name hc hout fs' helse with hsame | ⟨host, hhost, hcustom⟩
      · rw [refusal, refusal, hsame]
      · rw [hhost, customized_custom hcustom]
  · have hlocked : s.authenticated_ = false := Bool.eq_false_iff.2 hlogged
    have hrefused (fs' : FileSystem) : (s.trace env me (a.on fs')).replies = [(Reply.final 530
        "Please login with USER and PASS").customized s.current_virtual_host_] := trace_locked hs hlocked hb
    obtain ⟨text, htext⟩ := Conduct.customized_final s.current_virtual_host_ 530 "Please login with USER and PASS"
    refine ⟨fun c hin => ?_, ⟨530, text, (hrefused a.world.fs).trans (by rw [htext]), by decide⟩, fun fs' _ => ?_⟩
    · exact List.eq_nil_iff_forall_not_mem.2 fun p hp => hlogged (trace_files hauth hpass hin hp).1
    · exact (hrefused fs').trans (hrefused a.world.fs).symm

end Refused

/-! Where no scope of the user's entries keeps a slash at its end, the permission hangs on components alone. -/

lemma isWithin_components {d q : Str} (hfs : fs.LinkFree) (hd : isAbsolute d = true)
    (hkeeps : keepsSlash d = false) (hq : isAbsolute q = true) :
    isWithin (normalizeForComparison fs q) (normalizeForComparison fs d) = true ↔
      components d <+: components q := by
  have hwithin := (normalizeForComparison_form hfs hq).isWithin_iff (normalizeForComparison_form hfs hd)
    (isName_components q) (isName_components d)
  exact ⟨hwithin.1, fun hbegins => hwithin.2.1 hbegins (normalizeForComparison_plain hfs hd hkeeps)⟩

def entryRoot (home entry : Str) : Str := Path.join home (relativePath (entry.dropWhile (· ≠ 58)).tail)

lemma entryAllows_alike {home operation entry q q' : Str} (hfs : fs.LinkFree) (hfs' : fs'.LinkFree)
    (hhome : isAbsolute home = true) (hq : isAbsolute q = true) (hq' : isAbsolute q' = true)
    (hsame : components q' = components q) (hscope : keepsSlash (entryRoot home entry) = false) :
    FTPUser.entryAllows fs' home operation q' entry = FTPUser.entryAllows fs home operation q entry := by
  have hne {q : Str} (hq : isAbsolute q = true) : q ≠ [] := by
    rintro rfl
    cases hq
  unfold FTPUser.entryAllows
  dsimp only
  split
  · rfl
  · rw [entryRoot] at hscope
    cases hentry : entry.dropWhile (· ≠ 58) with
    | nil => rfl
    | cons colon scope =>
      rw [hentry] at hscope
      have hroot := isAbsolute_join hhome (relativePath scope)
      simp only [if_neg (hne hq), if_neg (hne hq')]
      split
      · rfl
      · rw [Bool.eq_iff_iff, isWithin_components hfs hroot hscope hq, isWithin_components hfs' hroot hscope hq',
          hsame]

lemma permits_alike (hfs : fs.LinkFree) (hfs' : fs'.LinkFree) (hdir : isAbsolute s.current_directory_ = true)
    (huser : ∀ u ∈ s.current_user_, isAbsolute u.home_directory_ = true ∧
      ∀ entry ∈ u.permissions_, keepsSlash (entryRoot u.home_directory_ entry) = false) (c : Command) :
    s.permits fs' c = s.permits fs c := by
  unfold permits
  split
  · rename_i operation path _
    cases hu : s.current_user_ with
    | none =>
      unfold hasPermission
      rw [hu]
    | some u =>
      obtain ⟨hhome, hscopes⟩ := huser u hu
      have hresolved (fs : FileSystem) :
          s.hasPermission fs operation path = u.hasPermission fs operation (s.resolvePath fs path) := by
        unfold hasPermission
        rw [hu]
        dsimp only
        rw [resolvePath_named]
      have habsolute (fs : FileSystem) (hfs : fs.LinkFree) := (resolvePath_walks hfs hu hhome hdir path).1
      have hsame := components_resolvePath (s := s) hfs hfs' path
      have hany (entry : Str) (hentry : entry ∈ u.permissions_) :
          FTPUser.entryAllows fs' u.home_directory_ operation (s.resolvePath fs' path) entry =
            FTPUser.entryAllows fs u.home_directory_ operation (s.resolvePath fs path) entry :=
        entryAllows_alike hfs hfs' hhome (habsolute fs hfs) (habsolute fs' hfs') hsame (hscopes entry hentry)
      rw [hresolved, hresolved, FTPUser.hasPermission, FTPUser.hasPermission]
      split
      · rfl
      · rw [Bool.eq_iff_iff, List.any_eq_true, List.any_eq_true]
        refine exists_congr fun entry => and_congr_right fun hentry => ?_
        rw [hany entry hentry]
  · rfl

end Session

/-- A session, while it lasts, and, as history, each command it has had, with the session that had it. -/
structure Diary where
  session : Option Session
  commands : List (Session × Arrival)

variable (env : Service) (me : SessionId)

def diarySystem : System Diary Arrival where
  init v := (∃ s, v.session = some s ∧ s.IsNew) ∧ v.commands = []
  next v a := v.session.map fun s => ⟨s.after env me a, (s, a) :: v.commands⟩

def Diary.KeepsInside (v : Diary) (a : Arrival) : Prop := ∀ s, v.session = some s → s.KeepsInside env a

variable {env me} in
lemma Diary.connected {ok : Diary → Arrival → Prop} {v : Diary} (h : (diarySystem env me).Reach ok v) :
    ∀ s, v.session = some s → s.socket_ ≠ none := by
  refine h.invariant (P := fun v => ∀ s, v.session = some s → s.socket_ ≠ none) ?_ fun v a v' hv _ hn => ?_
  · rintro v ⟨⟨s, hs, fd, context, ssl, rfl⟩, _⟩ t ht
    obtain rfl := Option.some.inj (hs.symm.trans ht)
    exact Option.some_ne_none fd
  · obtain ⟨s, hs, rfl⟩ := Option.map_eq_some_iff.1 hn
    intro t ht
    exact (Session.after_frame ht).socket ▸ hv s hs

theorem commands_stay_inside {v : Diary} (h : (diarySystem env me).Reach (Diary.KeepsInside env) v) :
    ∀ e ∈ v.commands, e.1.StaysInside env me e.2 ∧ e.1.RefusesAlike env me e.2 := by
  induction h with
  | init h => simp [h.2]
  | @step v v' a hreach hok hnext hv =>
    obtain ⟨s, hs, rfl⟩ := Option.map_eq_some_iff.1 hnext
    intro e he
    rcases List.mem_cons.1 he with rfl | he
    · exact ⟨(hok s hs).staysInside, (hok s hs).refusesAlike (Diary.connected hreach s hs)⟩
    · exact hv e he

namespace Diary

def sampleTree : FileSystem :=
  ⟨[(["a"], .directory), (["a", "f"], .regular "xyz"), (["a", "d"], .directory),
    (["a", "d", "j"], .regular []), (["b"], .directory), (["b", "g"], .regular "secret")], [],
    fun _ _ _ => none, []⟩

def sampleService : Service := .standard [⟨"u", "p", "/a", [], ["read", "list", "write:/d"], false, 0, 0⟩] []

def sampleLines (lines : List String) : List Arrival := lines.map fun line => ⟨.favourable sampleTree, ascii line⟩

def isLink : Node → Bool
  | .symlink _ => true
  | _ => false

/-- Enough for `KeepsInside`: nothing is linked, counted or confined, and what the handlers leave unchecked is
inside. -/
def Orderly (v : Diary) (a : Arrival) : Prop :=
  (∀ e ∈ a.world.fs.nodes, isLink e.2 = false ∧
      ∀ c ∈ e.1, 47 ∉ c ∧ c ≠ [] ∧ isDot c = false ∧ isDotDot c = false) ∧
    0 ∉ a.line ∧ a.command.verb ≠ .stou ∧ ∀ s ∈ v.session,
      (∀ p ∈ s.rename_from_path_ :: s.landmarks, 0 ∉ p) ∧ isAbsolute s.current_directory_ = true ∧
      (∀ u ∈ s.current_user_, isAbsolute u.home_directory_ = true ∧
        ∀ entry ∈ u.permissions_, keepsSlash (Session.entryRoot u.home_directory_ entry) = false) ∧
      s.storageQuota = 0 ∧
      (a.command.verb = .size → s.authenticated_ = true →
        s.Encloses (s.resolvePath a.world.fs a.command.argument)) ∧
      (a.command.verb = .stor → s.authenticated_ = true →
        ∀ p ∈ (Act.createDirectories (parentPath (s.resolvePath a.world.fs a.command.argument))).paths a.world.fs,
          s.Encloses p) ∧
      (a.command.verb = .rnto → s.rename_from_path_ ≠ [] → s.Encloses s.rename_from_path_) ∧
      (a.command.verb = .auth → ∀ p ∈ s.certificates a.command.argument, s.Encloses p)

instance (s : Session) (p : Str) : Decidable (s.Encloses p) := by
  unfold Session.Encloses
  infer_instance

instance (v : Diary) (a : Arrival) : Decidable (v.Orderly a) := by
  unfold Orderly
  infer_instance

lemma Orderly.keepsInside {env : Service} (henv : env.config_.security.chroot_enabled = false) (v : Diary)
    (a : Arrival) (h : v.Orderly a) : v.KeepsInside env a := by
  intro s hs
  obtain ⟨hnodes, hline, hverb, hsession⟩ := h
  obtain ⟨hkept, hdir, huser, hquota, hsize, hstor, hrnto, hauth⟩ := hsession s hs
  have hlinkFree : a.world.fs.LinkFree := FileSystem.linkFree_of_nodes fun e he t hlink => by
    have hno := (hnodes e he).1
    rw [hlink] at hno
    cases hno
  refine ⟨hlinkFree, fun e he c hc => ?_, ⟨hline, hkept⟩, ?_, ?_⟩
  · obtain ⟨hslash, hne, hdot, hdots⟩ := (hnodes e he).2 c hc
    exact ⟨hslash, hne, hdot, hdots⟩
  · generalize a.command = c at *
    rcases c with ⟨v, b⟩
    cases v with
    | pass =>
      intro _ _ _ p hp
      rw [Service.confinements, henv] at hp
      cases hp
    | auth => exact hauth rfl
    | size => exact hsize rfl
    | stor => exact fun hlogged _ => ⟨fun u _ h _ hpos => by omega, fun _ _ => hstor rfl hlogged⟩
    | stou => exact absurd rfl hverb
    | rnto => exact fun _ _ hsource _ => hrnto rfl hsource
    | _ => trivial
  · exact fun _ _ _ _ fs' helse => .inl (Session.permits_alike hlinkFree helse.2.1 hdir huser _)

end Diary

theorem commands_stay_inside_sample : ∃ v : Diary,
    (∃ e ∈ v.commands, e.2.line = "SIZE f" ∧ (e.1.trace Diary.sampleService 0 e.2).answers 213) ∧
    (∃ e ∈ v.commands, e.2.line = "STOR d/h" ∧ (e.1.trace Diary.sampleService 0 e.2).answers 226) ∧
    (∃ e ∈ v.commands, e.2.line = "RNTO d/i" ∧ (e.1.trace Diary.sampleService 0 e.2).answers 250) ∧
    (∃ e ∈ v.commands, e.2.line = "RETR ../b/g" ∧ (e.1.trace Diary.sampleService 0 e.2).answers 550) ∧
    ∀ e ∈ v.commands, e.1.StaysInside Diary.sampleService 0 e.2 ∧ e.1.RefusesAlike Diary.sampleService 0 e.2 := by
  obtain ⟨v, hv, he⟩ := Option.map_eq_some_iff.1 (show
    ((diarySystem Diary.sampleService 0).run Diary.Orderly ⟨some (.opened 3 false false), []⟩
      (Diary.sampleLines ["USER u", "PASS p", "SIZE f", "PORT 127,0,0,1,4,28", "STOR d/h", "RNFR d/j", "RNTO d/i",
        "RETR ../b/g"])).map
      (fun v => [("SIZE f", 213), ("STOR d/h", 226), ("RNTO d/i", 250), ("RETR ../b/g", 550)].map fun expected =>
        decide (∃ e ∈ v.commands, e.2.line = ascii expected.1 ∧
          (e.1.trace Diary.sampleService 0 e.2).answers expected.2)) = some [true, true, true, true]
      by decide +kernel)
  simp only [List.map_cons, List.map_nil, List.cons.injEq, decide_eq_true_eq, and_true] at he
  obtain ⟨hsize, hstor, hrnto, hretr⟩ := he
  have hreach : (diarySystem Diary.sampleService 0).Reach Diary.Orderly v :=
    .run (.init ⟨⟨_, rfl, _, _, _, rfl⟩, rfl⟩) hv
  exact ⟨v, hsize, hstor, hrnto, hretr, commands_stay_inside Diary.sampleService 0
    (hreach.mono (Diary.Orderly.keepsInside rfl))⟩

theorem commands_do_not_stay_inside : ∃ v : Diary,
    (diarySystem Diary.sampleService 0).Reach System.anyStep v ∧ ∃ e ∈ v.commands, e.2.line = "SIZE ../b/g" ∧
      (e.1.trace Diary.sampleService 0 e.2).replies = [.final 213 "6"] ∧
      ¬e.1.StaysInside Diary.sampleService 0 e.2 ∧ ¬e.1.RefusesAlike Diary.sampleService 0 e.2 := by
  obtain ⟨v, hv, he⟩ := Option.map_eq_some_iff.1 (show
    ((diarySystem Diary.sampleService 0).run System.anyStep ⟨some (.opened 3 false false), []⟩
      (Diary.sampleLines ["USER u", "PASS p", "SIZE ../b/g"])).map
      (fun v => decide (∃ e ∈ v.commands, e.2.line = ascii "SIZE ../b/g" ∧ e.2.command.verb = .size ∧
        e.2.command.argument = ascii "../b/g" ∧ e.1.resolvePath e.2.world.fs "../b/g" = ascii "/b/g" ∧
        ¬e.1.Encloses "/b/g" ∧
        (e.1.trace Diary.sampleService 0 e.2).replies = [.final 213 "6"] ∧
        (e.1.trace Diary.sampleService 0 e.2).any fun c => c.2.2.files c.1.fs = [ascii "/b/g"])) = some true
      by decide +kernel)
  obtain ⟨e, hin, hline, hverb, hargument, hresolved, hout, hreplies, hany⟩ := of_decide_eq_true he
  obtain ⟨c, hc, hfiles⟩ := List.any_eq_true.1 hany
  have hfiles := of_decide_eq_true hfiles
  refine ⟨v, .run (.init ⟨⟨_, rfl, _, _, _, rfl⟩, rfl⟩) hv, e, hin, hline, hreplies, fun hinside => ?_,
    fun halike => ?_⟩
  · have hpath := hinside c hc "/b/g" (by rw [hfiles]; exact List.mem_singleton_self _)
    rw [Session.acting, if_neg (by rw [hverb]; decide)] at hpath
    exact hout hpath
  · have hclient : e.1.clientPath? e.2.command = some (ascii "../b/g") := by
      rw [Arrival.command_eq hverb, hargument]
      rfl
    rw [(halike _ hclient (by rwa [hresolved])).1 c hc] at hfiles
    cases hfiles

end SimpleSftpd
