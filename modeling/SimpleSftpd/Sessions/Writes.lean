import SimpleSftpd.Core.LinkedPaths
import SimpleSftpd.Core.TraceAccess

namespace SimpleSftpd

open Cxx Interaction Prog

namespace Cxx.FileSystem

def makesAll (fs : FileSystem) : List Str → List (FileSystem × Str)
  | [] => []
  | p :: ps => match fs.createDirectory p with
    | (.error _, _) => []
    | (.ok made, fs') => (if made then [(fs, p)] else []) ++ makesAll fs' ps

def makes (fs : FileSystem) (p : Str) : List (FileSystem × Str) :=
  match fs.status p with
  | .ok .notFound =>
    match fs.missing p.length (if Path.filename p = [] then Path.parentPath p else p) with
    | .ok ps => fs.makesAll ps
    | .error _ => []
  | _ => []

variable {fs : FileSystem} {p : Str}

lemma createDirectory_unmade (h : (fs.createDirectory p).1 ≠ .ok true) : (fs.createDirectory p).2 = fs := by
  unfold createDirectory at h ⊢
  split
  · rfl
  · split
    · rfl
    · split
      · rename_i hdeny _ l hentry _ hnode
        simp [hdeny, hentry, hnode] at h
      · split
        · split <;> rfl
        · rfl

lemma createAll_unmade (ps : List Str) (h : fs.makesAll ps = []) : (fs.createAll ps).2 = fs := by
  induction ps generalizing fs with
  | nil => rfl
  | cons p ps ih =>
    have hstay : (fs.createDirectory p).1 ≠ .ok true := by
      intro hmade
      unfold makesAll at h
      rw [show fs.createDirectory p = (.ok true, (fs.createDirectory p).2) from Prod.ext hmade rfl] at h
      simp at h
    have hsame := createDirectory_unmade hstay
    unfold makesAll at h
    unfold createAll
    rcases hmk : fs.createDirectory p with ⟨r, fs'⟩
    rw [hmk] at h
    obtain rfl : fs' = fs := by rw [← hsame, hmk]
    cases r with
    | error => rfl
    | ok made =>
      dsimp only
      split
      · rfl
      · exact ih (List.append_eq_nil_iff.1 h).2

lemma createDirectories_unmade (h : fs.makes p = []) : (fs.createDirectories p).2 = fs := by
  unfold makes at h
  unfold createDirectories
  split
  · rfl
  · split
    · rfl
    · rfl
    · rename_i hstatus
      simp only [hstatus] at h
      split
      · rfl
      · rename_i ps hps
        rw [hps] at h
        exact createAll_unmade ps h
    · rfl

lemma makes_present (h : fs.status p ≠ .ok .notFound) : fs.makes p = [] := by
  unfold makes
  split
  · rename_i hstatus
    exact absurd hstatus h
  · rfl

lemma openWrite_sameShape {l : Location} (h : fs.locate p = .ok l) (mode : OpenMode) :
    fs.SameShape (fs.openWrite p mode).2 := by
  obtain ⟨e, he, hlink⟩ := (locate_real h).node
  unfold openWrite
  split
  · exact .refl
  · rw [place_of_locate h, h, ite_self]
    dsimp only
    rw [he]
    cases e with
    | directory | other => exact .refl
    | symlink t => exact absurd rfl (hlink t)
    | regular b =>
      dsimp only
      split
      · exact set_sameShape he []
      · exact .refl

end Cxx.FileSystem

def Act.mutates (fs : FileSystem) : Act → List (FileSystem × Str)
  | createDirectories p => fs.makes p
  | createDirectory p | remove p | permissions p | openWrite p _ | write p => [(fs, p)]
  | rename p q => [(fs, p), (fs, q)]
  | _ => []

variable (env : Service) (me : SessionId) {β : Type}

lemma answer_mutates (w : World) (c : Call β) (hc : ∀ p, c.act? ≠ some (.chroot p))
    (h : (World.answer me w c).2.fs ≠ w.fs) :
    (∃ act, c.act? = some act ∧ act.mutates w.fs ≠ []) ∨ c.writesTo ≠ none := by
  cases c with
  | createDirectory | remove | rename | permissions | openWrite => exact .inl ⟨_, rfl, by simp [Act.mutates]⟩
  | createDirectories p =>
    exact .inl ⟨_, rfl, fun hmakes => h (FileSystem.createDirectories_unmade hmakes)⟩
  | write | appendTo => exact .inr (Option.some_ne_none _)
  | chroot p => exact absurd rfl (hc p)
  | connect => exact absurd rfl h
  | _ => exact absurd (World.answer_fs _ (by simp [Call.kind])) h

namespace Session

variable (s : Session) (fs : FileSystem)

def MayWrite (p : Str) : Prop := s.allows fs "write" p = true ∧ s.validatePath fs p = true

instance (p : Str) : Decidable (s.MayWrite fs p) := by
  unfold MayWrite
  infer_instance

def Authorises (w : World) (c : Call β) : Prop :=
  (∀ act, c.act? = some act → ∀ m ∈ act.mutates w.fs, s.MayWrite m.1 m.2) ∧
    ∀ fd, c.writesTo = some fd → ∃ p l pos, w.fs.locate p = .ok l ∧ w.fileAt fd = some (l, pos) ∧
      s.MayWrite w.fs p

def Absent (p : Str) : Prop :=
  Path.hasParentPath p = true ∧ fs.status (Path.parentPath p) = .ok .notFound ∨ ∀ l, fs.locate p ≠ .ok l

/-- Where something is missing, storing under `name` makes only directories the session may write to, and
its target is still one with them made, and once it is open. -/
def StoresWithin (name : Str) : Prop :=
  let p := s.resolvePath fs name
  s.Admits fs name → s.Proceeds env fs → Absent fs p →
    (Path.hasParentPath p = true → ∀ m ∈ fs.makes (Path.parentPath p), s.MayWrite m.1 m.2) ∧
      (HasParents fs p → s.MayWrite (withParents fs p) p ∧
        ∀ mode, s.MayWrite ((withParents fs p).openWrite p mode).2 p)

/-- What the handlers leave unchecked: the source RNTO moves, and what STOR, STOU and APPE write to
once the tree has changed under the path they have checked. -/
def WritesWithin : Command → Prop
  | ⟨.rnto, a⟩ => s.Vets fs ⟨.rnto, a⟩ a → s.rename_from_path_ ≠ [] →
    fs.status (s.resolvePath fs a) = .ok .notFound → s.MayWrite fs s.rename_from_path_
  | ⟨.stor, a⟩ => s.StoresWithin env fs a
  | ⟨.stou, a⟩ => ∀ n, s.Tries fs a n → isThere (fs.status (s.candidatePath a n)) = false →
    (s.storingUnique (candidate a n)).StoresWithin env fs (candidate a n)
  | ⟨.appe, a⟩ => s.Vets fs ⟨.appe, a⟩ a → s.transferModeZ = false → s.data.CanOpen →
    fs.status (s.resolvePath fs a) = .ok .notFound →
      s.MayWrite (fs.openWrite (s.resolvePath fs a) .truncate).2 (s.resolvePath fs a)
  | _ => True

variable {env me s fs} {a : Arrival}

lemma Vets.mayWrite {c : Command} {name : Str} (h : s.Vets fs c name)
    (hp : c.permit = some (("write" : Str), name)) :
    s.MayWrite fs (s.resolvePath fs name) :=
  ⟨allows_of_hasPermission (h.permitted _ _ hp), h.valid⟩

lemma acts_mutates {c : Command} {name p : Str} {act : Act} {m : FileSystem × Str} (hn : c.named = some name)
    (hact : act ∈ c.verb.acts p) (hm : m ∈ act.mutates fs) :
    m = (fs, p) ∧ c.permit = some (("write" : Str), name) := by
  rcases c with ⟨v, b⟩
  cases v <;> simp only [Verb.acts, List.not_mem_nil, List.mem_cons, or_false] at hact
  case dele | rmd | mkd | site | appe =>
    cases hn
    rcases hact with rfl | rfl | rfl <;> simp [Act.mutates] at hm <;> exact ⟨hm, rfl⟩
  all_goals
    exfalso
    rcases hact with rfl | rfl | rfl <;> simp [Act.mutates] at hm

lemma MayWrite.sameShape {fs' : FileSystem} {p : Str} (hs : fs.SameShape fs') (h : s.MayWrite fs p) :
    s.MayWrite fs' p := by
  have hnorm : normalizeForComparison fs' = normalizeForComparison fs := by
    funext q
    unfold normalizeForComparison
    rw [hs.weaklyCanonical]
  have hentry : FTPUser.entryAllows fs' = FTPUser.entryAllows fs := by
    funext home operation path entry
    unfold FTPUser.entryAllows
    rw [hnorm]
  unfold MayWrite allows validatePath isPathWithinHome FTPUser.hasPermission at h ⊢
  rw [hnorm, hentry]
  exact h

lemma withParents_present {p : Str} (h : ¬Absent fs p) : withParents fs p = fs := by
  unfold withParents
  split
  · rename_i hparent
    refine FileSystem.createDirectories_unmade (FileSystem.makes_present fun hmissing => ?_)
    exact h (.inl ⟨hparent, hmissing⟩)
  · rfl

lemma StoreAccess.mayWrite {name : Str} {fs' : FileSystem} {act : Act} (h : s.StoreAccess env fs name fs' act)
    (hok : s.StoresWithin env fs name) : ∀ m ∈ act.mutates fs', s.MayWrite m.1 m.2 := by
  by_cases habsent : Absent fs (s.resolvePath fs name)
  · cases h with
    | scan | resume => simp [Act.mutates]
    | parents ha hp hparent => exact (hok ha hp habsent).1 hparent
    | target mode ha hp hparents => simpa [Act.mutates] using ((hok ha hp habsent).2 hparents).1
    | content mode ha hp hparents => simpa [Act.mutates] using ((hok ha hp habsent).2 hparents).2 mode
  · -- nothing is missing: the directories are there, and opening the file moves nothing
    have hpresent := withParents_present habsent
    have hmay (ha : s.Admits fs name) : s.MayWrite fs (s.resolvePath fs name) :=
      ⟨allows_of_hasPermission ha.1, ha.2⟩
    cases h with
    | scan | resume => simp [Act.mutates]
    | parents ha hp hparent =>
      have hmakes := FileSystem.makes_present fun hmissing => habsent (.inl ⟨hparent, hmissing⟩)
      simp [Act.mutates, hmakes]
    | target mode ha hp hparents =>
      rw [hpresent]
      simpa [Act.mutates] using hmay ha
    | content mode ha hp hparents =>
      rw [hpresent]
      obtain ⟨l, hl⟩ : ∃ l, fs.locate (s.resolvePath fs name) = .ok l := by
        by_contra hnot
        exact habsent (.inr fun l hl => hnot ⟨l, hl⟩)
      simpa [Act.mutates] using (hmay ha).sameShape (FileSystem.openWrite_sameShape hl mode)

lemma Access.mayWrite {c : Command} {fs' : FileSystem} {act : Act} (h : s.Access env fs c fs' act)
    (hok : s.WritesWithin env fs c) : ∀ m ∈ act.mutates fs', s.MayWrite m.1 m.2 := by
  cases h with
  | path hvets hact =>
    intro m hm
    obtain ⟨rfl, hp⟩ := acts_mutates hvets.named hact hm
    exact hvets.mayWrite hp
  | entry _ _ _ hact | size hact | confine _ hact =>
    simp only [List.mem_cons, List.not_mem_nil, or_false] at hact
    rcases hact with rfl | rfl | rfl | rfl <;> simp [Act.mutates]
  | listing | unique => simp [Act.mutates]
  | store h => exact h.mayWrite hok
  | storeUnique htries hfree h => exact h.mayWrite (hok _ htries hfree)
  | @append a found hvets hmode hopen hfound =>
    by_cases hnone : found = .notFound
    · subst hnone
      simpa [Act.mutates] using hok hvets hmode hopen hfound
    · obtain ⟨l, hl⟩ := FileSystem.locate_of_status hfound hnone
      simpa [Act.mutates] using (hvets.mayWrite rfl).sameShape (FileSystem.openWrite_sameShape hl _)
  | rename hvets hsaved hnew =>
    simp only [Act.mutates, List.forall_mem_cons]
    exact ⟨hok hvets hsaved hnew, hvets.mayWrite rfl, by simp⟩

lemma writesWithin_beforeLogin {c : Command} (h : c.verb.beforeLogin = true) : s.WritesWithin env fs c := by
  rcases c with ⟨v, b⟩
  cases v <;> trivial

lemma trace_authorises (hok : s.authenticated_ = true → s.WritesWithin env a.world.fs a.command)
    {c : World × Σ β, Call β} (hc : c ∈ s.trace env me a) : s.Authorises c.1 c.2.2 := by
  have hcond (hk : c.2.2.kind ≠ .reply) : s.WritesWithin env a.world.fs a.command := by
    rcases trace_logged hc hk with hb | hauth
    · exact writesWithin_beforeLogin hb
    · exact hok hauth
  refine ⟨fun act hact => (trace_access hc hact).mayWrite (hcond (Call.kind_of_act hact)), fun fd hw => ?_⟩
  obtain ⟨fs, p, l, pos, haccess, hshape, hl, hfile⟩ := trace_writes hc hw
  have hmay := haccess.mayWrite (hcond (Call.kind_of_writesTo hw)) (fs, p) (by simp [Act.mutates])
  exact ⟨p, l, pos, hl, hfile, hmay.sameShape hshape⟩

end Session

/-- A session, while it lasts, and, as history, all its calls, each with the session that made it. -/
structure Journal where
  session : Option Session
  calls : List (Session × World × Σ β, Call β)

def journalSystem : System Journal Arrival where
  init v := (∃ s, v.session = some s ∧ s.IsNew) ∧ v.calls = []
  next v a := v.session.map fun s =>
    ⟨s.after env me a, (s.trace env me a).map (fun c => (s, c)) ++ v.calls⟩

def Journal.WritesWithin (v : Journal) (a : Arrival) : Prop :=
  ∀ s, v.session = some s → s.authenticated_ = true → s.WritesWithin env a.world.fs a.command

theorem writes_are_permitted {v : Journal} (h : (journalSystem env me).Reach (Journal.WritesWithin env) v) :
    ∀ e ∈ v.calls, e.1.Authorises e.2.1 e.2.2.2 := by
  induction h with
  | init h => simp [h.2]
  | @step v v' a _ hok hnext hv =>
    obtain ⟨s, hs, rfl⟩ := Option.map_eq_some_iff.1 hnext
    intro e he
    rcases List.mem_append.1 he with he | he
    · obtain ⟨c, hc, rfl⟩ := List.mem_map.1 he
      exact Session.trace_authorises (hok s hs) hc
    · exact hv e he

namespace Journal

def sampleService : Service :=
  .standard [⟨"u", "p", "/a", [], [], false, 0, 0⟩, ⟨"v", "q", "/b", [], [], false, 0, 0⟩] []

def sampleLines (lines : List String) : List Arrival :=
  lines.map fun line => ⟨.favourable ⟨[(["a"], .directory), (["b"], .directory), (["a", "f"], .regular [])], [],
    fun _ _ _ => none, []⟩, ascii line⟩

def RenamesWithin (v : Journal) (a : Arrival) : Prop :=
  a.command.verb ∉ [.stor, .stou, .appe] ∧
    (a.command.verb = .rnto → ∀ s ∈ v.session, s.MayWrite a.world.fs s.rename_from_path_)

instance (v : Journal) (a : Arrival) : Decidable (v.RenamesWithin a) :=
  inferInstanceAs (Decidable (_ ∧ (_ → ∀ s ∈ v.session, _)))

lemma RenamesWithin.writesWithin {env : Service} (v : Journal) (a : Arrival) (h : v.RenamesWithin a) :
    v.WritesWithin env a := by
  intro s hs _
  obtain ⟨hstores, hrenames⟩ := h
  generalize a.command = c at hstores hrenames ⊢
  rcases c with ⟨verb, b⟩
  cases verb with
  | stor | stou | appe => simp at hstores
  | rnto => exact fun _ _ _ => hrenames rfl s hs
  | _ => trivial

end Journal

theorem writes_are_permitted_rnto : ∃ (v : Journal) (s : Session) (w : World),
    (s, w, ⟨_, .rename "/a/f" "/a/g"⟩) ∈ v.calls ∧ s.MayWrite w.fs "/a/f" ∧ s.MayWrite w.fs "/a/g" := by
  obtain ⟨v, hv, he⟩ := Option.map_eq_some_iff.1 (show
    ((journalSystem Journal.sampleService 0).run Journal.RenamesWithin ⟨some (.opened 3 false false), []⟩
      (Journal.sampleLines ["USER u", "PASS p", "RNFR f", "RNTO g"])).map
      (fun v => v.calls.any fun e => e.2.2.2.act? = some (.rename "/a/f" "/a/g")) = some true by decide +kernel)
  obtain ⟨⟨s, w, β, c⟩, hc, hact⟩ := List.any_eq_true.1 he
  have hact := of_decide_eq_true hact
  have hmay := (writes_are_permitted Journal.sampleService 0 ((.run (.init ⟨⟨_, rfl, _, _, _, rfl⟩, rfl⟩) hv :
    (journalSystem Journal.sampleService 0).Reach Journal.RenamesWithin v).mono
      Journal.RenamesWithin.writesWithin) _ hc).1 _ hact
  cases c <;> cases hact
  exact ⟨v, s, w, hc, hmay (w.fs, "/a/f") (by simp [Act.mutates]), hmay (w.fs, "/a/g") (by simp [Act.mutates])⟩

theorem writes_are_not_permitted : ∃ v : Journal,
    (journalSystem Journal.sampleService 0).Reach System.anyStep v ∧
      ∃ e ∈ v.calls, e.2.2.2.act? = some (.rename "/a/f" "/b/g") ∧ ¬e.1.MayWrite e.2.1.fs "/a/f" := by
  obtain ⟨v, hv, he⟩ := Option.map_eq_some_iff.1 (show
    ((journalSystem Journal.sampleService 0).run System.anyStep ⟨some (.opened 3 false false), []⟩
      (Journal.sampleLines ["USER u", "PASS p", "RNFR f", "USER v", "PASS q", "RNTO g"])).map
      (fun v => v.calls.any fun e => e.2.2.2.act? = some (.rename "/a/f" "/b/g") ∧
        ¬e.1.MayWrite e.2.1.fs "/a/f") = some true
      by decide +kernel)
  obtain ⟨e, hc, hact⟩ := List.any_eq_true.1 he
  exact ⟨v, .run (.init ⟨⟨_, rfl, _, _, _, rfl⟩, rfl⟩) hv, e, hc, of_decide_eq_true hact⟩

end SimpleSftpd
