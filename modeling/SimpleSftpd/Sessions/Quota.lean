import SimpleSftpd.Core.TraceAccess
import SimpleSftpd.Sessions.Resumption
import SimpleSftpd.Cxx.Usage

namespace SimpleSftpd

open Cxx Interaction Prog Storage

def UploadFits (fs : FileSystem) (home : Location) (q : ℕ) (path : Str) (modes : FileSystem.OpenMode → Prop)
    (start : Location → FileSystem.OpenMode → ℕ) (bytes : Str) : Prop :=
  ∀ mode l, modes mode → (fs.openWrite path mode).1 = .ok l → home <+: l →
    fs.usage home + FileSystem.stored (fs.content l) mode (start l mode) bytes.length ≤ q + (fs.content l).length

namespace Storage

variable {g : Storage} {w : World} {β : Type}

lemma peers_next (o : Call β) (r : β) : g.peers ⊆ (g.next o r).peers := by
  cases o with
  | accept | connect => exact List.subset_append_left _ _
  | openRead | openWrite | lseek => cases r <;> exact List.Subset.refl _
  | read fd n =>
    cases r with
    | none => exact List.Subset.refl _
    | some data =>
      simp only [next]
      split <;> exact List.Subset.refl _
  | sendfile | chroot | write | appendTo =>
    simp only [next]
    split <;> exact List.Subset.refl _
  | _ => exact List.Subset.refl _

lemma peers_final {J : Storage → Prop} (me : SessionId) (t : Trace) :
    ∀ g : Storage, g.peers ⊆ ((calls J).final (World.machine me) g t).peers := by
  induction t with
  | nil => exact fun _ => List.Subset.refl _
  | cons c t ih => exact fun g => List.Subset.trans (peers_next _ _) (ih _)

end Storage

namespace Session

variable {env : Service} {me : SessionId} {s : Session} {a : Arrival} {home : Location} {q : ℕ}

lemma Course.usage_le {fs fs₁ : FileSystem} {path : Str} {modes : FileSystem.OpenMode → Prop}
    {start : Location → FileSystem.OpenMode → ℕ} {bytes : Peer → Str} {g : Storage}
    (h : Course fs fs₁ path modes start bytes g) (hsame : ∀ l, fs₁.content l = fs.content l)
    (hnow : fs.usage home ≤ q)
    (hfits : ∀ peer ∈ g.peers, UploadFits fs₁ home q path modes start (bytes peer)) : g.fs.usage home ≤ q := by
  have hnow₁ : fs₁.usage home ≤ q := (FileSystem.usage_congr hsame).trans_le hnow
  cases h with
  | before h =>
    rw [h]
    exact hnow
  | parents h =>
    rw [h]
    exact hnow₁
  | refused mode h =>
    rw [h]
    exact (FileSystem.usage_mono (FileSystem.content_openWrite_le path mode)).trans hnow₁
  | receiving peer l mode hmode hopen h =>
    obtain ⟨out, hout, hfs⟩ := h.tree
    rw [hfs]
    apply FileSystem.usage_received hopen hout.length_le hnow₁
    exact hfits peer (by rw [h.peers]; exact List.mem_singleton_self peer) mode l hmode hopen

lemma content_withParents (fs : FileSystem) (path : Str) (l : Location) :
    (withParents fs path).content l = fs.content l := by
  unfold withParents
  split
  · exact FileSystem.content_createDirectories _ _
  · rfl

lemma usage_of_ends {F : Peer → Prop} (hfits : ∀ peer ∈ (s.storage env me a).peers, F peer)
    (h : Ends (calls fun g => (∀ peer ∈ g.peers, F peer) → g.fs.usage home ≤ q) (s.dispatch env a.line)
      (fun _ g => (∀ peer ∈ g.peers, F peer) → g.fs.usage home ≤ q)
      (fun g => (∀ peer ∈ g.peers, F peer) → g.fs.usage home ≤ q) (.of a.world)) :
    (∀ c ∈ s.trace env me a, c.1.fs.usage home ≤ q) ∧ (s.storage env me a).fs.usage home ≤ q := by
  refine ⟨fun c hc => ?_, ?_⟩
  · obtain ⟨t, t', ht⟩ := List.append_of_mem hc
    obtain ⟨hpre, hholds⟩ := wp_prefix (calls_describes _ me) h (of_holds a.world) ht
    rw [hholds.1]
    apply hpre
    intro peer hpeer
    apply hfits
    have hlater := peers_final (J := fun _ => True) me (c :: t') _ hpeer
    unfold storage
    rw [ht, Contract.final, List.foldl_append]
    exact hlater
  · exact h.final (calls_describes _ me) (of_holds a.world) hfits

lemma ends_dispatch {J : Storage → Prop} (hs : s.socket_ ≠ none)
    (hnow : ∀ done, J { Storage.of a.world with completed := done })
    (h : Ends (calls J) (s.handle env a.command) (fun _ g => J g) J (.of a.world)) :
    Ends (calls J) (s.dispatch env a.line) (fun _ g => J g) J (.of a.world) := by
  rcases dispatch_cases env s a.line with ⟨_, hd⟩ | ⟨_, _, hd⟩
  · rw [hd]
    exact h
  · rw [hd]
    exact ends_return hs hnow (hnow _)

def StoreFits (env : Service) (s : Session) (fs : FileSystem) (home : Location) (q : ℕ) (name : Str)
    (peer : Peer) : Prop :=
  s.HasRoom fs → UploadFits (withParents fs (s.resolvePath fs name)) home q (s.resolvePath fs name) s.StoreMode
    (fun _ => s.startOf) (s.received env peer)

def AppendFits (s : Session) (fs : FileSystem) (home : Location) (q : ℕ) (name : Str) (peer : Peer) : Prop :=
  UploadFits fs home q (s.resolvePath fs name)
    (fun mode => mode = .append ∨ mode = .truncate ∧ fs.status (s.resolvePath fs name) = .ok .notFound)
    (appendStart fs) peer.chunks.flatten

lemma StoreCourse.usage_le {fs : FileSystem} {name : Str} {g : Storage}
    (h : s.StoreCourse env fs (s.resolvePath fs name) g) (hnow : fs.usage home ≤ q)
    (hfits : ∀ peer ∈ g.peers, s.StoreFits env fs home q name peer) : g.fs.usage home ≤ q := by
  rcases h with h | ⟨hroom, h⟩
  · rw [h]
    exact hnow
  · exact h.usage_le (content_withParents _ _) hnow fun peer hpeer => hfits peer hpeer hroom

def Finds (s : Session) (fs : FileSystem) (argument : Str) (n : ℕ) : Prop :=
  s.Tries fs argument n ∧ isThere (fs.status (s.candidatePath argument n)) = false

lemma stor_usage (hs : s.socket_ ≠ none) (hv : a.command.verb = .stor) (hnow : a.world.fs.usage home ≤ q)
    (hfits : ∀ peer ∈ (s.storage env me a).peers, s.StoreFits env a.world.fs home q a.command.argument peer) :
    (∀ c ∈ s.trace env me a, c.1.fs.usage home ≤ q) ∧ (s.storage env me a).fs.usage home ≤ q := by
  apply usage_of_ends hfits
  apply ends_dispatch hs fun _ _ => hnow
  rw [Arrival.command_eq hv]
  apply Ends.mono (handleSTOR_storage hs (of_fresh a.world) a.command.argument (fun g' h => h.usage_le hnow)
    fun g' h _ => h.usage_le hnow)
  · exact fun _ g' h => h.course.usage_le hnow
  · exact fun _ => id

lemma appe_usage (hs : s.socket_ ≠ none) (hv : a.command.verb = .appe) (hnow : a.world.fs.usage home ≤ q)
    (hfits : ∀ peer ∈ (s.storage env me a).peers, s.AppendFits a.world.fs home q a.command.argument peer) :
    (∀ c ∈ s.trace env me a, c.1.fs.usage home ≤ q) ∧ (s.storage env me a).fs.usage home ≤ q := by
  apply usage_of_ends hfits
  apply ends_dispatch hs fun _ _ => hnow
  rw [Arrival.command_eq hv]
  have hcourse (g : Storage) (h : AppendCourse a.world.fs (s.resolvePath a.world.fs a.command.argument) g)
      (hfits : ∀ peer ∈ g.peers, s.AppendFits a.world.fs home q a.command.argument peer) : g.fs.usage home ≤ q :=
    h.usage_le (fun _ => rfl) hnow hfits
  have hrun := handleAPPE_storage hs (of_fresh a.world) a.command.argument (E := fun g =>
    (∀ peer ∈ g.peers, s.AppendFits a.world.fs home q a.command.argument peer) → g.fs.usage home ≤ q) hcourse
    fun g' h _ => h ▸ hnow
  exact hrun.mono (fun _ g' h => hcourse g' h.course) fun _ => id

lemma stou_usage (hs : s.socket_ ≠ none) (hv : a.command.verb = .stou) (hnow : a.world.fs.usage home ≤ q)
    (hfits : ∀ peer ∈ (s.storage env me a).peers, ∀ n, s.Finds a.world.fs a.command.argument n →
      (s.storingUnique (candidate a.command.argument n)).StoreFits env a.world.fs home q
        (candidate a.command.argument n) peer) :
    (∀ c ∈ s.trace env me a, c.1.fs.usage home ≤ q) ∧ (s.storage env me a).fs.usage home ≤ q := by
  apply usage_of_ends hfits
  apply ends_dispatch hs fun _ _ => hnow
  rw [Arrival.command_eq hv]
  apply handleSTOU_storage hs (of_fresh a.world)
  · exact fun g' h _ => h ▸ hnow
  · refine fun n htries hfree g' h hfits => h.usage_le hnow fun peer hpeer => ?_
    exact hfits peer hpeer n ⟨htries, hfree⟩

lemma Access.uploads {fs fs' : FileSystem} {c : Command} {act : Act} (h : s.Access env fs c fs' act)
    (hact : (∃ p mode, act = .openWrite p mode) ∨ ∃ p, act = .write p) : c.verb ∈ [.stor, .stou, .appe] := by
  cases h with
  | @path c b act hvets hmem =>
    rcases c with ⟨v, b⟩
    rcases hact with ⟨p, mode, rfl⟩ | ⟨p, rfl⟩ <;> cases v <;> simp [Verb.acts] at hmem ⊢
  | entry _ _ _ hmem | size hmem | confine _ hmem =>
    rcases hact with ⟨p, mode, rfl⟩ | ⟨p, rfl⟩ <;> simp at hmem
  | listing | unique | rename =>
    rcases hact with ⟨p, mode, h⟩ | ⟨p, h⟩ <;> cases h
  | store | storeUnique | append => simp

lemma Access.renames {fs fs' : FileSystem} {c : Command} {p p' : Str} (h : s.Access env fs c fs' (.rename p p')) :
    c.verb = .rnto ∧ fs' = fs ∧ p = s.rename_from_path_ := by
  cases h with
  | @path c b act hvets hmem =>
    rcases c with ⟨v, b⟩
    cases v <;> simp [Verb.acts] at hmem
  | entry _ _ _ hmem | size hmem | confine _ hmem => simp at hmem
  | store h | storeUnique _ _ h => cases h
  | rename => exact ⟨rfl, rfl, rfl⟩

lemma other_usage (hv : a.command.verb ∉ [.stor, .stou, .appe]) (hnow : a.world.fs.usage home ≤ q)
    (hfits : a.command.verb = .rnto → ∀ src, a.world.fs.entry s.rename_from_path_ = .ok src →
      home <+: src ∨ a.world.fs.usage home + a.world.fs.usage src ≤ q) :
    (∀ c ∈ s.trace env me a, c.1.fs.usage home ≤ q) ∧ (s.storage env me a).fs.usage home ≤ q := by
  have hkeeps : ∀ c ∈ s.trace env me a, c.1.fs.usage home ≤ q →
      (World.answer me c.1 c.2.2).2.fs.usage home ≤ q := by
    rintro ⟨w, β, c⟩ hc (hw : w.fs.usage home ≤ q)
    have haccess {act : Act} (hact : c.act? = some act) := trace_access hc hact
    cases c with
    | createDirectory p =>
      exact (FileSystem.usage_congr (FileSystem.content_createDirectory p)).trans_le hw
    | createDirectories p => exact (FileSystem.usage_congr (FileSystem.content_createDirectories p)).trans_le hw
    | remove p => exact (FileSystem.usage_mono (FileSystem.content_remove p)).trans hw
    | rename p p' =>
      obtain ⟨hrnto, hfs, rfl⟩ := (haccess rfl).renames
      have hfs : w.fs = a.world.fs := hfs
      rw [← hfs] at hfits
      exact FileSystem.usage_rename hw (hfits hrnto)
    | permissions p mode => exact (FileSystem.usage_congr (FileSystem.content_permissions p mode)).trans_le hw
    | chroot p =>
      simp only [World.answer]
      split
      · exact hw
      · exact hw
    | openWrite p mode => exact absurd ((haccess rfl).uploads (.inl ⟨p, mode, rfl⟩)) hv
    | write | appendTo =>
      obtain ⟨fs, p, l, pos, ha, _⟩ := trace_writes hc rfl
      exact absurd (ha.uploads (.inr ⟨p, rfl⟩)) hv
    | _ => exact (congrArg (FileSystem.usage · home) (World.answer_fs _ (by simp [Call.kind]))).trans_le hw
  obtain ⟨hcalls, hend⟩ := calls_keep (World.machine me) (p := s.dispatch env a.line) (w := a.world)
    (J := fun w => w.fs.usage home ≤ q) hkeeps hnow
  refine ⟨hcalls, ?_⟩
  have hholds : (s.storage env me a).Holds ((s.dispatch env a.line).exec (World.machine me) a.world).2 :=
    (wp_final (calls_describes _ me) (ends_trivial (fun _ _ => trivial) _) (of_holds a.world)).1
  rw [← hholds.1]
  exact hend

end Session

structure Housed where
  session : Session
  fs : FileSystem

def quotaSystem (env : Service) (me : SessionId) (home : Location) (q : ℕ) : System Housed Arrival where
  init v := (sessionSystem env me).Reach System.anyStep v.session ∧ v.session.storageQuota = q ∧ 0 < q ∧
    (∃ u, v.session.current_user_ = some u ∧ v.fs.locate u.home_directory_ = .ok home) ∧ v.fs.usage home ≤ q
  next v a := (v.session.after env me (a.on v.fs)).map fun s' => ⟨s', (v.session.storage env me (a.on v.fs)).fs⟩

namespace Housed

variable (env : Service) (me : SessionId) (home : Location) (q : ℕ)

/-- All that comes to be stored or appended has room, and RNTO takes nothing in from outside that has not. -/
def Fits (v : Housed) (a : Arrival) : Prop :=
  let peers := (v.session.storage env me (a.on v.fs)).peers
  match a.command with
  | ⟨.stor, name⟩ => ∀ peer ∈ peers, v.session.StoreFits env v.fs home q name peer
  | ⟨.stou, name⟩ => ∀ peer ∈ peers, ∀ n, v.session.Finds v.fs name n →
    (v.session.storingUnique (Session.candidate name n)).StoreFits env v.fs home q (Session.candidate name n) peer
  | ⟨.appe, name⟩ => ∀ peer ∈ peers, v.session.AppendFits v.fs home q name peer
  | ⟨.rnto, _⟩ => ∀ src, v.fs.entry v.session.rename_from_path_ = .ok src →
    home <+: src ∨ v.fs.usage home + v.fs.usage src ≤ q
  | _ => True

variable {env me home q} {v v' : Housed} {a : Arrival}

lemma usage_le (hs : v.session.socket_ ≠ none) (hnow : v.fs.usage home ≤ q) (hfits : v.Fits env me home q a) :
    (∀ c ∈ v.session.trace env me (a.on v.fs), c.1.fs.usage home ≤ q) ∧
      (v.session.storage env me (a.on v.fs)).fs.usage home ≤ q := by
  unfold Fits at hfits
  by_cases hstor : a.command.verb = .stor
  · rw [Arrival.command_eq hstor] at hfits
    exact Session.stor_usage (a := a.on v.fs) hs hstor hnow hfits
  by_cases hstou : a.command.verb = .stou
  · rw [Arrival.command_eq hstou] at hfits
    exact Session.stou_usage (a := a.on v.fs) hs hstou hnow hfits
  by_cases happe : a.command.verb = .appe
  · rw [Arrival.command_eq happe] at hfits
    exact Session.appe_usage (a := a.on v.fs) hs happe hnow hfits
  · apply Session.other_usage (a := a.on v.fs) ?_ hnow
    · intro hrnto
      rw [Arrival.command_eq (a := a) hrnto] at hfits
      exact hfits
    · change a.command.verb ∉ _
      simp [hstor, hstou, happe]

lemma kept_of_reach (h : (quotaSystem env me home q).Reach (Fits env me home q) v) :
    v.session.socket_ ≠ none ∧ v.fs.usage home ≤ q := by
  refine h.invariant (P := fun v => v.session.socket_ ≠ none ∧ v.fs.usage home ≤ q) ?_ ?_
  · rintro v ⟨hreach, _, _, _, hnow⟩
    exact ⟨Session.connected_of_reach hreach, hnow⟩
  · rintro v a v' ⟨hs, hnow⟩ hfits hnext
    obtain ⟨s', hs', rfl⟩ := Option.map_eq_some_iff.1 hnext
    exact ⟨(Session.after_frame hs').socket ▸ hs, (usage_le hs hnow hfits).2⟩

end Housed

theorem quota_is_kept (env : Service) (me : SessionId) (home : Location) (q : ℕ) (v : Housed)
    (h : (quotaSystem env me home q).Reach (Housed.Fits env me home q) v) : v.fs.usage home ≤ q ∧
      ∀ a, v.Fits env me home q a → (∀ c ∈ v.session.trace env me (a.on v.fs), c.1.fs.usage home ≤ q) ∧
        (v.session.storage env me (a.on v.fs)).fs.usage home ≤ q := by
  obtain ⟨hs, hnow⟩ := Housed.kept_of_reach h
  exact ⟨hnow, fun a hfits => Housed.usage_le hs hnow hfits⟩

namespace Housed

def sampleService : Service := .standard [⟨"u", "p", "/", [], [], false, 0, 4⟩] []

def emptyTree : FileSystem := ⟨[], [], fun _ _ _ => none, []⟩

def storeLine (piece : Str) : Arrival := Resuming.pieceLine "STOR f" piece false

lemma storeFits_empty {s : Session} {name : Str} {peer : Peer} (hpos : s.resume_position_ = 0)
    (hlen : (s.received sampleService peer).length ≤ 4) : s.StoreFits sampleService emptyTree [] 4 name peer := by
  intro _ mode l hmode _ _
  rcases hmode with rfl | ⟨_, hsome⟩
  · have hempty : emptyTree.content l = [] := FileSystem.content_of_notMem (Finset.notMem_empty l)
    have husage : (Session.withParents emptyTree (s.resolvePath emptyTree name)).usage [] = 0 :=
      FileSystem.usage_congr (Session.content_withParents _ _)
    rw [husage, Session.content_withParents, hempty]
    unfold FileSystem.stored
    simp only [Session.startOf, List.length_nil]
    split_ifs <;> omega
  · exact absurd hsome (by simp [hpos])

lemma exists_session : ∃ s, (quotaSystem sampleService 0 [] 4).init ⟨s, emptyTree⟩ ∧ s.resume_position_ = 0 ∧
    (∀ peer ∈ (s.storage sampleService 0 (storeLine "abc")).peers, (s.received sampleService peer).length ≤ 4) ∧
    (s.after sampleService 0 (storeLine "abcde")).isSome = true ∧
    (s.storage sampleService 0 (storeLine "abcde")).fs.content ["f"] = ascii "abcde" := by
  obtain ⟨s, hs, he⟩ := Option.map_eq_some_iff.1 (show
    ((sessionSystem sampleService 0).run System.anyStep (.opened 3 false false) Resuming.loginLines).map (fun s =>
      (decide (s.storageQuota = 4),
        s.current_user_.map fun u => decide (emptyTree.locate u.home_directory_ = .ok []),
        decide (s.resume_position_ = 0),
        decide (∀ peer ∈ (s.storage sampleService 0 (storeLine "abc")).peers,
          (s.received sampleService peer).length ≤ 4),
        decide ((s.after sampleService 0 (storeLine "abcde")).isSome = true ∧
          (s.storage sampleService 0 (storeLine "abcde")).fs.content ["f"] = ascii "abcde"))) =
      some (true, some true, true, true, true) by decide +kernel)
  simp only [Prod.mk.injEq, decide_eq_true_eq] at he
  obtain ⟨hquota, huser, hpos, hfits, hstored⟩ := he
  obtain ⟨u, hu, hhome⟩ := Option.map_eq_some_iff.1 huser
  exact ⟨s, ⟨.run (.init ⟨_, _, _, rfl⟩) hs, hquota,
    by decide, ⟨u, hu, of_decide_eq_true hhome⟩, Nat.zero_le _⟩, hpos, hfits, hstored⟩

end Housed

theorem quota_is_kept_stor : ∃ s, (quotaSystem Housed.sampleService 0 [] 4).init ⟨s, Housed.emptyTree⟩ ∧
    (s.storage Housed.sampleService 0 (Housed.storeLine "abc")).fs.usage [] ≤ 4 := by
  obtain ⟨s, hinit, hpos, hfits, _⟩ := Housed.exists_session
  refine ⟨s, hinit, ((quota_is_kept Housed.sampleService 0 [] 4 _ (.init hinit)).2 (Housed.storeLine "abc") ?_).2⟩
  exact fun peer hpeer => Housed.storeFits_empty hpos (hfits peer hpeer)

theorem quota_is_not_kept :
    ∃ v, (quotaSystem Housed.sampleService 0 [] 4).Reach System.anyStep v ∧ 4 < v.fs.usage [] := by
  obtain ⟨s, hinit, _, _, hafter, hstored⟩ := Housed.exists_session
  obtain ⟨s', hs'⟩ := Option.isSome_iff_exists.1 hafter
  refine ⟨⟨s', (s.storage Housed.sampleService 0 (Housed.storeLine "abcde")).fs⟩,
    .step (l := Housed.storeLine "abcde") (.init hinit) trivial ?_, ?_⟩
  · exact Option.map_eq_some_iff.2 ⟨s', hs', rfl⟩
  · have hsize := (s.storage Housed.sampleService 0 (Housed.storeLine "abcde")).fs.length_le_usage
      (List.nil_prefix (l := [ascii "f"]))
    rw [hstored] at hsize
    exact hsize

end SimpleSftpd
