import SimpleSftpd.Core.Ownership
import SimpleSftpd.Sessions.Serving

namespace SimpleSftpd

open Cxx Interaction Prog

variable (env : Service)

def owners : Threads Call Abort Session Accepted Turn (List Fd) World :=
  serving env (fun fd => [fd]) (fun held _ _ => held) holding.next id

namespace Session

def isPort (port : Int) : Bool := 1024 ≤ port && port ≤ 65535

def resets (s : Session) : Command → Bool
  | ⟨.abor, _⟩ => true
  | ⟨.pasv, _⟩ => !s.data.epsv_all_
  | ⟨.epsv, a⟩ => upper a = [] || upper a = "1" || upper a = "2"
  | ⟨.port, a⟩ => !s.data.epsv_all_ && match portParts a with
    | some [_, _, _, _, p1, p2] => isPort (wrapInt (wrapInt (p1 * 256) + p2))
    | _ => false
  | ⟨.eprt, a⟩ => !s.data.epsv_all_ && 7 ≤ a.length && a.getLast? = some (a.headD 0) &&
    match eprtFields (a.headD 0) [] a.tail with
    | [protocol, _, port] => protocol = "1" && (stoi port).any isPort
    | _ => false
  | _ => false

def Settled (s : Session) : Turn → Prop
  | .line line => (Command.parse line).verb.beforeLogin = true ∨ s.authenticated_ = true →
    s.resets (.parse line) = true → s.data.data_socket_ = none
  | .stop => s.data.data_socket_ = none

structure Holds (s : Session) (held : List Fd) : Prop where
  control : ∀ fd, s.socket_ = some fd → fd ∈ held
  listener : ∀ fd, s.data.passive_listen_socket_ = some fd → fd ∈ held ∧ s.socket_ ≠ some fd

end Session

def Serving.Settled (st : Serving (List Fd)) : PoolStep Accepted Turn → Prop
  | .turn i t => ∀ s ∈ st.waiting i, s.Settled t
  | _ => True

section

variable {env} {s s' : Session} {α : Type} {P : α → List Fd → Prop} {held held' : List Fd}

lemma closeDataSocket_holding {d : DataConnection} (hd : d.data_socket_ = none)
    (hl : ∀ fd, d.passive_listen_socket_ = some fd → fd ∈ held) {f : DataConnection → Io α}
    (hf : ∀ held', (∀ fd ∈ held, d.passive_listen_socket_ ≠ some fd → fd ∈ held') →
      Meets holding (f { d with data_socket_ := none, passive_listen_socket_ := none }) P held') :
    Meets holding (d.closeDataSocket >>= f) P held := by
  unfold DataConnection.closeDataSocket
  rw [hd]
  cases hlistener : d.passive_listen_socket_ with
  | none => exact hf held fun fd hfd _ => hfd
  | some listener =>
    refine meets_bind.2 (holding_close (hl listener hlistener) ((meets_pure _).2 (hf _ fun fd hfd hne => ?_)))
    refine List.mem_filter.2 ⟨hfd, decide_eq_true fun he => hne ?_⟩
    rw [hlistener, he]

lemma createPassiveDataSocket_holding {d : DataConnection} (hd : d.data_socket_ = none)
    (hl : d.passive_listen_socket_ = none) (config : ConnectionConfig) {f : Int × DataConnection → Io α}
    (hf : ∀ port d' held', held ⊆ held' → (∀ fd, d'.passive_listen_socket_ = some fd → fd ∈ held' ∧ fd ∉ held) →
      Meets holding (f (port, d')) P held') :
    Meets holding (d.createPassiveDataSocket config >>= f) P held := by
  refine meets_bind.2 (closeDataSocket_holding hd (by simp [hl]) fun held' hheld => ?_)
  have hheld : held ⊆ held' := fun fd hfd => hheld fd hfd (by simp [hl])
  refine holding_open rfl (fun made h => ?_) fun made fd h hfd => ?_
  · obtain rfl : made = none := h
    exact (meets_pure _).2 (hf _ _ _ hheld (by simp))
  · obtain rfl : made = some fd := h
    refine holding_still (DataConnection.bindFrom_within (by simp : Kind.transfer ∈ [.transfer]) _ _ _)
      (by simp [stillKinds]) fun found _ => ?_
    cases found with
    | none => exact holding_done hfd ((meets_pure _).2 (hf _ _ _ hheld (by simp)))
    | some port =>
      refine (meets_pure _).2 (hf _ _ _ (List.subset_cons_of_subset _ hheld) fun n hn => ?_)
      cases hn
      exact ⟨List.mem_cons_self, fun h => hfd (hheld h)⟩

namespace Session

lemma Holds.of_kept (h : s.Holds held) (hsocket : s'.socket_ = s.socket_)
    (hl : s'.data.passive_listen_socket_ = s.data.passive_listen_socket_) (hheld : held ⊆ held') :
    s'.Holds held' := by
  refine ⟨fun fd hfd => hheld (h.control fd (hsocket ▸ hfd)), fun fd hfd => ?_⟩
  obtain ⟨hmem, hne⟩ := h.listener fd (hl ▸ hfd)
  exact ⟨hheld hmem, hsocket ▸ hne⟩

lemma Holds.closing (h : s.Holds held) (hd : s.data.data_socket_ = none) {d : DataConnection}
    (hdata : d.data_socket_ = s.data.data_socket_) (hl : d.passive_listen_socket_ = s.data.passive_listen_socket_)
    {f : DataConnection → Io α} (hf : ∀ held', (∀ fd, s.socket_ = some fd → fd ∈ held') →
      Meets holding (f { d with data_socket_ := none, passive_listen_socket_ := none }) P held') :
    Meets holding (d.closeDataSocket >>= f) P held := by
  refine closeDataSocket_holding (hdata.trans hd) (fun fd hfd => (h.listener fd (hl ▸ hfd)).1)
    fun held' hheld => ?_
  refine hf held' fun fd hfd => ?_
  refine hheld fd (h.control fd hfd) fun he => ?_
  exact (h.listener fd (hl ▸ he)).2 hfd

def HoldsWith (s : Session) (d : DataConnection) (held : List Fd) : Prop := { s with data := d }.Holds held

lemma holds_of_control (h : ∀ fd, s.socket_ = some fd → fd ∈ held) (hl : s.data.passive_listen_socket_ = none) :
    s.Holds held := ⟨h, by simp [hl]⟩

lemma passive_holding (h : s.Holds held) (hd : s.data.data_socket_ = none) (config : ConnectionConfig)
    (f : Int → Str)
    (code : ℕ) : Meets holding (do
        let d ← { s.data with active_mode_enabled_ := false }.closeDataSocket
        let (port, d) ← d.createPassiveDataSocket config
        if port < 0 then do
          s.reply 425 "Can't open passive connection"
          return d
        else do
          s.reply code (f port)
          return d : Io DataConnection) s.HoldsWith held := by
  refine h.closing hd (by rfl) (by rfl) fun held' hcontrol => ?_
  refine createPassiveDataSocket_holding rfl rfl config fun port d held'' hheld hl => ?_
  have hwith : s.HoldsWith d held'' := by
    refine ⟨fun fd hfd => hheld (hcontrol fd hfd), fun fd hfd => ?_⟩
    refine ⟨(hl fd hfd).1, fun hs => (hl fd hfd).2 ?_⟩
    exact hcontrol fd hs
  exact meets_ite.2 ⟨fun _ => holding_return _ _ hwith, fun _ => holding_return _ _ hwith⟩

variable (h : s.Holds held)
include h

lemma handlePASV_holding (hok : s.resets ⟨.pasv, []⟩ = true → s.data.data_socket_ = none) :
    Meets holding (s.handlePASV env) s.HoldsWith held := by
  rw [handlePASV]
  refine meets_ite.2 ⟨fun _ => holding_return _ _ h, fun hall => ?_⟩
  exact passive_holding h (hok (by simpa [resets] using hall)) _ formatPassiveResponse _

lemma handleEPSV_holding {a : Str} (hok : s.resets ⟨.epsv, a⟩ = true → s.data.data_socket_ = none) :
    Meets holding (s.handleEPSV env a) s.HoldsWith held := by
  rw [handleEPSV]
  refine meets_ite.2 ⟨fun _ => holding_return _ _ (h.of_kept rfl rfl (List.Subset.refl _)), fun _ => ?_⟩
  refine meets_ite.2 ⟨fun _ => holding_return _ _ h, fun hprotocol => ?_⟩
  refine passive_holding h (hok ?_) _
    (fun port => "Entering Extended Passive Mode (|||" ++ decimalInt port ++ "|)") _
  simp only [resets, Bool.or_eq_true, decide_eq_true_eq]
  tauto

lemma handlePORT_holding {a : Str} (hok : s.resets ⟨.port, a⟩ = true → s.data.data_socket_ = none) :
    Meets holding (s.handlePORT a) s.HoldsWith held := by
  rw [handlePORT]
  refine meets_ite.2 ⟨fun _ => holding_return _ _ h, fun hall => ?_⟩
  split
  · rename_i hparts
    refine meets_ite.2 ⟨fun _ => holding_return _ _ (h.of_kept rfl rfl (List.Subset.refl _)), fun hrange => ?_⟩
    have hreset : s.resets ⟨.port, a⟩ = true := by
      simp only [not_or, not_lt] at hrange
      simp [resets, isPort, hparts, hall, hrange]
    refine h.closing (hok hreset) (by rfl) (by rfl) fun held' hcontrol => ?_
    exact holding_return _ _ (holds_of_control hcontrol rfl)
  · exact holding_return _ _ h

lemma handleEPRT_holding {a : Str} (hok : s.resets ⟨.eprt, a⟩ = true → s.data.data_socket_ = none) :
    Meets holding (s.handleEPRT a) s.HoldsWith held := by
  rw [handleEPRT]
  refine meets_ite.2 ⟨fun _ => holding_return _ _ h, fun hall => ?_⟩
  refine meets_ite.2 ⟨fun _ => holding_return _ _ h, fun hlength => ?_⟩
  refine meets_ite.2 ⟨fun _ => holding_return _ _ h, fun hlast => ?_⟩
  split
  · rename_i hfields
    refine meets_ite.2 ⟨fun _ => holding_return _ _ h, fun hprotocol => ?_⟩
    split
    · exact holding_return _ _ h
    · rename_i hport
      refine meets_ite.2 ⟨fun _ => holding_return _ _ h, fun hrange => ?_⟩
      have hreset : s.resets ⟨.eprt, a⟩ = true := by
        simp only [not_or, not_lt, not_not] at hrange hlength hlast hprotocol
        simp only [resets, hfields, hport, Option.any_some]
        simp [isPort, hall, hrange, hlength, hlast, hprotocol]
      refine h.closing (hok hreset) (by rfl) (by rfl) fun held' hcontrol => ?_
      exact holding_return _ _ (holds_of_control hcontrol rfl)
  · exact holding_return _ _ h

lemma handleABOR_holding (hd : s.data.data_socket_ = none) : Meets holding s.handleABOR s.HoldsWith held :=
  h.closing hd rfl rfl fun _ hcontrol => holding_return _ _ (holds_of_control hcontrol rfl)

lemma stop_holding (hd : s.data.data_socket_ = none) : Meets holding (s.stop env) Holds held := by
  have hunregister : (s.unregister env).Within (Kinds [.register]) fun _ => True := by
    simp [unregister, Call.kind]
  refine holding_still hunregister (by simp [stillKinds]) fun _ _ => ?_
  refine holding_ask .deactivate (by simp [Call.kind, stillKinds]) fun _ => ?_
  refine h.closing hd rfl rfl fun held' hcontrol => ?_
  cases hsocket : s.socket_ with
  | none => exact (meets_pure _).2 ⟨by simp, by simp⟩
  | some fd => exact holding_close (hcontrol fd hsocket) ((meets_pure _).2 ⟨by simp, by simp⟩)

lemma quiet_holding (c : Command) (hc : c.verb.usesData = false) : Meets holding (s.handle env c) Holds held := by
  have hclose : .close ∉ c.verb.kinds s.data := by
    rcases c with ⟨v, a⟩
    cases v <;> simp [Verb.usesData] at hc <;> simp [Verb.kinds, passKinds]
  refine (holding_kept (handle_within c) hclose).mono fun s' held' hs' => ?_
  exact h.of_kept hs'.1.frame.socket (by rw [hs'.1.frame.data hc]) hs'.2

lemma handle_holding (c : Command) (hok : s.resets c = true → s.data.data_socket_ = none) :
    Meets holding (s.handle env c) Holds held := by
  have hkeeps {p : Io DataConnection} (hp : Meets holding p s.HoldsWith held) :
      Meets holding (p >>= fun d => pure { s with data := d }) Holds held :=
    meets_bind.2 (hp.mono fun _ _ hd => (meets_pure _).2 hd)
  have hreturned (d : DataConnection) (held' : List Fd) (hd : s.Returned held d held') : s.HoldsWith d held' :=
    h.of_kept rfl hd.1 (by rw [hd.2]; exact List.Subset.refl held)
  have hresumes (s' : Session) (held' : List Fd) (hs' : s.Resumes held s' held') : s'.Holds held' :=
    h.of_kept hs'.1 hs'.2.1 (by rw [hs'.2.2]; exact List.Subset.refl held)
  by_cases hc : c.verb.usesData = true
  · rcases c with ⟨v, a⟩
    cases v with
    | list => exact hkeeps ((handleLIST_holding a).mono hreturned)
    | mlsd => exact hkeeps ((handleMLSD_holding a).mono hreturned)
    | retr => exact (handleRETR_holding a).mono hresumes
    | stor => exact (handleSTOR_holding a).mono hresumes
    | stou => exact (handleSTOU_holding a).mono hresumes
    | appe => exact (handleAPPE_holding a).mono hresumes
    | pasv => exact hkeeps (handlePASV_holding h hok)
    | epsv => exact hkeeps (handleEPSV_holding h hok)
    | port => exact hkeeps (handlePORT_holding h hok)
    | eprt => exact hkeeps (handleEPRT_holding h hok)
    | abor => exact hkeeps (handleABOR_holding h (hok rfl))
    | _ => simp [Verb.usesData] at hc
  · exact quiet_holding h c (by simpa using hc)

lemma turn_holding (t : Turn) (hok : s.Settled t) : Meets holding (s.take env t) Holds held := by
  cases t with
  | line line =>
    change Meets holding (s.dispatch env line) Holds held
    rcases dispatch_cases env s line with ⟨hlogin, hd⟩ | ⟨_, _, hd⟩
    · rw [hd]
      exact handle_holding h _ (hok hlogin)
    · rw [hd]
      exact holding_return _ _ h
  | stop => exact stop_holding h hok

end Session

lemma owners_keep {st : Serving (List Fd)}
    (h : ((owners env).system (Serving.Unopened [])).Reach Serving.Settled st) :
    st.Keeps holding World.Owns fun _ => Session.Holds := by
  refine Pool.keeps_of_reach ?_ ?_ ?_ ?_ (fun _ _ _ hR hP => ⟨hR, hP⟩) (fun _ _ _ => rfl) h
  · intro st hst i
    rw [(hst i).1, (hst i).2]
    exact ⟨by simp [World.Owns], by simp⟩
  · intro st i e hst _
    refine ⟨fun fd hfd => ?_, holding_return _ _ ⟨?_, by simp [owners, serving, Session.opened]⟩,
      fun j _ fd hfd => ?_⟩
    · obtain rfl := List.mem_singleton.1 hfd
      exact World.owner_new _ _ _
    · rintro fd hfd
      cases hfd
      exact List.mem_singleton_self _
    · exact World.owner_openFd ((hst j).1 fd hfd) _
  · intro st i s t hst hs hi hok
    exact ⟨(hst i).1, Session.turn_holding hs t (hok s (Option.mem_def.2 hi))⟩
  · intro β st i o hst _ _ hpre
    obtain ⟨hpost, hR⟩ := holding_describes i _ _ o (hst i).1 hpre
    exact ⟨hpost, hR, fun j hj => ((hst j).1).other (hst i).1 hpre hj⟩

end

theorem closes_are_own {st : Serving (List Fd)}
    (h : ((owners env).system (Serving.Unopened [])).Reach Serving.Settled st) {i : SessionId} {fd : Fd}
    (hc : st.About i (.close fd)) : fd ∈ st.history i ∧ st.world.owner fd = some i := by
  obtain ⟨hpre, howns⟩ := (owners_keep h).pre hc
  have hfd : fd ∈ st.history i := hpre fd rfl
  exact ⟨hfd, howns fd hfd⟩

namespace Serving

instance (s : Session) (t : Turn) : Decidable (s.Settled t) := by
  cases t <;> unfold Session.Settled <;> infer_instance

instance (st : Serving (List Fd)) (l : PoolStep Accepted Turn) : Decidable (st.Settled l) := by
  cases l <;> unfold Settled <;> infer_instance

variable {H : Type}

def closing (st : Serving H) (i : SessionId) : Option Fd :=
  match st.thread i with
  | some (.busy (.call o _)) => o.closed?
  | _ => none

lemma about_of_closing {st : Serving H} {i : SessionId} {fd : Fd} (h : closing st i = some fd) :
    st.About i (.close fd) := by
  unfold closing at h
  split at h
  · rename_i o k ht
    cases o with
    | close n =>
      cases h
      exact ⟨k, ht⟩
    | _ => cases h
  · cases h

def emptyWorld : World := .favourable ⟨[], [], fun _ _ _ => none, []⟩

end Serving

theorem closes_are_own_list : ∃ st : Serving (List Fd),
    st.About 0 (.close 4) ∧ 4 ∈ st.history 0 ∧ st.world.owner 4 = some 0 := by
  obtain ⟨st, hst, hc⟩ := Option.map_eq_some_iff.1 (show
    (((owners Attested.sampleService).system (Serving.Unopened [])).run Serving.Settled
      (Serving.sampleStart [] Serving.emptyWorld)
      (Serving.sampleSteps 0 3 ++ .turn 0 (.line "LIST") :: List.replicate 8 (.call 0))).map
      (fun st => Serving.closing st 0) = some (some 4) by decide +kernel)
  have habout := Serving.about_of_closing hc
  exact ⟨st, habout,
    closes_are_own Attested.sampleService (.run (.init (Serving.sampleStart_unopened _ _)) hst) habout⟩

theorem closes_are_not_own : ∃ st : Serving (List Fd),
    ((owners Attested.sampleService).system (Serving.Unopened [])).Reach System.anyStep st ∧
      st.About 0 (.close 4) ∧ 4 ∉ st.history 0 ∧ st.world.owner 4 = some 1 := by
  obtain ⟨st, hst, he⟩ := Option.map_eq_some_iff.1 (show
    (((owners Attested.sampleService).system (Serving.Unopened [])).run System.anyStep
      (Serving.sampleStart [] Serving.emptyWorld) (Serving.sampleSteps 0 3 ++ Serving.sampleTurn 0 "LIST" 10 ++
        Serving.sampleEntry 1 ⟨4, false, false⟩ ++ [.turn 0 (.line "ABOR")])).map
      (fun st => (Serving.closing st 0, decide (4 ∈ st.history 0), st.world.owner 4)) = some (some 4,
        false, some 1)
    by decide +kernel)
  simp only [Prod.mk.injEq, decide_eq_false_iff_not] at he
  exact ⟨st, .run (.init (Serving.sampleStart_unopened _ _)) hst, Serving.about_of_closing he.1, he.2.1, he.2.2⟩

end SimpleSftpd
