import SimpleSftpd.Core.Dispatch

namespace SimpleSftpd

open Cxx Interaction Prog

inductive Kind
  | reply | clock | account | census | register | query | change | chroot | openRead | opens | close
  | transfer | write | memory
  | connect (ip : Str) (port : Int)
  deriving DecidableEq

def Call.kind {β : Type} : Call β → Kind
  | sendControl _ _ | deactivate => .reply
  | steadyNow | systemNow | sleepFor _ => .clock
  | randBytes _ | pamAuthenticate _ _ | getpwnam _ | sslInitialize _ _ _ | sslAccept => .account
  | getCountForUser _ | getCountForHost _ => .census
  | registerSession _ _ | unregisterSession _ _ => .register
  | nameSpace | status _ | fileSize _ | lastWriteTime _ | modifiedTimeUtc _ | readDirectory _
  | regularFilesBelow _ => .query
  | allocate _ => .memory
  | createDirectory _ | createDirectories _ | remove _ | rename _ _ | permissions _ _
  | openWrite _ _ => .change
  | chroot _ => .chroot
  | openRead _ => .openRead
  | socket | accept _ => .opens
  | close _ => .close
  | connect _ ip port => .connect ip port
  | bind _ _ | listen _ | select _ | send _ _ | recv _ _ | fstat _ | lseek _ _ | read _ _
  | sendfile _ _ _ _ | mmap _ _ | sendMapped _ _ _ _ | munmap _ | zlibInit _ => .transfer
  | write _ _ _ | appendTo _ _ => .write

def Kinds (ks : List Kind) (c : Σ β, Call β) : Prop := c.2.kind ∈ ks

variable {env : Service} {s : Session} {ks : List Kind} {α β : Type}

@[simp] lemma kinds_mk (c : Call β) : Kinds ks ⟨β, c⟩ ↔ c.kind ∈ ks := Iff.rfl

@[simp] lemma orThrow_within (x : Except Errc α) {P : α → Prop} :
    (orThrow x).Within (Kinds ks) P ↔ ∀ a, x = .ok a → P a := by
  cases x <;> simp [orThrow]

namespace Session

@[simp] lemma sendResponse_within (h : .reply ∈ ks) (r : Reply) {P : Unit → Prop} :
    (s.sendResponse r).Within (Kinds ks) P ↔ P () := by
  unfold sendResponse
  split
  · exact within_pure ()
  · simp only [within_bind, within_perform, kinds_mk, Call.kind, h, true_and]
    constructor
    · intro hP
      simpa using hP true
    · rintro hP (_ | _)
      · simpa [Call.kind, h] using fun _ => hP
      · simpa using hP

@[simp] lemma reply_within (h : .reply ∈ ks) (code : ℕ) (text : Str) {P : Unit → Prop} :
    (s.reply code text).Within (Kinds ks) P ↔ P () := sendResponse_within h _

lemma sendLines_within (h : .reply ∈ ks) (rs : List Reply) :
    (s.sendLines rs).Within (Kinds ks) fun _ => True := by
  induction rs with
  | nil => exact (within_pure ()).2 trivial
  | cons r rs ih => simpa [sendLines, within_bind, h] using ih

end Session

section

variable {K : (Σ β, Call β) → Prop} {ks' : List Kind}

def Allows (K : (Σ β, Call β) → Prop) (ks : List Kind) : Prop := ∀ o, Kinds ks o → K o

lemma Allows.of_kinds (h : ks' ⊆ ks) : Allows (Kinds ks) ks' := fun _ ho => h ho

lemma Allows.call (h : Allows K ks) (c : Call β) (hc : c.kind ∈ ks) : K ⟨β, c⟩ := h ⟨β, c⟩ hc

lemma Allows.within {p : Io α} {P : α → Prop} (h : Allows K ks) (hp : p.Within (Kinds ks) P) : p.Within K P :=
  hp.mono h fun _ hr => hr

namespace Session

section

variable (h : Allows K ks) {P : α → Prop}
include h

lemma reply_calls (hr : .reply ∈ ks) (code : ℕ) (text : Str) {f : Unit → Io α} (hf : (f ()).Within K P) :
    (s.reply code text >>= f).Within K P :=
  within_bind.2 (h.within ((reply_within hr code text).2 hf))

lemma reply_return_calls (hr : .reply ∈ ks) (code : ℕ) (text : Str) {r : α} (hP : P r) :
    (s.reply code text >>= fun _ => pure r).Within K P :=
  reply_calls h hr code text ((within_pure r).2 hP)

lemma perform_calls (c : Call β) (hc : c.kind ∈ ks) {f : β → Io α} (hf : ∀ r, (f r).Within K P) :
    (perform c >>= f).Within K P :=
  within_bind.2 ((within_perform c).2 ⟨h.call c hc, hf⟩)

lemma orThrow_calls (x : Except Errc β) {f : β → Io α} (hf : ∀ r, (f r).Within K P) :
    (orThrow x >>= f).Within K P :=
  within_bind.2 (h.within ((orThrow_within x).2 fun r _ => hf r))

end

end Session

end

lemma closeHeld_within (h : .close ∈ ks) (fd : Option Fd) {P : Unit → Prop} (hP : P ()) :
    (closeHeld fd).Within (Kinds ks) P := by
  cases fd with
  | none => simpa [closeHeld] using hP
  | some fd => simpa [closeHeld, Call.kind, h] using fun _ => hP

namespace DataConnection

variable (d : DataConnection)

lemma closeDataSocket_within (h : .close ∈ ks) {P : DataConnection → Prop}
    (hP : P { d with data_socket_ := none, passive_listen_socket_ := none }) :
    d.closeDataSocket.Within (Kinds ks) P := by
  refine within_bind.2 (closeHeld_within h _ (within_bind.2 (closeHeld_within h _ ?_)))
  exact (within_pure _).2 hP

def connectKinds : List Kind :=
  if d.active_mode_enabled_ then [.connect d.active_mode_ip_ d.active_mode_port_] else []

@[simp] lemma mem_connectKinds (k : Kind) : k ∈ d.connectKinds ↔
    d.active_mode_enabled_ = true ∧ k = .connect d.active_mode_ip_ d.active_mode_port_ := by
  unfold connectKinds
  split <;> simp_all

def Inherits (d d' : DataConnection) : Prop :=
  d'.active_mode_enabled_ = true → d.active_mode_enabled_ = true ∧
    d'.active_mode_ip_ = d.active_mode_ip_ ∧ d'.active_mode_port_ = d.active_mode_port_

@[simp] lemma Inherits.refl : d.Inherits d := fun h => ⟨h, rfl, rfl⟩

lemma acceptDataConnection_within (h : [.opens, .close, .transfer] ++ d.connectKinds ⊆ ks)
    {P : Option (Fd × Peer) × DataConnection → Prop} (hP : ∀ o d', d.Inherits d' → P (o, d')) :
    d.acceptDataConnection.Within (Kinds ks) P := by
  have hconnect : d.active_mode_enabled_ = true → .connect d.active_mode_ip_ d.active_mode_port_ ∈ ks :=
    fun he => h (by simp [he])
  simp only [List.append_subset, List.cons_subset] at h
  have hsame : d.Inherits { d with data_socket_ := none } := fun h => ⟨h, rfl, rfl⟩
  have hforgot (n : Option Fd) : d.Inherits { d.forgetEndpoint with data_socket_ := n } := by
    simp [Inherits, forgetEndpoint]
  unfold acceptDataConnection connectActiveDataSocket
  simp only [within_ite, within_pure, hP _ _ (Inherits.refl d), implies_true, true_and, within_bind,
    within_perform, kinds_mk, Call.kind, h]
  constructor
  · intro he _ made
    cases made with
    | none => exact (within_pure _).2 (hP _ _ hsame)
    | some fd =>
      cases inetPton d.active_mode_ip_ with
      | none => simp [Call.kind, h, hP _ _ (hforgot _)]
      | some _ =>
        simp only [within_bind, within_perform, kinds_mk, Call.kind, hconnect he, true_and]
        rintro (_ | _)
        · simp [Call.kind, h, hP _ _ (hforgot _)]
        · simp [hP _ _ (hforgot _)]
  · intro _
    cases d.passive_listen_socket_ with
    | none => exact (within_pure _).2 (hP _ _ (Inherits.refl d))
    | some fd =>
      simp only [within_bind, within_perform, within_ite, within_pure, kinds_mk, Call.kind, h, true_and]
      refine fun _ => ⟨fun _ => hP _ _ (Inherits.refl d), fun _ accepted => ?_⟩
      exact hP _ _ fun h => ⟨h, rfl, rfl⟩

lemma bindFrom_within (h : .transfer ∈ ks) (fd : Fd) (n : ℕ) :
    ∀ port, (bindFrom fd port n).Within (Kinds ks) fun _ => True := by
  induction n with
  | zero => simp [bindFrom]
  | succ n ih => simp [bindFrom, within_bind, Call.kind, h, ih]

lemma createPassiveDataSocket_within (h : [.opens, .close, .transfer] ⊆ ks) (c : ConnectionConfig)
    {P : Int × DataConnection → Prop}
    (hP : ∀ port listener, P (port, { d with data_socket_ := none, passive_listen_socket_ := listener })) :
    (d.createPassiveDataSocket c).Within (Kinds ks) P := by
  simp only [List.cons_subset] at h
  refine within_bind.2 (closeDataSocket_within d h.2.1 ?_)
  simp only [within_bind, within_perform, kinds_mk, Call.kind, h, true_and]
  rintro (_ | fd)
  · exact (within_pure _).2 (hP _ _)
  · refine within_bind.2 ((bindFrom_within h.2.2.1 fd _ _).mono (fun _ h => h) fun found _ => ?_)
    cases found with
    | none => simp [Call.kind, h, hP]
    | some port => exact (within_pure _).2 (hP _ _)

end DataConnection

namespace Session

open DataConnection

lemma handlePASV_within :
    (s.handlePASV env).Within (Kinds [.reply, .opens, .close, .transfer]) s.data.Inherits := by
  simp only [handlePASV, within_ite, within_bind, within_pure]
  refine ⟨by simp [Inherits.refl], fun _ => closeDataSocket_within _ (by simp) ?_⟩
  refine createPassiveDataSocket_within _ (by simp) _ fun port listener => ?_
  simp [Inherits]

lemma handleEPSV_within (a : Str) :
    (s.handleEPSV env a).Within (Kinds [.reply, .opens, .close, .transfer]) s.data.Inherits := by
  simp only [handleEPSV, within_ite, within_bind, within_pure]
  refine ⟨fun _ => ?_, fun _ => ⟨by simp [Inherits.refl], fun _ => closeDataSocket_within _ (by simp) ?_⟩⟩
  · exact (reply_within (by simp) _ _).2 fun h => ⟨h, rfl, rfl⟩
  · refine createPassiveDataSocket_within _ (by simp) _ fun port listener => ?_
    simp [Inherits]

lemma handlePORT_within (a : Str) :
    (s.handlePORT a).Within (Kinds [.reply, .close]) fun _ => True := by
  simp only [handlePORT, within_ite]
  refine ⟨by simp, fun _ => ?_⟩
  split
  · simp only [within_ite, within_bind]
    exact ⟨by simp, fun _ => closeDataSocket_within _ (by simp) (by simp)⟩
  · simp

lemma handleEPRT_within (a : Str) :
    (s.handleEPRT a).Within (Kinds [.reply, .close]) fun _ => True := by
  simp only [handleEPRT, within_ite]
  refine ⟨by simp, fun _ => ?_⟩
  refine ⟨by simp, fun _ => ⟨by simp, fun _ => ?_⟩⟩
  split
  · refine within_ite.2 ⟨fun _ => by simp, fun _ => ?_⟩
    split
    · simp
    · refine within_ite.2 ⟨fun _ => by simp, fun _ => ?_⟩
      exact within_bind.2 (closeDataSocket_within _ (by simp) (by simp))
  · simp

lemma handleABOR_within : s.handleABOR.Within (Kinds [.reply, .close]) s.data.Inherits := by
  refine within_bind.2 (closeDataSocket_within _ (by simp) ?_)
  exact within_bind.2 ((reply_within (by simp) _ _).2 ((within_pure _).2 fun h => ⟨h, rfl, rfl⟩))

lemma handleCWD_within (a : Str) : (s.handleCWD a).Within (Kinds [.reply, .query]) fun _ => True := by
  simp [handleCWD, within_bind, Call.kind]

lemma handleCDUP_within : s.handleCDUP.Within (Kinds [.reply, .query]) fun _ => True := by
  simp [handleCDUP, within_bind, Call.kind]

lemma listEntry_within (h : .query ∈ ks) (dir name : Str) :
    (listEntry dir name).Within (Kinds ks) fun _ => True := by
  simp only [listEntry, within_bind, within_perform, kinds_mk, Call.kind, h, true_and]
  rintro (_ | t)
  · simp
  · simp only [within_bind, within_ite, within_pure, within_perform, kinds_mk, Call.kind, h, true_and]
    refine ⟨fun _ => ?_, fun _ => ?_⟩
    · rintro (_ | _) <;> simp
    · rintro (_ | n)
      · simp
      · simp only [within_bind, within_perform, kinds_mk, Call.kind, h, true_and]
        rintro (_ | _) <;> simp

lemma listEntries_within (h : .query ∈ ks) (dir : Str) (names : List Str) :
    (listEntries dir names).Within (Kinds ks) fun _ => True := by
  induction names with
  | nil => simp [listEntries]
  | cons name names ih =>
    refine Within.bind (listEntry_within h dir name) fun line => ?_
    cases line with
    | none => simp
    | some line =>
      refine Within.bind ih fun rest => ?_
      cases rest <;> simp

lemma listDirectory_within (h : .query ∈ ks) (dir : Str) :
    (listDirectory dir).Within (Kinds ks) fun _ => True := by
  simp only [listDirectory, within_bind, within_perform, kinds_mk, Call.kind, h, true_and]
  rintro ⟨names, failure⟩
  refine (listEntries_within h dir names).mono (fun _ h => h) fun listing _ => ?_
  cases listing <;> cases failure <;> simp

def dataKinds (d : DataConnection) : List Kind :=
  [.reply, .query, .opens, .close, .transfer] ++ d.connectKinds

lemma handleLIST_calls {K : (Σ β, Call β) → Prop} (h : Allows K [.reply, .query, .close, .transfer])
    {D : DataConnection → Prop} (hrefl : D s.data)
    (hd : s.data.acceptDataConnection.Within K fun r => D r.2) (a : Str) :
    (s.handleLIST a).Within K D := by
  refine perform_calls h .nameSpace (by simp [Call.kind]) fun fs => ?_
  refine within_ite.2 ⟨fun _ => reply_return_calls h (by simp) _ _ hrefl, fun _ => ?_⟩
  refine within_ite.2 ⟨fun _ => reply_return_calls h (by simp) _ _ hrefl, fun _ => ?_⟩
  refine perform_calls h (.status _) (by simp [Call.kind]) fun r => ?_
  refine orThrow_calls h r fun found => ?_
  refine within_ite.2 ⟨fun _ => reply_return_calls h (by simp) _ _ hrefl, fun _ => ?_⟩
  refine reply_calls h (by simp) _ _ ?_
  refine within_bind.2 (hd.mono (fun _ ho => ho) fun r hr => ?_)
  obtain ⟨_ | ⟨fd, peer⟩, d⟩ := r
  · exact reply_return_calls h (by simp) _ _ hr
  · refine perform_calls h (.status _) (by simp [Call.kind]) fun r => ?_
    refine orThrow_calls h r fun kind => ?_
    refine Within.bind (within_ite.2 ⟨fun _ => ?_, fun _ => ?_⟩) fun listing => ?_
    · exact h.within (listDirectory_within (by simp) _)
    · exact perform_calls h (.fileSize _) (by simp [Call.kind]) fun r =>
        orThrow_calls h r fun size => (within_pure _).2 trivial
    · cases listing with
      | none =>
        refine perform_calls h (.close fd) (by simp [Call.kind]) fun _ => ?_
        exact reply_return_calls h (by simp) _ _ hr
      | some listing =>
        refine perform_calls h (.send fd listing) (by simp [Call.kind]) fun _ => ?_
        refine perform_calls h (.close fd) (by simp [Call.kind]) fun _ => ?_
        exact reply_return_calls h (by simp) _ _ hr

lemma buildMachineFacts_within (h : .query ∈ ks) (path name : Str) :
    (s.buildMachineFacts path name).Within (Kinds ks) fun _ => True := by
  simp only [buildMachineFacts, sizeFact, within_bind, within_perform, kinds_mk, Call.kind, h, true_and,
    within_ite, within_pure, implies_true, and_true]
  rintro _ _ (_ | _) <;> simp

lemma machineEntries_within (h : .query ∈ ks) (dir : Str) (names : List Str) :
    (s.machineEntries dir names).Within (Kinds ks) fun _ => True := by
  induction names with
  | nil => simp [machineEntries]
  | cons name names ih =>
    refine Within.bind (buildMachineFacts_within h _ _) fun _ => ?_
    exact Within.bind ih fun _ => by simp

lemma handleMLSD_calls {K : (Σ β, Call β) → Prop} (h : Allows K [.reply, .query, .close, .transfer])
    {D : DataConnection → Prop} (hrefl : D s.data)
    (hd : s.data.acceptDataConnection.Within K fun r => D r.2) (a : Str) :
    (s.handleMLSD a).Within K D := by
  refine perform_calls h .nameSpace (by simp [Call.kind]) fun fs => ?_
  refine within_ite.2 ⟨fun _ => reply_return_calls h (by simp) _ _ hrefl, fun _ => ?_⟩
  refine within_ite.2 ⟨fun _ => reply_return_calls h (by simp) _ _ hrefl, fun _ => ?_⟩
  refine perform_calls h (.status _) (by simp [Call.kind]) fun found => ?_
  refine within_ite.2 ⟨fun _ => reply_return_calls h (by simp) _ _ hrefl, fun _ => ?_⟩
  refine reply_calls h (by simp) _ _ ?_
  refine within_bind.2 (hd.mono (fun _ ho => ho) fun r hr => ?_)
  obtain ⟨_ | ⟨fd, peer⟩, d⟩ := r
  · exact reply_return_calls h (by simp) _ _ hr
  · refine perform_calls h (.readDirectory _) (by simp [Call.kind]) fun entries => ?_
    refine Within.bind (h.within (machineEntries_within (by simp) _ _)) fun listing => ?_
    obtain ⟨names, _ | failure⟩ := entries
    · refine perform_calls h (.send fd listing) (by simp [Call.kind]) fun _ => ?_
      refine perform_calls h (.close fd) (by simp [Call.kind]) fun _ => ?_
      exact reply_return_calls h (by simp) _ _ hr
    · refine perform_calls h (.close fd) (by simp [Call.kind]) fun _ => ?_
      exact reply_return_calls h (by simp) _ _ hr

lemma handleMLST_within (a : Str) : (s.handleMLST a).Within (Kinds [.reply, .query]) fun _ => True := by
  simp only [handleMLST, within_bind, within_ite, within_perform, kinds_mk, Call.kind]
  refine ⟨by simp, fun fs => ?_⟩
  refine ⟨by simp, fun _ => ?_⟩
  refine ⟨by simp, fun r => ⟨by simp, fun _ => ?_⟩⟩
  refine (sendResponse_within (by simp) _).2 ?_
  exact (buildMachineFacts_within (by simp) _ _).mono (fun _ h => h) fun facts _ => by simp

lemma handleMDTM_within (a : Str) : (s.handleMDTM a).Within (Kinds [.reply, .query]) fun _ => True := by
  simp only [handleMDTM, within_bind, within_ite, within_perform, kinds_mk, Call.kind]
  refine ⟨by simp, fun _ => ?_⟩
  refine ⟨by simp, fun fs => ?_⟩
  refine ⟨by simp, fun _ => ⟨by simp, fun r => ?_⟩⟩
  refine ⟨by simp, fun _ => ⟨by simp, ?_⟩⟩
  rintro (_ | _) <;> simp

lemma statEntries_within (h : [.reply, .query] ⊆ ks) (dir : Str) (names : List Str) :
    (s.statEntries dir names).Within (Kinds ks) fun _ => True := by
  simp only [List.cons_subset] at h
  induction names with
  | nil => simp [statEntries]
  | cons name names ih =>
    refine Within.bind (buildMachineFacts_within h.2.1 _ _) fun _ => ?_
    exact within_bind.2 ((sendResponse_within h.1 _).2 ih)

lemma handleSTAT_within (a : Str) : (s.handleSTAT a).Within (Kinds [.reply, .query]) fun _ => True := by
  simp only [handleSTAT, within_bind, within_ite, within_perform, kinds_mk, Call.kind]
  refine ⟨fun _ => sendLines_within (by simp) _, fun _ => ?_⟩
  refine ⟨by simp, fun fs => ⟨by simp, fun _ => ?_⟩⟩
  refine ⟨by simp, fun r => ?_⟩
  refine ⟨by simp, fun _ => (sendResponse_within (by simp) _).2 ?_⟩
  refine ⟨by simp, fun kind => ⟨fun _ => ⟨by simp, fun names => ?_⟩, fun _ => ?_⟩⟩
  · exact (statEntries_within (by simp) _ _).mono (fun _ h => h) fun _ _ => by simp
  · exact (buildMachineFacts_within (by simp) _ _).mono (fun _ h => h) fun _ _ => by simp

lemma handleSIZE_within (a : Str) : (s.handleSIZE a).Within (Kinds [.reply, .query]) fun _ => True := by
  simp [handleSIZE, within_bind, Call.kind]

lemma handleDELE_within (a : Str) : (s.handleDELE a).Within (Kinds [.reply, .query, .change]) fun _ => True := by
  simp [handleDELE, within_bind, Call.kind]

lemma handleMKD_within (a : Str) : (s.handleMKD a).Within (Kinds [.reply, .query, .change]) fun _ => True := by
  simp [handleMKD, within_bind, Call.kind]

lemma handleRMD_within (a : Str) : (s.handleRMD a).Within (Kinds [.reply, .query, .change]) fun _ => True := by
  simp [handleRMD, within_bind, Call.kind]

lemma handleRNFR_within (a : Str) : (s.handleRNFR a).Within (Kinds [.reply, .query]) fun _ => True := by
  simp [handleRNFR, within_bind, Call.kind]

lemma handleRNTO_within (a : Str) :
    (s.handleRNTO a).Within (Kinds [.reply, .query, .change]) fun _ => True := by
  simp only [handleRNTO, renameTo, within_bind, within_ite, within_perform, kinds_mk, Call.kind]
  refine ⟨by simp, fun _ => ?_⟩
  refine ⟨by simp, fun fs => ?_⟩
  refine ⟨by simp, fun _ => ?_⟩
  refine ⟨by simp, fun _ => ⟨by simp, fun r => ?_⟩⟩
  refine (orThrow_within r).2 fun found _ => ?_
  refine ⟨by simp, fun _ => ⟨by simp, ?_⟩⟩
  rintro (_ | _) <;> simp

lemma handleSITE_within (a : Str) :
    (s.handleSITE a).Within (Kinds [.reply, .query, .change]) fun _ => True := by
  simp only [handleSITE, siteChmod, within_ite]
  refine ⟨fun _ => sendLines_within (by simp) _, fun _ => ?_⟩
  refine ⟨by simp, fun _ => ⟨fun _ => ?_, by simp⟩⟩
  simp only [within_bind, within_ite, within_perform, kinds_mk, Call.kind]
  refine ⟨by simp, fun _ => ?_⟩
  refine ⟨by simp, fun fs => ?_⟩
  refine ⟨by simp, fun _ => ⟨by simp, fun _ => ?_⟩⟩
  split
  · simp
  · simp only [within_bind, within_perform, kinds_mk, Call.kind]
    refine ⟨by simp, ?_⟩
    rintro (_ | _) <;> simp

end Session

def storeKinds (d : DataConnection) : List Kind :=
  [.reply, .query, .opens, .close, .transfer, .clock, .change, .write] ++ d.connectKinds

def retrieveKinds (d : DataConnection) : List Kind :=
  [.reply, .query, .opens, .openRead, .close, .transfer, .clock, .memory] ++ d.connectKinds

lemma applyThrottle_within (h : .clock ∈ ks) (rate : Int) (start n : ℕ) :
    (applyThrottle rate start n).Within (Kinds ks) fun _ => True := by
  simp [applyThrottle, within_bind, Call.kind, h]

namespace Retrieval

variable {t : Retrieval}

lemma sendfileLoop_within (h : [.clock, .transfer] ⊆ ks) (fuel : ℕ) :
    ∀ offset g, (t.sendfileLoop fuel offset g).Within (Kinds ks) fun _ => True := by
  simp only [List.cons_subset] at h
  induction fuel with
  | zero => simp [sendfileLoop]
  | succ fuel ih =>
    intro offset g
    simp only [sendfileLoop, within_ite, within_pure, implies_true, true_and]
    refine fun _ => Within.bind (applyThrottle_within h.1 _ _ _) fun _ => ?_
    simp [within_bind, Call.kind, h, ih]

lemma mmapLoop_within (h : [.clock, .transfer] ⊆ ks) (mapped : Str) (fuel : ℕ) :
    ∀ index g, (t.mmapLoop mapped fuel index g).Within (Kinds ks) fun _ => True := by
  simp only [List.cons_subset] at h
  induction fuel with
  | zero => simp [mmapLoop]
  | succ fuel ih =>
    intro index g
    simp only [mmapLoop, within_ite, within_pure, implies_true, true_and]
    refine fun _ => Within.bind (applyThrottle_within h.1 _ _ _) fun _ => ?_
    simp [within_bind, Call.kind, h, ih]

lemma readLoop_within (h : [.clock, .transfer] ⊆ ks) (fuel : ℕ) :
    ∀ g, (t.readLoop fuel g).Within (Kinds ks) fun _ => True := by
  simp only [List.cons_subset] at h
  induction fuel with
  | zero => simp [readLoop]
  | succ fuel ih =>
    intro g
    simp only [readLoop, within_ite, within_pure, implies_true, true_and]
    refine fun _ => Within.bind (applyThrottle_within h.1 _ _ _) fun _ => ?_
    simp only [within_bind, within_perform, kinds_mk, Call.kind, h, true_and]
    rintro (_ | data)
    · simp
    · simp [within_bind, Call.kind, h, ih]

lemma sendCompressed_within (h : .transfer ∈ ks) (data : Str) :
    (t.sendCompressed data).Within (Kinds ks) fun _ => True := by
  simp [sendCompressed, Call.kind, h]

lemma deflateLoop_within (h : [.clock, .transfer] ⊆ ks) (zlib : Zlib) (fuel : ℕ) :
    ∀ made g, (t.deflateLoop zlib fuel made g).Within (Kinds ks) fun _ => True := by
  simp only [List.cons_subset] at h
  induction fuel with
  | zero => simp [deflateLoop]
  | succ fuel ih =>
    intro made g
    simp only [deflateLoop, within_ite, within_pure, implies_true, true_and]
    refine fun _ => Within.bind (applyThrottle_within h.1 _ _ _) fun _ => ?_
    simp only [within_bind, within_perform, kinds_mk, Call.kind, h, true_and]
    rintro (_ | data)
    · simp
    · simp only [within_ite, within_pure, implies_true, true_and]
      intro _
      split
      · simp
      · exact Within.bind (sendCompressed_within h.2.1 _) fun ok => by simp [ih]

lemma makeBuffer_within (h : .memory ∈ ks) : t.makeBuffer.Within (Kinds ks) fun _ => True := by
  refine within_bind.2 ((within_perform _).2 ⟨h, fun made => ?_⟩)
  exact within_ite.2 ⟨fun _ => (within_pure _).2 trivial, fun _ => within_throw _⟩

lemma ends_makeBuffer {G : Type} {C : Contract Call G} {f : Unit → Io α} {P : α → G → Prop} {E : G → Prop} {g : G}
    (hpre : C.pre g (.allocate t.buf_size)) (hnext : ∀ made, C.next g (.allocate t.buf_size) made = g) (hE : E g)
    (hf : Ends C (f ()) P E g) : Ends C (t.makeBuffer >>= f) P E g := by
  refine ends_bind (ends_bind (ends_perform hpre fun made _ => ?_))
  rw [hnext]
  exact ends_ite (fun _ => ends_pure hf) fun _ => ends_throw hE

lemma deflateFile_within (h : [.memory, .clock, .transfer] ⊆ ks) (zlib : Zlib) (g : Progress) :
    (t.deflateFile zlib g).Within (Kinds ks) fun _ => True := by
  refine Within.bind (makeBuffer_within (h (by simp))) fun _ => ?_
  refine Within.bind (deflateLoop_within (List.Subset.trans (List.subset_cons_self _ _) h) _ _ _ _) fun r => ?_
  refine within_ite.2 ⟨fun _ => by simp, fun _ => ?_⟩
  split
  · simp
  · exact Within.bind (sendCompressed_within (h (by simp)) _) fun ok => by simp

lemma mmapFile_within (h : [.clock, .transfer] ⊆ ks) (size : ℕ) (offset : Int) (total : ℕ) :
    (t.mmapFile size offset total).Within (Kinds ks) fun _ => True := by
  have ht : .transfer ∈ ks := h (by simp)
  simp only [mmapFile, within_bind, within_perform, kinds_mk, Call.kind, ht, true_and]
  rintro (_ | bytes)
  · simp
  · refine Within.bind (mmapLoop_within h _ _ _ _) fun g => ?_
    simp [Call.kind, ht]

lemma sendFile_within (h' : [.memory, .clock, .transfer] ⊆ ks) (a b : Bool) (size : ℕ) (offset : Int) :
    (t.sendFile a b size offset).Within (Kinds ks) fun _ => True := by
  have h : [.clock, .transfer] ⊆ ks := List.Subset.trans (List.subset_cons_self _ _) h'
  have ht : .transfer ∈ ks := h (by simp)
  simp only [sendFile]
  refine Within.bind (within_ite.2 ⟨fun _ => sendfileLoop_within h _ _ _, fun _ => by simp⟩) fun r => ?_
  refine within_ite.2 ⟨fun _ => by simp, fun _ => ?_⟩
  refine Within.bind (within_ite.2 ⟨fun _ => mmapFile_within h _ _ _, fun _ => by simp⟩) fun m => ?_
  refine within_ite.2 ⟨fun _ => by simp, fun _ => ?_⟩
  simp only [within_bind, within_perform, kinds_mk, Call.kind, ht, true_and]
  intro sought
  refine within_ite.2 ⟨fun _ => by simp, fun _ => ?_⟩
  refine Within.bind (makeBuffer_within (h' (by simp))) fun _ => ?_
  exact Within.bind (readLoop_within h _ _) fun _ => by simp

end Retrieval

namespace Session

open DataConnection

def Transferred (s s' : Session) : Prop :=
  ∃ d n u, s.data.Inherits d ∧ s' = { s with data := d, resume_position_ := n, store_unique_name_ := u }

def Carried (D : DataConnection → Prop) (s s' : Session) : Prop :=
  ∃ d n u, D d ∧ s' = { s with data := d, resume_position_ := n, store_unique_name_ := u }

lemma Carried.refl {D : DataConnection → Prop} (h : D s.data) : Carried D s s := ⟨_, _, _, h, rfl⟩

lemma Carried.of_position {D : DataConnection → Prop} {s' : Session} (h : D s.data)
    (hs : ∃ n, s' = { s with resume_position_ := n }) : Carried D s s' := by
  obtain ⟨_, rfl⟩ := hs
  exact ⟨_, _, _, h, rfl⟩

lemma modeZRefusal_within (h : .reply ∈ ks) :
    (s.modeZRefusal env).Within (Kinds ks) fun r => ∀ s', r = some s' →
      ∃ n, s' = { s with resume_position_ := n } := by
  simp only [modeZRefusal, within_ite, within_pure, within_bind]
  refine ⟨fun _ => by simp, fun _ => ?_⟩
  refine ⟨fun _ => ?_, fun _ => ⟨fun _ => ?_, fun _ => by simp⟩⟩
  · refine (reply_within h _ _).2 fun s' hs => ?_
    cases hs
    exact ⟨_, rfl⟩
  · refine (reply_within h _ _).2 fun s' hs => ?_
    cases hs
    exact ⟨_, rfl⟩

lemma sendOpened_within (h : [.memory, .clock, .transfer] ⊆ ks) (fd fd' : Fd) (start size : ℕ) :
    (s.sendOpened env fd fd' start size).Within (Kinds ks) fun _ => True := by
  have ht : .transfer ∈ ks := h (by simp)
  simp only [sendOpened, within_ite]
  refine ⟨fun _ => ?_, fun _ => Within.bind (Retrieval.sendFile_within h _ _ _ _) fun _ => by simp⟩
  simp only [within_bind, within_perform, within_ite, within_pure, kinds_mk, Call.kind, ht, true_and,
    implies_true]
  exact fun _ _ _ _ => (Retrieval.deflateFile_within h _ _)

lemma retrieveTo_within (h : [.memory, .openRead, .close, .transfer, .clock] ⊆ ks) (fd : Fd) (path : Str) :
    (s.retrieveTo env fd path).Within (Kinds ks) fun _ => True := by
  have ht : [.memory, .clock, .transfer] ⊆ ks := fun k hk => h (by revert k; simp)
  simp only [List.cons_subset] at h
  simp only [retrieveTo, within_bind, within_perform, kinds_mk, Call.kind, h, true_and]
  rintro _ (_ | file)
  · simp [Call.kind, h]
  · simp only [within_bind, within_perform, kinds_mk, Call.kind, h, true_and]
    rintro (_ | ⟨_ | _, size⟩)
    · simp [within_bind, Call.kind, h]
    · simp [within_bind, Call.kind, h]
    · simp only [within_ite]
      refine ⟨fun _ => by simp [within_bind, Call.kind, h], fun _ => ?_⟩
      refine Within.bind (sendOpened_within ht _ _ _ _) fun r => ?_
      simp [within_bind, Call.kind, h]

lemma handleRETR_calls {K : (Σ β, Call β) → Prop}
    (h : Allows K [.reply, .query, .openRead, .close, .transfer, .clock, .memory])
    {D : DataConnection → Prop} (hrefl : D s.data)
    (hd : s.data.acceptDataConnection.Within K fun r => D r.2) (a : Str) :
    (s.handleRETR env a).Within K (Carried D s) := by
  have hsame : Carried D s s := .refl hrefl
  refine perform_calls h .nameSpace (by simp [Call.kind]) fun fs => ?_
  refine within_ite.2 ⟨fun _ => reply_return_calls h (by simp) _ _ hsame, fun _ => ?_⟩
  refine within_ite.2 ⟨fun _ => reply_return_calls h (by simp) _ _ hsame, fun _ => ?_⟩
  refine perform_calls h (.status _) (by simp [Call.kind]) fun r => ?_
  refine orThrow_calls h r fun found => ?_
  refine within_ite.2 ⟨fun _ => reply_return_calls h (by simp) _ _ hsame, fun _ => ?_⟩
  refine within_bind.2 ((h.within (modeZRefusal_within (by simp))).mono (fun _ ho => ho) fun r hr => ?_)
  cases r with
  | some s' => exact (within_pure _).2 (.of_position hrefl (hr s' rfl))
  | none =>
    refine reply_calls h (by simp) _ _ (within_bind.2 (hd.mono (fun _ ho => ho) fun r hr => ?_))
    obtain ⟨_ | ⟨fd, peer⟩, d⟩ := r
    · exact reply_return_calls h (by simp) _ _ ⟨_, _, _, hr, rfl⟩
    · refine Within.bind (h.within (retrieveTo_within (by simp) _ _)) fun r => ?_
      refine reply_return_calls h (by simp) _ _ ?_
      split <;> exact ⟨_, _, _, hr, rfl⟩

lemma outWrite_within (h : .write ∈ ks) (f : OutFile) (data : Str) :
    (f.write data).Within (Kinds ks) fun _ => True := by
  simp [OutFile.write, Call.kind, h]

lemma openTarget_within (h : [.query, .change] ⊆ ks) (path : Str) :
    (s.openTarget path).Within (Kinds ks) fun _ => True := by
  simp only [List.cons_subset] at h
  simp only [openTarget, within_bind, within_ite, within_perform, within_pure, kinds_mk, Call.kind, h,
    true_and, orThrow_within]
  refine ⟨fun _ r found _ => ⟨fun _ => ?_, fun _ => ?_⟩, fun _ => ?_⟩
  · rintro (_ | fd)
    · simp [Call.kind, h]
    · simp
  all_goals simp

lemma receiveLoop_within (h : [.clock, .transfer, .write] ⊆ ks) (rate : Int) (start : ℕ) (fd : Fd) (peer : Peer)
    (chunks : List Str) :
    ∀ n f, (receiveLoop rate start fd peer chunks n f).Within (Kinds ks) fun _ => True := by
  simp only [List.cons_subset] at h
  induction chunks with
  | nil => simp [receiveLoop, Call.kind, h]
  | cons chunk chunks ih =>
    intro n f
    simp only [receiveLoop, within_bind, within_perform, kinds_mk, Call.kind, h, true_and]
    refine fun _ => (applyThrottle_within h.1 _ _ _).mono (fun _ h => h) fun _ _ => ?_
    exact (outWrite_within h.2.2.1 _ _).mono (fun _ h => h) fun f _ => ih _ _

lemma inflate_within (zlib : Zlib) (made : List (Str × Bool)) :
    (inflate zlib made).Within (Kinds ks) fun _ => True := by
  unfold inflate
  split <;> simp

lemma inflateLoop_within (h : [.clock, .transfer, .write] ⊆ ks) (zlib : Zlib) (rate : Int) (start : ℕ) (fd : Fd)
    (peer : Peer) (chunks : List Str) :
    ∀ made n f, (inflateLoop zlib rate start fd peer chunks made n f).Within (Kinds ks) fun _ => True := by
  simp only [List.cons_subset] at h
  have hwrite (plain : Str) (f : OutFile) :
      (if plain = [] then return f else f.write plain : Io OutFile).Within (Kinds ks) fun _ => True :=
    within_ite.2 ⟨fun _ => by simp, fun _ => outWrite_within h.2.2.1 _ _⟩
  induction chunks with
  | nil =>
    intro made n f
    simp only [inflateLoop, within_bind, within_perform, kinds_mk, Call.kind, h, true_and, within_ite]
    refine fun _ => ⟨fun _ => by simp, fun _ => ?_⟩
    refine (inflate_within _ _).mono (fun _ h => h) fun r _ => ?_
    cases r with
    | none => simp
    | some plain => exact Within.bind (hwrite _ _) fun _ => by simp
  | cons chunk chunks ih =>
    intro made n f
    simp only [inflateLoop, within_bind, within_perform, kinds_mk, Call.kind, h, true_and]
    refine fun _ => (inflate_within _ _).mono (fun _ h => h) fun r _ => ?_
    cases r with
    | none => simp
    | some plain =>
      refine Within.bind (hwrite _ _) fun f => ?_
      refine Within.bind (applyThrottle_within h.1 _ _ _) fun _ => ?_
      exact ih _ _ _

lemma receiveTo_within (h : [.close, .transfer, .clock, .write] ⊆ ks) (fd : Fd) (peer : Peer) (f : OutFile) :
    (s.receiveTo env fd peer f).Within (Kinds ks) fun _ => True := by
  have ht : [.clock, .transfer, .write] ⊆ ks := fun k hk => h (by revert k; simp)
  simp only [List.cons_subset] at h
  simp only [receiveTo, within_bind, within_perform, within_ite, kinds_mk, Call.kind, h, true_and]
  refine fun _ => ⟨fun _ valid => ⟨fun _ => by simp, fun _ => ?_⟩, fun _ => ?_⟩
  · exact (inflateLoop_within ht _ _ _ _ _ _ _ _ _).mono (fun _ h => h) fun ok _ => by simp
  · exact (receiveLoop_within ht _ _ _ _ _ _ _).mono (fun _ h => h) fun _ _ => by simp

lemma quotaExceeded_within (h : .query ∈ ks) :
    s.quotaExceeded.Within (Kinds ks) fun _ => True := by
  unfold quotaExceeded
  split <;> simp [Call.kind, h]

lemma storeFrom_within (h : [.query, .close, .transfer, .clock, .change, .write] ⊆ ks) (fd : Fd) (peer : Peer)
    (path : Str) : (s.storeFrom env fd peer path).Within (Kinds ks) fun _ => True := by
  have ht : [.close, .transfer, .clock, .write] ⊆ ks := fun k hk => h (by revert k; simp)
  have ho : [.query, .change] ⊆ ks := fun k hk => h (by revert k; simp)
  simp only [List.cons_subset] at h
  refine Within.bind (within_ite.2 ⟨fun _ => ?_, fun _ => by simp⟩) fun _ => ?_
  · simp [within_bind, Call.kind, h]
  · refine Within.bind (openTarget_within ho path) fun r => ?_
    cases r with
    | none => simp [Call.kind, h]
    | some f => exact receiveTo_within ht _ _ _

lemma handleSTOR_calls {K : (Σ β, Call β) → Prop}
    (h : Allows K [.reply, .query, .close, .transfer, .clock, .change, .write])
    {D : DataConnection → Prop} (hrefl : D s.data)
    (hd : s.data.acceptDataConnection.Within K fun r => D r.2) (a : Str) :
    (s.handleSTOR env a).Within K (Carried D s) := by
  have hsame : Carried D s s := .refl hrefl
  refine perform_calls h .nameSpace (by simp [Call.kind]) fun fs => ?_
  refine within_ite.2 ⟨fun _ => reply_return_calls h (by simp) _ _ hsame, fun _ => ?_⟩
  refine within_ite.2 ⟨fun _ => reply_return_calls h (by simp) _ _ hsame, fun _ => ?_⟩
  refine Within.bind (h.within (quotaExceeded_within (by simp))) fun exceeded => ?_
  refine within_ite.2 ⟨fun _ => reply_return_calls h (by simp) _ _ hsame, fun _ => ?_⟩
  refine within_bind.2 ((h.within (modeZRefusal_within (by simp))).mono (fun _ ho => ho) fun r hr => ?_)
  cases r with
  | some s' => exact (within_pure _).2 (.of_position hrefl (hr s' rfl))
  | none =>
    refine reply_calls h (by simp) _ _ (within_bind.2 (hd.mono (fun _ ho => ho) fun r hr => ?_))
    obtain ⟨_ | ⟨fd, peer⟩, d⟩ := r
    · exact reply_return_calls h (by simp) _ _ ⟨_, _, _, hr, rfl⟩
    · refine Within.bind (h.within (storeFrom_within (by simp) _ _ _)) fun r => ?_
      refine reply_return_calls h (by simp) _ _ ?_
      split <;> exact ⟨_, _, _, hr, rfl⟩

lemma uniqueName_within (h : .query ∈ ks) (dir base : Str) (n : ℕ) :
    ∀ attempt, (uniqueName dir base attempt n).Within (Kinds ks) fun _ => True := by
  induction n with
  | zero => simp [uniqueName]
  | succ n ih => simp [uniqueName, within_bind, Call.kind, h, ih]

lemma handleSTOU_calls {K : (Σ β, Call β) → Prop}
    (h : Allows K [.reply, .query, .close, .transfer, .clock, .change, .write])
    {D : DataConnection → Prop} (hrefl : D s.data)
    (hd : s.data.acceptDataConnection.Within K fun r => D r.2) (a : Str) :
    (s.handleSTOU env a).Within K (Carried D s) := by
  refine Within.bind (h.within (uniqueName_within (by simp) _ _ _ _)) fun r => ?_
  cases r with
  | none => exact reply_return_calls h (by simp) _ _ (.refl hrefl)
  | some unique =>
    let t : Session := { s with store_unique_name_ := unique, resume_position_ := 0 }
    have hdata : D t.data := hrefl
    have hstore : (t.handleSTOR env unique).Within K (Carried D t) := handleSTOR_calls h hdata hd unique
    refine within_bind.2 (hstore.mono (fun _ ho => ho) ?_)
    rintro _ ⟨d, n, u, hd, rfl⟩
    exact (within_pure _).2 ⟨_, _, _, hd, rfl⟩

lemma appendLoop_within (h : [.transfer, .write] ⊆ ks) (fd fd' : Fd) (peer : Peer) (chunks : List Str) :
    ∀ good, (appendLoop fd fd' peer chunks good).Within (Kinds ks) fun _ => True := by
  simp only [List.cons_subset] at h
  induction chunks with
  | nil => simp [appendLoop, Call.kind, h]
  | cons chunk chunks ih => simp [appendLoop, within_bind, Call.kind, h, ih]

lemma handleAPPE_calls {K : (Σ β, Call β) → Prop}
    (h : Allows K [.reply, .query, .close, .transfer, .change, .write])
    {D : DataConnection → Prop} (hrefl : D s.data)
    (hd : s.data.acceptDataConnection.Within K fun r => D r.2) (a : Str) :
    (s.handleAPPE a).Within K (Carried D s) := by
  have hsame : Carried D s s := .refl hrefl
  refine perform_calls h .nameSpace (by simp [Call.kind]) fun fs => ?_
  refine within_ite.2 ⟨fun _ => reply_return_calls h (by simp) _ _ hsame, fun _ => ?_⟩
  refine within_ite.2 ⟨fun _ => reply_return_calls h (by simp) _ _ hsame, fun _ => ?_⟩
  refine within_ite.2 ⟨fun _ => reply_return_calls h (by simp) _ _ hsame, fun _ => ?_⟩
  refine reply_calls h (by simp) _ _ ?_
  refine within_bind.2 (hd.mono (fun _ ho => ho) fun r hr => ?_)
  obtain ⟨_ | ⟨fd, peer⟩, d⟩ := r
  · exact reply_return_calls h (by simp) _ _ ⟨_, _, _, hr, rfl⟩
  · refine perform_calls h (.status _) (by simp [Call.kind]) fun r => ?_
    refine orThrow_calls h r fun found => ?_
    refine perform_calls h (.openWrite _ _) (by simp [Call.kind]) fun opened => ?_
    cases opened with
    | none =>
      refine perform_calls h (.close fd) (by simp [Call.kind]) fun _ => ?_
      exact reply_return_calls h (by simp) _ _ ⟨_, _, _, hr, rfl⟩
    | some fd' =>
      refine Within.bind (h.within (appendLoop_within (by simp) _ _ _ _ _)) fun _ => ?_
      refine perform_calls h (.close fd') (by simp [Call.kind]) fun _ => ?_
      refine perform_calls h (.close fd) (by simp [Call.kind]) fun _ => ?_
      exact reply_return_calls h (by simp) _ _ ⟨_, _, _, hr, rfl⟩

lemma handleMODE_within (a : Str) : (s.handleMODE env a).Within (Kinds [.reply]) fun _ => True := by
  simp [handleMODE]

lemma handleTYPE_within (a : Str) : (s.handleTYPE a).Within (Kinds [.reply]) fun _ => True := by
  simp [handleTYPE]

lemma handleREST_within (a : Str) : (s.handleREST a).Within (Kinds [.reply]) fun _ => True := by
  simp only [handleREST, within_ite]
  refine ⟨by simp, fun _ => ?_⟩
  split <;> simp

lemma handlePROT_within (a : Str) : (s.handlePROT a).Within (Kinds [.reply]) fun _ => True := by
  simp only [handlePROT, within_ite]
  refine ⟨by simp, fun _ => ?_⟩
  split <;> simp

lemma handleOPTS_within (a : Str) : (s.handleOPTS a).Within (Kinds [.reply]) fun _ => True := by
  simp [handleOPTS]

def Secured (s s' : Session) : Prop :=
  ∃ a b c d, s' = { s with ssl_context_ := a, ssl_enabled_ := b, ssl_active_ := c, ssl_ := d }

lemma Secured.refl : Secured s s := ⟨_, _, _, _, rfl⟩

lemma loadHostCertificate_within (h : .account ∈ ks) :
    s.loadHostCertificate.Within (Kinds ks) (Secured s) := by
  unfold loadHostCertificate
  split
  · exact (within_pure _).2 .refl
  · simp only [within_ite, within_pure, within_bind, within_perform, kinds_mk, Call.kind, h, true_and]
    exact ⟨fun _ => .refl, fun _ _ => ⟨_, _, _, _, rfl⟩⟩

lemma handleAUTH_within (a : Str) : (s.handleAUTH a).Within (Kinds [.reply, .account]) (Secured s) := by
  simp only [handleAUTH, within_ite, within_bind, within_pure]
  refine ⟨fun _ => ⟨by simp [Secured.refl], fun _ => ?_⟩, by simp [Secured.refl]⟩
  refine (loadHostCertificate_within (by simp)).mono (fun _ h => h) ?_
  rintro _ ⟨x, y, z, u, rfl⟩
  refine ⟨fun _ => (reply_within (by simp) _ _).2 ⟨_, _, _, _, rfl⟩, fun _ => ?_⟩
  refine (reply_within (by simp) _ _).2 ((within_perform _).2 ⟨by simp [Call.kind], fun upgraded => ?_⟩)
  refine ⟨fun _ => (within_perform _).2 ⟨by simp [Call.kind], fun _ => ?_⟩, fun _ => ?_⟩ <;>
    exact ⟨_, _, _, _, rfl⟩

def passKinds : List Kind := [.reply, .clock, .account, .census, .register, .query, .chroot]

lemma checkPassword_within (h : [.clock, .account] ⊆ ks) (password : Str) :
    (s.checkPassword env password).Within (Kinds ks) fun r => r.2 = true → r.1.isSome := by
  simp only [List.cons_subset] at h
  simp only [checkPassword, within_bind, within_perform, within_ite, within_pure, kinds_mk, Call.kind, h,
    true_and]
  refine fun now => ⟨fun hu _ => ?_, fun _ => ⟨fun _ accepted => ⟨fun _ _ _ => ?_, ?_⟩, ?_⟩⟩
  · exact Option.isSome_of_any hu
  all_goals simp

lemma sessionLimit_within (h : .census ∈ ks) : (s.sessionLimit env).Within (Kinds ks) fun _ => True := by
  simp only [sessionLimit, within_ite, within_bind, within_perform, within_pure, kinds_mk, Call.kind, h,
    true_and, implies_true, and_true]
  intro _
  constructor <;> intro _
  · intro users
    refine fun _ => ?_
    split <;> simp [within_bind, Call.kind, h]
  · refine fun _ => ?_
    split <;> simp [within_bind, Call.kind, h]

lemma applyChroot_within (h : [.query, .chroot] ⊆ ks) (dir : Str) :
    (applyChroot env dir).Within (Kinds ks) fun _ => True := by
  simp only [List.cons_subset] at h
  simp [applyChroot, within_bind, within_ite, Call.kind, h]

inductive Passed (s : Session) : Session → Prop
  | unnamed : Passed s s
  | refused (u : Option FTPUser) : Passed s { s with current_user_ := u }
  | accepted (u : FTPUser) (dir : Str) (reg : Bool) :
    Passed s { s with
      current_user_ := some u, authenticated_ := true, current_directory_ := dir, session_registered_ := reg }

lemma logIn_within (u : FTPUser) (hu : s.current_user_ = some u) :
    (s.logIn env u).Within (Kinds passKinds) (Passed s) := by
  have haccepted (dir : Str) (reg : Bool) : Passed s { s with
      authenticated_ := true, current_directory_ := dir, session_registered_ := reg } := by
    have h := @Passed.accepted s u dir reg
    rw [← hu] at h
    exact h
  simp only [logIn, loginDirectory, register, within_bind, within_ite]
  refine ⟨fun _ => ?_, fun _ => ?_⟩
  · refine (applyChroot_within (by simp [passKinds]) _).mono (fun _ h => h) fun dir _ => ?_
    simp [passKinds, Call.kind, haccepted]
  · simp [passKinds, Call.kind, haccepted]

lemma finishLogin_within (ok : Bool) : (s.finishLogin env ok).Within (Kinds passKinds) (Passed s) := by
  have hrefused : Passed s s := .unnamed
  unfold finishLogin
  split
  · rename_i u hu
    refine within_bind.2 ((sessionLimit_within (by simp [passKinds])).mono (fun _ h => h) fun r _ => ?_)
    cases r with
    | some refusal => simpa [within_bind, passKinds] using hrefused
    | none => exact logIn_within u hu
  · simpa [within_bind, passKinds] using hrefused

lemma handlePASS_within (a : Str) : (s.handlePASS env a).Within (Kinds passKinds) (Passed s) := by
  simp only [handlePASS, within_ite, within_bind]
  refine ⟨fun _ => (reply_within (by simp [passKinds]) _ _).2 ((within_pure _).2 .unnamed), fun _ => ?_⟩
  refine (checkPassword_within (by simp [passKinds]) a).mono (fun _ h => h) fun r _ => ?_
  refine (finishLogin_within r.2).mono (fun _ h => h) ?_
  rintro _ (_ | u | ⟨u, dir, reg⟩)
  · exact .refused r.1
  · exact .refused u
  · exact .accepted u dir reg

end Session

def Verb.kinds (d : DataConnection) : Verb → List Kind
  | .user | .quit | .noop | .syst | .feat | .pbsz | .prot | .host | .opts | .help | .pwd | .allo | .mode
  | .type | .rest | .unknown => [.reply]
  | .pass => Session.passKinds
  | .auth => [.reply, .account]
  | .abor | .port | .eprt => [.reply, .close]
  | .pasv | .epsv => [.reply, .opens, .close, .transfer]
  | .cwd | .cdup | .mlst | .mdtm | .stat | .size | .rnfr => [.reply, .query]
  | .list | .mlsd => Session.dataKinds d
  | .site | .dele | .mkd | .rmd | .rnto => [.reply, .query, .change]
  | .retr => retrieveKinds d
  | .stou | .stor | .appe => storeKinds d

def Verb.Effect (argument : Str) (s s' : Session) : Verb → Prop
  | .user => s' = { s with username_ := argument, authenticated_ := false }
  | .pass => s.Passed s'
  | .host => s' = s ∨ ∃ h : FTPVirtualHost,
    h.hostname_ = argument ∧ argument ≠ [] ∧ s' = { s with current_virtual_host_ := some h }
  | .auth => s.Secured s'
  | .prot => ∃ l, s' = { s with protection_level_ := l }
  | .opts => ∃ b, s' = { s with utf8_enabled_ := b }
  | .abor | .list | .mlsd | .pasv | .epsv => ∃ d, s.data.Inherits d ∧ s' = { s with data := d }
  | .port | .eprt => ∃ d, s' = { s with data := d }
  | .cwd | .cdup => ∃ dir, s' = { s with current_directory_ := dir }
  | .mode => ∃ m, s' = { s with transfer_mode_ := m }
  | .type => ∃ t, s' = { s with transfer_type_ := t }
  | .rest => ∃ n, s' = { s with resume_position_ := n }
  | .rnfr | .rnto => ∃ p, s' = { s with rename_from_path_ := p }
  | .retr | .stor | .stou | .appe => s.Transferred s'
  | _ => s' = s

namespace Session

open DataConnection

lemma handleHOST_within (a : Str) :
    (s.handleHOST env a).Within (Kinds [.reply]) fun s' => Verb.Effect a s s' .host := by
  simp only [handleHOST, within_ite]
  refine ⟨fun _ => by simp [Verb.Effect], fun ha => ?_⟩
  split
  · simp [Verb.Effect]
  · rename_i hosts _
    cases hv : hosts.getVirtualHost a with
    | none => simp [Verb.Effect]
    | some host =>
      simp only [within_ite]
      refine ⟨fun _ => by simp [Verb.Effect], fun _ => within_bind.2 ?_⟩
      refine (reply_within (by simp) _ _).2 ((within_pure _).2 (.inr ⟨host, ?_, ha, rfl⟩))
      exact VirtualHosts.getVirtualHost_hostname hv

theorem handle_within (c : Command) :
    (s.handle env c).Within (Kinds (c.verb.kinds s.data)) fun s' => Verb.Effect c.argument s s' c.verb := by
  rcases c with ⟨v, a⟩
  have accepts {ks : List Kind} (hks : [.opens, .close, .transfer] ⊆ ks) :
      s.data.acceptDataConnection.Within (Kinds (ks ++ s.data.connectKinds)) fun r => s.data.Inherits r.2 :=
    acceptDataConnection_within _ (List.append_subset.2 ⟨List.Subset.trans hks (List.subset_append_left _ _),
      List.subset_append_right _ _⟩) fun _ _ hd => hd
  cases v with
  | pass => exact handlePASS_within a
  | host => exact handleHOST_within a
  | auth => exact handleAUTH_within a
  | retr => exact handleRETR_calls (.of_kinds (by simp)) (.refl _) (accepts (by simp)) a
  | stor => exact handleSTOR_calls (.of_kinds (by simp)) (.refl _) (accepts (by simp)) a
  | stou => exact handleSTOU_calls (.of_kinds (by simp)) (.refl _) (accepts (by simp)) a
  | appe => exact handleAPPE_calls (.of_kinds (by simp)) (.refl _) (accepts (by simp)) a
  | prot => exact (handlePROT_within a).andReturn fun r => ⟨r, rfl⟩
  | opts => exact (handleOPTS_within a).andReturn fun r => ⟨r, rfl⟩
  | abor =>
    refine within_bind.2 (handleABOR_within.mono (fun _ h => h) fun d hd => ?_)
    exact (within_pure _).2 ⟨d, hd, rfl⟩
  | list =>
    have hlist : (s.handleLIST a).Within (Kinds (dataKinds s.data)) s.data.Inherits :=
      handleLIST_calls (.of_kinds (by simp)) (.refl _) (accepts (by simp)) a
    exact within_bind.2 (hlist.mono (fun _ h => h) fun d hd => (within_pure _).2 ⟨d, hd, rfl⟩)
  | mlsd =>
    have hlist : (s.handleMLSD a).Within (Kinds (dataKinds s.data)) s.data.Inherits :=
      handleMLSD_calls (.of_kinds (by simp)) (.refl _) (accepts (by simp)) a
    exact within_bind.2 (hlist.mono (fun _ h => h) fun d hd => (within_pure _).2 ⟨d, hd, rfl⟩)
  | pasv =>
    refine within_bind.2 (handlePASV_within.mono (fun _ h => h) fun d hd => ?_)
    exact (within_pure _).2 ⟨d, hd, rfl⟩
  | epsv =>
    refine within_bind.2 ((handleEPSV_within a).mono (fun _ h => h) fun d hd => ?_)
    exact (within_pure _).2 ⟨d, hd, rfl⟩
  | port => exact (handlePORT_within a).andReturn fun r => ⟨r, rfl⟩
  | eprt => exact (handleEPRT_within a).andReturn fun r => ⟨r, rfl⟩
  | cwd => exact (handleCWD_within a).andReturn fun r => ⟨r, rfl⟩
  | cdup => exact handleCDUP_within.andReturn fun r => ⟨r, rfl⟩
  | mode => exact (handleMODE_within a).andReturn fun r => ⟨r, rfl⟩
  | type => exact (handleTYPE_within a).andReturn fun r => ⟨r, rfl⟩
  | rest => exact (handleREST_within a).andReturn fun r => ⟨r, rfl⟩
  | rnfr => exact (handleRNFR_within a).andReturn fun r => ⟨r, rfl⟩
  | rnto => exact (handleRNTO_within a).andReturn fun r => ⟨r, rfl⟩
  | mlst => exact (handleMLST_within a).andReturn fun _ => rfl
  | mdtm => exact (handleMDTM_within a).andReturn fun _ => rfl
  | stat => exact (handleSTAT_within a).andReturn fun _ => rfl
  | site => exact (handleSITE_within a).andReturn fun _ => rfl
  | size => exact (handleSIZE_within a).andReturn fun _ => rfl
  | dele => exact (handleDELE_within a).andReturn fun _ => rfl
  | mkd => exact (handleMKD_within a).andReturn fun _ => rfl
  | rmd => exact (handleRMD_within a).andReturn fun _ => rfl
  | feat => exact (sendLines_within (by simp [Verb.kinds]) _).andReturn fun _ => rfl
  | help => exact (sendLines_within (by simp [Verb.kinds]) _).andReturn fun _ => rfl
  | _ => simp [handle, handleUSER, handleQUIT, handlePBSZ, handlePWD, within_bind, Verb.kinds,
    Verb.Effect, Call.kind]

end Session

def Verb.usesData : Verb → Bool
  | .list | .mlsd | .retr | .stor | .stou | .appe | .pasv | .epsv | .port | .eprt | .abor => true
  | _ => false

structure Verb.Frame (v : Verb) (s s' : Session) : Prop where
  socket : s'.socket_ = s.socket_
  user : v ≠ .pass → s'.current_user_ = s.current_user_
  registered : v ≠ .pass → s'.session_registered_ = s.session_registered_
  login : v ∉ [.user, .pass] → s'.authenticated_ = s.authenticated_ ∧ s'.username_ = s.username_
  directory : v ∉ [.pass, .cwd, .cdup] → s'.current_directory_ = s.current_directory_
  host : v ≠ .host → s'.current_virtual_host_ = s.current_virtual_host_
  tls : v ≠ .auth → s'.ssl_active_ = s.ssl_active_ ∧ s'.ssl_ = s.ssl_ ∧ s'.ssl_context_ = s.ssl_context_
  protection : v ≠ .prot → s'.protection_level_ = s.protection_level_
  rename : v ∉ [.rnfr, .rnto] → s'.rename_from_path_ = s.rename_from_path_
  resume : v ∉ [.rest, .retr, .stor, .stou, .appe] → s'.resume_position_ = s.resume_position_
  mode : v ≠ .mode → s'.transfer_mode_ = s.transfer_mode_
  type : v ≠ .type → s'.transfer_type_ = s.transfer_type_
  data : v.usesData = false → s'.data = s.data
  inherits : v ∉ [.port, .eprt] → s.data.Inherits s'.data

lemma Verb.Frame.refl (v : Verb) (s : Session) : v.Frame s s := by constructor <;> simp

lemma Verb.Effect.frame {a : Str} {s s' : Session} {v : Verb} (h : Verb.Effect a s s' v) : v.Frame s s' := by
  cases v with
  | host => rcases h with rfl | ⟨_, _, _, rfl⟩ <;> constructor <;> simp
  | pass => cases h <;> constructor <;> simp
  | auth =>
    obtain ⟨_, _, _, _, rfl⟩ := h
    constructor <;> simp
  | retr | stor | stou | appe =>
    obtain ⟨d, _, _, hd, rfl⟩ := h
    constructor <;> simp [hd, usesData]
  | abor | list | mlsd | pasv | epsv =>
    obtain ⟨d, hd, rfl⟩ := h
    constructor <;> simp [hd, usesData]
  | port | eprt =>
    obtain ⟨d, rfl⟩ := h
    constructor <;> simp [usesData]
  | user =>
    subst h
    constructor <;> simp
  | prot | opts | cwd | cdup | mode | type | rest | rnfr | rnto =>
    obtain ⟨_, rfl⟩ := h
    constructor <;> simp
  | _ =>
    subst h
    exact .refl _ _

end SimpleSftpd
