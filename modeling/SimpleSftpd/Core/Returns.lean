import SimpleSftpd.Core.Footprint

/-! Programs that no answer makes throw. -/

namespace SimpleSftpd

open Cxx Interaction Prog

section

variable {α β : Type}

lemma returns_call {o : Call β} {f : β → Io α} (h : ∀ r, (f r).Returns) : (perform o >>= f).Returns := h

lemma returns_ite {c : Prop} [Decidable c] {p q : Io α} (hp : p.Returns) (hq : q.Returns) :
    (if c then p else q).Returns := by
  split
  · exact hp
  · exact hq

lemma returns_unless {c : Prop} [Decidable c] {a : α} {q : Io α} (hq : q.Returns) :
    (if c then return a else q).Returns := returns_ite (p := return a) trivial hq

lemma returns_andReturn {p : Io α} {f : α → β} (h : p.Returns) : (p >>= fun a => pure (f a)).Returns := by
  apply Returns.bind h
  intro a
  trivial

end

lemma applyThrottle_returns (rate : Int) (start bytes : ℕ) : (applyThrottle rate start bytes).Returns := by
  rw [applyThrottle]
  apply returns_unless
  apply returns_call
  intro now
  apply returns_ite
  · exact fun _ => trivial
  · trivial

lemma closeHeld_returns (fd : Option Fd) : (closeHeld fd).Returns := by
  cases fd with
  | none => trivial
  | some fd => exact fun _ => trivial

namespace DataConnection

variable (d : DataConnection)

lemma closeDataSocket_returns : d.closeDataSocket.Returns := by
  apply Returns.bind (closeHeld_returns _)
  intro _
  apply Returns.bind (closeHeld_returns _)
  intro _
  trivial

lemma acceptDataConnection_returns : d.acceptDataConnection.Returns := by
  rw [acceptDataConnection, connectActiveDataSocket]
  apply returns_ite
  · apply returns_unless
    apply returns_call
    intro made
    cases made with
    | none => trivial
    | some fd =>
      cases inetPton d.active_mode_ip_ with
      | none => exact fun _ => trivial
      | some _ =>
        apply returns_call
        intro peer
        cases peer with
        | none => exact fun _ => trivial
        | some peer => trivial
  · cases d.passive_listen_socket_ with
    | none => trivial
    | some listener =>
      apply returns_call
      intro ready
      apply returns_unless
      exact fun _ => trivial

lemma bindFrom_returns (fd : Fd) (n : ℕ) : ∀ port : Int, (bindFrom fd port n).Returns := by
  induction n with
  | zero => exact fun _ => trivial
  | succ n ih =>
    intro port
    apply returns_call
    intro bound
    apply returns_ite
    · apply returns_call
      intro listening
      exact returns_unless (ih _)
    · exact ih _

lemma createPassiveDataSocket_returns (config : ConnectionConfig) :
    (d.createPassiveDataSocket config).Returns := by
  apply Returns.bind d.closeDataSocket_returns
  intro d
  apply returns_call
  intro made
  cases made with
  | none => trivial
  | some fd =>
    apply Returns.bind (bindFrom_returns _ _ _)
    intro found
    cases found with
    | none => exact fun _ => trivial
    | some port => trivial

end DataConnection

namespace Retrieval

variable (t : Retrieval)

lemma sendfileLoop_returns (fuel : ℕ) :
    ∀ (offset : Int) (g : Progress), (t.sendfileLoop fuel offset g).Returns := by
  induction fuel with
  | zero => exact fun _ _ => trivial
  | succ fuel ih =>
    intro offset g
    apply returns_unless
    apply Returns.bind (applyThrottle_returns _ _ _)
    intro _
    apply returns_call
    intro n
    apply returns_unless
    exact returns_unless (ih _ _)

lemma mmapLoop_returns (mapped : Str) (fuel : ℕ) :
    ∀ (index : Int) (g : Progress), (t.mmapLoop mapped fuel index g).Returns := by
  induction fuel with
  | zero => exact fun _ _ => trivial
  | succ fuel ih =>
    intro index g
    apply returns_unless
    apply Returns.bind (applyThrottle_returns _ _ _)
    intro _
    apply returns_call
    intro sent
    exact returns_unless (ih _ _)

lemma readLoop_returns (fuel : ℕ) : ∀ g : Progress, (t.readLoop fuel g).Returns := by
  induction fuel with
  | zero => exact fun _ => trivial
  | succ fuel ih =>
    intro g
    apply returns_unless
    apply Returns.bind (applyThrottle_returns _ _ _)
    intro _
    apply returns_call
    intro got
    cases got with
    | none => trivial
    | some data =>
      apply returns_unless
      apply returns_call
      intro sent
      apply returns_unless
      exact returns_unless (ih _)

lemma sendCompressed_returns (data : Str) : (t.sendCompressed data).Returns := by
  apply returns_unless
  exact fun _ => trivial

lemma deflateLoop_returns (zlib : Zlib) (fuel : ℕ) : ∀ (made : List (Str × Bool)) (g : Progress),
    (t.deflateLoop zlib fuel made g).Returns := by
  induction fuel with
  | zero => exact fun _ _ => trivial
  | succ fuel ih =>
    intro made g
    apply returns_unless
    apply Returns.bind (applyThrottle_returns _ _ _)
    intro _
    apply returns_call
    intro got
    cases got with
    | none => trivial
    | some data =>
      apply returns_unless
      dsimp only
      cases zlib.deflate (made ++ [(data, false)]) with
      | none => trivial
      | some compressed =>
        apply Returns.bind (t.sendCompressed_returns compressed)
        intro ok
        exact returns_unless (ih _ _)

lemma mmapFile_returns (size : ℕ) (offset : Int) (total : ℕ) : (t.mmapFile size offset total).Returns := by
  apply returns_call
  intro mapped
  cases mapped with
  | none => trivial
  | some bytes =>
    apply Returns.bind (t.mmapLoop_returns _ _ _ _)
    intro g
    exact fun _ => trivial

end Retrieval

namespace Session

variable (env : Service) (s : Session)

lemma listEntry_returns (dir name : Str) : (listEntry dir name).Returns := by
  apply returns_call
  intro found
  cases found with
  | error e => trivial
  | ok t =>
    apply Returns.bind
    · apply returns_unless
      exact fun _ => trivial
    · intro size
      cases size with
      | error e => trivial
      | ok size =>
        apply returns_call
        intro written
        cases written with
        | error e => trivial
        | ok _ => trivial

lemma listEntries_returns (dir : Str) (names : List Str) : (listEntries dir names).Returns := by
  induction names with
  | nil => trivial
  | cons name names ih =>
    apply Returns.bind (listEntry_returns dir name)
    intro line
    cases line with
    | none => trivial
    | some line =>
      apply Returns.bind ih
      intro rest
      cases rest with
      | none => trivial
      | some rest => trivial

lemma listDirectory_returns (dir : Str) : (listDirectory dir).Returns := by
  apply returns_call
  rintro ⟨names, failure⟩
  apply Returns.bind (listEntries_returns dir names)
  intro listing
  cases listing with
  | none => trivial
  | some listing => cases failure <;> trivial

lemma buildMachineFacts_returns (path name : Str) : (s.buildMachineFacts path name).Returns := by
  apply returns_call
  intro found
  apply Returns.bind
  · apply returns_unless
    apply returns_call
    intro size
    cases size <;> trivial
  · intro size
    apply returns_call
    intro modify
    exact fun _ => trivial

lemma machineEntries_returns (dir : Str) (names : List Str) : (s.machineEntries dir names).Returns := by
  induction names with
  | nil => trivial
  | cons name names ih =>
    apply Returns.bind (s.buildMachineFacts_returns _ name)
    intro line
    exact returns_andReturn ih

lemma quotaExceeded_returns : s.quotaExceeded.Returns := by
  rw [quotaExceeded]
  cases s.current_user_ with
  | none => trivial
  | some u =>
    apply returns_ite
    · exact fun _ => trivial
    · trivial

lemma uniqueName_returns (dir base : Str) (n : ℕ) : ∀ attempt, (uniqueName dir base attempt n).Returns := by
  induction n with
  | zero => exact fun _ => trivial
  | succ n ih =>
    intro attempt
    apply returns_call
    intro found
    exact returns_unless (ih _)

lemma appendLoop_returns (data_fd fd : Fd) (peer : Peer) (chunks : List Str) :
    ∀ good, (appendLoop data_fd fd peer chunks good).Returns := by
  induction chunks with
  | nil => exact fun _ _ => trivial
  | cons chunk chunks ih =>
    intro good
    apply returns_call
    intro _
    apply Returns.bind
    · exact returns_ite (by exact fun _ => trivial) (by trivial)
    · intro good
      exact ih good

lemma write_returns (f : OutFile) (data : Str) : (f.write data).Returns := by
  rw [OutFile.write]
  apply returns_unless
  exact fun _ => trivial

lemma writeAny_returns (f : OutFile) (plain : Str) :
    (if plain = [] then return f else f.write plain : Io OutFile).Returns :=
  returns_unless (write_returns f plain)

lemma receiveLoop_returns (rate : Int) (start : ℕ) (fd : Fd) (peer : Peer) (chunks : List Str) :
    ∀ (n : ℕ) (f : OutFile), (receiveLoop rate start fd peer chunks n f).Returns := by
  induction chunks with
  | nil => exact fun _ _ _ => trivial
  | cons chunk chunks ih =>
    intro n f
    apply returns_call
    intro _
    apply Returns.bind (applyThrottle_returns _ _ _)
    intro _
    apply Returns.bind (write_returns _ _)
    exact fun f' => ih _ f'

lemma loadHostCertificate_returns : s.loadHostCertificate.Returns := by
  rw [loadHostCertificate]
  cases s.current_virtual_host_ with
  | none => trivial
  | some h =>
    apply returns_unless
    exact fun _ => trivial

lemma checkPassword_returns (password : Str) : (s.checkPassword env password).Returns := by
  apply returns_call
  intro now
  apply returns_unless
  apply returns_ite
  · apply returns_call
    intro accepted
    apply returns_ite
    · exact fun _ _ => trivial
    · trivial
  · trivial

lemma sessionLimit_returns : (s.sessionLimit env).Returns := by
  rw [sessionLimit]
  apply returns_ite
  · apply Returns.bind
    · apply returns_ite
      · exact fun _ => trivial
      · trivial
    · intro users
      apply returns_unless
      cases s.current_virtual_host_ with
      | none => trivial
      | some h =>
        apply Returns.bind
        · apply returns_ite
          · exact fun _ => trivial
          · trivial
        · intro sessions
          exact returns_unless (by trivial)
  · trivial

lemma register_returns : (s.register env).Returns := by
  apply returns_ite
  · exact fun _ => trivial
  · trivial

end Session

end SimpleSftpd
