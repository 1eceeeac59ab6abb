import SimpleSftpd.Cxx.Numerals
import SimpleSftpd.Core.Answered
import SimpleSftpd.Sessions.VerifiedUser

namespace SimpleSftpd

open Cxx Interaction Prog

structure Heard where
  bound : Option (Fd × Int) := none
  replies : List Reply := []

def hearing : Contract Call Heard where
  pre _ _ := True
  post _ _ _ := True
  next g o := match o with
    | .bind fd port => fun ok => if ok then { g with bound := some (fd, port) } else g
    | .sendControl _ r => fun _ => { g with replies := g.replies ++ [r] }
    | _ => fun _ => g

def Trace.heard (me : SessionId) (t : Trace) : Heard := hearing.final (World.machine me) {} t

def passiveReply (p1 p2 : Int) : Reply :=
  .final 227 ("Entering Passive Mode (127,0,0,1," ++ decimalInt p1 ++ "," ++ decimalInt p2 ++ ")")

def extendedPassiveReply (port : Int) : Reply :=
  .final 229 ("Entering Extended Passive Mode (|||" ++ decimalInt port ++ "|)")

def IsOctet (n : Int) : Prop := 0 ≤ n ∧ n ≤ 255

/-- The ports of a socket that was bound to `number`; for 0 the system takes any. -/
def BoundTo (number port : Int) : Prop := if number = 0 then 1 ≤ port ∧ port ≤ 65535 else port = number

def Heard.Serves (h : Heard) (d : DataConnection) (port : Int) : Prop :=
  1 ≤ port ∧ port ≤ 65535 ∧ ∃ fd number, d.passive_listen_socket_ = some fd ∧
    h.bound = some (fd, number) ∧ ∀ actual, BoundTo number actual → actual = port

structure Heard.Announced (h : Heard) (d : DataConnection) : Prop where
  pasv : ∀ p1 p2, passiveReply p1 p2 ∈ h.replies → IsOctet p1 ∧ IsOctet p2 ∧ h.Serves d (p1 * 256 + p2)
  epsv : ∀ port, extendedPassiveReply port ∈ h.replies → h.Serves d port

def Session.Announces (s : Session) : Prop := ∀ host ∈ s.current_virtual_host_,
  host.getCustomError (decimal 227) = [] ∧ host.getCustomError (decimal 229) = []

def ConnectionConfig.Announceable (config : ConnectionConfig) : Prop :=
  config.passive_port_range_end < config.passive_port_range_start ∨ config.passive_port_range_end < 0 ∨
    (1 ≤ config.passive_port_range_start ∧ config.passive_port_range_end ≤ 65535)

variable {env : Service} {me : SessionId} {s s' : Session} {a : Arrival} {β : Type}

lemma passiveReply_inj {p1 p2 q1 q2 : Int} (h : passiveReply p1 p2 = passiveReply q1 q2) : p1 = q1 ∧ p2 = q2 := by
  have hcomma (n : Int) : (44 : Byte) ∉ decimalInt n := not_mem_decimalInt rfl (by decide) n
  have htail : (44 : Byte) ∉ decimalInt p2 ++ ascii ")" := fun hc =>
    (List.mem_append.1 hc).elim (hcomma p2) (by decide)
  have htext := (Reply.final.inj h).2
  simp only [List.append_assoc, List.append_cancel_left_eq] at htext
  obtain ⟨h1, _, h2⟩ := (List.append_cons_inj_of_notMem (hcomma p1) htail).1 htext
  exact ⟨decimalInt_injective h1, decimalInt_injective (List.append_cancel_right h2)⟩

lemma extendedPassiveReply_inj {p q : Int} (h : extendedPassiveReply p = extendedPassiveReply q) : p = q := by
  have htext := (Reply.final.inj h).2
  simp only [List.append_assoc, List.append_cancel_left_eq, List.append_cancel_right_eq] at htext
  exact decimalInt_injective htext

lemma hearing_call {α : Type} {c : Call β} {f : β → Io α} {P : α → Heard → Prop} {g : Heard}
    (h : ∀ r, Meets hearing (f r) P (hearing.next g c r)) : Meets hearing (perform c >>= f) P g :=
  meets_bind.2 ((meets_perform c).2 ⟨trivial, fun r _ => h r⟩)

lemma hearing_close {α : Type} {d : DataConnection} {f : DataConnection → Io α} {P : α → Heard → Prop} {g : Heard}
    (h : ∀ d', Meets hearing (f d') P g) : Meets hearing (d.closeDataSocket >>= f) P g := by
  have hclose : d.closeDataSocket.Within (Kinds [.close]) fun _ => True :=
    DataConnection.closeDataSocket_within d (by simp) trivial
  refine meets_bind.2 (hclose.meets (fun o ho => ⟨trivial, fun r => ?_⟩) fun d' _ => h d')
  cases o with
  | bind | sendControl => simp [Kinds, Call.kind] at ho
  | _ => rfl

lemma hearing_reply {α : Type} {code : ℕ} {text : Str} {t : α} {P : α → Heard → Prop} {g : Heard}
    (hunsaid : P t g) (hsaid : P t { g with
      replies := g.replies ++ [(Reply.final code text).customized s.current_virtual_host_] }) :
    Meets hearing (s.reply code text >>= fun _ => pure t) P g := by
  unfold Session.reply Session.sendResponse
  refine meets_bind.2 (meets_ite.2 ⟨fun _ => (meets_pure _).2 ((meets_pure _).2 hunsaid), fun _ => ?_⟩)
  refine hearing_call fun sent => ?_
  refine meets_ite.2 ⟨fun _ => (meets_pure _).2 ((meets_pure _).2 hsaid), fun _ => ?_⟩
  exact (meets_perform _).2 ⟨trivial, fun _ _ => (meets_pure _).2 hsaid⟩

lemma bindFrom_hearing (fd : Fd) (n : ℕ) :
    ∀ (port : Int) (g : Heard), Meets hearing (DataConnection.bindFrom fd port n)
    (fun found g' => g'.replies = g.replies ∧
      ∀ p, found = some p → port ≤ p ∧ p < port + n ∧ g'.bound = some (fd, p % 65536)) g := by
  induction n with
  | zero => exact fun port g => (meets_pure _).2 ⟨rfl, fun p h => by cases h⟩
  | succ n ih =>
    intro port g
    have hnext (g' : Heard) (hg : g'.replies = g.replies) : Meets hearing (DataConnection.bindFrom fd (port + 1) n)
        (fun found g' => g'.replies = g.replies ∧
          ∀ p, found = some p → port ≤ p ∧ p < port + (n + 1 : ℕ) ∧ g'.bound = some (fd, p % 65536)) g' := by
      refine (ih (port + 1) g').mono fun found g'' h => ⟨h.1.trans hg, fun p hp => ?_⟩
      obtain ⟨hfirst, hlast, hbound⟩ := h.2 p hp
      exact ⟨by omega, by omega, hbound⟩
    refine hearing_call fun bound => ?_
    refine meets_ite.2 ⟨fun hbound => hearing_call fun listening => ?_, fun _ => hnext _ ?_⟩
    · have hlast : port < port + (n + 1 : ℕ) := by omega
      refine meets_ite.2 ⟨fun _ => (meets_pure _).2 ⟨?_, fun p hp => ?_⟩, fun _ => hnext _ ?_⟩
      · simp [hearing, hbound]
      · cases hp
        exact ⟨le_refl _, hlast, by simp [hearing, hbound]⟩
      · simp [hearing, hbound]
    · simp only [hearing]
      split <;> rfl

lemma createPassiveDataSocket_hearing (d : DataConnection) (config : ConnectionConfig) (g : Heard) :
    Meets hearing (d.createPassiveDataSocket config) (fun r g' => g'.replies = g.replies ∧ (0 ≤ r.1 →
      config.passive_port_range_start ≤ r.1 ∧ r.1 ≤ config.passive_port_range_end ∧
        ∃ fd, r.2.passive_listen_socket_ = some fd ∧ g'.bound = some (fd, r.1 % 65536))) g := by
  refine hearing_close fun d => hearing_call fun made => ?_
  cases made with
  | none => exact (meets_pure _).2 ⟨rfl, fun h => absurd h (show ¬(0 : Int) ≤ -1 by decide)⟩
  | some fd =>
    refine meets_bind.2 ((bindFrom_hearing fd _ _ _).mono fun found g' hg => ?_)
    cases found with
    | none =>
      refine hearing_call fun _ => ?_
      refine (meets_pure _).2 ⟨hg.1, fun h => ?_⟩
      exact absurd h (show ¬(0 : Int) ≤ -1 by decide)
    | some port =>
      obtain ⟨hfirst, hlast, hbound⟩ := hg.2 port rfl
      exact (meets_pure _).2 ⟨hg.1, fun _ => ⟨hfirst, by omega, fd, rfl, hbound⟩⟩

namespace Heard

variable {h : Heard} {d : DataConnection} {port : Int}

lemma announced_of_other {code : ℕ} {text : Str} {host : Option FTPVirtualHost} (hcode : code ≠ 227 ∧ code ≠ 229)
    (hr : h.replies = [(Reply.final code text).customized host]) : h.Announced d := by
  have hfinal : ∃ text', (Reply.final code text).customized host = .final code text' := by
    cases host with
    | none => exact ⟨_, rfl⟩
    | some host =>
      simp only [Reply.customized]
      split
      · exact ⟨_, rfl⟩
      · exact ⟨_, rfl⟩
  obtain ⟨text', hfinal⟩ := hfinal
  refine ⟨fun p1 p2 hp => ?_, fun p hp => ?_⟩
  · rw [hr, hfinal, List.mem_singleton] at hp
    exact absurd (Reply.final.inj hp).1.symm hcode.1
  · rw [hr, hfinal, List.mem_singleton] at hp
    exact absurd (Reply.final.inj hp).1.symm hcode.2

lemma announced_of_nil (hr : h.replies = []) : h.Announced d :=
  ⟨fun _ _ hp => by simp [hr] at hp, fun _ hp => by simp [hr] at hp⟩

lemma serves_of_bound {fd : Fd} (hfirst : 1 ≤ port) (hlast : port ≤ 65535)
    (hfd : d.passive_listen_socket_ = some fd)
    (hbound : h.bound = some (fd, port % 65536)) : h.Serves d port := by
  refine ⟨hfirst, hlast, fd, _, hfd, hbound, fun actual hactual => ?_⟩
  have hmod : port % 65536 = port := Int.emod_eq_of_lt (by omega) (by omega)
  rw [BoundTo, hmod, if_neg (by omega)] at hactual
  exact hactual

end Heard

lemma tdiv_tmod_octets {port : Int} (hfirst : 1 ≤ port) (hlast : port ≤ 65535) : IsOctet (port.tdiv 256) ∧
    IsOctet (port.tmod 256) ∧ port.tdiv 256 * 256 + port.tmod 256 = port := by
  rw [Int.tdiv_eq_ediv_of_nonneg (by omega), Int.tmod_eq_emod_of_nonneg (by omega)]
  unfold IsOctet
  omega

lemma Reply.customized_of_announces {code : ℕ} {text : Str} (hs : s.Announces) (hcode : code = 227 ∨ code = 229) :
    (Reply.final code text).customized s.current_virtual_host_ = .final code text := by
  cases hhost : s.current_virtual_host_ with
  | none => rfl
  | some host =>
    obtain ⟨h227, h229⟩ := hs host (by rw [hhost]; rfl)
    rcases hcode with rfl | rfl
    · exact if_pos h227
    · exact if_pos h229

namespace ConnectionConfig.Announceable

variable {config : ConnectionConfig} {port : Int}

lemma port_range (hc : config.Announceable) (hpos : 0 ≤ port) (hfirst : config.passive_port_range_start ≤ port)
    (hlast : port ≤ config.passive_port_range_end) : 1 ≤ port ∧ port ≤ 65535 := by
  rcases hc with h | h | ⟨h, h'⟩
  · omega
  · omega
  · exact ⟨h.trans hfirst, hlast.trans h'⟩

end ConnectionConfig.Announceable

namespace Session

lemma handlePASV_hearing (hs : s.Announces) (hc : env.config_.connection.Announceable) :
    Meets hearing (s.handlePASV env) (fun d h => h.Announced d) {} := by
  refine meets_ite.2 ⟨fun _ => ?_, fun _ => hearing_close fun d => meets_bind.2 ?_⟩
  · exact hearing_reply (Heard.announced_of_nil rfl) (Heard.announced_of_other (by decide) rfl)
  refine (createPassiveDataSocket_hearing d _ _).mono fun ⟨port, d⟩ h ⟨hnone, hport⟩ => ?_
  refine meets_ite.2 ⟨fun _ => ?_, fun hpos => hearing_reply (Heard.announced_of_nil hnone) ?_⟩
  · exact hearing_reply (Heard.announced_of_nil hnone)
      (Heard.announced_of_other (show 425 ≠ 227 ∧ 425 ≠ 229 by decide) (by rw [hnone]; rfl))
  obtain ⟨hfirst, hlast, fd, hfd, hbound⟩ := hport (not_lt.1 hpos)
  obtain ⟨h1, h2⟩ := hc.port_range (not_lt.1 hpos) hfirst hlast
  obtain ⟨hoctet, hoctet', hsum⟩ := tdiv_tmod_octets h1 h2
  have hsaid : h.replies ++ [(Reply.final 227 (formatPassiveResponse port)).customized s.current_virtual_host_] =
      [passiveReply (port.tdiv 256) (port.tmod 256)] := by
    rw [hnone, Reply.customized_of_announces hs (.inl rfl)]
    rfl
  rw [hsaid]
  refine ⟨fun p1 p2 hp => ?_, fun p hp => ?_⟩
  · obtain ⟨rfl, rfl⟩ := passiveReply_inj (List.mem_singleton.1 hp)
    rw [hsum]
    exact ⟨hoctet, hoctet', Heard.serves_of_bound h1 h2 hfd hbound⟩
  · exact absurd (Reply.final.inj (List.mem_singleton.1 hp)).1 (by decide)

lemma handleEPSV_hearing (hs : s.Announces) (hc : env.config_.connection.Announceable) (argument : Str) :
    Meets hearing (s.handleEPSV env argument) (fun d h => h.Announced d) {} := by
  refine meets_ite.2 ⟨fun _ => ?_,
    fun _ => meets_ite.2 ⟨fun _ => ?_, fun _ => hearing_close fun d => meets_bind.2 ?_⟩⟩
  · exact hearing_reply (Heard.announced_of_nil rfl) (Heard.announced_of_other (by decide) rfl)
  · exact hearing_reply (Heard.announced_of_nil rfl) (Heard.announced_of_other (by decide) rfl)
  refine (createPassiveDataSocket_hearing d _ _).mono fun ⟨port, d⟩ h ⟨hnone, hport⟩ => ?_
  refine meets_ite.2 ⟨fun _ => ?_, fun hpos => hearing_reply (Heard.announced_of_nil hnone) ?_⟩
  · exact hearing_reply (Heard.announced_of_nil hnone)
      (Heard.announced_of_other (show 425 ≠ 227 ∧ 425 ≠ 229 by decide) (by rw [hnone]; rfl))
  obtain ⟨hfirst, hlast, fd, hfd, hbound⟩ := hport (not_lt.1 hpos)
  obtain ⟨h1, h2⟩ := hc.port_range (not_lt.1 hpos) hfirst hlast
  have hsaid :
    h.replies ++ [(Reply.final 229 ("Entering Extended Passive Mode (|||" ++ decimalInt port ++ "|)")).customized
      s.current_virtual_host_] = [extendedPassiveReply port] := by
    rw [hnone, Reply.customized_of_announces hs (.inr rfl)]
    rfl
  rw [hsaid]
  refine ⟨fun p1 p2 hp => ?_, fun p hp => ?_⟩
  · exact absurd (Reply.final.inj (List.mem_singleton.1 hp)).1 (by decide)
  · obtain rfl := extendedPassiveReply_inj (List.mem_singleton.1 hp)
    exact Heard.serves_of_bound h1 h2 hfd hbound

lemma announced_of_announceable (hs : s.Announces) (hc : env.config_.connection.Announceable)
    (hv : a.command.verb = .pasv ∨ a.command.verb = .epsv) (h : s.after env me a = some s') :
    ((s.trace env me a).heard me).Announced s'.data := by
  have hhandle : Meets hearing (s.handle env a.command) (fun s' h => h.Announced s'.data) {} := by
    rcases hv with hv | hv
    · rw [Arrival.command_eq hv]
      exact meets_bind.2 ((handlePASV_hearing hs hc).mono fun _ _ hd => (meets_pure _).2 hd)
    · rw [Arrival.command_eq hv]
      exact meets_bind.2 ((handleEPSV_hearing hs hc _).mono fun _ _ hd => (meets_pure _).2 hd)
  have hdispatch : Meets hearing (s.dispatch env a.line) (fun s' h => h.Announced s'.data) {} := by
    rcases dispatch_cases env s a.line with ⟨_, hh⟩ | ⟨_, _, hh⟩
    · rw [hh]
      exact hhandle
    · rw [hh]
      exact hearing_reply (Heard.announced_of_nil rfl) (Heard.announced_of_other (by decide) rfl)
  have hdescribes : hearing.Describes (World.machine me) fun _ _ => True := fun _ _ _ _ _ => ⟨trivial, trivial⟩
  obtain ⟨w', he⟩ := exec_of_after h
  exact (hdispatch.leads hdescribes (w := a.world) trivial) s' w' he

end Session

def World.reluctant (late : ℕ) : World := .start ⟨[], [], fun _ _ _ => none, []⟩ fun t c => match c with
  | .bind _ _ => decide (late ≤ t)
  | c => c.favourable

lemma bindFrom_reluctant {late : ℕ} (fd : Fd) (k : ℕ) :
    ∀ (n : ℕ) (port : Int) (w : World), k < n → w.time + k = late →
    @World.choose w = @World.choose (.reluctant late) →
      ∃ w', (DataConnection.bindFrom fd port n).exec (World.machine me) w = (.ok (some (port + k)), w') := by
  induction k with
  | zero =>
    intro n port w hn hlate hchoose
    obtain ⟨n, rfl⟩ := Nat.exists_eq_succ_of_ne_zero hn.ne'
    refine ⟨w.tick.tick, ?_⟩
    have htime : late ≤ w.time := by omega
    simp [DataConnection.bindFrom, hchoose, World.reluctant, World.start, World.tick, Call.favourable, htime]
  | succ k ih =>
    intro n port w hn hlate hchoose
    obtain ⟨n, rfl⟩ := Nat.exists_eq_succ_of_ne_zero (Nat.ne_zero_of_lt hn)
    obtain ⟨w', hw'⟩ := ih n (port + 1) w.tick (by omega) (by simp [World.tick]; omega) hchoose
    refine ⟨w', ?_⟩
    have htime : ¬late ≤ w.time := by omega
    have hport : port + 1 + (k : Int) = port + ((k + 1 : ℕ) : Int) := by omega
    simp only [DataConnection.bindFrom, exec_perform_bind, hchoose, World.reluctant, World.start,
      htime, decide_false,
      Bool.false_eq_true, if_false]
    rw [hw', hport]

lemma Trace.heard_replies (me : SessionId) (t : Trace) : (t.heard me).replies = t.replies := by
  have hfrom (h : Heard) : (hearing.final (World.machine me) h t).replies = h.replies ++ t.replies := by
    induction t generalizing h with
    | nil => exact (List.append_nil _).symm
    | cons c t ih =>
      obtain ⟨w, β, c⟩ := c
      have htail := ih (hearing.next h c (World.machine me w c).1)
      simp only [Contract.final, List.foldl_cons] at htail ⊢
      rw [htail]
      cases c with
      | sendControl => simp [hearing, Trace.replies, Call.reply?]
      | bind =>
        simp only [hearing, Trace.replies, Call.reply?]
        split <;> rfl
      | _ => rfl
  exact hfrom {}

namespace ConnectionConfig

variable {config : ConnectionConfig}

lemma port_of_not_announceable (hc : ¬config.Announceable) : ∃ port : Int, 0 ≤ port ∧
    config.passive_port_range_start ≤ port ∧ port ≤ config.passive_port_range_end ∧
      ¬(1 ≤ port ∧ port ≤ 65535) := by
  unfold Announceable at hc
  rcases lt_or_ge config.passive_port_range_start 1 with hfirst | hfirst
  · exact ⟨0, by omega, by omega, by omega, by omega⟩
  · exact ⟨config.passive_port_range_end, by omega, by omega, by omega, by omega⟩

end ConnectionConfig

def Session.unconnected : Session := { Session.opened 3 false false with authenticated_ := true }

lemma createPassiveDataSocket_reluctant {config : ConnectionConfig} {port : Int}
    (hfirst : config.passive_port_range_start ≤ port) (hlast : port ≤ config.passive_port_range_end) :
    ∃ d w', (Session.unconnected.data.createPassiveDataSocket config).exec (World.machine 0)
      (.reluctant ((port - config.passive_port_range_start).toNat + 1)) = (.ok (port, d), w') := by
  let w := World.reluctant ((port - config.passive_port_range_start).toNat + 1)
  obtain ⟨w', hw'⟩ := bindFrom_reluctant 0 (port - config.passive_port_range_start).toNat
    (config.passive_port_range_end + 1 - config.passive_port_range_start).toNat config.passive_port_range_start
    (World.answer 0 w .socket).2 (by omega) (Nat.add_comm _ _) rfl
  have hport : config.passive_port_range_start + ((port - config.passive_port_range_start).toNat :
    Int) = port := by omega
  rw [hport] at hw'
  refine ⟨{ Session.unconnected.data with passive_listen_socket_ := some 0 }, w', ?_⟩
  have hsocket : (World.answer 0 w .socket).1 = some 0 := rfl
  have hclose : Session.unconnected.data.closeDataSocket.exec (World.machine 0) w =
    (.ok Session.unconnected.data, w) := rfl
  unfold DataConnection.createPassiveDataSocket
  rw [exec_bind, hclose]
  simp only [exec_perform_bind, hsocket]
  rw [exec_bind, hw']
  rfl

lemma Session.unconnected_announces {env : Service} {port : Int} (hpos : 0 ≤ port)
    (hfirst : env.config_.connection.passive_port_range_start ≤ port)
    (hlast : port ≤ env.config_.connection.passive_port_range_end) : ∃ a : Arrival, a.command.verb = .pasv ∧
      ∃ s', unconnected.after env 0 a = some s' ∧
        passiveReply (port.tdiv 256) (port.tmod 256) ∈ (unconnected.trace env 0 a).replies := by
  obtain ⟨d, w, hcreate⟩ := createPassiveDataSocket_reluctant hfirst hlast
  obtain ⟨w', hreply, _⟩ := unconnected.reply_exec 0 227 (formatPassiveResponse port) w
  have hsocket : unconnected.socket_ ≠ none := Option.some_ne_none 3
  have hhandle : unconnected.handlePASV env = do
      let made ← unconnected.data.createPassiveDataSocket env.config_.connection
      if made.1 < 0 then do
        unconnected.reply 425 "Can't open passive connection"
        return made.2
      else do
        unconnected.reply 227 (formatPassiveResponse made.1)
        return made.2 := rfl
  let a : Arrival := ⟨.reluctant ((port - env.config_.connection.passive_port_range_start).toNat + 1), "PASV"⟩
  have hverb : a.command.verb = .pasv := show (Command.parse "PASV").verb = .pasv by decide
  have hdispatch : unconnected.dispatch env a.line = do
      let d ← unconnected.handlePASV env
      return { unconnected with data := d } := by
    have hlogged : unconnected.dispatch env a.line = unconnected.handle env a.command := by
      rcases dispatch_cases env unconnected a.line with ⟨_, h⟩ | ⟨_, hauth, _⟩
      · exact h
      · cases hauth
    rw [hlogged, Arrival.command_eq hverb]
    rfl
  refine ⟨a, hverb, { unconnected with data := d }, ?_, ?_⟩
  · unfold after
    rw [hdispatch, hhandle, exec_bind, exec_bind, hcreate]
    simp only [if_neg (not_lt.2 hpos), exec_bind, hreply]
    rfl
  · unfold trace
    rw [hdispatch, calls_bind_pure, hhandle, calls_bind, hcreate, Trace.replies_append]
    simp only [if_neg (not_lt.2 hpos)]
    rw [calls_bind_pure]
    refine List.mem_append_right _ ?_
    unfold reply
    rw [sendResponse_replies 0 hsocket]
    exact List.mem_singleton_self _

theorem announced_ports_are_bound (config : FTPServerConfig) :
    (∀ (env : Service) (me : SessionId) (s s' : Session) (a : Arrival), env.config_ = config → s.Announces →
      a.command.verb = .pasv ∨ a.command.verb = .epsv → s.after env me a = some s' →
        ((s.trace env me a).heard me).Announced s'.data) ↔ config.connection.Announceable := by
  refine ⟨fun h => ?_, fun hc env me s s' a henv hs hv hs' => ?_⟩
  · by_contra hc
    obtain ⟨port, hpos, hfirst, hlast, hbad⟩ := ConnectionConfig.port_of_not_announceable hc
    let env : Service := { Attested.sampleService with config_ := config }
    obtain ⟨a, hv, s', hs', hr⟩ : ∃ a : Arrival, a.command.verb = .pasv ∧
        ∃ s', Session.unconnected.after env 0 a = some s' ∧ _ := Session.unconnected_announces hpos hfirst hlast
    have hann := h env 0 _ s' a rfl (fun _ hhost => by cases hhost) (.inl hv) hs'
    rw [← Trace.heard_replies 0] at hr
    obtain ⟨_, _, hserves⟩ := hann.pasv _ _ hr
    rw [Int.tdiv_mul_add_tmod] at hserves
    exact hbad ⟨hserves.1, hserves.2.1⟩
  · subst henv
    exact Session.announced_of_announceable hs hc hv hs'

def FTPServerConfig.beyondPorts : FTPServerConfig :=
  { connection := { passive_port_range_start := 70000, passive_port_range_end := 70000 } }

theorem announced_ports_are_not_bound : FTPServerConfig.beyondPorts.validate = true ∧
    ∃ env : Service, env.config_ = .beyondPorts ∧ ∃ s : Session, (sessionSystem env 0).Reach System.anyStep s ∧
      s.Announces ∧ passiveReply 273 112 ∈ ((s.trace env 0 (Attested.sampleLine "PASV")).heard 0).replies ∧
        ((s.trace env 0 (Attested.sampleLine "PASV")).heard 0).bound = some (0, 4464) := by
  let env : Service := { Attested.sampleService with config_ := .beyondPorts }
  obtain ⟨s, hs, he⟩ := Option.map_eq_some_iff.1 (show ((sessionSystem env 0).run System.anyStep
      (.opened 3 false false) (Attested.sampleLines ["USER u", "PASS p"])).map
        (fun s => (s.current_virtual_host_.isNone,
        decide (passiveReply 273 112 ∈ ((s.trace env 0 (Attested.sampleLine "PASV")).heard 0).replies),
        ((s.trace env 0 (Attested.sampleLine "PASV")).heard 0).bound)) = some (true, true, some (0, 4464)) by
          decide +kernel)
  simp only [Prod.mk.injEq, decide_eq_true_eq, Option.isNone_iff_eq_none] at he
  refine ⟨by decide, env, rfl, s, .run (.init ⟨_, _, _, rfl⟩) hs, fun host hhost => ?_, he.2⟩
  rw [he.1] at hhost
  cases hhost

end SimpleSftpd
