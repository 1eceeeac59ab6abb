import SimpleSftpd.Core.Handled
import SimpleSftpd.Sessions.VerifiedUser

namespace SimpleSftpd

open Cxx Interaction Prog

def Trace.received (t : Trace) : List (Str × Bool) := t.filterMap fun c => c.2.2.received?

def Verb.statusThrows : Verb → Bool
  | .pass | .cwd | .size | .dele | .rmd | .rnfr | .rnto | .retr | .stor | .appe => true
  | _ => false

def Call.unwritten {β : Type} (o : Call β) : β → Bool := match o with
  | .sendControl _ _ | .sslAccept => fun sent => !sent
  | .send _ _ | .sendMapped _ _ _ _ | .sendfile _ _ _ _ => fun n => decide (n < 0)
  | _ => fun _ => false

namespace Session

/-- What a handler asks for without an `error_code` argument and outside of a `try` block: file system
calls, and RETR's buffer. LIST makes them of the path it is to list, unless that is a directory. -/
def unguarded (s : Session) (fs : FileSystem) (c : Command) : (Σ β, Call β) → Bool
  | ⟨_, .status p⟩ => c.verb.statusThrows ||
      decide (c.verb = .list ∧ p = s.listed fs c.argument ∧ isDirectory (fs.status p) = false)
  | ⟨_, .fileSize p⟩ => decide (c.verb = .size) ||
      decide (c.verb = .list ∧ p = s.listed fs c.argument ∧ isDirectory (fs.status p) = false)
  | ⟨_, .remove _⟩ | ⟨_, .createDirectory _⟩ | ⟨_, .createDirectories _⟩ | ⟨_, .allocate _⟩ => true
  | _ => false

def hangs (s : Session) (zlib : Zlib) (v : Verb) (received : List (Str × Bool)) : Bool :=
  (decide (v = .stor ∨ v = .stou) && s.transferModeZ) &&
    (decide (received ≠ []) && decide (zlib.inflate received = .hangs))

variable (env : Service) (me : SessionId) (s : Session) (a : Arrival)

/-- A write meets a connection that its peer has closed: `SIGPIPE`, which is neither blocked nor handled,
ends the process. -/
def Killed : Prop :=
  ∃ c ∈ s.trace env me a, c.2.2.unwritten (World.machine me c.1 c.2.2).1 = true ∧ c.1.epipe c.1.time = true

def AnswersOnce : Prop :=
  ¬s.Killed env me a ∧ (s.after env me a).isSome = true ∧ Completes (s.trace env me a).replies

def Trips : Prop :=
  ∃ c ∈ s.trace env me a, s.unguarded a.world.fs a.command c.2 = true ∧
    c.2.2.failed (World.machine me c.1 c.2.2).1 = true

def Hangs : Prop := s.hangs env.zlib a.command.verb (s.trace env me a).received = true

variable {env me s a} {fs : FileSystem}

lemma isDirectory_iff {r : Except Errc FileType} : isDirectory r = true ↔ r = .ok .directory := by
  cases r with
  | ok t => simp [isDirectory]
  | error e => simp [isDirectory]

lemma features_eq :
    s.features env = .opening 211 "Features:" :: ((["SIZE", "REST STREAM", "PORT", "EPRT", "EPSV", "MDTM",
    "MLST type*;size*;modify*;perm*;", "TVFS", "UTF8"] ++ (if hasHosts env then ["HOST"] else []) ++
      (if s.ssl_enabled_ then ["AUTH TLS", "PBSZ", "PROT"] else []) ++
        (if env.compressionEnabled then ["MODE Z"] else []) : List Str).map .inner ++ [.final 211 "End"]) := by
  rw [features]
  split_ifs <;> rfl

lemma helpLines_eq : helpLines = .opening 214 "The following commands are recognized:" ::
    ((["USER PASS QUIT NOOP SYST FEAT OPTS HELP HOST", "AUTH PBSZ PROT", "PWD XPWD CWD XCWD CDUP XCUP",
      "LIST NLST MLSD MLST STAT SIZE MDTM", "PASV EPSV PORT EPRT MODE TYPE ALLO ABOR",
        "RETR STOR STOU APPE REST DELE",
      "MKD XMKD RMD XRMD RNFR RNTO SITE"] : List Str).map .inner ++ [.final 214 "Help command successful"]) := rfl

lemma handle_conduct (hs : s.socket_ ≠ none) (c : Command) :
    Ends (Conduct.calls (s.unguarded fs c) fs) (s.handle env c) (fun _ => Conduct.Done (s.hangs env.zlib c.verb))
      (Conduct.Broken (s.hangs env.zlib c.verb)) {} := by
  have hh : s.hangs env.zlib c.verb [] = false := by simp [hangs]
  have hcalm (hv : c.verb ≠ .stor ∧ c.verb ≠ .stou) (l : List (Str × Bool)) :
      s.hangs env.zlib c.verb l = false := by
    simp [hangs, hv]
  have hplain (hz : s.transferModeZ = false) (l : List (Str × Bool)) : s.hangs env.zlib c.verb l = false := by
    simp [hangs, hz]
  have hhangs (hv : c.verb = .stor ∨ c.verb = .stou) (hz : s.transferModeZ = true) (l : List (Str × Bool)) :
      s.hangs env.zlib c.verb l = (decide (l ≠ []) && decide (env.zlib.inflate l = .hangs)) := by
    simp [hangs, hv, hz]
  have hstatus (hv : c.verb.statusThrows = true) (p : Str) : s.unguarded fs c ⟨_, .status p⟩ = true := by
    simp only [unguarded, hv, Bool.true_or]
  have hsize (hv : c.verb = .size) (p : Str) : s.unguarded fs c ⟨_, .fileSize p⟩ = true := by
    simp only [unguarded, hv, decide_true, Bool.true_or]
  have hquery (hv : c.verb.statusThrows = false)
      (hl : c.verb = .list → isDirectory (fs.status (s.listed fs c.argument)) = true) :
      ∀ o, Kinds [.query] o → Conduct.Hushed (s.unguarded fs c) o := by
    have hlist (p : Str) : ¬(c.verb = .list ∧ p = s.listed fs c.argument ∧ isDirectory (fs.status p) = false) := by
      rintro ⟨hlist, rfl, hnot⟩
      exact Bool.noConfusion (hnot.symm.trans (hl hlist))
    have hsize : c.verb ≠ .size := by
      intro he
      rw [he] at hv
      cases hv
    intro o ho
    apply Conduct.hushed_of_query ?_ ?_ ho
    · intro p
      simp only [unguarded, hv, hlist, decide_false, Bool.or_false]
    · intro p
      simp only [unguarded, hsize, hlist, decide_false, Bool.or_false]
  rcases c with ⟨v, arg⟩
  cases v with
  | pass => exact handlePASS_conduct hh hs (hstatus rfl) arg
  | host => exact handleHOST_conduct hh hs arg
  | auth => exact handleAUTH_conduct hh hs arg
  | retr => exact handleRETR_conduct hh hs (hstatus rfl) (fun _ => rfl) (hcalm (by simp)) arg
  | stor => exact handleSTOR_conduct hh hs hplain (hhangs (.inl rfl)) (fun _ => rfl) (fun _ => hstatus rfl) arg
  | stou => exact handleSTOU_conduct hh hs hplain (hhangs (.inr rfl)) (fun _ => rfl) (hquery rfl (by simp)) arg
  | appe => exact handleAPPE_conduct hh hs (hstatus rfl) (hcalm (by simp)) arg
  | prot => exact Conduct.ends_map (handlePROT_conduct hh hs arg)
  | opts => exact Conduct.ends_map (handleOPTS_conduct hh hs arg)
  | abor => exact Conduct.ends_map (handleABOR_conduct hh hs)
  | list =>
    apply Conduct.ends_map
    apply handleLIST_conduct hh hs arg
    · exact fun hdir => hquery rfl fun _ => isDirectory_iff.2 hdir
    · intro hdir
      have hnot : isDirectory (fs.status (s.listed fs arg)) = false := by
        rw [← Bool.not_eq_true, isDirectory_iff]
        exact hdir
      exact ⟨by simp [unguarded, hnot], by simp [unguarded, hnot]⟩
  | mlsd => exact Conduct.ends_map (handleMLSD_conduct hh hs (hquery rfl (by simp)) arg)
  | pasv => exact Conduct.ends_map (handlePASV_conduct hh hs (hcalm (by simp)))
  | epsv => exact Conduct.ends_map (handleEPSV_conduct hh hs (hcalm (by simp)) arg)
  | port => exact Conduct.ends_map (handlePORT_conduct hh hs arg)
  | eprt => exact Conduct.ends_map (handleEPRT_conduct hh hs arg)
  | cwd => exact Conduct.ends_map (handleCWD_conduct hh hs (hstatus rfl) arg)
  | cdup => exact Conduct.ends_map (handleCDUP_conduct hh hs (hquery rfl (by simp)))
  | mode => exact Conduct.ends_map (handleMODE_conduct hh hs arg)
  | type => exact Conduct.ends_map (handleTYPE_conduct hh hs arg)
  | rest => exact Conduct.ends_map (handleREST_conduct hh hs arg)
  | rnfr => exact Conduct.ends_map (handleRNFR_conduct hh hs (hstatus rfl) arg)
  | rnto => exact Conduct.ends_map (handleRNTO_conduct hh hs (hstatus rfl) arg)
  | mlst => exact Conduct.ends_map (handleMLST_conduct hh hs (hquery rfl (by simp)) arg)
  | mdtm => exact Conduct.ends_map (handleMDTM_conduct hh hs (hquery rfl (by simp)) arg)
  | stat => exact Conduct.ends_map (handleSTAT_conduct hh hs (hquery rfl (by simp)) arg)
  | site => exact Conduct.ends_map (handleSITE_conduct hh hs arg)
  | size => exact Conduct.ends_map (handleSIZE_conduct hh hs (hstatus rfl) (hsize rfl) arg)
  | dele => exact Conduct.ends_map (handleDELE_conduct hh hs (hstatus rfl) (fun _ => rfl) arg)
  | mkd => exact Conduct.ends_map (handleMKD_conduct hh hs (fun _ => rfl) arg)
  | rmd => exact Conduct.ends_map (handleRMD_conduct hh hs (hstatus rfl) (fun _ => rfl) arg)
  | feat =>
    apply Conduct.ends_map
    rw [features_eq]
    exact Conduct.ends_sendLines hh hs (by decide) _
  | help =>
    apply Conduct.ends_map
    rw [helpLines_eq]
    exact Conduct.ends_sendLines hh hs (by decide) _
  | quit => exact Conduct.ends_map (handleQUIT_conduct hh hs)
  | pbsz => exact Conduct.ends_map (handlePBSZ_conduct hh hs)
  | user => exact Conduct.ends_return hs (Conduct.open_new hh) (by decide)
  | pwd => exact Conduct.ends_return hs (Conduct.open_new hh) (by decide)
  | noop => exact Conduct.ends_return hs (Conduct.open_new hh) (by decide)
  | syst => exact Conduct.ends_return hs (Conduct.open_new hh) (by decide)
  | allo => exact Conduct.ends_return hs (Conduct.open_new hh) (by decide)
  | unknown => exact Conduct.ends_return hs (Conduct.open_new hh) (by decide)

lemma dispatch_conduct (env : Service) (fs : FileSystem) (hs : s.socket_ ≠ none) (a : Arrival) :
    Ends (Conduct.calls (s.unguarded fs a.command) fs) (s.dispatch env a.line)
      (fun _ => Conduct.Done (s.hangs env.zlib a.command.verb))
        (Conduct.Broken (s.hangs env.zlib a.command.verb)) {} := by
  rcases dispatch_cases env s a.line with ⟨_, hd⟩ | ⟨_, _, hd⟩
  · rw [hd]
    exact handle_conduct hs _
  · rw [hd]
    exact Conduct.ends_return hs (Conduct.open_new (by simp [hangs])) (by decide)

end Session

namespace Conduct

variable (u : (Σ β, Call β) → Bool) (fs : FileSystem) (me : SessionId)

lemma final_run (t : Trace) : ∀ g : Conduct,
    ((calls u fs).final (World.machine me) g t).replies = g.replies ++ t.replies ∧
      ((calls u fs).final (World.machine me) g t).received = g.received ++ t.received ∧
      ((calls u fs).final (World.machine me) g t).failed =
        (g.failed || t.any fun c => u c.2 && c.2.2.failed (World.machine me c.1 c.2.2).1) := by
  induction t with
  | nil => exact fun g => ⟨(List.append_nil _).symm, (List.append_nil _).symm, (Bool.or_false _).symm⟩
  | cons c t ih =>
    intro g
    obtain ⟨hreplies, hreceived, hfailed⟩ := ih (g.next u c.2.2 (World.machine me c.1 c.2.2).1)
    have hfold : (calls u fs).final (World.machine me) g (c :: t) =
        (calls u fs).final (World.machine me) (g.next u c.2.2 (World.machine me c.1 c.2.2).1) t := rfl
    rw [hfold, hreplies, hreceived, hfailed]
    refine ⟨?_, ?_, ?_⟩
    · cases hreply : c.2.2.reply? with
      | none => simp [Trace.replies, next, hreply]
      | some line => simp [Trace.replies, next, hreply]
    · cases hdata : c.2.2.received? with
      | none => simp [Trace.received, next, hdata]
      | some data => simp [Trace.received, next, hdata]
    · rw [List.any_cons, next, Bool.or_assoc]

end Conduct

variable (env : Service) (me : SessionId)

namespace Session

instance (s : Session) (a : Arrival) : Decidable (s.Trips env me a) := inferInstanceAs (Decidable (∃ c ∈ _, _))

instance (s : Session) (a : Arrival) : Decidable (s.Killed env me a) := inferInstanceAs (Decidable (∃ c ∈ _, _))

instance (s : Session) (a : Arrival) : Decidable (s.Hangs env me a) := inferInstanceAs (Decidable (_ = true))

def treeLine (line : String) : Arrival :=
  ⟨.favourable ⟨[(["d"], .directory), (["d", "f"], .regular "abc"), (["e"], .directory)], [],
    fun _ _ _ => none, []⟩, ascii line⟩

def loginLines : List Arrival := ["USER u", "PASS p"].map treeLine

end Session

end SimpleSftpd
