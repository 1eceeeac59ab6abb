import Mathlib.Data.List.TakeWhile
import SimpleSftpd.Security.Verification
import SimpleSftpd.Sessions.CommandLines
import SimpleSftpd.Sessions.PamLogin
import SimpleSftpd.User.Administration

namespace SimpleSftpd

open Cxx Interaction Password Prog

def typed (ending line : Str) : Str := line ++ ending

structure IsTrimmed (argument : Str) : Prop where
  first : ∀ c ∈ argument.head?, isBlank c = false
  last : ∀ c ∈ argument.getLast?, isBlank c = false

/-- The account is not expired and no limit is reached when a password arrives, and the directory that
the session is to be confined to can be examined. -/
structure Round.Admitted (env : Service) (r : Round) : Prop where
  unexpired : ∀ u, r.session.storedUser env = some u →
    u.isExpired (r.arrival.world.choose r.arrival.world.time .systemNow) = false
  room : r.session.hasRoom env r.arrival.world = true
  directory : Session.ConfinementKnown env r.arrival.world.fs

def Round.LogsIn (env : Service) (me : SessionId) (username : Str) (r : Round) : Prop :=
  ∃ s, r.session.after env me r.arrival = some s ∧ s.authenticated_ = true ∧ s.username_ = username ∧
    (r.session.trace env me r.arrival).answers 230 = true

variable {env : Service} {me : SessionId}

section

variable {argument line ending rest : Str}

lemma argument_trimmed (ha : IsTrimmed argument) (hline : 10 ∉ argument) :
    trimRight (trimLeft (getline (32 :: argument))) = argument := by
  have hgetline : getline (32 :: argument) = 32 :: argument := by
    apply List.takeWhile_eq_self_iff.2
    intro c hc
    rcases List.mem_cons.1 hc with rfl | hc
    · rfl
    · simpa using fun h : c = 10 => hline (h ▸ hc)
  have hleft : trimLeft (32 :: argument) = argument := by
    unfold trimLeft
    rw [List.dropWhile_cons_of_pos rfl]
    exact trimLeft_self ha.first
  rw [hgetline, hleft, trimRight_self ha.last]

lemma readLineFrom_typed {o : Bool} (hending : ending = "\n" ∨ ending = "\r\n") (hline : 10 ∉ line ∧ 13 ∉ line)
    (hshort : (typed ending line).length ≤ 1025) :
    readLineFrom o [] (typed ending line ++ rest) = ⟨line, ⟨rest, o⟩, true⟩ := by
  have hplain : chomp line = line := by
    unfold chomp
    rw [if_neg]
    intro h
    exact hline.2 (List.mem_of_getLast? h)
  unfold typed at hshort ⊢
  rcases hending with rfl | rfl
  · have hread : readLineFrom o [] (line ++ 10 :: rest) = ⟨chomp ([] ++ line), ⟨rest, o⟩, true⟩ := by
      apply readLineFrom_line hline.1
      rw [List.length_append] at hshort
      exact Nat.le_of_lt_succ (by simpa using Nat.lt_of_lt_of_le (Nat.lt_succ_self _) hshort)
    rw [List.append_assoc]
    rw [List.nil_append, hplain] at hread
    exact hread
  · have hread : readLineFrom o [] ((line ++ [13]) ++ 10 :: rest) = ⟨chomp ([] ++ (line ++ [13])),
        ⟨rest, o⟩, true⟩ := by
      apply readLineFrom_line
      · simp [hline.1]
      · rw [List.length_append] at hshort ⊢
        exact Nat.le_of_lt_succ (by simpa using Nat.lt_of_lt_of_le (Nat.lt_succ_self _) hshort)
    have hchomp : chomp (line ++ [13]) = line := by simp [chomp]
    rw [List.append_assoc]
    rw [List.nil_append, hchomp, List.append_assoc] at hread
    exact hread

end

namespace Session

variable {s : Session} {w : World} {username password : Str}

lemma rounds_stopped (hw : w.active me = false) (fuel : ℕ) (control : Control) :
    rounds env me fuel s w control = [] := by
  cases fuel <;> simp [rounds, hw]

lemma rounds_line {fuel : ℕ} {control : Control} (hs : s.socket_ ≠ none) (hw : w.active me = true)
    {received : Received}
    (hr : readLineFrom control.orderly [] control.bytes = received) (hline : received.line ≠ [])
    (hactive : received.active_ = true) : rounds env me (fuel + 1) s w control =
      ⟨s, w, received.line⟩ :: match s.goesOn env me w received.line with
        | some (s', w') => rounds env me fuel s' w' received.rest
        | none => [] := by
  simp only [rounds, readLine, if_neg hs, hr, hw, Bool.not_true, Bool.false_eq_true, ↓reduceIte, hline,
    hactive, goesOn]
  rcases (s.dispatch env received.line).exec (World.machine me) w with ⟨_ | s', w'⟩
  · rfl
  · by_cases hq : (Command.parse received.line).verb = .quit
    · simp [isQuit, hq]
    · by_cases ha : w'.active me = true
      · simp [isQuit, hq, ha]
      · simp [isQuit, hq, ha, rounds_stopped (Bool.eq_false_iff.2 ha)]

lemma user_goesOn (env : Service) (hw : w.Heard me)
    (hc : Command.parse ("USER " ++ username) = ⟨.user, username⟩) :
    ∃ w', s.goesOn env me w ("USER " ++ username) = some ({ s with username_ := username, authenticated_ :=
      false }, w') ∧
      w'.Heard me := by
  have hdispatch : s.dispatch env ("USER " ++ username) = s.handleUSER username := by
    unfold dispatch
    rw [hc]
    rfl
  have hanswered : (s.handleUSER username).wp attentive (fun x _ => ∃ s', x = .ok s' ∧
      s' = { s with username_ := username, authenticated_ := false }) () := wp_reply_return rfl
  obtain ⟨_, hheard, s', he, rfl⟩ := wp_exec (attentive_describes me) hanswered hw
  refine ⟨((s.handleUSER username).exec (World.machine me) w).2, ?_, hheard⟩
  have hquit : isQuit ("USER " ++ username) = false := by
    unfold isQuit
    rw [hc]
    rfl
  unfold goesOn
  rw [hdispatch]
  generalize (s.handleUSER username).exec (World.machine me) w = run at he hheard
  obtain ⟨x, w'⟩ := run
  obtain rfl : x = .ok _ := he
  have hactive : w'.active me = true := hheard.1
  simp [hquit, hactive]

lemma pass_logsIn (hs : s.socket_ ≠ none) (hname : s.username_ = username) (hne : username ≠ [])
    (hc : Command.parse ("PASS " ++ password) = ⟨.pass, password⟩)
    (haccepts : s.storeAccepts env w password = true)
    (hroom : s.hasRoom env w = true) (h : ConfinementKnown env w.fs) :
    Round.LogsIn env me username ⟨s, w, "PASS " ++ password⟩ := by
  subst hname
  have hdispatch : s.dispatch env ("PASS " ++ password) = s.handlePASS env password := by
    unfold dispatch
    rw [hc]
    rfl
  obtain ⟨u, hu⟩ : ∃ u, s.storedUser env = some u := Option.isSome_iff_exists.1 (Option.isSome_of_any haccepts)
  have hverified : s.verifiedUser env w password = some u := by
    unfold verifiedUser
    rw [if_pos haccepts, hu]
  have hreturns : ∃ s' w', (s.handlePASS env password).exec (World.machine me) w = (.ok s', w') := by
    let t : Session := { s with current_user_ := some u }
    let n := s.passTime env w password
    obtain ⟨r, hlimit, hfree⟩ := t.sessionLimit_exec env me { w with time := n }
    obtain rfl : r = none := hfree.2 hroom
    obtain ⟨s', w', he⟩ := t.logIn_returns me (w := { w with time := n }) h u
    refine ⟨s', w', ?_⟩
    rw [handlePASS, if_neg hne, exec_bind, checkPassword_exec, hverified]
    dsimp only
    unfold finishLogin
    dsimp only
    rw [exec_bind, hlimit]
    exact he
  obtain ⟨s', w', he⟩ := hreturns
  obtain ⟨code, hrun, hanswers⟩ := handlePASS_run env me s w password hs he
  have hafter : s.after env me ⟨w, "PASS " ++ password⟩ = some s' := by
    unfold after
    rw [hdispatch, he]
  have htrace : (s.trace env me ⟨w, "PASS " ++ password⟩).answers 230 = decide (code = 230) := by
    unfold trace
    rw [hdispatch]
    exact hanswers 230
  refine ⟨s', hafter, ?_⟩
  change _ ∧ _ ∧ (s.trace env me ⟨w, "PASS " ++ password⟩).answers 230 = true
  rw [htrace]
  generalize w'.tracker = counts at hrun
  cases hrun with
  | unnamed hno => exact absurd hno hne
  | refused _ _ _ hno => exact absurd ⟨Option.isSome_of_mem hverified, hroom⟩ hno
  | accepted => exact ⟨rfl, rfl, rfl⟩

lemma greet_heard (hw : w.Heard me) : (s.greet me w).Heard me := by
  obtain ⟨_, hheard, _⟩ := wp_exec (attentive_describes me)
    ((wp_reply_attentive (s := s) 220 "Welcome to Simple Secure FTP Daemon" fun _ _ => True).2 trivial) hw
  exact hheard

lemma storeAccepts_of_admits (hv : Verifies env.pbkdf2) (hp : isHashed password = false)
    (hname : s.username_ = username)
    (hhost : s.current_virtual_host_ = none) (hm : env.user_manager_.Admits env.pbkdf2 username password)
    (hunexpired : ∀ u, s.storedUser env = some u → u.isExpired (w.choose w.time .systemNow) = false) :
    s.storeAccepts env w password = true := by
  obtain ⟨u, hu⟩ := Option.isSome_iff_exists.1 (AList.lookup_isSome.2 hm.named)
  have hstored : s.storedUser env = some u := by
    unfold storedUser
    rw [hhost, hname]
    exact hu
  unfold storeAccepts
  rw [hstored, Option.any_some, FTPUser.authenticate, if_neg (by simp [hunexpired u hstored])]
  exact (hm.credential u hu).verify hv hp

end Session

/-- What `user add` and `user password` have stored can be typed over the control connection, if no
trimming and no limit on lines changes it and it is not taken for a hash. -/
theorem stored_passwords_log_in (env : Service) (me : SessionId) {file username password ending rest : Str}
    {f f' : Files} {s : Session} {w : World}
    {orderly : Bool} (hfile : file ≠ []) (hverifies : Verifies env.pbkdf2)
    (hstored : Files.Stored env.pbkdf2 file username password f)
    (hserved : (constructUsers env.pbkdf2 env.config_.security.allow_anonymous file).exec Files.machine f =
      (.ok env.user_manager_, f'))
    (hplain : isHashed password = false) (husername : username ≠ [] ∧ 10 ∉ username ∧ 13 ∉ username ∧
      IsTrimmed username)
    (hpassword : password ≠ [] ∧ 10 ∉ password ∧ 13 ∉ password ∧ IsTrimmed password)
    (hending : ending = "\n" ∨ ending = "\r\n") (hshort : (typed ending ("USER " ++ username)).length ≤ 1025 ∧
      (typed ending ("PASS " ++ password)).length ≤ 1025) (hs : s.IsNew) (hw : w.Heard me) :
    ∃ r, (s.conversation env me w
      ⟨typed ending ("USER " ++ username) ++ (typed ending ("PASS " ++ password) ++ rest), orderly⟩)[1]? =
        some r ∧ r.arrival.line = "PASS " ++ password ∧ (r.Admitted env → r.LogsIn env me username) := by
  obtain ⟨hune, huline, hucr, hutrimmed⟩ := husername
  obtain ⟨hpne, hpline, hpcr, hptrimmed⟩ := hpassword
  have huser : Command.parse ("USER " ++ username) = ⟨.user, username⟩ := by
    change (⟨.user, trimRight (trimLeft (getline (32 :: username)))⟩ : Command) = _
    rw [argument_trimmed hutrimmed huline]
  have hpass : Command.parse ("PASS " ++ password) = ⟨.pass, password⟩ := by
    change (⟨.pass, trimRight (trimLeft (getline (32 :: password)))⟩ : Command) = _
    rw [argument_trimmed hptrimmed hpline]
  have hsocket : s.socket_ ≠ none ∧ s.current_virtual_host_ = none := by
    obtain ⟨fd, context, ssl, rfl⟩ := hs
    exact ⟨Option.some_ne_none fd, rfl⟩
  have hnamed : ({ s with username_ := username, authenticated_ := false } : Session).socket_ ≠ none := hsocket.1
  have hgreeted := Session.greet_heard (s := s) hw
  obtain ⟨w', hgoes, hheard⟩ := Session.user_goesOn env (s := s) hgreeted huser
  have hfirst :
    readLineFrom orderly [] (typed ending ("USER " ++ username) ++ (typed ending ("PASS " ++ password) ++ rest)) =
      ⟨"USER " ++ username, ⟨typed ending ("PASS " ++ password) ++ rest, orderly⟩, true⟩ :=
    readLineFrom_typed hending ⟨List.not_mem_append (by decide) huline,
      List.not_mem_append (by decide) hucr⟩ hshort.1
  have hsecond : readLineFrom orderly [] (typed ending ("PASS " ++ password) ++ rest) =
      ⟨"PASS " ++ password, ⟨rest, orderly⟩, true⟩ :=
    readLineFrom_typed hending ⟨List.not_mem_append (by decide) hpline,
      List.not_mem_append (by decide) hpcr⟩ hshort.2
  refine ⟨⟨{ s with username_ := username, authenticated_ := false }, w', "PASS " ++ password⟩, ?_, rfl,
    fun hadmitted => ?_⟩
  · obtain ⟨n, hn⟩ :
      ∃ n, (typed ending ("USER " ++ username) ++ (typed ending ("PASS " ++ password) ++ rest)).length = n + 1 :=
      Nat.exists_eq_add_one_of_ne_zero (by simp [typed, hune])
    unfold Session.conversation
    rw [hn, Session.rounds_line hsocket.1 hgreeted.1 hfirst (by simp [hune]) rfl]
    dsimp only
    rw [hgoes]
    dsimp only
    rw [Session.rounds_line hnamed hheard.1 hsecond (by simp [hpne]) rfl]
    rfl
  · apply Session.pass_logsIn hnamed rfl hune hpass ?_ hadmitted.room hadmitted.directory
    exact Session.storeAccepts_of_admits hverifies hplain rfl hsocket.2 (hstored.served hfile hplain hserved)
      hadmitted.unexpired

def sampleKeys : Pbkdf2 :=
  fun plaintext _ _ n => some ((UInt8.ofNat plaintext.length :: (plaintext ++ List.replicate n 0)).take n)

lemma sampleKeys_verifies : Verifies sampleKeys := by
  have hderives : Derives sampleKeys := by
    intro plaintext _ _ n
    refine ⟨_, rfl, ?_⟩
    rw [List.length_take, List.length_cons, List.length_append, List.length_replicate]
    omega
  intro salt plaintext hlength _
  apply verify_hash hderives
  rintro rfl
  cases hlength

def sampleDisk (username : Str) : Files := ⟨fun file => if file = "/u" then .json (.object [("users", .array [
    .object [("username", .string username), ("password", .string "q"), ("home_directory", .string "/")]])])
      else .missing, 0,
  fun _ o => match o with
    | .randBytes n => some (List.replicate n 1)
    | o => o.favourable⟩

def sampleChanged (username password : Str) : Files :=
  ((userPassword sampleKeys "/u" username password).exec Files.machine (sampleDisk username)).2

def sampleAccounts (username password : Str) : FTPUserManager :=
  (((constructUsers sampleKeys false "/u").exec Files.machine
    (sampleChanged username password)).1.toOption).getD ⟨∅, []⟩

def sampleConnection (confined : Bool) (m : FTPUserManager) : Service := { Session.nobody with
  user_manager_ := m
  session_tracker_ := false
  pbkdf2 := sampleKeys
  config_ := { security := { chroot_enabled := confined, chroot_directory := "/jail" } } }

def sampleJail : World := .favourable ⟨[], [], fun _ _ p => if p = "/jail" then some .eacces else none, []⟩

def sampleConversation (env : Service) (username password : Str) : List Round :=
  (Session.opened 3 false false).conversation env 0 sampleJail
    ⟨typed "\r\n" ("USER " ++ username) ++ (typed "\r\n" ("PASS " ++ password) ++ []), true⟩

lemma sampleChanged_stored {username password : Str}
    (h : ((userPassword sampleKeys "/u" username password).exec Files.machine
    (sampleDisk username)).1.toOption.map Prod.fst = some true) :
    Files.Stored sampleKeys "/u" username password (sampleChanged username password) := by
  unfold sampleChanged
  cases he : (userPassword sampleKeys "/u" username password).exec Files.machine (sampleDisk username) with
  | mk x f =>
    rw [he] at h
    cases x with
    | error e => cases h
    | ok x =>
      obtain ⟨saved, m⟩ := x
      obtain rfl : saved = true := Option.some.inj h
      refine .password (w := sampleDisk username) ?_ he
      intro _ n bytes hbytes
      obtain rfl : List.replicate n 1 = bytes := Option.some.inj hbytes
      exact List.length_replicate

lemma sampleAccounts_served (username password : Str)
    (h : ((constructUsers sampleKeys false "/u").exec Files.machine
    (sampleChanged username password)).1.toOption.isSome = true) :
      ∃ f, (constructUsers sampleKeys false "/u").exec Files.machine
      (sampleChanged username password) = (.ok (sampleAccounts username password), f) := by
  unfold sampleAccounts
  cases he : (constructUsers sampleKeys false "/u").exec Files.machine (sampleChanged username password) with
  | mk x f =>
    rw [he] at h
    cases x with
    | error e => cases h
    | ok m => exact ⟨f, rfl⟩

theorem stored_passwords_log_in_alice :
    ∃ r, (sampleConversation (sampleConnection false (sampleAccounts "alice" "p")) "alice" "p")[1]? = some r ∧
    r.LogsIn (sampleConnection false (sampleAccounts "alice" "p")) 0 "alice" := by
  have htrimmed (c : Byte) (hc : isBlank c = false) (cs : Str) (hcs :
    isBlank ((c :: cs).getLast (List.cons_ne_nil _ _)) = false) :
      IsTrimmed (c :: cs) := by
    refine ⟨fun c' h => Option.some.inj h ▸ hc, fun c' h => ?_⟩
    rw [List.getLast?_eq_some_getLast (List.cons_ne_nil _ _)] at h
    exact Option.some.inj h ▸ hcs
  obtain ⟨f, hserved⟩ := sampleAccounts_served "alice" "p" (by decide +kernel)
  have hheard : sampleJail.Heard 0 := ⟨rfl, fun _ _ _ => rfl⟩
  obtain ⟨r, hr, _, hlogs⟩ := stored_passwords_log_in (sampleConnection false (sampleAccounts "alice" "p")) 0
    (List.cons_ne_nil _ _) sampleKeys_verifies (sampleChanged_stored (by decide +kernel)) hserved (by decide)
    ⟨List.cons_ne_nil _ _, by decide, by decide, htrimmed _ (by decide) _ (by decide)⟩
    ⟨List.cons_ne_nil _ _, by decide, by decide, htrimmed _ (by decide) _ (by decide)⟩
    (.inr rfl) (by decide) ⟨3, false, false, rfl⟩ hheard
  have hexpires :
    ((sampleConversation (sampleConnection false (sampleAccounts "alice" "p")) "alice" "p")[1]?).map (fun r =>
      (r.session.storedUser (sampleConnection false (sampleAccounts "alice" "p"))).all (·.expires_at_ = 0)) =
        some true := by
    decide +kernel
  refine ⟨r, hr, hlogs ⟨fun u hu => ?_, rfl, fun h => (by cases h)⟩⟩
  unfold sampleConversation at hexpires
  rw [hr, Option.map_some, hu, Option.all_some] at hexpires
  have hnever : u.expires_at_ = 0 := of_decide_eq_true (Option.some.inj hexpires)
  rw [FTPUser.isExpired, if_pos (le_of_eq hnever)]

def sampleRefusals : List (Bool × Str × Str) :=
  [(false, "alice", "p "), (false, "alice", " p"), (false, "alice ", "p"),
  (false, "alice", List.replicate 1019 112), (false, "alice", "$pbkdf2-sha256$"), (true, "alice", "p")]

theorem stored_passwords_do_not_log_in : sampleRefusals.length = 6 ∧ ∀ c ∈ sampleRefusals,
    Files.Stored sampleKeys "/u" c.2.1 c.2.2 (sampleChanged c.2.1 c.2.2) ∧
    (∃ f, (constructUsers sampleKeys false "/u").exec Files.machine (sampleChanged c.2.1 c.2.2) =
      (.ok (sampleAccounts c.2.1 c.2.2), f)) ∧
    ((sampleAccounts c.2.1 c.2.2).getUser c.2.1).map (·.expires_at_) = some 0 ∧
    ∀ r ∈ sampleConversation (sampleConnection c.1 (sampleAccounts c.2.1 c.2.2)) c.2.1 c.2.2,
      ¬r.LogsIn (sampleConnection c.1 (sampleAccounts c.2.1 c.2.2)) 0 c.2.1 := by
  refine ⟨rfl, fun c hc => ?_⟩
  have hall : ∀ c ∈ sampleRefusals, ((userPassword sampleKeys "/u" c.2.1 c.2.2).exec Files.machine
        (sampleDisk c.2.1)).1.toOption.map Prod.fst = some true ∧
      ((constructUsers sampleKeys false "/u").exec Files.machine
        (sampleChanged c.2.1 c.2.2)).1.toOption.isSome = true ∧
      ((sampleAccounts c.2.1 c.2.2).getUser c.2.1).map (·.expires_at_) = some 0 ∧
      ∀ r ∈ sampleConversation (sampleConnection c.1 (sampleAccounts c.2.1 c.2.2)) c.2.1 c.2.2,
        (r.session.trace (sampleConnection c.1 (sampleAccounts c.2.1 c.2.2)) 0 r.arrival).answers 230 = false := by
    decide +kernel
  obtain ⟨hstored, hserved, hexpires, hrefused⟩ := hall c hc
  refine ⟨sampleChanged_stored hstored, sampleAccounts_served _ _ hserved, hexpires, fun r hr hlogs => ?_⟩
  obtain ⟨_, _, _, _, hanswers⟩ := hlogs
  cases (hrefused r hr).symm.trans hanswers

end SimpleSftpd
