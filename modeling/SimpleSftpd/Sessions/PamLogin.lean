import SimpleSftpd.Sessions.VerifiedUser

namespace SimpleSftpd

open Cxx Interaction Prog

namespace FTPUser

def AllowsAll (entry : Str) : Prop :=
  entry.takeWhile (· ≠ 58) = "all" ∧ ((entry.dropWhile (· ≠ 58)).tail = [] ∨ (entry.dropWhile (· ≠ 58)).tail = "/")

structure Unlimited (r : FTPUser) : Prop where
  permissions : r.permissions_ = [] ∨ ∃ entry ∈ r.permissions_, AllowsAll entry
  quota : r.storage_quota_bytes_ = 0
  expiry : r.expires_at_ ≤ 0

structure Follows (u r : FTPUser) : Prop where
  permissions : ∀ fs operation path, u.hasPermission fs operation path = r.hasPermission fs operation path
  quota : u.storage_quota_bytes_ = r.storage_quota_bytes_
  expiry : ∀ now, u.isExpired now = r.isExpired now

variable {r : FTPUser}

lemma entryAllows_all {fs : FileSystem} {home operation path entry : Str} (h : AllowsAll entry) :
    entryAllows fs home operation path entry = true := by
  obtain ⟨hop, hscope⟩ := h
  unfold entryAllows
  simp only [hop, ne_eq, not_true_eq_false, and_false, ↓reduceIte]
  split
  · rfl
  · rename_i c scope hrest
    rw [hrest] at hscope
    exact if_pos hscope

lemma allowsAll_of_entryAllows {fs : FileSystem} {home entry : Str}
    (h : entryAllows fs home [58] [] entry = true) : AllowsAll entry := by
  have hname : entry.takeWhile (· ≠ 58) ≠ [58] := by
    intro heq
    have hall : (entry.takeWhile (· ≠ 58)).all (· ≠ 58) = true := List.all_takeWhile
    rw [heq] at hall
    simp at hall
  unfold entryAllows at h
  dsimp only at h
  split at h
  · cases h
  · rename_i hop
    have hall : entry.takeWhile (· ≠ 58) = "all" := by
      by_contra hne
      exact hop ⟨hname, hne⟩
    refine ⟨hall, ?_⟩
    split at h
    · rename_i hrest
      exact .inl (by rw [hrest]; rfl)
    · rename_i c scope hrest
      rw [hrest]
      by_contra hscope
      change ¬(scope = [] ∨ scope = "/") at hscope
      rw [if_neg hscope, if_pos rfl] at h
      cases h

lemma permissions_unlimited : (∀ fs operation path, r.hasPermission fs operation path = true) ↔
    r.permissions_ = [] ∨ ∃ entry ∈ r.permissions_, AllowsAll entry := by
  unfold hasPermission
  constructor
  · intro h
    refine or_iff_not_imp_left.2 fun hne => ?_
    have hall := h ⟨[], [], fun _ _ _ => none, []⟩ [58] []
    rw [if_neg hne] at hall
    obtain ⟨entry, hmem, hentry⟩ := List.any_eq_true.1 hall
    exact ⟨entry, hmem, allowsAll_of_entryAllows hentry⟩
  · intro h fs operation path
    split
    · rfl
    · rename_i hne
      obtain ⟨entry, hmem, hentry⟩ := h.resolve_left hne
      exact List.any_eq_true.2 ⟨entry, hmem, entryAllows_all hentry⟩

lemma expiry_unlimited : (∀ now, r.isExpired now = false) ↔ r.expires_at_ ≤ 0 := by
  unfold isExpired
  constructor
  · intro h
    by_contra hlater
    have := h (r.expires_at_ + 1)
    rw [if_neg hlater] at this
    simp at this
  · intro h now
    rw [if_pos h]

lemma make_fields (pbkdf2 : Password.Pbkdf2) (salt : Option (List Byte)) (name password home : Str) :
    let u := make pbkdf2 salt name password home
    u.permissions_ = [] ∧ u.storage_quota_bytes_ = 0 ∧ u.expires_at_ = 0 := by
  dsimp only
  unfold make setPassword
  split
  · exact ⟨rfl, rfl, rfl⟩
  · dsimp only
    split <;> exact ⟨rfl, rfl, rfl⟩

lemma make_follows (pbkdf2 : Password.Pbkdf2) (salt : Option (List Byte)) (name password home : Str) :
    (make pbkdf2 salt name password home).Follows r ↔ r.Unlimited := by
  obtain ⟨hperm, hquota, hexp⟩ := make_fields pbkdf2 salt name password home
  have hall (fs : FileSystem) (operation path : Str) :
      (make pbkdf2 salt name password home).hasPermission fs operation path = true := by
    rw [hasPermission, if_pos hperm]
  have hnever (now : Int) : (make pbkdf2 salt name password home).isExpired now = false := by
    rw [isExpired, if_pos (by rw [hexp])]
  constructor
  · intro h
    refine ⟨permissions_unlimited.1 fun fs operation path => ?_, h.quota ▸ hquota,
      expiry_unlimited.1 fun now => ?_⟩
    · rw [← h.permissions, hall]
    · rw [← h.expiry, hnever]
  · intro h
    refine ⟨fun fs operation path => ?_, hquota.trans h.quota.symm, fun now => ?_⟩
    · rw [hall, permissions_unlimited.2 h.permissions]
    · rw [hnever, expiry_unlimited.2 h.expiry]

end FTPUser

variable (env : Service) (me : SessionId)

namespace Session

variable (s : Session) (w : World) (password : Str)

def ConfinementKnown (fs : FileSystem) : Prop :=
  env.config_.security.chroot_enabled = true → env.config_.security.chroot_directory ≠ [] →
    ∃ t, fs.status env.config_.security.chroot_directory = .ok t

/-- A PASS that succeeds because PAM accepts the password, which the stored record does not. -/
structure PamAdmits : Prop where
  named : s.username_ ≠ []
  refused : s.storeAccepts env w password = false
  accepted : s.pamAccepts env w password = true
  room : s.hasRoom env w = true
  confined : ConfinementKnown env w.fs

variable {env me s w password} {s' : Session} {a : Arrival}

variable (me) in
lemma logIn_returns (hc : ConfinementKnown env w.fs) (u : FTPUser) :
    ∃ s' w', (s.logIn env u).exec (World.machine me) w = (.ok s', w') := by
  have hdir : ∃ dir w', (loginDirectory env u).exec (World.machine me) w = (.ok dir, w') := by
    rw [loginDirectory_eq, applyChroot]
    split
    · rename_i hchroot
      obtain ⟨t, ht⟩ := hc hchroot.1 hchroot.2
      rw [exec_perform_bind, show (World.machine me w (.status env.config_.security.chroot_directory)).1 =
        .ok t from ht]
      simp only [orThrow, pure_bind', exec_ite, exec_pure, exec_perform_bind]
      split
      · exact ⟨_, _, rfl⟩
      · exact ⟨_, _, rfl⟩
    · exact ⟨_, _, rfl⟩
  obtain ⟨dir, v, hdir⟩ := hdir
  unfold logIn
  rw [exec_bind, hdir]
  dsimp only
  rw [exec_bind, register_exec]
  dsimp only
  obtain ⟨v', hreply, _⟩ := s.reply_exec me 230 "User logged in, proceed"
    (if env.session_tracker_ then { v with tracker := v.tracker.registerSession s.username_ s.hostname } else v)
  rw [exec_bind, hreply]
  exact ⟨_, _, rfl⟩

lemma confinementKnown_of_logIn {u : FTPUser} {w' : World}
    (h : (s.logIn env u).exec (World.machine me) w = (.ok s', w')) : ConfinementKnown env w.fs := by
  intro hchroot hdir
  obtain ⟨dir, v, hv, _⟩ := exec_bind_ok (World.machine me) h
  rw [loginDirectory_eq, applyChroot, if_pos ⟨hchroot, hdir⟩, exec_perform_bind] at hv
  obtain ⟨t, _, ht, _⟩ := exec_bind_ok (World.machine me) hv
  change (orThrow (w.fs.status _)).exec _ _ = _ at ht
  cases hstatus : w.fs.status env.config_.security.chroot_directory with
  | ok t => exact ⟨t, rfl⟩
  | error e =>
    rw [hstatus] at ht
    cases ht

lemma PamAdmits.verified (h : s.PamAdmits env w password) :
    s.verifiedUser env w password = some (s.pamUser env w password) := by
  simp [verifiedUser, h.refused, h.accepted]

variable (me) in
lemma PamAdmits.returns (hv : a.command.verb = .pass) (h : s.PamAdmits env a.world a.command.argument) :
    ∃ s', s.after env me a = some s' := by
  let n := s.passTime env a.world a.command.argument
  have hn := s.checkPassword_exec env me a.world a.command.argument
  simp only [h.verified] at hn
  let t : Session := { s with current_user_ := some (s.pamUser env a.world a.command.argument) }
  obtain ⟨r, hr, hroom⟩ := t.sessionLimit_exec env me { a.world with time := n }
  obtain rfl : r = none := hroom.2 h.room
  obtain ⟨s', w', hlog⟩ := t.logIn_returns me (w := { a.world with time := n }) h.confined
    (s.pamUser env a.world a.command.argument)
  refine ⟨s', ?_⟩
  have hexec : (s.handlePASS env a.command.argument).exec (World.machine me) a.world = (.ok s', w') := by
    rw [handlePASS, if_neg h.named, exec_bind, hn]
    dsimp only
    unfold finishLogin
    dsimp only
    rw [exec_bind, hr]
    exact hlog
  rw [after, dispatch_pass hv, hexec]

lemma PamAdmits.of_after (hv : a.command.verb = .pass) (hname : s.username_ ≠ [])
    (hstore : s.storeAccepts env a.world a.command.argument = false)
    (hpam : s.pamAccepts env a.world a.command.argument = true) (hroom : s.hasRoom env a.world = true)
    (h : s.after env me a = some s') : s.PamAdmits env a.world a.command.argument := by
  refine ⟨hname, hstore, hpam, hroom, ?_⟩
  have hverified : s.verifiedUser env a.world a.command.argument =
      some (s.pamUser env a.world a.command.argument) := by
    simp [verifiedUser, hstore, hpam]
  let n := s.passTime env a.world a.command.argument
  have hn := s.checkPassword_exec env me a.world a.command.argument
  simp only [hverified] at hn
  let t : Session := { s with current_user_ := some (s.pamUser env a.world a.command.argument) }
  obtain ⟨r, hr, hroom'⟩ := t.sessionLimit_exec env me { a.world with time := n }
  obtain rfl : r = none := hroom'.2 hroom
  obtain ⟨w', he⟩ := exec_of_after h
  rw [dispatch_pass hv, handlePASS, if_neg hname, exec_bind, hn] at he
  dsimp only at he
  unfold finishLogin at he
  dsimp only at he
  rw [exec_bind, hr] at he
  exact confinementKnown_of_logIn (w := { a.world with time := n }) he

end Session

theorem pam_follows_record {s : Session} (h : (sessionSystem env me).Reach System.anyStep s) {a : Arrival}
    (hv : a.command.verb = .pass) {r : FTPUser} (hr : s.storedUser env = some r) :
    (∀ s', s.after env me a = some s' → (s.trace env me a).answers 230 = true →
      ∃ u, s'.current_user_ = some u ∧ u.Follows r ∧
        r.isExpired (a.world.choose a.world.time .systemNow) = false) ↔
      (s.PamAdmits env a.world a.command.argument → r.Unlimited) := by
  have hs : s.socket_ ≠ none := Session.connected_of_reach h
  constructor
  · intro hlogin hpam
    obtain ⟨s', hs'⟩ := hpam.returns me hv
    obtain ⟨_, code, hrun, hcode⟩ := Session.pass_run hs hv hs'
    cases hrun with
    | unnamed hname => exact absurd hname hpam.named
    | refused u _ _ hno => exact absurd ⟨by simp [hpam.verified], hpam.room⟩ hno
    | accepted u dir _ hu _ =>
      obtain ⟨u', hu', hfollows, _⟩ := hlogin _ hs' (by simp [hcode])
      obtain rfl : u = u' := Option.some.inj hu'
      obtain rfl : s.pamUser env a.world a.command.argument = u := Option.some.inj (hpam.verified.symm.trans hu)
      exact (FTPUser.make_follows _ _ _ _ _).1 hfollows
  · intro hlimits s' hs' h230
    obtain ⟨_, code, hrun, hcode⟩ := Session.pass_run hs hv hs'
    rw [hcode, decide_eq_true_eq] at h230
    subst h230
    cases hrun with
    | accepted u dir hname hu hroom =>
      refine ⟨u, rfl, ?_⟩
      by_cases hstore : s.storeAccepts env a.world a.command.argument = true
      · rw [Session.verifiedUser, if_pos hstore, hr] at hu
        obtain rfl := Option.some.inj hu
        refine ⟨⟨fun _ _ _ => rfl, rfl, fun _ => rfl⟩, ?_⟩
        rw [Session.storeAccepts, hr, Option.any_some, FTPUser.authenticate] at hstore
        split at hstore
        · cases hstore
        · rename_i hexpired
          exact Bool.eq_false_iff.2 hexpired
      · have hstore := Bool.eq_false_iff.2 hstore
        have hpam : s.pamAccepts env a.world a.command.argument = true := by
          have hsome := s.verifiedUser_isSome env a.world a.command.argument
          rw [hu, hstore, Bool.false_or] at hsome
          exact hsome.symm
        have hadmits := Session.PamAdmits.of_after hv hname hstore hpam hroom hs'
        obtain rfl := Option.some.inj (hadmits.verified.symm.trans hu)
        have hlimits := hlimits hadmits
        exact ⟨(FTPUser.make_follows _ _ _ _ _).2 hlimits, FTPUser.expiry_unlimited.2 hlimits.expiry _⟩

namespace Session

def pamService (r : FTPUser) : Service :=
  let env := Service.standard [r] []
  { env with havePam := true, config_.security := { env.config_.security with enable_pam := true } }

def pamLine (line : String) : Arrival :=
  ⟨.start ⟨[], [], fun _ _ _ => none, []⟩ fun {β} _ c => match β, c with
    | _, .systemNow => (10 : Int)
    | _, c => c.favourable, ascii line⟩

end Session

theorem pam_follows_record_unlimited :
    let r : FTPUser := ⟨"u", "p", "/", [], [], false, 0, 0⟩
    ∃ s s' : Session, s.after (Session.pamService r) 0 (Session.pamLine "PASS x") = some s' ∧
      ∃ u, s'.current_user_ = some u ∧ u.Follows r := by
  intro r
  obtain ⟨s, hs, he⟩ := Option.map_eq_some_iff.1 (show
    ((sessionSystem (Session.pamService r) 0).run System.anyStep (.opened 3 false false)
      ([Session.pamLine "USER u"])).map (fun s => (s.storedUser (Session.pamService r),
        (s.after (Session.pamService r) 0 (Session.pamLine "PASS x")).isSome,
        (s.trace (Session.pamService r) 0 (Session.pamLine "PASS x")).answers 230)) = some (some r, true, true)
      by decide +kernel)
  simp only [Prod.mk.injEq] at he
  obtain ⟨s', hs'⟩ := Option.isSome_iff_exists.1 he.2.1
  obtain ⟨u, hu, hfollows, _⟩ := (pam_follows_record (Session.pamService r) 0 (.run (.init ⟨_, _, _, rfl⟩) hs)
    (show (Session.pamLine "PASS x").command.verb = .pass by decide) he.1).2
      (fun _ => ⟨.inl rfl, rfl, by decide⟩) s' hs' he.2.2
  exact ⟨s, s', hs', u, hu, hfollows⟩

theorem pam_does_not_follow_record :
    let r : FTPUser := ⟨"u", "p", "/", ["read"], [], false, 5, 1⟩
    ∃ s s' : Session, (sessionSystem (Session.pamService r) 0).Reach System.anyStep s ∧
      s.storedUser (Session.pamService r) = some r ∧
      s.after (Session.pamService r) 0 (Session.pamLine "PASS x") = some s' ∧
      (s.trace (Session.pamService r) 0 (Session.pamLine "PASS x")).answers 230 = true ∧ r.isExpired 10 = true ∧
      ∃ u, s'.current_user_ = some u ∧ u.storage_quota_bytes_ = 0 ∧
        u.hasPermission ⟨[], [], fun _ _ _ => none, []⟩ "write" "/f" = true ∧
        r.hasPermission ⟨[], [], fun _ _ _ => none, []⟩ "write" "/f" = false := by
  intro r
  obtain ⟨s, hs, he⟩ := Option.map_eq_some_iff.1 (show
    ((sessionSystem (Session.pamService r) 0).run System.anyStep (.opened 3 false false)
      ([Session.pamLine "USER u"])).map (fun s => (s.storedUser (Session.pamService r),
        (s.after (Session.pamService r) 0 (Session.pamLine "PASS x")).map fun s' =>
          s'.current_user_.map fun u => (u.storage_quota_bytes_,
            u.hasPermission ⟨[], [], fun _ _ _ => none, []⟩ "write" "/f"),
        (s.trace (Session.pamService r) 0 (Session.pamLine "PASS x")).answers 230)) =
          some (some r, some (some (0, true)), true)
      by decide +kernel)
  simp only [Prod.mk.injEq] at he
  obtain ⟨s', hs', hu⟩ := Option.map_eq_some_iff.1 he.2.1
  obtain ⟨u, hu, hfields⟩ := Option.map_eq_some_iff.1 hu
  exact ⟨s, s', .run (.init ⟨_, _, _, rfl⟩) hs, he.1, hs', he.2.2, by decide, u, hu, congrArg Prod.fst hfields,
    congrArg Prod.snd hfields, by decide⟩

end SimpleSftpd
