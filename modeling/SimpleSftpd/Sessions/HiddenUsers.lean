import SimpleSftpd.Core.HandleClient
import SimpleSftpd.Interaction.Alike
import SimpleSftpd.Sessions.VerifiedUser

namespace SimpleSftpd

open Cxx Interaction Prog

def FTPVirtualHost.withoutUsers (h : FTPVirtualHost) : FTPVirtualHost := { h with user_manager_ := none }

structure Service.AlikeButUsers (env env' : Service) : Prop where
  config_ : env'.config_ = env.config_
  session_tracker_ : env'.session_tracker_ = env.session_tracker_
  pbkdf2 : env'.pbkdf2 = env.pbkdf2
  havePam : env'.havePam = env.havePam
  haveCompression : env'.haveCompression = env.haveCompression
  zlib : env'.zlib = env.zlib
  hosts : Option.Rel (fun v v' : VirtualHosts => ∀ name,
    (v'.getVirtualHost name).map (·.withoutUsers) = (v.getVirtualHost name).map (·.withoutUsers))
    env.virtual_host_manager_ env'.virtual_host_manager_

inductive Session.AlikeButUser (s : Session) : Session → Prop
  | mk (user : Option FTPUser) (host : Option FTPVirtualHost) :
    host.map (·.withoutUsers) = s.current_virtual_host_.map (·.withoutUsers) →
    AlikeButUser s { s with current_user_ := user, current_virtual_host_ := host }

def Round.Accepted (env : Service) (r : Round) : Prop :=
  r.arrival.command.verb = .pass ∧ r.session.username_ ≠ [] ∧
    r.session.storeAccepts env r.arrival.world r.arrival.command.argument = true

variable {env env' : Service} {me : SessionId}

section

variable {host host' : Option FTPVirtualHost}

lemma host_cases (h : host'.map (·.withoutUsers) = host.map (·.withoutUsers)) :
    host = none ∧ host' = none ∨ ∃ a m, host = some a ∧ host' = some { a with user_manager_ := m } := by
  cases host with
  | none => exact .inl ⟨rfl, Option.map_eq_none_iff.1 h⟩
  | some a =>
    obtain ⟨b, rfl, hb⟩ := Option.map_eq_some_iff.1 h
    have heq : { b.withoutUsers with user_manager_ := b.user_manager_ } =
        { a.withoutUsers with user_manager_ := b.user_manager_ } :=
      congrArg (fun x : FTPVirtualHost => { x with user_manager_ := b.user_manager_ }) hb
    exact .inr ⟨a, b.user_manager_, rfl, congrArg some heq⟩

lemma customized_alike (h : host'.map (·.withoutUsers) = host.map (·.withoutUsers)) (r : Reply) :
    r.customized host' = r.customized host := by
  rcases host_cases h with ⟨rfl, rfl⟩ | ⟨a, m, rfl, rfl⟩
  · rfl
  · rfl

end

lemma hosts_cases (h : env.AlikeButUsers env') :
    env.virtual_host_manager_ = none ∧ env'.virtual_host_manager_ = none ∨
      ∃ v v', env.virtual_host_manager_ = some v ∧ env'.virtual_host_manager_ = some v' ∧ ∀ name,
        (v'.getVirtualHost name).map (·.withoutUsers) = (v.getVirtualHost name).map (·.withoutUsers) := by
  have hhosts := h.hosts
  generalize env.virtual_host_manager_ = m, env'.virtual_host_manager_ = m' at hhosts
  cases hhosts with
  | none => exact .inl ⟨rfl, rfl⟩
  | some hv => exact .inr ⟨_, _, rfl, rfl, hv⟩

lemma VirtualHosts.isEmpty_iff (v : VirtualHosts) :
    v.map.entries.isEmpty = true ↔ ∀ name, v.getVirtualHost name = none := by
  constructor
  · intro h name
    have hentries := List.isEmpty_iff.1 h
    rw [getVirtualHost, AList.lookup, hentries]
    rfl
  · intro h
    apply List.isEmpty_iff.2
    cases hentries : v.map.entries with
    | nil => rfl
    | cons e rest =>
      have hnone := h e.1
      rw [getVirtualHost, AList.lookup, hentries, List.dlookup_cons_eq] at hnone
      cases hnone

namespace Session

variable {s s' : Session}

lemma sendResponse_alike (h : s.AlikeButUser s') (r : Reply) : s'.sendResponse r = s.sendResponse r := by
  cases h with
  | mk user host h =>
    unfold sendResponse
    rw [customized_alike h]

lemma reply_alike (h : s.AlikeButUser s') (code : ℕ) (text : Str) : s'.reply code text = s.reply code text :=
  sendResponse_alike h _

lemma sendLines_alike (h : s.AlikeButUser s') (rs : List Reply) : s'.sendLines rs = s.sendLines rs := by
  induction rs with
  | nil => rfl
  | cons r rs ih =>
    unfold sendLines
    rw [sendResponse_alike h, ih]

lemma AlikeButUser.refl : s.AlikeButUser s := .mk _ _ rfl

lemma handleUSER_alike (h : s.AlikeButUser s') (a : Str) :
    Alike AlikeButUser (s.handleUSER a) (s'.handleUSER a) := by
  unfold handleUSER
  rw [reply_alike h]
  apply Alike.bind_left
  intro _
  cases h with
  | mk user host h => exact .pure (.mk user host h)

lemma loadHostCertificate_alike (h : s.AlikeButUser s') :
    Alike AlikeButUser s.loadHostCertificate s'.loadHostCertificate := by
  cases h with
  | mk user host h =>
    unfold loadHostCertificate
    rcases host_cases h with ⟨hhost, rfl⟩ | ⟨a, m, hhost, rfl⟩
    · simp only [hhost]
      exact .pure (.mk user none h)
    · simp only [hhost]
      split
      · exact .pure (.mk user _ h)
      · apply Alike.bind_left
        intro ok
        rw [← hhost]
        exact .pure (.mk user _ h)

lemma handleAUTH_alike (h : s.AlikeButUser s') (a : Str) :
    Alike AlikeButUser (s.handleAUTH a) (s'.handleAUTH a) := by
  have hactive : s'.ssl_active_ = s.ssl_active_ := by cases h; rfl
  unfold handleAUTH
  dsimp only
  split
  · rw [hactive]
    split
    · rw [reply_alike h]
      apply Alike.bind_left
      intro _
      exact .pure h
    · apply (loadHostCertificate_alike h).bind
      intro t t' ht
      have henabled : t'.ssl_enabled_ = t.ssl_enabled_ := by cases ht; rfl
      have hcontext : t'.ssl_context_ = t.ssl_context_ := by cases ht; rfl
      rw [henabled, hcontext, reply_alike ht, reply_alike ht]
      split
      · apply Alike.bind_left
        intro _
        exact .pure ht
      · apply Alike.bind_left
        intro _
        apply Alike.bind_left
        intro upgraded
        cases ht with
        | mk user host ht =>
          split
          · apply Alike.bind_left
            intro _
            exact .pure (.mk user host ht)
          · exact .pure (.mk user host ht)
  · rw [reply_alike h]
    apply Alike.bind_left
    intro _
    exact .pure h

lemma handlePBSZ_alike (h : s.AlikeButUser s') : s'.handlePBSZ = s.handlePBSZ := by
  have hactive : s'.ssl_active_ = s.ssl_active_ := by cases h; rfl
  unfold handlePBSZ
  rw [hactive, reply_alike h, reply_alike h]

lemma handlePROT_alike (h : s.AlikeButUser s') (a : Str) : s'.handlePROT a = s.handlePROT a := by
  have hactive : s'.ssl_active_ = s.ssl_active_ := by cases h; rfl
  have hlevel : s'.protection_level_ = s.protection_level_ := by cases h; rfl
  have hreply : s'.reply = s.reply := funext fun code => funext fun text => reply_alike h code text
  unfold handlePROT
  rw [hactive, hlevel, hreply]

lemma handleOPTS_alike (h : s.AlikeButUser s') (a : Str) : s'.handleOPTS a = s.handleOPTS a := by
  have hutf8 : s'.utf8_enabled_ = s.utf8_enabled_ := by cases h; rfl
  have hreply : s'.reply = s.reply := funext fun code => funext fun text => reply_alike h code text
  unfold handleOPTS
  rw [hutf8, hreply]

lemma handleABOR_alike (h : s.AlikeButUser s') : s'.handleABOR = s.handleABOR := by
  have hdata : s'.data = s.data := by cases h; rfl
  unfold handleABOR
  rw [hdata, reply_alike h]

lemma handleHOST_alike (henv : env.AlikeButUsers env') (h : s.AlikeButUser s') (a : Str) :
    Alike AlikeButUser (s.handleHOST env a) (s'.handleHOST env' a) := by
  have hreply : s'.reply = s.reply := funext fun code => funext fun text => reply_alike h code text
  have hrefused (code : ℕ) (text : Str) : Alike AlikeButUser
      (do s.reply code text; return s) (do s.reply code text; return s') := by
    apply Alike.bind_left
    intro _
    exact .pure h
  unfold handleHOST
  rw [hreply]
  split
  · exact hrefused _ _
  · rcases hosts_cases henv with ⟨hm, hm'⟩ | ⟨v, v', hm, hm', hv⟩
    · rw [hm, hm']
      exact hrefused _ _
    · rw [hm, hm']
      dsimp only
      rcases host_cases (hv a) with ⟨hfound, hfound'⟩ | ⟨host, m, hfound, hfound'⟩
      · rw [hfound, hfound']
        exact hrefused _ _
      · rw [hfound, hfound']
        dsimp only
        split
        · exact hrefused _ _
        · have hselected : AlikeButUser { s with current_virtual_host_ := some host }
              { s' with current_virtual_host_ := some { host with user_manager_ := m } } := by
            cases h with
            | mk user _ _ => exact .mk user _ rfl
          rw [reply_alike hselected]
          apply Alike.bind_left
          intro _
          exact .pure hselected

lemma features_alike (henv : env.AlikeButUsers env') (h : s.AlikeButUser s') :
    s'.features env' = s.features env := by
  have hssl : s'.ssl_enabled_ = s.ssl_enabled_ := by cases h; rfl
  have hcompression : env'.compressionEnabled = env.compressionEnabled := by
    unfold Service.compressionEnabled
    rw [henv.haveCompression, henv.config_]
  have hhosts : hasHosts env' = hasHosts env := by
    unfold hasHosts
    rcases hosts_cases henv with ⟨hm, hm'⟩ | ⟨v, v', hm, hm', hv⟩
    · rw [hm, hm']
    · have hnone (name : Str) : v'.getVirtualHost name = none ↔ v.getVirtualHost name = none := by
        rw [← Option.map_eq_none_iff (f := FTPVirtualHost.withoutUsers), hv name, Option.map_eq_none_iff]
      have hempty : v'.map.entries.isEmpty = v.map.entries.isEmpty := by
        rw [Bool.eq_iff_iff, v'.isEmpty_iff, v.isEmpty_iff]
        exact forall_congr' hnone
      rw [hm, hm', Option.any_some, Option.any_some, hempty]
  unfold features
  rw [hssl, hcompression, hhosts]

lemma handle_alike (henv : env.AlikeButUsers env') (h : s.AlikeButUser s') {c : Command}
    (hbefore : c.verb.beforeLogin = true) (hpass : c.verb ≠ .pass) :
    Alike AlikeButUser (s.handle env c) (s'.handle env' c) := by
  have hset {α : Type} {p p' : Io α} (hp : p' = p) {f f' : α → Session} (hf : ∀ x, (f x).AlikeButUser (f' x)) :
      Alike AlikeButUser (do return f (← p)) (do return f' (← p')) := by
    rw [hp]
    apply Alike.bind_left
    intro x
    exact .pure (hf x)
  have hsame {p p' : Io Unit} (hp : p' = p) : Alike AlikeButUser (do p; return s) (do p'; return s') :=
    hset hp fun _ => h
  obtain ⟨verb, a⟩ := c
  cases verb with
  | user => exact handleUSER_alike h a
  | pass => exact absurd rfl hpass
  | quit =>
    apply hsame
    unfold handleQUIT
    rw [reply_alike h]
  | noop => exact hsame (reply_alike h _ _)
  | syst => exact hsame (reply_alike h _ _)
  | feat =>
    apply hsame
    rw [features_alike henv h, sendLines_alike h]
  | auth => exact handleAUTH_alike h a
  | pbsz => exact hsame (handlePBSZ_alike h)
  | prot =>
    apply hset (handlePROT_alike h a)
    intro level
    cases h with
    | mk user host h => exact .mk user host h
  | host => exact handleHOST_alike henv h a
  | opts =>
    apply hset (handleOPTS_alike h a)
    intro enabled
    cases h with
    | mk user host h => exact .mk user host h
  | help => exact hsame (sendLines_alike h _)
  | abor =>
    apply hset (handleABOR_alike h)
    intro d
    cases h with
    | mk user host h => exact .mk user host h
  | _ => cases hbefore

def refuse (s : Session) (user : Option FTPUser) : Io Session := do
  s.reply 530 "Login incorrect"
  return { s with current_user_ := user }

lemma handlePASS_refused (me : SessionId) (hpam : (env.config_.security.enable_pam && env.havePam) = false)
    (hname : s.username_ ≠ [])
    {w : World} {password : Str} (hno : s.storeAccepts env w password = false) :
    (s.handlePASS env password).exec (World.machine me) w = (s.refuse (s.storedUser env)).exec
      (World.machine me) w.tick ∧
      (s.handlePASS env password).calls (World.machine me) w =
        (w, ⟨_, .systemNow⟩) :: (s.refuse (s.storedUser env)).calls (World.machine me) w.tick := by
  have hfinish (user : Option FTPUser) : { s with current_user_ := user }.finishLogin env false =
      s.refuse user := by
    cases user <;> rfl
  have hcheck : ∃ k, s.checkPassword env password = .call .systemNow k ∧
      k (w.choose w.time .systemNow) = pure (s.storedUser env, false) := by
    refine ⟨_, rfl, ?_⟩
    unfold storeAccepts at hno
    simp only [Prog.bind, hno, hpam, Bool.false_eq_true, if_false]
  obtain ⟨k, hk, hnow⟩ := hcheck
  unfold handlePASS
  rw [if_neg hname, hk, call_bind, exec_call, calls_call]
  change (k (w.choose w.time .systemNow) >>= _).exec _ w.tick = _ ∧
    _ :: (k (w.choose w.time .systemNow) >>= _).calls _ w.tick = _
  rw [hnow, pure_bind']
  dsimp only
  rw [hfinish]
  exact ⟨rfl, rfl⟩

structure SameRun (me : SessionId) (w : World) (p q : Io Session) : Prop where
  calls : q.calls (World.machine me) w = p.calls (World.machine me) w
  ends : (∃ a b w', p.exec (World.machine me) w = (.ok a, w') ∧ q.exec (World.machine me) w = (.ok b, w') ∧
      a.AlikeButUser b ∧ a.authenticated_ = false) ∨
    ∃ e w', p.exec (World.machine me) w = (.error e, w') ∧ q.exec (World.machine me) w = (.error e, w')

lemma SameRun.of_alike {p q : Io Session} {w : World} (h : Alike AlikeButUser p q)
    (hauth : ∀ a w', p.exec (World.machine me) w = (.ok a, w') → a.authenticated_ = false) : SameRun me w p q where
  calls := (h.calls _ w).symm
  ends := by
    rcases h.exec (World.machine me) w with ⟨a, b, w', hp, hq, hab⟩ | herror
    · exact .inl ⟨a, b, w', hp, hq, hab, hauth a w' hp⟩
    · exact .inr herror

lemma SameRun.of_reply {w : World} {code : ℕ} {text : Str} {t t' : Session} (ht : t.AlikeButUser t')
    (hauth : t.authenticated_ = false) :
    SameRun me w (do s.reply code text; return t) (do s.reply code text; return t') := by
  apply SameRun.of_alike
  · apply Alike.bind_left
    intro _
    exact .pure ht
  · intro a w' he
    obtain ⟨v, hv, _⟩ := s.reply_exec me code text w
    rw [exec_bind, hv] at he
    cases he
    exact hauth

lemma dispatch_sameRun (henv : env.AlikeButUsers env')
    (hpam : (env.config_.security.enable_pam && env.havePam) = false)
    (h : s.AlikeButUser s') (hauth : s.authenticated_ = false) {a : Arrival}
    (hno : ¬(⟨s, a⟩ : Round).Accepted env) (hno' : ¬(⟨s', a⟩ : Round).Accepted env') :
    SameRun me a.world (s.dispatch env a.line) (s'.dispatch env' a.line) := by
  have hauth' : s'.authenticated_ = false := by
    cases h
    exact hauth
  by_cases hpass : a.command.verb = .pass
  · rw [dispatch_pass hpass, dispatch_pass hpass]
    have hname' : s'.username_ = s.username_ := by cases h; rfl
    by_cases hname : s.username_ = []
    · unfold handlePASS
      rw [hname', if_pos hname, if_pos hname, reply_alike h]
      exact .of_reply h hauth
    · have hpam' : (env'.config_.security.enable_pam && env'.havePam) = false := by
        rw [henv.config_, henv.havePam]
        exact hpam
      have hname'' : s'.username_ ≠ [] := by rwa [hname']
      have hrefused : s.storeAccepts env a.world a.command.argument = false :=
        Bool.eq_false_iff.2 fun hstore => hno ⟨hpass, hname, hstore⟩
      have hrefused' : s'.storeAccepts env' a.world a.command.argument = false :=
        Bool.eq_false_iff.2 fun hstore => hno' ⟨hpass, hname'', hstore⟩
      obtain ⟨hexec, hcalls⟩ := handlePASS_refused me hpam hname hrefused
      obtain ⟨hexec', hcalls'⟩ := handlePASS_refused me hpam' hname'' hrefused'
      have hrefuse : SameRun me a.world.tick (s.refuse (s.storedUser env)) (s'.refuse (s'.storedUser env')) := by
        unfold refuse
        rw [reply_alike h]
        apply SameRun.of_reply
        · cases h with
          | mk _ host h => exact .mk _ host h
        · exact hauth
      refine ⟨?_, ?_⟩
      · rw [hcalls, hcalls', hrefuse.calls]
      · rw [hexec, hexec']
        exact hrefuse.ends
  · have hkept (b : Session) (w' : World) (he : (s.dispatch env a.line).exec (World.machine me) a.world =
      (.ok b, w')) :
        b.authenticated_ = false := by
      have hafter : s.after env me a = some b := by
        unfold after
        rw [he]
      apply Bool.eq_false_iff.2
      intro hb
      exact Bool.eq_false_iff.1 hauth ((login_kept hpass hafter).authenticated hb)
    by_cases hbefore : a.command.verb.beforeLogin = true
    · rw [dispatch_handle (.inl hbefore), dispatch_handle (.inl hbefore)]
      apply SameRun.of_alike (handle_alike henv h hbefore hpass)
      intro b w' he
      rw [← dispatch_handle (.inl hbefore)] at he
      exact hkept b w' he
    · have hdenied : ¬(a.command.verb.beforeLogin = true ∨ s.authenticated_ = true) := by simp [hbefore, hauth]
      have hdenied' : ¬(a.command.verb.beforeLogin = true ∨ s'.authenticated_ = true) := by simp [hbefore, hauth']
      have hline : s.dispatch env a.line = do
          s.reply 530 "Please login with USER and PASS"
          return s := if_neg hdenied
      have hline' : s'.dispatch env' a.line = do
          s'.reply 530 "Please login with USER and PASS"
          return s' := if_neg hdenied'
      rw [hline, hline', reply_alike h]
      exact .of_reply h hauth

lemma readLine_alike (h : s.AlikeButUser s') (control : Control) : s'.readLine control = s.readLine control := by
  cases h
  rfl

lemma rounds_alike (henv : env.AlikeButUsers env')
    (hpam : (env.config_.security.enable_pam && env.havePam) = false)
    (h : s.AlikeButUser s') (hauth : s.authenticated_ = false) {fuel : ℕ} {w : World} {control : Control}
    (hno : ∀ r ∈ s.rounds env me fuel w control, ¬r.Accepted env)
    (hno' : ∀ r ∈ s'.rounds env' me fuel w control, ¬r.Accepted env') :
    (s'.rounds env' me fuel w control).map (fun r => (r.arrival, r.session.trace env' me r.arrival)) =
      (s.rounds env me fuel w control).map fun r => (r.arrival, r.session.trace env me r.arrival) := by
  induction fuel generalizing s s' w control with
  | zero => rfl
  | succ fuel ih =>
    unfold rounds at hno hno' ⊢
    rw [readLine_alike h] at hno' ⊢
    split
    · rfl
    · rename_i hactive
      rw [if_neg hactive] at hno hno'
      dsimp only at hno hno' ⊢
      generalize (if (s.readLine control).active_ = true then w else (World.machine me w .deactivate).2) =
        v at hno hno' ⊢
      split
      · rfl
      · rename_i hline
        rw [if_neg hline] at hno hno'
        have hrun : SameRun me v (s.dispatch env (s.readLine control).line)
            (s'.dispatch env' (s.readLine control).line) :=
          dispatch_sameRun (a := ⟨v, (s.readLine control).line⟩) henv hpam h hauth (hno _ List.mem_cons_self)
            (hno' _ List.mem_cons_self)
        have hfirst : s'.trace env' me ⟨v, (s.readLine control).line⟩ = s.trace env me ⟨v,
            (s.readLine control).line⟩ :=
          hrun.calls
        rw [List.map_cons, List.map_cons, hfirst]
        congr 1
        rcases hrun.ends with ⟨a, b, w', hexec, hexec', hab, ha⟩ | ⟨e, w', hexec, hexec'⟩
        · rw [hexec] at hno ⊢
          rw [hexec'] at hno' ⊢
          dsimp only at hno hno' ⊢
          split
          · rfl
          · rename_i hquit
            rw [if_neg hquit] at hno hno'
            refine ih hab ha (fun r hr => hno r (List.mem_cons_of_mem _ hr)) fun r hr => ?_
            exact hno' r (List.mem_cons_of_mem _ hr)
        · rw [hexec, hexec']
          rfl

end Session

theorem replies_hide_users {env env' : Service} (henv : env.AlikeButUsers env')
    (hpam : (env.config_.security.enable_pam && env.havePam) = false) (me : SessionId) {s : Session} (hs : s.IsNew)
    (w : World) (control : Control) (hno : ∀ r ∈ s.conversation env me w control, ¬r.Accepted env)
    (hno' : ∀ r ∈ s.conversation env' me w control, ¬r.Accepted env') :
    s.replies env' me w control = s.replies env me w control := by
  obtain ⟨fd, context, ssl, rfl⟩ := hs
  have hrounds := Session.rounds_alike henv hpam .refl rfl hno hno'
  unfold Session.replies
  congr 1
  have htraces := congrArg (fun l => (l.map Prod.snd).flatMap Trace.replies) hrounds
  simp only [List.map_map, List.flatMap_map, Function.comp_def] at htraces
  exact htraces

namespace Service

def secretive (users : List FTPUser) : Service :=
  { standard users [] with config_ := { security := { max_sessions_per_user := 1 } } }

lemma secretive_alike (users users' : List FTPUser) : (secretive users).AlikeButUsers (secretive users') where
  config_ := rfl
  session_tracker_ := rfl
  pbkdf2 := rfl
  havePam := rfl
  haveCompression := rfl
  zlib := rfl
  hosts := .some fun _ => rfl

end Service

def FTPUser.known : FTPUser := ⟨"u", "p", "/", [], [], false, 0, 0⟩

instance (env : Service) (r : Round) : Decidable (r.Accepted env) := inferInstanceAs (Decidable (_ ∧ _ ∧ _))

def World.occupied : World :=
  { World.favourable ⟨[], [], fun _ _ _ => none, []⟩ with tracker := SessionTracker.empty.registerSession "u" [] }

theorem replies_hide_users_guess :
    (Session.opened 3 false false).replies (.secretive []) 0 .occupied ⟨"USER u\nPASS q\n", true⟩ =
      (Session.opened 3 false false).replies (.secretive [.known]) 0 .occupied ⟨"USER u\nPASS q\n", true⟩ := by
  apply replies_hide_users (Service.secretive_alike _ _) rfl 0 ⟨_, _, _, rfl⟩
  · decide +kernel
  · decide +kernel

theorem replies_tell_users :
    (∀ r ∈ (Session.opened 3 false false).conversation (.secretive [.known]) 0 .occupied
      ⟨"USER u\nPASS p\n", true⟩,
        r.arrival.command.verb = .pass → (r.session.trace (.secretive [.known]) 0 r.arrival).answers 230 = false) ∧
      (∀ r ∈ (Session.opened 3 false false).conversation (.secretive []) 0 .occupied ⟨"USER u\nPASS p\n", true⟩,
        r.arrival.command.verb = .pass → (r.session.trace (.secretive []) 0 r.arrival).answers 230 = false) ∧
      (Session.opened 3 false false).replies (.secretive [.known]) 0 .occupied ⟨"USER u\nPASS p\n", true⟩ ≠
        (Session.opened 3 false false).replies (.secretive []) 0 .occupied ⟨"USER u\nPASS p\n", true⟩ := by
  decide +kernel

end SimpleSftpd
