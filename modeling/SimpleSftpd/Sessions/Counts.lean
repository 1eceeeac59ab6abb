import SimpleSftpd.Interaction.Tally
import SimpleSftpd.Sessions.VerifiedUser

namespace SimpleSftpd

open Cxx Interaction Prog

/-- A connection, with the virtual host it logged in under as history. -/
structure Party where
  session : Session
  stopped : Bool := false
  loginHost : Option FTPVirtualHost := none

namespace Party

variable (p : Party)

def loggedIn : Bool := p.session.authenticated_ && !p.stopped

def account : Option Str := if p.loggedIn then some p.session.username_ else none

def place : Option Str := if p.loggedIn then p.loginHost.map (·.hostname_) else none

end Party

structure Hall where
  tracker : SessionTracker
  count : ℕ
  party : ℕ → Party

inductive HallStep
  | accept (fd : Fd) (context ssl : Bool)
  | command (i : ℕ) (arrival : Arrival)
  | stop (i : ℕ) (world : World)

variable (env : Service)

namespace Hall

variable (t : Hall)

def set (i : ℕ) (p : Party) (tracker : SessionTracker) : Hall :=
  { t with tracker := tracker, party := Function.update t.party i p }

def share (w : World) : World := { w with tracker := t.tracker }

def afterCommand (i : ℕ) (a : Arrival) : Option Hall :=
  let p := t.party i
  let a := { a with world := t.share a.world }
  match (p.session.dispatch env a.line).exec (World.machine i) a.world with
  | (.ok s', w') => some (t.set i
      { p with
        session := s'
        loginHost :=
          if a.command.verb = .pass ∧ (p.session.trace env i a).answers 230 then
            p.session.current_virtual_host_
          else p.loginHost } w'.tracker)
  | (.error _, _) => none

def afterStop (i : ℕ) (w : World) : Option Hall :=
  let p := t.party i
  match (p.session.stop env).exec (World.machine i) (t.share w) with
  | (.ok s', w') => some (t.set i { p with session := s', stopped := true } w'.tracker)
  | (.error _, _) => none

end Hall

def hallSystem : System Hall HallStep where
  init t := t.tracker = .empty ∧ t.count = 0
  next t
    | .accept fd context ssl => some
        { t with count := t.count + 1, party := Function.update t.party t.count ⟨.opened fd context ssl,
          false, none⟩ }
    | .command i a => if i < t.count ∧ (t.party i).stopped = false then t.afterCommand env i a else none
    | .stop i w => if i < t.count then t.afterStop env i w else none

/-- While its login is registered, a connection sends no USER and no PASS that succeeds, and it is
stopped under the virtual host it logged in under. -/
def Hall.KeepsCounts (t : Hall) : HallStep → Prop
  | .accept _ _ _ => True
  | .command i a => (t.party i).session.session_registered_ = true →
      a.command.verb ≠ .user ∧
      (a.command.verb = .pass →
        ¬(((t.party i).session.verifiedUser env (t.share a.world) a.command.argument).isSome ∧
          (t.party i).session.hasRoom env (t.share a.world)))
  | .stop i _ => (t.party i).session.session_registered_ = true →
      (t.party i).session.hostname = ((t.party i).loginHost.map (·.hostname_)).getD []

def Counts.Tracks (c : Counts) (n : ℕ) (f : ℕ → Option Str) : Prop := ∀ k, c.get k = tally n f k

namespace Counts

variable {c : Counts} {n i : ℕ} {f : ℕ → Option Str}

lemma Tracks.increment (h : c.Tracks n f) (hi : i < n) (hf : f i = none) {x : Option Str}
    (hx : x ≠ some []) : (c.increment (x.getD [])).Tracks n (Function.update f i x) := by
  intro k
  have hu := tally_update hi f x k
  rw [get_increment, h k]
  cases x with
  | none =>
    simp only [hf, reduceCtorEq, if_false] at hu
    simp only [Option.getD_none]
    rw [if_neg fun he => he.2 he.1.symm]
    omega
  | some u =>
    simp only [hf, reduceCtorEq, if_false, Option.some.injEq] at hu
    have hu' : u ≠ [] := fun he => hx (congrArg some he)
    by_cases hk : u = k
    · subst hk
      simp only [Option.getD_some, ne_eq, hu', not_false_eq_true, and_self, if_true] at hu ⊢
      omega
    · simp only [Option.getD_some, hk, false_and, if_false] at hu ⊢
      omega

lemma Tracks.decrement (h : c.Tracks n f) (hi : i < n) {x : Option Str} (hf : f i = x)
    (hx : x ≠ some []) : (c.decrement (x.getD [])).Tracks n (Function.update f i none) := by
  intro k
  have hu := tally_update hi f none k
  rw [get_decrement, h k]
  simp only [hf, reduceCtorEq, if_false] at hu
  cases x with
  | none =>
    simp only [Option.getD_none, reduceCtorEq, if_false] at hu ⊢
    rw [if_neg fun he => he.2 he.1.symm]
    omega
  | some u =>
    have hu' : u ≠ [] := fun he => hx (congrArg some he)
    simp only [Option.some.injEq, Option.getD_some] at hu ⊢
    by_cases hk : u = k
    · subst hk
      simp only [ne_eq, hu', not_false_eq_true, and_self, if_true] at hu ⊢
      omega
    · simp only [hk, false_and, if_false] at hu ⊢
      omega

end Counts

structure Party.Sound (p : Party) : Prop where
  connected : p.stopped = false → p.session.socket_ ≠ none
  registered : p.session.session_registered_ = p.loggedIn
  named : p.session.authenticated_ = true → p.session.username_ ≠ []
  hostNamed : ∀ h, p.session.current_virtual_host_ = some h → h.hostname_ ≠ []
  loginHostNamed : ∀ h, p.loginHost = some h → h.hostname_ ≠ []

structure Hall.Sound (t : Hall) : Prop where
  party : ∀ i < t.count, (t.party i).Sound
  users : t.tracker.count_by_user_.Tracks t.count fun i => (t.party i).account
  hosts : t.tracker.count_by_host_.Tracks t.count fun i => (t.party i).place

namespace Party

variable {p : Party}

lemma account_eq_some {u : Str} : p.account = some u ↔
    p.stopped = false ∧ p.session.authenticated_ = true ∧ p.session.username_ = u := by
  unfold account loggedIn
  cases p.stopped <;> cases p.session.authenticated_ <;> simp

lemma place_eq_some {h : Str} : p.place = some h ↔
    p.stopped = false ∧ p.session.authenticated_ = true ∧ p.loginHost.map (·.hostname_) = some h := by
  unfold place loggedIn
  cases p.stopped <;> cases p.session.authenticated_ <;> simp

lemma labels_none (h : p.loggedIn = false) : p.account = none ∧ p.place = none := by
  simp [account, place, h]

lemma Sound.account_ne (h : p.Sound) : p.account ≠ some [] := by
  unfold account loggedIn
  split
  · rename_i hl
    rw [Bool.and_eq_true] at hl
    exact fun he => h.named hl.1 (Option.some.inj he)
  · simp

lemma Sound.place_ne (h : p.Sound) : p.place ≠ some [] := by
  unfold place
  split
  · cases hh : p.loginHost with
    | none => simp
    | some host => exact fun he => h.loginHostNamed host hh (Option.some.inj he)
  · simp

end Party

namespace Hall

variable {t : Hall} {i : ℕ} {p : Party} {tracker : SessionTracker}

lemma label_update (f : Party → Option Str) :
    (fun j => f (Function.update t.party i p j)) = Function.update (fun j => f (t.party j)) i (f p) := by
  funext j
  by_cases hj : j = i
  · subst hj
    rw [Function.update_self, Function.update_self]
  · rw [Function.update_of_ne hj, Function.update_of_ne hj]

lemma Sound.set (h : t.Sound) (hp : p.Sound)
    (hu : tracker.count_by_user_.Tracks t.count (Function.update (fun j => (t.party j).account) i p.account))
    (hh : tracker.count_by_host_.Tracks t.count (Function.update (fun j => (t.party j).place) i p.place)) :
    (t.set i p tracker).Sound := by
  refine ⟨fun j hj => ?_, ?_, ?_⟩
  · by_cases hji : j = i
    · subst hji
      simpa [Hall.set] using hp
    · simpa [Hall.set, hji] using h.party j hj
  · simpa only [Hall.set, label_update Party.account] using hu
  · simpa only [Hall.set, label_update Party.place] using hh

lemma Sound.set_same (h : t.Sound) (hp : p.Sound) (ha : p.account = (t.party i).account)
    (hl : p.place = (t.party i).place) : (t.set i p t.tracker).Sound := by
  refine h.set hp ?_ ?_
  · rw [ha, Function.update_eq_self]
    exact h.users
  · rw [hl, Function.update_eq_self]
    exact h.hosts

lemma Sound.logIn {u v : Str} (h : t.Sound) (hi : i < t.count) (hp : p.Sound)
    (hno : (t.party i).loggedIn = false) (hu : p.account.getD [] = u) (hv : p.place.getD [] = v) :
    (t.set i p (t.tracker.registerSession u v)).Sound := by
  obtain ⟨ha, hl⟩ := Party.labels_none hno
  subst hu hv
  exact h.set hp (h.users.increment hi ha hp.account_ne) (h.hosts.increment hi hl hp.place_ne)

lemma Sound.logOut {u v : Str} (h : t.Sound) (hi : i < t.count) (hp : p.Sound)
    (hno : p.loggedIn = false) (hu : (t.party i).account.getD [] = u) (hv : (t.party i).place.getD [] = v) :
    (t.set i p (t.tracker.unregisterSession u v)).Sound := by
  obtain ⟨ha, hl⟩ := Party.labels_none hno
  have hold := h.party i hi
  subst hu hv
  refine h.set hp ?_ ?_
  · rw [ha]
    exact h.users.decrement hi rfl hold.account_ne
  · rw [hl]
    exact h.hosts.decrement hi rfl hold.place_ne

end Hall

lemma Verb.register_kind {v : Verb} (hv : v ≠ .pass) (d : DataConnection) : .register ∉ .reply :: v.kinds d := by
  cases v with
  | pass => exact absurd rfl hv
  | _ => simp [Verb.kinds, Session.dataKinds, retrieveKinds, storeKinds]

namespace Session

variable {env : Service} {me : SessionId} {s s' : Session} {a : Arrival} {w' : World}

lemma tracker_kept (hv : a.command.verb ≠ .pass)
    (h : (s.dispatch env a.line).exec (World.machine me) a.world = (.ok s', w')) :
    w'.tracker = a.world.tracker := by
  have hkinds : (s.dispatch env a.line).Within _ _ := dispatch_within a.line
  have ht := tracker_of_within me hkinds (Verb.register_kind hv _) a.world
  rwa [h] at ht

lemma stop_run (ht : env.session_tracker_ = true) {w : World}
    (h : (s.stop env).exec (World.machine me) w = (.ok s', w')) :
    (∃ d ssl, s' = { s with session_registered_ := false, ssl_ := ssl, data := d, socket_ := none }) ∧
      w'.tracker = (if s.session_registered_ then w.tracker.unregisterSession s.username_ s.hostname
        else w.tracker) := by
  have hquit : (s.shutDown env).Within (Kinds [.reply, .close]) fun s' =>
      ∃ d ssl, s' = { s with session_registered_ := false, ssl_ := ssl, data := d, socket_ := none } := by
    simp only [shutDown, within_bind, within_perform, kinds_mk, Call.kind, ht, if_true]
    refine ⟨by simp, fun _ => DataConnection.closeDataSocket_within _ (by simp) ?_⟩
    exact closeHeld_within (by simp) _ ((within_pure _).2 ⟨_, _, rfl⟩)
  have hunregister : (s.unregister env).exec (World.machine me) w = (.ok (),
      if s.session_registered_ then { w with tracker := w.tracker.unregisterSession s.username_ s.hostname }
      else w) := by
    simp only [unregister, ht, Bool.true_and, exec_ite]
    split <;> rfl
  rw [stop, exec_bind, hunregister] at h
  dsimp only at h
  have htracker := tracker_of_within me hquit (by simp)
    (if s.session_registered_ then { w with tracker := w.tracker.unregisterSession s.username_ s.hostname } else w)
  rw [h] at htracker
  refine ⟨hquit.exec _ h, htracker.trans ?_⟩
  split <;> rfl

end Session

namespace Hall

variable {env} {t t' : Hall} {i : ℕ}

lemma afterCommand_cases {a : Arrival} (h : t.afterCommand env i a = some t') : ∃ s' w',
    ((t.party i).session.dispatch env a.line).exec (World.machine i) (t.share a.world) = (.ok s', w') ∧
      t' = t.set i
        { t.party i with
          session := s'
          loginHost :=
            if a.command.verb = .pass ∧
              ((t.party i).session.trace env i ⟨t.share a.world, a.line⟩).answers 230 then
              (t.party i).session.current_virtual_host_
            else (t.party i).loginHost } w'.tracker := by
  unfold afterCommand at h
  dsimp only at h
  split at h
  · rename_i s' w' he
    exact ⟨s', w', he, (Option.some.inj h).symm⟩
  · cases h

lemma command_sound (ht : env.session_tracker_ = true) {a : Arrival} (hs : t.Sound) (hi : i < t.count)
    (hstop : (t.party i).stopped = false) (hok : t.KeepsCounts env (.command i a))
    (h : t.afterCommand env i a = some t') : t'.Sound := by
  obtain ⟨s', w', he, rfl⟩ := afterCommand_cases h
  have hp := hs.party i hi
  have hafter : (t.party i).session.after env i ⟨t.share a.world, a.line⟩ = some s' := by
    rw [Session.after, he]
  by_cases hpass : a.command.verb = .pass
  · rw [Session.dispatch_pass (a := ⟨t.share a.world, a.line⟩) hpass] at he
    obtain ⟨code, hrun, hcode⟩ := Session.handlePASS_run env i _ _ _ (hp.connected hstop) he
    have hanswers : ((t.party i).session.trace env i ⟨t.share a.world, a.line⟩).answers 230 = decide
        (code = 230) := by
      rw [Session.trace, Session.dispatch_pass (a := ⟨t.share a.world, a.line⟩) hpass]
      exact hcode 230
    simp only [hanswers, hpass, true_and, decide_eq_true_eq]
    generalize w'.tracker = tracker at hrun ⊢
    cases hrun with
    | unnamed _ =>
      exact hs.set_same ⟨hp.connected, hp.registered, hp.named, hp.hostNamed, hp.loginHostNamed⟩ rfl rfl
    | refused u _ _ _ =>
      exact hs.set_same ⟨hp.connected, hp.registered, hp.named, hp.hostNamed, hp.loginHostNamed⟩ rfl rfl
    | accepted u dir hname hu hroom =>
      have hno : (t.party i).loggedIn = false := by
        rw [← hp.registered]
        by_contra hreg
        exact (hok (by simpa using hreg)).2 hpass ⟨Option.isSome_iff_exists.2 ⟨u, hu⟩, hroom⟩
      rw [if_pos ht]
      refine hs.logIn hi ⟨hp.connected, ?_, fun _ => hname, hp.hostNamed, hp.hostNamed⟩ hno ?_ ?_
      · simp [Party.loggedIn, hstop, ht]
      · simp [Party.account, Party.loggedIn, hstop]
      · simp only [Party.place, Party.loggedIn, hstop, Session.hostname]
        cases (t.party i).session.current_virtual_host_ <;> rfl
  · have hk := Session.login_kept (a := ⟨t.share a.world, a.line⟩) hpass hafter
    have htracker : w'.tracker = t.tracker :=
      Session.tracker_kept (a := ⟨t.share a.world, a.line⟩) hpass he
    have hlogged : a.command.verb = .user → (t.party i).loggedIn = false := fun hu => by
      rw [← hp.registered]
      by_contra hreg
      exact (hok (by simpa using hreg)).1 hu
    have hauth : s'.authenticated_ = (t.party i).session.authenticated_ := by
      by_cases hu : a.command.verb = .user
      · have hno : (t.party i).session.authenticated_ = false := by
          simpa [Party.loggedIn, hstop] using hlogged hu
        rw [hno, Bool.eq_false_iff]
        exact fun ha => by simpa [hno] using hk.authenticated ha
      · exact (hk.login hu).1
    rw [htracker]
    simp only [hpass, false_and, if_false]
    refine hs.set_same ⟨fun _ => hk.socket ▸ hp.connected hstop, ?_, ?_, ?_, hp.loginHostNamed⟩ ?_ ?_
    · rw [hk.registered, hp.registered, Party.loggedIn, Party.loggedIn, hauth]
    · intro ha
      by_cases hu : a.command.verb = .user
      · have hno := hlogged hu
        rw [Party.loggedIn, hstop, ← hauth, show s'.authenticated_ = true from ha] at hno
        cases hno
      · rw [show _ = _ from (hk.login hu).2]
        exact hp.named (hauth ▸ ha)
    · rcases hk.host with hh | ⟨h, hh, hne⟩
      · exact fun h hh' => hp.hostNamed h (hh ▸ hh')
      · intro h' hh'
        rw [hh, Option.some.injEq] at hh'
        exact hh' ▸ hne
    · by_cases hu : a.command.verb = .user
      · rw [(Party.labels_none (hlogged hu)).1]
        refine (Party.labels_none ?_).1
        rw [← hlogged hu, Party.loggedIn, Party.loggedIn, hauth]
      · simp [Party.account, Party.loggedIn, hauth, (hk.login hu).2]
    · simp [Party.place, Party.loggedIn, hauth]

lemma stop_sound (ht : env.session_tracker_ = true) {w : World} (hs : t.Sound) (hi : i < t.count)
    (hok : t.KeepsCounts env (.stop i w)) (h : t.afterStop env i w = some t') : t'.Sound := by
  have hp := hs.party i hi
  unfold afterStop at h
  dsimp only at h
  split at h
  · rename_i s' w' he
    cases h
    obtain ⟨⟨d, ssl, rfl⟩, htracker⟩ := Session.stop_run ht he
    have hno : Party.loggedIn { t.party i with
        session := { (t.party i).session with
          session_registered_ := false, ssl_ := ssl, data := d, socket_ := none },
        stopped := true } = false := by simp [Party.loggedIn]
    have hp' : Party.Sound { t.party i with
        session := { (t.party i).session with
          session_registered_ := false, ssl_ := ssl, data := d, socket_ := none },
        stopped := true } := ⟨by simp, hno.symm, hp.named, hp.hostNamed, hp.loginHostNamed⟩
    rw [htracker]
    by_cases hreg : (t.party i).session.session_registered_ = true
    · have hlogged : (t.party i).loggedIn = true := hp.registered ▸ hreg
      rw [if_pos hreg]
      refine hs.logOut hi hp' hno ?_ ?_
      · rw [Party.account, if_pos hlogged, Option.getD_some]
      · rw [Party.place, if_pos hlogged, hok hreg]
    · have hlogged : (t.party i).loggedIn = false := by
        rw [← hp.registered]
        simpa using hreg
      rw [if_neg hreg]
      refine hs.set_same hp' ?_ ?_
      · rw [(Party.labels_none hlogged).1, (Party.labels_none hno).1]
      · rw [(Party.labels_none hlogged).2, (Party.labels_none hno).2]
  · cases h

lemma accept_sound {fd : Fd} {context ssl : Bool} (hs : t.Sound) : Sound
    { t with
      count := t.count + 1
      party := Function.update t.party t.count ⟨.opened fd context ssl, false, none⟩ } := by
  have htally (f : Party → Option Str) (hf : f ⟨.opened fd context ssl, false, none⟩ = none) (k : Str) :
      tally (t.count + 1)
        (fun i => f (Function.update t.party t.count ⟨.opened fd context ssl, false, none⟩ i)) k =
        tally t.count (fun i => f (t.party i)) k := by
    rw [tally_succ, Function.update_self, hf]
    simp only [reduceCtorEq, if_false, Nat.add_zero]
    refine congrFun (tally_congr fun i hi => ?_) k
    rw [Function.update_of_ne (Nat.ne_of_lt hi)]
  refine ⟨fun i hi => ?_, fun k => ?_, fun k => ?_⟩
  · rcases Nat.lt_succ_iff_lt_or_eq.1 hi with hlt | rfl
    · simpa [Nat.ne_of_lt hlt] using hs.party i hlt
    · simp only [Function.update_self]
      exact ⟨by simp [Session.opened], rfl, by simp [Session.opened], by simp [Session.opened], by simp⟩
  · rw [hs.users k, htally Party.account rfl]
  · rw [hs.hosts k, htally Party.place rfl]

lemma sound_of_reach (ht : env.session_tracker_ = true)
    (h : (hallSystem env).Reach (fun t => t.KeepsCounts env) t) : t.Sound := by
  refine h.invariant (fun t h0 => ?_) fun t step t' hs hok hn => ?_
  · obtain ⟨htr, hcount⟩ := h0
    refine ⟨fun i hi => by omega, fun k => ?_, fun k => ?_⟩ <;>
      simp [htr, hcount, SessionTracker.empty, tally, Counts.get]
  · cases step with
    | accept fd context ssl =>
      cases hn
      exact accept_sound hs
    | command i a =>
      dsimp only [hallSystem] at hn
      split at hn
      · rename_i hi
        exact command_sound ht hs hi.1 hi.2 hok hn
      · cases hn
    | stop i w =>
      dsimp only [hallSystem] at hn
      split at hn
      · rename_i hi
        exact stop_sound ht hs hi hok hn
      · cases hn

end Hall

def Hall.sessionsOf (t : Hall) (u : Str) : Finset ℕ :=
  (Finset.range t.count).filter fun i =>
    (t.party i).stopped = false ∧ (t.party i).session.authenticated_ = true ∧ (t.party i).session.username_ = u

def Hall.sessionsAt (t : Hall) (h : Str) : Finset ℕ :=
  (Finset.range t.count).filter fun i =>
    (t.party i).stopped = false ∧ (t.party i).session.authenticated_ = true ∧
      (t.party i).loginHost.map (·.hostname_) = some h

namespace Hall

instance (t : Hall) (step : HallStep) : Decidable (t.KeepsCounts env step) := by
  cases step <;> unfold KeepsCounts <;> infer_instance

def sampleSteps (lines : List String) : List HallStep :=
  .accept 3 false false :: (Attested.sampleLines lines).map (.command 0)

def empty : Hall := ⟨.empty, 0, fun _ => ⟨.opened 0 false false, false, none⟩⟩

end Hall

theorem counts_are_sessions (ht : env.session_tracker_ = true) {t : Hall}
    (h : (hallSystem env).Reach (fun t => t.KeepsCounts env) t) :
    (∀ u, t.tracker.getCountForUser u = (t.sessionsOf u).card) ∧
      ∀ host, t.tracker.getCountForHost host = (t.sessionsAt host).card := by
  have hs := Hall.sound_of_reach ht h
  exact ⟨fun u => (hs.users u).trans (congrArg Finset.card (Finset.filter_congr fun _ _ => Party.account_eq_some)),
    fun host => (hs.hosts host).trans (congrArg Finset.card (Finset.filter_congr fun _ _ => Party.place_eq_some))⟩

theorem counts_are_sessions_login : ∃ t : Hall,
    t.sessionsOf "u" = {0} ∧ t.tracker.getCountForUser "u" = (t.sessionsOf "u").card := by
  obtain ⟨t, ht, hu⟩ := Option.map_eq_some_iff.1 (show
    ((hallSystem Attested.sampleService).run (fun t => t.KeepsCounts Attested.sampleService) Hall.empty
      (Hall.sampleSteps ["USER u", "PASS p", "HOST h", "PASS q", "NOOP"])).map (·.sessionsOf "u") = some {0}
    by decide +kernel)
  exact ⟨t, hu, (counts_are_sessions Attested.sampleService rfl (.run (.init ⟨rfl, rfl⟩) ht)).1 "u"⟩

theorem counts_are_not_sessions : ∃ t : Hall,
    (hallSystem Attested.sampleService).Reach System.anyStep t ∧
      t.tracker.getCountForUser "u" = 1 ∧ (t.sessionsOf "u").card = 0 := by
  obtain ⟨t, ht, hu⟩ := Option.map_eq_some_iff.1 (show
    ((hallSystem Attested.sampleService).run System.anyStep Hall.empty
      (Hall.sampleSteps ["USER u", "PASS p",
        "PASS p"] ++ [.stop 0 (.favourable ⟨[], [], fun _ _ _ => none, []⟩)])).map
      (fun t => (t.tracker.getCountForUser "u", (t.sessionsOf "u").card)) = some (1, 0) by decide +kernel)
  exact ⟨t, .run (.init ⟨rfl, rfl⟩) ht, congrArg Prod.fst hu, congrArg Prod.snd hu⟩

end SimpleSftpd
