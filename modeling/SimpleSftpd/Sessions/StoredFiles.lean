import SimpleSftpd.Cxx.Usage
import SimpleSftpd.Sessions.Resumption

namespace SimpleSftpd

open Cxx Interaction Prog

namespace Cxx.FileSystem

variable {fs : FileSystem} {p q : Str} {l m src dst : Location} {b : Str} {n : Node}

lemma lookup_map {es : List (Location × Node)} (f : Location → Location) (h : ∀ e ∈ es, f e.1 = f l → e.1 = l) :
    (es.map fun (m, n) => (f m, n)).lookup (f l) = es.lookup l := by
  induction es with
  | nil => rfl
  | cons e es ih =>
    obtain ⟨m, n⟩ := e
    rw [List.map_cons, List.lookup_cons, List.lookup_cons, ih fun e he => h e (List.mem_cons_of_mem _ he)]
    by_cases hm : l = m
    · subst hm
      simp
    · have hne : f l ≠ f m := fun he => hm (h (m, n) List.mem_cons_self he.symm).symm
      rw [beq_eq_false_iff_ne.2 hm, beq_eq_false_iff_ne.2 hne]

def Bare (fs : FileSystem) (l : Location) : Prop := ∀ e ∈ fs.nodes, l <+: e.1 → e.1 = l

instance (fs : FileSystem) (l : Location) : Decidable (fs.Bare l) := inferInstanceAs (Decidable (∀ _ ∈ _, _))

lemma moved_inj (hm : ¬dst <+: m) (hl : ¬dst <+: l) (he : moved src dst m = moved src dst l) : m = l := by
  unfold moved at he
  simp only [List.isPrefixOf_iff_prefix] at he
  split at he <;> split at he
  · rename_i hbelow hbelow'
    rw [← List.prefix_iff_eq_append.1 hbelow, ← List.prefix_iff_eq_append.1 hbelow', List.append_cancel_left he]
  · exact absurd (he ▸ List.prefix_append _ _) hl
  · exact absurd (he ▸ List.prefix_append _ _) hm
  · exact he

lemma node_move (hn : fs.node l = some n) (hl : l ≠ []) (hbare : fs.Bare dst) (hdst : l ≠ dst) :
    (fs.move src dst).node (moved src dst l) = some n := by
  rw [node, if_neg hl] at hn
  have hmem : (l, n) ∈ fs.nodes := by
    obtain ⟨before, after, hnodes, _⟩ := List.lookup_eq_some_iff.1 hn
    simp [hnodes]
  have hout : ¬dst <+: l := fun h => hdst (hbare _ hmem h)
  have hmoved : moved src dst l ≠ [] := by
    intro hnil
    unfold moved at hnil
    split at hnil
    · rw [(List.append_eq_nil_iff.1 hnil).1] at hout
      exact hout (List.nil_prefix)
    · exact hl hnil
  rw [node, if_neg hmoved]
  change ((fs.nodes.filter (·.1 ≠ dst)).map fun e => (moved src dst e.1, e.2)).lookup _ = _
  rw [lookup_map, lookup_filter_ne hdst]
  · exact hn
  · intro e he heq
    obtain ⟨hin, hne⟩ := List.mem_filter.1 he
    exact moved_inj (fun h => of_decide_eq_true hne (hbare e hin h)) hout heq

lemma node_delete (hn : fs.node l = some n) (hl : l ≠ []) (hm : l ≠ m) : (fs.delete m).node l = some n := by
  rw [node, if_neg hl] at hn ⊢
  change (fs.nodes.filter (·.1 ≠ m)).lookup l = some n
  rw [lookup_filter_ne hm]
  exact hn

lemma remove_effect (fs : FileSystem) (p : Str) :
    (fs.remove p).2 = fs ∨ ∃ l, fs.entry p = .ok l ∧ (fs.remove p).2 = fs.delete l := by
  unfold remove
  split
  · exact .inl rfl
  · split
    · exact .inl rfl
    · exact .inl rfl
    · rename_i l hl
      split
      · exact .inl rfl
      · split
        · exact .inl rfl
        · split
          · exact .inl rfl
          · exact .inr ⟨l, hl, rfl⟩
      · exact .inr ⟨l, hl, rfl⟩

lemma rename_effect (fs : FileSystem) (p q : Str) :
    ((fs.rename p q).2 = fs ∧ ∀ src dst, fs.entry p = .ok src → fs.entry q = .ok dst → src = dst ∨
      (fs.rename p q).1.isOk = false) ∨
      ∃ src dst, fs.entry p = .ok src ∧ fs.entry q = .ok dst ∧ src ≠ dst ∧ (fs.rename p q).1.isOk = true ∧
        (fs.rename p q).2 = fs.move src dst := by
  have hrefused (e : Errc) : (.error e : Except Errc Unit).isOk = false := rfl
  unfold rename
  split
  · exact .inl ⟨rfl, fun _ _ _ _ => .inr rfl⟩
  · split
    · rename_i hp
      exact .inl ⟨rfl, fun _ _ _ _ => .inr rfl⟩
    · exact .inl ⟨rfl, fun _ _ _ _ => .inr rfl⟩
    · rename_i src dst hp hq
      split
      · exact .inl ⟨rfl, fun _ _ _ _ => .inr rfl⟩
      · split
        · rename_i heq
          refine .inl ⟨rfl, fun src' dst' hp' hq' => .inl ?_⟩
          rw [← Except.ok.inj (hp.symm.trans hp'), ← Except.ok.inj (hq.symm.trans hq'), heq]
        · rename_i hne
          split
          · exact .inl ⟨rfl, fun _ _ _ _ => .inr rfl⟩
          · split
            · exact .inr ⟨src, dst, hp, hq, hne, rfl, rfl⟩
            · split
              · exact .inl ⟨rfl, fun _ _ _ _ => .inr rfl⟩
              · split
                · exact .inl ⟨rfl, fun _ _ _ _ => .inr rfl⟩
                · exact .inr ⟨src, dst, hp, hq, hne, rfl, rfl⟩
            · split
              · exact .inl ⟨rfl, fun _ _ _ _ => .inr rfl⟩
              · exact .inr ⟨src, dst, hp, hq, hne, rfl, rfl⟩

lemma openWrite_refused {mode : OpenMode} {e : Errc} (h : (fs.openWrite p mode).1 = .error e) :
    (fs.openWrite p mode).2 = fs := by
  unfold openWrite at h ⊢
  split
  · rfl
  · split
    · rfl
    · rename_i hdeny _ l hl
      simp only [hdeny, hl] at h
      split
      · rfl
      · rename_i hnone
        simp only [hnone] at h
        split at h
        · rename_i hmode
          rw [if_pos hmode]
        · cases h
      · rename_i hregular
        simp [hregular] at h
      · rfl
      · rfl

lemma openWrite_kept (hb : fs.node l = some (.regular b)) {mode : OpenMode}
    (h : mode = .truncate → fs.place p ≠ .ok l) :
    (fs.openWrite p mode).2.node l = some (.regular b) := by
  cases hopen : (fs.openWrite p mode).1 with
  | error e =>
    rw [openWrite_refused hopen]
    exact hb
  | ok m =>
    obtain ⟨hplace, ⟨hnone, heq⟩ | ⟨b', hb', heq⟩ | ⟨_, heq⟩⟩ := openWrite_cases hopen
    · have hm : m ≠ [] := fun hm => by simp [node, hm] at hnone
      have hne : l ≠ m := fun hlm => by rw [← hlm, hb] at hnone; cases hnone
      rw [heq, node_set hm, if_neg hne]
      exact hb
    · rw [heq]
      split
      · rename_i htruncate
        subst htruncate
        have hne : l ≠ m := fun hlm => h rfl (hlm ▸ hplace)
        rw [node_set (ne_nil_of_regular hb'), if_neg hne]
        exact hb
      · exact hb
    · rw [heq]
      exact hb

lemma writeAt_kept (hb : fs.node l = some (.regular b)) (hm : l ≠ m) (pos : ℕ) (data : Str) :
    (fs.writeAt m pos data).node l = some (.regular b) := by
  unfold writeAt
  split
  · rename_i hm'
    rw [node_set (ne_nil_of_regular hm'), if_neg hm]
    exact hb
  · exact hb

end Cxx.FileSystem

def Call.follow {β : Type} (w : World) (l : Location) : Call β → Option Location
  | remove p => if w.fs.entry p = .ok l then none else some l
  | rename p q => match w.fs.entry p, w.fs.entry q with
    | .ok src, .ok dst =>
      if src = dst ∨ (w.fs.rename p q).1.isOk = false then some l
      else if w.fs.Bare dst ∧ l ≠ dst then some (FileSystem.moved src dst l) else none
    | _, _ => some l
  | openWrite p mode => if mode = .truncate ∧ w.fs.place p = .ok l then none else some l
  | write fd _ _ => if (w.fileAt fd).map Prod.fst = some l then none else some l
  | appendTo fd _ => if (w.fileAt fd).map Prod.fst = some l then none else some l
  | _ => some l

lemma World.follow_node {β : Type} {me : SessionId} {w : World} {o : Call β} {l l' : Location} {b : Str}
    (hl : o.follow w l = some l') (hb : w.fs.node l = some (.regular b)) :
    (World.answer me w o).2.fs.node l' = some (.regular b) := by
  have hne := FileSystem.ne_nil_of_regular hb
  by_cases hkind : o.kind ∈ [Kind.change, .write, .chroot]
  · cases o with
    | createDirectory p =>
      cases hl
      exact (FileSystem.createDirectory_grows p).node _ _ hb
    | createDirectories p =>
      cases hl
      exact (FileSystem.createDirectories_grows p).node _ _ hb
    | permissions p mode =>
      cases hl
      exact (FileSystem.permissions_node _ p mode _).trans hb
    | remove p =>
      obtain ⟨hentry, heq⟩ := Option.ite_none_left_eq_some.1 hl
      cases heq
      change (w.fs.remove p).2.node l = _
      rcases w.fs.remove_effect p with heq | ⟨m, hm, heq⟩
      · rw [heq]
        exact hb
      · rw [heq]
        exact FileSystem.node_delete hb hne fun hlm => hentry (hlm ▸ hm)
    | rename p q =>
      change (w.fs.rename p q).2.node l' = _
      dsimp only [Call.follow] at hl
      rcases w.fs.rename_effect p q with ⟨heq, hstays⟩ | ⟨src, dst, hsrc, hdst, hne', hok, heq⟩
      · rw [heq]
        split at hl
        · rename_i src dst hsrc hdst
          rw [if_pos (hstays src dst hsrc hdst)] at hl
          cases hl
          exact hb
        · cases hl
          exact hb
      · simp only [hsrc, hdst, hne', hok, Bool.true_eq_false, or_self, if_false] at hl
        obtain ⟨⟨hbare, hout⟩, hl⟩ := Option.ite_none_right_eq_some.1 hl
        cases hl
        rw [heq]
        exact FileSystem.node_move hb hne hbare hout
    | openWrite p mode =>
      obtain ⟨hplace, heq⟩ := Option.ite_none_left_eq_some.1 hl
      cases heq
      have hnode := FileSystem.openWrite_kept hb fun hmode hp => hplace ⟨hmode, hp⟩
      simp only [World.answer, openPath]
      split <;> exact hnode
    | write fd pos data | appendTo fd data =>
      obtain ⟨hfile, heq⟩ := Option.ite_none_left_eq_some.1 hl
      cases heq
      simp only [World.answer]
      split
      · rename_i m _ hm _
        have hlm : l ≠ m := fun hlm => hfile (by rw [hm, hlm]; rfl)
        exact FileSystem.writeAt_kept hb hlm _ _
      · exact hb
    | chroot p =>
      cases hl
      simp only [World.answer]
      split <;> exact hb
    | _ => simp [Call.kind] at hkind
  · rw [World.answer_fs o hkind]
    cases o with
    | remove | rename | openWrite | write | appendTo => simp [Call.kind] at hkind
    | _ =>
      cases hl
      exact hb

def Trace.follow (t : Trace) (l : Location) : Option Location := t.foldlM (fun l c => c.2.2.follow c.1 l) l

section

variable {α : Type} {me : SessionId}

lemma follow_calls {p : Io α} {w : World} {l l' : Location} {b : Str}
    (hl : Trace.follow (p.calls (World.machine me) w) l = some l')
    (hb : w.fs.node l = some (.regular b)) : (p.exec (World.machine me) w).2.fs.node l' = some (.regular b) := by
  induction p generalizing w l with
  | ret a | throw e =>
    cases hl
    exact hb
  | call o k ih =>
    obtain ⟨m, hm, hl⟩ := Option.bind_eq_some_iff.1 hl
    exact ih _ hl (World.follow_node hm hb)

end

variable (env : Service)

/-- The sessions of a process, which take their commands in turns, the tree that these alone change, and
where a file is that one of them has stored. -/
structure Depositing where
  sessions : SessionId → Session
  fs : FileSystem
  place : Option Location

def Depositing.Stores (c : Str) (v : Depositing) : Prop :=
  (∀ i, (sessionSystem env i).Reach System.anyStep (v.sessions i)) ∧ ∃ i s a l,
    (sessionSystem env i).Reach System.anyStep s ∧ a.command.verb = .stor ∧ s.after env i a = some (v.sessions i) ∧
      s.transferModeZ = false ∧ s.resume_position_ = 0 ∧ (s.storage env i a).completed = true ∧
        (s.storage env i a).unwritten = false ∧
          ((s.storage env i a).peers.map fun p => p.chunks.flatten).flatten = c ∧
          v.fs = (s.storage env i a).fs ∧ v.place = some l ∧
            v.fs.locate (s.resolvePath a.world.fs a.command.argument) = .ok l ∧
            v.fs.node l ≠ some .other

def depositSystem (c : Str) : System Depositing (SessionId × Arrival) where
  init := Depositing.Stores env c
  next v x := ((v.sessions x.1).after env x.1 (x.2.on v.fs)).map fun s' =>
    ⟨Function.update v.sessions x.1 s', ((v.sessions x.1).storage env x.1 (x.2.on v.fs)).fs,
      v.place.bind ((v.sessions x.1).trace env x.1 (x.2.on v.fs)).follow⟩

variable {env}

structure Depositing.Sound (c : Str) (v : Depositing) : Prop where
  connected : ∀ i, (v.sessions i).socket_ ≠ none
  kept : ∀ l, v.place = some l → v.fs.node l = some (.regular c)

lemma Session.storage_exec {me : SessionId} {s : Session} {a : Arrival} :
    ((s.dispatch env a.line).exec (World.machine me) a.world).2.fs = (s.storage env me a).fs := by
  have hany : Ends (Storage.calls fun _ => True) (s.dispatch env a.line) (fun _ _ => True) (fun _ => True)
      (.of a.world) :=
    (Within.ends (within_any _) (J := fun _ => True) (fun _ _ _ _ => ⟨trivial, fun _ _ => trivial⟩) trivial).mono
      (fun _ _ _ => trivial) fun _ => id
  exact (wp_final (Storage.calls_describes _ me) hany (Storage.of_holds a.world)).1.1

lemma Depositing.sound_step {c : Str} {v v' : Depositing} {x : SessionId × Arrival} (hv : v.Sound c)
    (h : (depositSystem env c).next v x = some v') : v'.Sound c := by
  obtain ⟨s', hs', rfl⟩ := Option.map_eq_some_iff.1 h
  refine ⟨fun i => ?_, fun l' hl' => ?_⟩
  · by_cases hi : i = x.1
    · subst hi
      simp only [Function.update_self, (Session.after_frame hs').socket]
      exact hv.connected x.1
    · simp only [Function.update_of_ne hi]
      exact hv.connected i
  · obtain ⟨l, hl, hl'⟩ := Option.bind_eq_some_iff.1 hl'
    rw [← Session.storage_exec]
    exact follow_calls hl' (hv.kept l hl)

/-- What has been stored is fetched, by whichever session and after whatever commands of any of them, at the
place that these have moved the file to, unless one has removed it, replaced it or written to it. -/
theorem stored_files_are_fetched {c : Str} {v : Depositing} (h : (depositSystem env c).Reach System.anyStep v)
    {l : Location}
    (hl : v.place = some l) {i : SessionId} {a : Arrival} (hv : a.command.verb = .retr)
    (hopen : v.fs.openRead ((v.sessions i).resolvePath v.fs a.command.argument) = .ok l)
    (hmode : (v.sessions i).transferModeZ = false) (hstart : 0 ≤ (v.sessions i).resume_position_)
    (hdone : ((v.sessions i).storage env i (a.on v.fs)).completed = true)
    (hunread : ((v.sessions i).storage env i (a.on v.fs)).unread = false)
    (hunsent : ((v.sessions i).storage env i (a.on v.fs)).unsent = false) :
    ((v.sessions i).storage env i (a.on v.fs)).sent = c.drop (v.sessions i).resume_position_.toNat := by
  have hsound : v.Sound c := by
    refine h.invariant ?_ fun _ _ _ hv _ hn => Depositing.sound_step hv hn
    rintro v ⟨hreach, i, s, a, l, hs, hstor, hafter, hmode, hpos, hdone, hwritten, hc, hfs, hplace,
      hlocate, hother⟩
    refine ⟨fun j => Session.connected_of_reach (hreach j), fun l' hl' => ?_⟩
    obtain rfl : l = l' := Option.some.inj (hplace.symm.trans hl')
    rw [hfs] at hlocate hother ⊢
    rw [Session.stored_first (Session.connected_of_reach hs) hstor hafter hmode hpos hdone hwritten
      hlocate hother, hc]
  obtain ⟨m, b, hm, hb, hdelivers⟩ := (Session.retr_fetch (a := a.on v.fs) (hsound.connected i) hv).done hdone
  obtain rfl : m = l := Except.ok.inj (hm.symm.trans hopen)
  obtain rfl : b = c := by simpa using hb.symm.trans (hsound.kept m hl)
  exact hdelivers.whole hmode hstart hunread hunsent

namespace Depositing

def sampleStor : Arrival := Resuming.pieceLine "STOR f" "ab" false

def sampleSessions (s : Session) : SessionId → Session := fun i => if i = 0 then s else .opened 3 false false

def sampleRun (s : Session) : Option Depositing :=
  (s.after Attested.sampleService 0 sampleStor).bind fun s' =>
    (depositSystem Attested.sampleService (ascii "ab")).run System.anyStep
      ⟨sampleSessions s', (s.storage Attested.sampleService 0 sampleStor).fs, some [ascii "f"]⟩
      (["RNFR f", "RNTO g"].map fun line => (0, Resuming.pieceLine line [] false))

lemma sampleRun_reach {s : Session} (hs : (sessionSystem Attested.sampleService 0).Reach System.anyStep s)
    (hstored : let g := s.storage Attested.sampleService 0 sampleStor
      s.transferModeZ = false ∧ s.resume_position_ = 0 ∧ g.completed = true ∧ g.unwritten = false ∧
        (g.peers.map fun p => p.chunks.flatten).flatten = ascii "ab" ∧
          g.fs.locate (s.resolvePath sampleStor.world.fs sampleStor.command.argument) = .ok [ascii "f"] ∧
            g.fs.node [ascii "f"] ≠ some .other) {v : Depositing} (h : sampleRun s = some v) :
    (depositSystem Attested.sampleService (ascii "ab")).Reach System.anyStep v := by
  obtain ⟨s', hs', hrun⟩ := Option.bind_eq_some_iff.1 h
  obtain ⟨hmode, hpos, hdone, hwritten, hc, hlocate, hother⟩ := hstored
  refine .run (.init ⟨fun i => ?_, 0, s, sampleStor, _, hs,
    by decide, hs', hmode, hpos, hdone, hwritten, hc, rfl, rfl, hlocate,
    hother⟩) hrun
  change (sessionSystem Attested.sampleService i).Reach System.anyStep (if i = 0 then s' else
    .opened 3 false false)
  split
  · rename_i hi
    subst hi
    exact hs.step (l := sampleStor) trivial hs'
  · exact .init ⟨_, _, _, rfl⟩

end Depositing

theorem stored_files_are_fetched_renamed : ∃ v : Depositing, v.place = some [ascii "g"] ∧
    ((v.sessions 0).storage Attested.sampleService 0 ((Restarting.sampleLine "RETR g").on v.fs)).sent =
      ascii "ab" := by
  obtain ⟨s, hs, he⟩ := Option.map_eq_some_iff.1 (show
    ((sessionSystem Attested.sampleService 0).run System.anyStep
      (.opened 3 false false) Resuming.loginLines).map (fun s =>
      let g := s.storage Attested.sampleService 0 Depositing.sampleStor
      (decide (s.transferModeZ = false ∧ s.resume_position_ = 0 ∧ g.completed = true ∧ g.unwritten = false ∧
        (g.peers.map fun p => p.chunks.flatten).flatten = ascii "ab" ∧
          g.fs.locate (s.resolvePath Depositing.sampleStor.world.fs Depositing.sampleStor.command.argument) =
            .ok [ascii "f"] ∧
            g.fs.node [ascii "f"] ≠ some .other),
        (Depositing.sampleRun s).map fun v =>
          let g := (v.sessions 0).storage Attested.sampleService 0 ((Restarting.sampleLine "RETR g").on v.fs)
          decide (v.place = some [ascii "g"] ∧ v.fs.openRead ((v.sessions 0).resolvePath v.fs "g") =
            .ok [ascii "g"] ∧
            (v.sessions 0).transferModeZ = false ∧ (v.sessions 0).resume_position_ = 0 ∧ g.completed = true ∧
              g.unread = false ∧ g.unsent = false))) = some (true, some true) by decide +kernel)
  simp only [Prod.mk.injEq, decide_eq_true_eq] at he
  obtain ⟨v, hv, hok⟩ := Option.map_eq_some_iff.1 he.2
  obtain ⟨hplace, hopen, hmode, hpos, hdone, hunread, hunsent⟩ := of_decide_eq_true hok
  have hreach := Depositing.sampleRun_reach (.run (.init ⟨_, _, _, rfl⟩) hs) he.1 hv
  have hargument : (Restarting.sampleLine "RETR g").command.argument = ascii "g" := by decide
  have hfetched := stored_files_are_fetched hreach hplace (i := 0) (a :=
    Restarting.sampleLine "RETR g") (by decide)
    (by rw [hargument]; exact hopen) hmode hpos.ge hdone hunread hunsent
  rw [hpos] at hfetched
  exact ⟨v, hplace, hfetched⟩

end SimpleSftpd
