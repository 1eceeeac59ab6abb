import SimpleSftpd.Core.TraceAccess
import SimpleSftpd.Sessions.VerifiedUser

namespace SimpleSftpd

open Cxx Interaction Prog

/-- The session, in a tree and with a command, to which the directory it reads may be listed. LIST
asks for the permission on the current directory, STAT for none. -/
def Session.ListsPermitted (s : Session) (fs : FileSystem) (c : Command) : Prop :=
  s.authenticated_ = true → s.validatePath fs (s.resolvePath fs c.argument) = true →
    fs.status (s.resolvePath fs c.argument) = .ok .directory →
    (c.verb = .list → s.hasPermission fs "list" [] = true → s.data.CanOpen →
      s.allows fs "list" (s.resolvePath fs c.argument) = true) ∧
    (c.verb = .stat → c.argument ≠ [] → s.allows fs "list" (s.resolvePath fs c.argument) = true)

variable {env : Service} {me : SessionId} {s : Session} {fs : FileSystem} {w w' : World} {α β : Type}

namespace Session

lemma Access.listing_inv {c : Command} {fs' : FileSystem} {d : Str}
    (h : s.Access env fs c fs' (.readDirectory d)) : fs' = fs ∧ ∃ a, s.Vets fs c a ∧
      c.verb ∈ [.list, .mlsd, .stat] ∧ fs.status (s.resolvePath fs a) = .ok .directory ∧
        (c.verb = .stat → a ≠ []) ∧ (c.verb ≠ .stat → s.data.CanOpen) ∧ d = s.resolvePath fs a := by
  cases h with
  | path hvets hact =>
    exfalso
    revert hact
    cases c.verb <;> simp [Verb.acts]
  | listing hvets hverb hdir ha hopen => exact ⟨rfl, _, hvets, hverb, hdir, ha, hopen, rfl⟩
  | entry hvets hname hq hact => simp at hact
  | size hact => simp at hact
  | store haccess => cases haccess
  | storeUnique _ _ haccess => cases haccess
  | confine hchroot hact => simp at hact

lemma ListsPermitted.allows {c : Command} {fs' : FileSystem} {d : Str} (h : s.ListsPermitted fs c)
    (ha : c.verb.beforeLogin = true ∨ s.authenticated_ = true)
    (hread : s.Access env fs c fs' (.readDirectory d)) : s.allows fs' "list" d = true := by
  obtain ⟨rfl, a, hvets, hverb, hdir, harg, hopen, rfl⟩ := hread.listing_inv
  rcases c with ⟨verb, argument⟩
  simp only [List.mem_cons, List.not_mem_nil, or_false] at hverb
  rcases hverb with rfl | rfl | rfl <;> obtain rfl : argument = a := Option.some.inj hvets.named
  · have ha : s.authenticated_ = true := ha.resolve_left Bool.false_ne_true
    exact (h ha hvets.valid hdir).1 rfl (hvets.permitted _ _ rfl) (hopen nofun)
  · exact allows_of_hasPermission (hvets.permitted _ _ rfl)
  · have ha : s.authenticated_ = true := ha.resolve_left Bool.false_ne_true
    exact (h ha hvets.valid hdir).2 rfl (harg rfl)

end Session

section Reaching

lemma mem_calls_bind {p : Io α} {f : α → Io β} {c : World × Σ β, Call β} {a : α}
    (h : p.exec (World.machine me) w = (.ok a, w')) (hc : c ∈ (f a).calls (World.machine me) w') :
    c ∈ (p >>= f).calls (World.machine me) w := by
  rw [calls_bind, h]
  exact List.mem_append_right _ hc

def World.Favourable (w : World) : Prop := ∀ {β : Type} (n : ℕ) (c : Call β), w.choose n c = c.favourable

lemma World.Favourable.calm (hw : w.Favourable) (h : w.Calm w') : w'.Favourable := by
  intro β n c
  rw [h.choose]
  exact hw n c

variable (me) in
lemma accept_exec (hw : w.Favourable) {d : DataConnection} (hd : d.CanOpen) : ∃ c d' w',
    d.acceptDataConnection.exec (World.machine me) w = (.ok (some c, d'), w') ∧ w'.fs = w.fs := by
  have hsocket : World.machine me w .socket = (some (w.freshFd 0), (w.openFd 0 ⟨me, .socket⟩).tick) := by
    change w.openSocket me (w.choose w.time .socket) = _
    rw [hw]
    rfl
  have hconnect (v : World) (hv : v.Favourable) (fd : Fd) (ip : Str) (port : Int) :
      World.machine me v (.connect fd ip port) = (some .silent, v.tick) := by
    change (v.choose v.time _, v.tick) = _
    rw [hv]
    rfl
  have hselect (fd : Fd) : World.machine me w (.select fd) = (true, w.tick) := by
    change (w.choose w.time _, w.tick) = _
    rw [hw]
    rfl
  have haccept (fd : Fd) : World.machine me w.tick (.accept fd) =
      (some (w.tick.freshFd 0, .silent), (w.tick.openFd 0 ⟨me, .socket⟩).tick) := by
    have hchosen : w.tick.choose w.tick.time (.accept fd) = some (0, .silent) := hw _ _
    simp only [World.machine, World.answer, hchosen]
    rfl
  unfold DataConnection.CanOpen at hd
  unfold DataConnection.acceptDataConnection DataConnection.connectActiveDataSocket
  split at hd
  · rename_i hactive
    obtain ⟨hip, hport, hpton⟩ := hd
    obtain ⟨octets, hpton⟩ := Option.isSome_iff_exists.1 hpton
    have hno : ¬(d.active_mode_ip_ = [] ∨ d.active_mode_port_ ≤ 0) := by
      rw [not_or]
      exact ⟨hip, by omega⟩
    rw [if_pos hactive, if_neg hno, exec_perform_bind, hsocket]
    dsimp only
    rw [hpton]
    dsimp only
    rw [exec_perform_bind, hconnect (w.openFd 0 ⟨me, .socket⟩).tick fun n c => hw n c]
    exact ⟨_, _, _, rfl, rfl⟩
  · rename_i hactive
    obtain ⟨listener, hl⟩ := Option.isSome_iff_exists.1 hd
    rw [if_neg hactive, hl]
    dsimp only
    rw [exec_perform_bind, hselect]
    simp only [Bool.not_true, Bool.false_eq_true, ↓reduceIte]
    rw [exec_perform_bind, haccept]
    exact ⟨_, _, _, rfl, rfl⟩

end Reaching

variable (me s) in
lemma sendResponse_exec (r : Reply) (w : World) : ∃ w',
    (s.sendResponse r).exec (World.machine me) w = (.ok (), w') ∧ w.Calm w' := by
  have hk : (s.sendResponse r).Within (Kinds [.reply]) fun _ => True := by simp
  refine ⟨((s.sendResponse r).exec (World.machine me) w).2, ?_, calm_of_within me hk (by simp [World.calmKinds]) w⟩
  unfold Session.sendResponse
  split
  · rfl
  · simp only [exec_perform_bind, exec_ite]
    split <;> rfl

lemma mem_calls_known {o : Call β} {f : β → Io α} {c : World × Σ β, Call β} {r : β}
    (h : World.machine me w o = (r, w)) (hc : c ∈ (f r).calls (World.machine me) w) :
    c ∈ (perform o >>= f).calls (World.machine me) w := by
  rw [calls_perform_bind, h]
  exact List.mem_cons_of_mem _ hc

variable (me) in
lemma list_reads {argument : Str} (hw : w.Favourable) (hlist : s.hasPermission w.fs "list" [] = true)
    (hv : s.validatePath w.fs (s.resolvePath w.fs argument) = true)
    (hd : w.fs.status (s.resolvePath w.fs argument) = .ok .directory) (hopen : s.data.CanOpen) :
    ∃ v : World, v.fs = w.fs ∧ (v, ⟨_, .readDirectory (s.resolvePath w.fs argument)⟩) ∈
      (s.handleLIST argument).calls (World.machine me) w := by
  obtain ⟨w', hreply, hcalm⟩ := s.reply_exec me 150 "Opening ASCII mode data connection for file list" w
  obtain ⟨⟨fd, peer⟩, d, v, haccept, hfs⟩ := accept_exec me (hw.calm hcalm) hopen
  have hv_fs : v.fs = w.fs := hfs.trans hcalm.fs
  refine ⟨v, hv_fs, ?_⟩
  unfold Session.handleLIST
  refine mem_calls_known (r := w.fs) rfl ?_
  simp only [Session.resolvePath_named, hlist, hv, Bool.not_true, Bool.false_eq_true, ↓reduceIte]
  refine mem_calls_known (r := .ok .directory) (by rw [← hd]) ?_
  simp only [orThrow, pure_bind', reduceCtorEq, ↓reduceIte]
  refine mem_calls_bind hreply (mem_calls_bind haccept ?_)
  refine mem_calls_known (r := .ok .directory) (by rw [← hd, ← hv_fs]) ?_
  simp only [pure_bind', ↓reduceIte, Session.listDirectory, bind_assoc']
  exact List.mem_cons_self

variable (me) in
lemma stat_reads {argument : Str} (ha : argument ≠ [])
    (hv : s.validatePath w.fs (s.resolvePath w.fs argument) = true)
    (hd : w.fs.status (s.resolvePath w.fs argument) = .ok .directory) :
    ∃ v : World, v.fs = w.fs ∧ (v, ⟨_, .readDirectory (s.resolvePath w.fs argument)⟩) ∈
      (s.handleSTAT argument).calls (World.machine me) w := by
  obtain ⟨v, hreply, hcalm⟩ := sendResponse_exec me s (.opening 213 ("Status of " ++ argument)) w
  refine ⟨v, hcalm.fs, ?_⟩
  unfold Session.handleSTAT
  rw [if_neg ha]
  refine mem_calls_known (r := w.fs) rfl ?_
  simp only [hv, Bool.not_true, Bool.false_eq_true, ↓reduceIte]
  refine mem_calls_known (r := .ok .directory) (by rw [← hd]) ?_
  refine mem_calls_bind hreply ?_
  refine mem_calls_known (r := .ok .directory) (by rw [← hd, ← hcalm.fs]) ?_
  exact List.mem_cons_self

variable (env me s fs)

theorem listings_are_permitted (line : Str) :
    (∀ w : World, w.fs = fs → ∀ c ∈ s.trace env me ⟨w, line⟩, ∀ d, c.2.2.act? = some (.readDirectory d) →
      s.allows c.1.fs "list" d = true) ↔ s.ListsPermitted fs (Command.parse line) := by
  constructor
  · intro h ha hv hd
    have hhandle : s.dispatch env line = s.handle env (.parse line) := by
      rcases Session.dispatch_cases env s line with ⟨_, hd⟩ | ⟨_, hna, _⟩
      · exact hd
      · exact absurd (ha.symm.trans hna) (by decide)
    have hread (v : World) (hfs : v.fs = fs) (hc :
      (v, ⟨_, .readDirectory (s.resolvePath fs (Command.parse line).argument)⟩) ∈
        (s.handle env (.parse line)).calls (World.machine me) (World.favourable fs)) :
        s.allows fs "list" (s.resolvePath fs (Command.parse line).argument) = true := by
      have := h (World.favourable fs) rfl _ (by rw [Session.trace, hhandle]; exact hc) _ rfl
      rwa [hfs] at this
    generalize Command.parse line = command at *
    rcases command with ⟨verb, argument⟩
    refine ⟨?_, ?_⟩
    · rintro rfl hlist hopen
      obtain ⟨v, hfs, hc⟩ := list_reads me (w := World.favourable fs) (fun _ _ => rfl) hlist hv hd hopen
      exact hread v hfs (by rw [Session.handle, calls_bind_pure]; exact hc)
    · rintro rfl harg
      obtain ⟨v, hfs, hc⟩ := stat_reads me (w := World.favourable fs) harg hv hd
      exact hread v hfs (by rw [Session.handle, calls_bind_pure]; exact hc)
  · rintro h w rfl c hc d hd
    exact h.allows (Session.trace_logged hc (Call.kind_of_act hd)) (Session.trace_access hc hd)

theorem listings_are_not_permitted :
    let env := Service.standard [⟨"u", "p", "/", ["list:/a"], [], false, 0, 0⟩] []
    let w := World.favourable ⟨[(["a"], .directory), (["b"], .directory), (["b", "f"], .regular [])], [],
      fun _ _ _ => none, []⟩
    ∃ v : Attested, (attestedSystem env 0).Reach System.anyStep v ∧
      (∃ c ∈ v.session.trace env 0 ⟨w, "LIST /b"⟩, c.2.2.act? = some (.readDirectory "/b") ∧
        v.session.allows c.1.fs "list" "/b" = false) ∧
      ∃ c ∈ v.session.trace env 0 ⟨w, "STAT /b"⟩, c.2.2.act? = some (.readDirectory "/b") ∧
        v.session.allows c.1.fs "list" "/b" = false := by
  intro env w
  obtain ⟨v, hv, he⟩ := Option.map_eq_some_iff.1 (show
    ((attestedSystem env 0).run System.anyStep ⟨.opened 3 false false, none⟩
      (List.map (fun line => ⟨w, ascii line⟩) ["USER u", "PASS p", "CWD /a", "PORT 127,0,0,1,4,28"])).map
      (fun v => (
        (v.session.trace env 0 ⟨w, "LIST /b"⟩).any fun c =>
          c.2.2.act? = some (.readDirectory "/b") ∧ v.session.allows c.1.fs "list" "/b" = false,
        (v.session.trace env 0 ⟨w, "STAT /b"⟩).any fun c =>
          c.2.2.act? = some (.readDirectory "/b") ∧
            v.session.allows c.1.fs "list" "/b" = false)) = some (true, true)
      by decide +kernel)
  obtain ⟨c, hc, hlist⟩ := List.any_eq_true.1 (congrArg Prod.fst he)
  obtain ⟨c', hc', hstat⟩ := List.any_eq_true.1 (congrArg Prod.snd he)
  exact ⟨v, .run (.init ⟨⟨_, _, _, rfl⟩, rfl⟩) hv, ⟨c, hc, of_decide_eq_true hlist⟩,
    c', hc', of_decide_eq_true hstat⟩

end SimpleSftpd
