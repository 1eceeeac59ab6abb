import SimpleSftpd.Sessions.Restarts

namespace SimpleSftpd

open Cxx Interaction Prog Ledger

variable (env : Service) (me : SessionId)

namespace Session

variable (s : Session)

def Completes (g : Ledger) : Verb → Prop
  | .retr => g.Retrieved env.zlib s.transferModeZ s.resume_position_
  | .list | .mlsd => g.accepted = g.offered
  | .stor | .stou | .appe => g.Stored env.zlib s.transferModeZ
  | _ => True

def Unhindered (g : Ledger) : Verb → Prop
  | .retr => g.ReadsThrough env.zlib s.transferModeZ
  | .list | .mlsd => g.offered = [] ∨ g.short = false
  | .stor | .stou | .appe => g.WritesThrough env.zlib s.transferModeZ
  | _ => True

variable {env me s} {s' : Session} {w : World}

lemma listed_logged (hs : s.socket_ ≠ none) (data_fd : Fd) (listing : Str) (d : DataConnection) :
    Meets transfers (do
        let _ ← perform (.send data_fd listing)
        perform (.close data_fd)
        s.reply 226 "Transfer complete"
        return d : Io DataConnection)
      (fun _ g => (g.completed = true → g.accepted = g.offered) ↔ g.offered = [] ∨ g.short = false) {} := by
  refine meets_bind.2 ((meets_logged _).2 fun n hn => ?_)
  refine meets_bind.2 ((meets_logged _).2 fun _ _ => ?_)
  refine meets_answer_return hs _ _ ?_
  change n ≤ listing.length at hn
  change (true = true → listing.take n.toNat = listing) ↔ listing = [] ∨ decide (n < listing.length) = false
  rw [forall_prop_of_true rfl, List.take_eq_self_iff, decide_eq_false_iff_not, ← List.length_eq_zero_iff]
  omega

lemma handleLIST_logged (hs : s.socket_ ≠ none) (path : Str) : Meets transfers (s.handleLIST path)
    (fun _ g => (g.completed = true → g.accepted = g.offered) ↔ g.offered = [] ∨ g.short = false) {} := by
  have hidle : ((({} : Ledger).completed = true → ({} : Ledger).accepted = ({} : Ledger).offered) ↔
      ({} : Ledger).offered = [] ∨ ({} : Ledger).short = false) := iff_of_true (fun _ => rfl) (.inl rfl)
  refine meets_bind.2 ((meets_logged _).2 fun fs _ => ?_)
  refine meets_ite.2 ⟨fun _ => meets_answer_return hs _ _ hidle, fun _ => ?_⟩
  refine meets_ite.2 ⟨fun _ => meets_answer_return hs _ _ hidle, fun _ => ?_⟩
  refine meets_bind.2 ((meets_logged _).2 fun r _ => ?_)
  refine meets_bind.2 ((Ledger.meets_orThrow _).2 fun found _ => ?_)
  refine meets_ite.2 ⟨fun _ => meets_answer_return hs _ _ hidle, fun _ => ?_⟩
  refine meets_bind.2 (meets_answer hs _ _ (meets_bind.2 ?_))
  refine meets_unlogged s.data.acceptDataConnection_unlogged fun r _ => ?_
  obtain ⟨_ | ⟨data_fd, peer⟩, d⟩ := r
  · exact meets_answer_return hs _ _ hidle
  refine meets_bind.2 ((meets_logged _).2 fun r _ => ?_)
  refine meets_bind.2 ((Ledger.meets_orThrow _).2 fun kind _ => ?_)
  have hlisting (list_path : Str) : (if kind = .directory then listDirectory list_path
      else do
        let size ← orThrow (← perform (.fileSize list_path))
        return some ("-rw-rw-rw- 1 owner group " ++ decimal size ++ " " ++ Path.filename list_path ++ "\r\n") :
      Io (Option Str)).Within (Kinds [.query]) fun _ => True := by
    refine within_ite.2 ⟨fun _ => listDirectory_within (by simp) _, fun _ => ?_⟩
    simp [within_bind, Call.kind]
  refine meets_bind.2 (meets_silent (hlisting _) (by simp [Ledger.quietKinds]) fun listing _ => ?_)
  cases listing with
  | none => exact meets_bind.2 ((meets_logged _).2 fun _ _ => meets_answer_return hs _ _ hidle)
  | some listing => exact listed_logged hs data_fd listing d

lemma handleMLSD_logged (hs : s.socket_ ≠ none) (path : Str) : Meets transfers (s.handleMLSD path)
    (fun _ g => (g.completed = true → g.accepted = g.offered) ↔ g.offered = [] ∨ g.short = false) {} := by
  have hidle : ((({} : Ledger).completed = true → ({} : Ledger).accepted = ({} : Ledger).offered) ↔
      ({} : Ledger).offered = [] ∨ ({} : Ledger).short = false) := iff_of_true (fun _ => rfl) (.inl rfl)
  refine meets_bind.2 ((meets_logged _).2 fun fs _ => ?_)
  refine meets_ite.2 ⟨fun _ => meets_answer_return hs _ _ hidle, fun _ => ?_⟩
  refine meets_ite.2 ⟨fun _ => meets_answer_return hs _ _ hidle, fun _ => ?_⟩
  refine meets_bind.2 ((meets_logged _).2 fun found _ => ?_)
  refine meets_ite.2 ⟨fun _ => meets_answer_return hs _ _ hidle, fun _ => ?_⟩
  refine meets_bind.2 (meets_answer hs _ _ (meets_bind.2 ?_))
  refine meets_unlogged s.data.acceptDataConnection_unlogged fun r _ => ?_
  obtain ⟨_ | ⟨data_fd, peer⟩, d⟩ := r
  · exact meets_answer_return hs _ _ hidle
  refine meets_bind.2 ((meets_logged _).2 fun r _ => meets_bind.2 ?_)
  obtain ⟨names, failure⟩ := r
  have hlisting (dir : Str) : (s.machineEntries dir names).Within (Kinds [.query]) fun _ => True :=
    machineEntries_within (List.mem_singleton_self _) _ _
  refine meets_silent (hlisting _) (by simp [Ledger.quietKinds]) fun listing _ => ?_
  cases failure with
  | some e => exact meets_bind.2 ((meets_logged _).2 fun _ _ => meets_answer_return hs _ _ hidle)
  | none => exact listed_logged hs data_fd listing d

lemma handle_completes (hs : s.socket_ ≠ none) (c : Command) :
    Leads transfers (World.machine me) (s.handle env c) (fun _ g =>
      (g.completed = true → s.Completes env g c.verb) ↔ s.Unhindered env g c.verb) {} w := by
  have htrue {v : Verb} {a : Str} (h : ∀ g : Ledger, s.Completes env g v ∧ s.Unhindered env g v) :
      Leads transfers (World.machine me) (s.handle env ⟨v, a⟩) (fun _ g =>
        (g.completed = true → s.Completes env g v) ↔ s.Unhindered env g v) {} w :=
    fun _ _ _ => iff_of_true (fun _ => (h _).1) (h _).2
  rcases c with ⟨v, a⟩
  cases v with
  | retr => exact (handleRETR_logged hs a).mono fun _ _ h => h.complete
  | stor => exact (handleSTOR_logged hs a).mono fun _ _ h => h.complete
  | stou => exact (handleSTOU_logged hs a).mono fun _ _ h => h.complete
  | appe => exact (handleAPPE_logged env hs a).mono fun _ _ h => h.complete
  | list => exact leads_meets (meets_bind.2 ((handleLIST_logged hs a).mono fun _ _ h => (meets_pure _).2 h)) w
  | mlsd => exact leads_meets (meets_bind.2 ((handleMLSD_logged hs a).mono fun _ _ h => (meets_pure _).2 h)) w
  | _ => exact htrue fun _ => ⟨trivial, trivial⟩

lemma next_completed {β : Type} (g : Ledger) {o : Call β} (ho : o.reply? = none) (r : β) :
    (g.next o r).completed = g.completed := by
  cases o with
  | sendControl => cases ho
  | fstat => rcases r with _ | ⟨_ | _, _⟩ <;> rfl
  | openWrite | read => cases r <;> rfl
  | lseek | write | appendTo => cases r <;> rfl
  | recv fd result => rcases result with _ | _ | _ <;> rfl
  | _ => rfl

lemma ledger_completed (t : Trace) : ∀ g : Ledger,
    (transfers.final (World.machine me) g t).completed = (g.completed || t.answers 226) := by
  induction t with
  | nil => exact fun g => (Bool.or_false _).symm
  | cons c t ih =>
    intro g
    change (transfers.final (World.machine me) (g.next c.2.2 _) t).completed = _
    rw [ih]
    obtain ⟨v, β, c⟩ := c
    cases hc : c.reply? with
    | none =>
      rw [next_completed g hc]
      simp [Trace.answers, Trace.replies, hc]
    | some line =>
      cases c with
      | sendControl tls line =>
        cases line with
        | final code text => simp [next, Trace.answers, Trace.replies, Call.reply?, Bool.or_assoc]
        | opening code text => simp [next, Trace.answers, Trace.replies, Call.reply?]
        | inner text => simp [next, Trace.answers, Trace.replies, Call.reply?]
      | _ => cases hc

end Session

theorem completed_is_complete {s : Session} (h : (sessionSystem env me).Reach System.anyStep s) {a : Arrival}
    {s' : Session} (hs' : s.after env me a = some s') :
    ((s.trace env me a).answers 226 = true → s.Completes env (s.ledger env me a) a.command.verb) ↔
      s.Unhindered env (s.ledger env me a) a.command.verb := by
  have hs := Session.connected_of_reach h
  have hcompleted : (s.ledger env me a).completed = (s.trace env me a).answers 226 :=
    Session.ledger_completed (s.trace env me a) {}
  rw [← hcompleted]
  by_cases hlogin : a.command.verb.beforeLogin = true ∨ s.authenticated_ = true
  · exact Session.leads_after (P := fun _ g =>
      (g.completed = true → s.Completes env g a.command.verb) ↔ s.Unhindered env g a.command.verb) hs' hlogin
        (Session.handle_completes hs a.command)
  · rw [not_or, Bool.not_eq_true, Bool.not_eq_true] at hlogin
    rw [(Session.after_refused hs hlogin.1 hlogin.2 hs').2]
    refine iff_of_true (fun h => by cases h) ?_
    cases a.command.verb with
    | retr => exact Session.readsThrough_of_idle rfl rfl fun _ => rfl
    | list | mlsd => exact .inl rfl
    | stor | stou | appe => exact Session.writesThrough_of_idle rfl rfl
    | _ => trivial

namespace Session

instance (s : Session) (g : Ledger) (v : Verb) : Decidable (s.Unhindered env g v) := by
  unfold Unhindered Ledger.ReadsThrough Ledger.WritesThrough
  split <;> infer_instance

def transferLines : List Arrival := ["USER u", "PASS p", "PORT 127,0,0,1,4,28"].map Restarting.sampleLine

def brokenLine (line : String) : Arrival where
  world := .start ⟨[(["f"], .regular "abc")], [], fun _ _ _ => none, []⟩ fun _ c => match c with
    | .send _ _ => -1
    | .sendfile _ _ _ _ => -1
    | .sendMapped _ _ _ _ => -1
    | .connect _ _ _ => some ⟨["x"], false, by decide⟩
    | c => c.favourable
  line := ascii line

end Session

theorem completed_is_complete_retr : ∃ s : Session,
    (s.trace Attested.sampleService 0 (Restarting.sampleLine "RETR f")).answers 226 = true ∧
      ∀ i, 0 ≤ i → i < 3 → (s.ledger Attested.sampleService 0 (Restarting.sampleLine "RETR f")).Covers i := by
  obtain ⟨s, hs, he⟩ := Option.map_eq_some_iff.1 (show
    ((sessionSystem Attested.sampleService 0).run System.anyStep (.opened 3 false false)
      Session.transferLines).map (fun s =>
        let g := s.ledger Attested.sampleService 0 (Restarting.sampleLine "RETR f")
        ((s.trace Attested.sampleService 0 (Restarting.sampleLine "RETR f")).answers 226,
          (s.after Attested.sampleService 0 (Restarting.sampleLine "RETR f")).isSome,
          decide (s.Unhindered Attested.sampleService g .retr), decide (s.transferModeZ = false),
          decide (s.resume_position_ = 0), decide (g.size = 3))) = some (true, true, true, true, true, true)
      by decide +kernel)
  simp only [Prod.mk.injEq, decide_eq_true_eq] at he
  obtain ⟨h226, hreturns, hunhindered, hplain, hstart, hsize⟩ := he
  obtain ⟨s', hs'⟩ := Option.isSome_iff_exists.1 hreturns
  have hcomplete := (completed_is_complete Attested.sampleService 0 (.run (.init ⟨_, _, _, rfl⟩) hs) hs').2
    hunhindered h226
  refine ⟨s, h226, fun i hlow hhigh => ?_⟩
  simp only [show (Restarting.sampleLine "RETR f").command.verb = .retr by decide, Session.Completes,
    Ledger.Retrieved, hplain, Bool.false_eq_true, if_false, hstart, hsize] at hcomplete
  exact hcomplete i hlow hlow hhigh

namespace Session

def brokenReplies (s : Session) (line : String) : Bool :=
  (s.trace Attested.sampleService 0 (brokenLine line)).answers 226

def brokenLedger (s : Session) (line : String) : Ledger := s.ledger Attested.sampleService 0 (brokenLine line)

end Session

theorem completed_is_not_complete : ∃ s : Session,
    (sessionSystem Attested.sampleService 0).Reach System.anyStep s ∧
      (s.brokenReplies "LIST" = true ∧ (s.brokenLedger "LIST").offered ≠ [] ∧
        (s.brokenLedger "LIST").accepted = []) ∧
      (s.brokenReplies "RETR f" = true ∧ (s.brokenLedger "RETR f").size = 3 ∧
        ∀ r ∈ (s.brokenLedger "RETR f").sent, r.2 ≤ r.1) ∧
      (s.brokenReplies "STOR g" = true ∧ (s.brokenLedger "STOR g").eof = false) := by
  obtain ⟨s, hs, he⟩ := Option.map_eq_some_iff.1 (show
    ((sessionSystem Attested.sampleService 0).run System.anyStep (.opened 3 false false)
      Session.transferLines).map (fun s =>
        (decide (s.brokenReplies "LIST" = true ∧ (s.brokenLedger "LIST").offered ≠ [] ∧
            (s.brokenLedger "LIST").accepted = []),
          decide (s.brokenReplies "RETR f" = true ∧ (s.brokenLedger "RETR f").size = 3 ∧
            ∀ r ∈ (s.brokenLedger "RETR f").sent, r.2 ≤ r.1),
          decide (s.brokenReplies "STOR g" = true ∧ (s.brokenLedger "STOR g").eof = false))) =
        some (true, true, true) by decide +kernel)
  simp only [Prod.mk.injEq] at he
  exact ⟨s, .run (.init ⟨_, _, _, rfl⟩) hs, of_decide_eq_true he.1, of_decide_eq_true he.2.1,
    of_decide_eq_true he.2.2⟩

end SimpleSftpd
