import SimpleSftpd.Core.HandleClient
import SimpleSftpd.Core.SpokenReplies
import SimpleSftpd.Cxx.Fields
import SimpleSftpd.Sessions.Serving

/-! The control connections of any number of sessions: replies that come apart again at their line feeds,
and no reply in the clear after a handshake. -/

namespace SimpleSftpd

open Cxx Interaction Prog

def inLines (lines : List Str) : Str := lines.flatMap (· ++ ascii "\r\n")

lemma tokens_chomp {lines : List Str} (h : ∀ line ∈ lines, 10 ∉ line) :
    (tokens 10 (inLines lines)).map chomp = lines := by
  have hlines : inLines lines = (lines.map (· ++ [13])).flatMap (· ++ [10]) := by
    rw [inLines, List.flatMap_map]
    exact List.flatMap_congr fun line _ => (List.append_assoc line [13] [10]).symm
  rw [hlines, tokens_lines, List.map_map]
  · conv_rhs => rw [← List.map_id lines]
    refine List.map_congr_left fun line _ => ?_
    simp [chomp]
  · intro line hline
    obtain ⟨line, hmem, rfl⟩ := List.mem_map.1 hline
    simpa using h line hmem

namespace Said

def reply? : Said → Option Reply
  | line _ r => some r
  | secured => none

def replies (g : List Said) : List Reply := g.reverse.filterMap reply?

def wire (g : List Said) : Str := (replies g).flatMap fun r => r.render ++ "\r\n"

variable {lf : Prop} {g later earlier : List Said} {tls : Bool} {r : Reply}

lemma Orderly.lines (h : Orderly lf g) (hr : .line tls r ∈ g) : Clean lf r.render := by
  induction g with
  | nil => cases hr
  | cons x g ih =>
    cases x with
    | line tls' r' =>
      obtain ⟨_, hclean, hg⟩ := h
      rcases List.mem_cons.1 hr with heq | hr
      · cases heq
        exact hclean
      · exact ih hg hr
    | secured => exact ih h.2 ((List.mem_cons.1 hr).resolve_left (by simp))

lemma Orderly.plain (h : Orderly lf g) (hg : .secured ∉ g) (hr : .line tls r ∈ g) : tls = false := by
  induction g with
  | nil => cases hr
  | cons x g ih =>
    obtain ⟨hx, hrest⟩ := not_or.1 (mt List.mem_cons.2 hg)
    cases x with
    | line tls' r' =>
      rcases List.mem_cons.1 hr with heq | hr
      · cases heq
        exact Bool.eq_false_iff.2 (mt h.1.1 hrest)
      · exact ih h.2.2 hrest hr
    | secured => exact absurd rfl hx

lemma Orderly.parted (h : Orderly lf (later ++ .secured :: earlier)) :
    (∀ tls r, .line tls r ∈ later → tls = true) ∧ (∀ tls r, .line tls r ∈ earlier → tls = false) ∧
      .secured ∉ later ++ earlier := by
  induction later with
  | nil => exact ⟨fun _ _ hr => (by cases hr), fun tls r hr => h.2.plain h.1 hr, h.1⟩
  | cons x later ih =>
    cases x with
    | line tls' r' =>
      obtain ⟨hlater, hearlier, honce⟩ := ih h.2.2
      refine ⟨fun tls r hr => ?_, hearlier, ?_⟩
      · rcases List.mem_cons.1 hr with heq | hr
        · cases heq
          exact h.1.2 (by simp)
        · exact hlater tls r hr
      · simpa using honce
    | secured => exact absurd (by simp) h.1

lemma Orderly.cut (h : Orderly True g) : (tokens 10 (wire g)).map chomp = (replies g).map Reply.render := by
  have hclean : ∀ r ∈ replies g, 10 ∉ r.render := by
    intro r hr
    obtain ⟨x, hx, hreply⟩ := List.mem_filterMap.1 hr
    cases x with
    | line tls r' =>
      cases hreply
      exact h.lines (List.mem_reverse.1 hx) trivial
    | secured => cases hreply
  have hwire : wire g = inLines ((replies g).map Reply.render) := by
    rw [wire, inLines, List.flatMap_map]
  rw [hwire, tokens_chomp (List.forall_mem_map.2 hclean)]

end Said

def speakers (env : Service) : Threads Call Abort Session Accepted Turn (List Said) World :=
  serving env (fun _ => []) (fun g _ _ => g) (fun g o r => Said.next g o r) fun g => g

section

variable {lf : Prop} {env : Service}

lemma opened_singleLine (fd : Fd) (context ssl : Bool) : (Session.opened fd context ssl).SingleLine lf := by
  have hempty : Clean lf [] := clean_const List.not_mem_nil
  have hdirectory : Clean lf "/" := clean_const (by decide)
  have hlevel : Clean lf "C" := clean_const (by decide)
  have htype : Clean lf "A" := clean_const (by decide)
  have hmode : Clean lf "S" := clean_const (by decide)
  refine ⟨hempty, hdirectory, hlevel, htype, hmode, hempty, hempty, fun _ h => (by cases h), fun _ h => ?_⟩
  exact (by cases h)

lemma opened_matches (fd : Fd) (context ssl : Bool) : (Session.opened fd context ssl).Matches [] :=
  ⟨iff_of_false Bool.noConfusion List.not_mem_nil, .inr (iff_of_false Bool.noConfusion List.not_mem_nil)⟩

lemma welcome_speaks {s : Session} (hs : s.SingleLine lf) {g : List Said} (hg : s.Matches g) :
    Session.Speaking lf s.welcome g :=
  Session.Speaking.of_goes (speaks_return hs (clean_const (by decide)) (Session.Goes.refl hs)) hg

lemma take_speaks {s : Session} (hs : s.SingleLine lf) (henv : env.SingleLine lf) (t : Turn) {g : List Said}
    (hg : s.Matches g) :
    Session.Speaking lf (s.take env t) g := by
  cases t with
  | line line => exact Session.dispatch_speaks hs henv line hg
  | stop => exact Session.stop_speaks hs hg

lemma speakers_keep (henv : env.SingleLine lf) {start : Serving (List Said) → Prop}
    (hstart : ∀ st, start st → st.Unopened [] ∧ st.world.SingleLine lf) {st : Serving (List Said)}
    (h : ((speakers env).system start).Reach System.anyStep st) :
    st.Keeps (speaking lf) (fun _ g w => Said.Orderly lf g ∧ w.SingleLine lf) fun _ s g => s.SingleLine lf ∧
      s.Matches g := by
  refine Pool.keeps_of_reach ?_ ?_ ?_ ?_ ?_ (fun _ _ _ => rfl) h
  · intro st hst i
    obtain ⟨hnone, hworld⟩ := hstart st hst
    rw [(hnone i).1, (hnone i).2]
    exact ⟨⟨trivial, hworld⟩, by simp⟩
  · intro st i e hst _
    have hworld : ((st.world.openSocket i (some e.number)).2).SingleLine lf := by
      have h := (hst i).1.2
      exact ⟨h.fs, h.times, h.homes⟩
    refine ⟨⟨trivial, hworld⟩, ?_, fun j _ => ⟨(hst j).1.1, hworld⟩⟩
    exact welcome_speaks (opened_singleLine _ _ _) (opened_matches _ _ _)
  · intro st i s t hst hP _ _
    exact ⟨(hst i).1, take_speaks hP.1 henv t hP.2⟩
  · intro β st i o hst _ _ hpre
    have hanswer : Said.given lf o (World.answer i st.world o).1 ∧ (World.answer i st.world o).2.SingleLine lf :=
      (hst i).1.2.answer o hpre
    obtain ⟨hpost, hworld⟩ := hanswer
    exact ⟨hpost, ⟨(hst i).1.1.next o hpre _, hworld⟩, fun j _ => ⟨(hst j).1.1, hworld⟩⟩
  · exact fun st i s hR hP => ⟨hR, hP⟩

end

def Serving.SingleLine (st : Serving (List Said)) : Prop := st.Unopened [] ∧ st.world.SingleLine True

/-- Whatever the sessions of a process are asked to do, and in whatever order they do it, the replies of
each come apart again at their line feeds, and no line feed gets into a name of the tree. -/
theorem replies_come_apart {env : Service} (henv : env.SingleLine True) {st : Serving (List Said)}
    (h : ((speakers env).system Serving.SingleLine).Reach System.anyStep st) (i : SessionId) :
    (tokens 10 (Said.wire (st.history i))).map chomp = (Said.replies (st.history i)).map Reply.render ∧
      st.world.fs.Lacks 10 := by
  obtain ⟨horderly, hworld⟩ := (speakers_keep henv (fun _ hst => hst) h i).1
  exact ⟨horderly.cut, hworld.fs trivial⟩

def Serving.sampleWorld : World := .favourable ⟨[], [], fun _ _ _ => none, []⟩

lemma Serving.sampleWorld_singleLine : Serving.sampleWorld.SingleLine True := by
  refine ⟨fun _ => ⟨?_, ?_, ?_⟩, fun _ _ _ h => (by cases h), fun _ _ _ h => (by cases h)⟩
  · exact fun _ h => by cases h
  · exact fun _ h => by cases h
  · exact fun _ h => by cases h

lemma Serving.sampleService_singleLine : Attested.sampleService.SingleLine True := by
  have husers : ∀ e ∈ Attested.sampleService.user_manager_.users_.entries,
    (10 : Byte) ∉ e.2.home_directory_ := by decide
  refine ⟨fun name u hu _ => husers ⟨name, u⟩ (AList.mem_lookup_iff.1 hu), ?_, fun _ => by decide⟩
  rintro hosts ⟨⟩ name host hhost
  have hhosts : ∀ e ∈ (VirtualHosts.empty.add
      { hostname_ := "h", root_directory_ := [], user_manager_ := some ⟨∅, []⟩ }).map.entries,
      e.2.custom_errors_ = ∅ ∧ ∀ m, e.2.user_manager_ = some m → m.users_ = ∅ := by
    intro e he
    cases List.mem_singleton.1 he
    exact ⟨rfl, fun m hm => (by cases hm; rfl)⟩
  obtain ⟨herrors, hmanager⟩ := hhosts ⟨name, host⟩ (AList.mem_lookup_iff.1 hhost)
  refine ⟨fun code _ => ?_, fun m hm name u hu => ?_⟩
  · rw [FTPVirtualHost.getCustomError, herrors]
    exact List.not_mem_nil
  · rw [FTPUserManager.getUser, hmanager m hm] at hu
    cases hu

theorem replies_come_apart_mkd : ∃ st : Serving (List Said), (tokens 10 (Said.wire (st.history 0))).map chomp =
    [ascii "220 Welcome to Simple Secure FTP Daemon", ascii "331 User name okay, need password",
      ascii "230 User logged in, proceed", ascii "257 \"/d\" created"] := by
  obtain ⟨st, hst, hreplies⟩ := Option.map_eq_some_iff.1 (show
    (((speakers Attested.sampleService).system Serving.SingleLine).run System.anyStep
      (Serving.sampleStart [] Serving.sampleWorld)
      (Serving.sampleEntry 0 ⟨3, false, false⟩ ++ Serving.sampleTurn 0 "USER u" 1 ++
        Serving.sampleTurn 0 "PASS p" 3 ++ Serving.sampleTurn 0 "MKD d" 3)).map
      (fun st => Said.replies (st.history 0)) =
      some [.final 220 "Welcome to Simple Secure FTP Daemon", .final 331 "User name okay, need password",
        .final 230 "User logged in, proceed",
        .final 257 "\"/d\" created"] by decide +kernel)
  have hreach : ((speakers Attested.sampleService).system Serving.SingleLine).Reach System.anyStep st :=
    .run (.init ⟨Serving.sampleStart_unopened _ _, Serving.sampleWorld_singleLine⟩) hst
  have hlines := (replies_come_apart Serving.sampleService_singleLine hreach 0).1
  rw [hreplies] at hlines
  exact ⟨st, hlines⟩

/-- In every such run a handshake parts the replies of its session: all those before it went out in the
clear, none of those after it does, and it is not made again. -/
theorem handshakes_part_replies {env : Service} {st : Serving (List Said)}
    (h : ((speakers env).system (Serving.Unopened [])).Reach System.anyStep st) {i : SessionId}
    {later earlier : List Said}
    (hsecured : st.history i = later ++ .secured :: earlier) :
    (∀ tls r, .line tls r ∈ later → tls = true) ∧ (∀ tls r, .line tls r ∈ earlier → tls = false) ∧
      .secured ∉ later ++ earlier := by
  have hany (p : Str) : Clean False p := fun h => h.elim
  have henv : env.SingleLine False := by
    have husers (m : FTPUserManager) : m.SingleLine False := fun _ _ _ => hany _
    exact ⟨husers _, fun _ _ _ h _ => ⟨fun _ => hany _, fun _ _ => husers _⟩, hany _⟩
  have hworld (w : World) : w.SingleLine False := ⟨fun h => h.elim, fun _ _ _ _ => hany _, fun _ _ _ _ => hany _⟩
  obtain ⟨horderly, _⟩ := (speakers_keep henv (fun _ hst => ⟨hst, hworld _⟩) h i).1
  rw [hsecured] at horderly
  exact horderly.parted

theorem handshakes_part_replies_auth : ∃ (st : Serving (List Said)) (later earlier : List Said), later ≠ [] ∧
    st.history 0 = later ++ .secured :: earlier ∧ ∀ tls r, .line tls r ∈ later → tls = true := by
  obtain ⟨st, hst, hhistory⟩ := Option.map_eq_some_iff.1 (show
    (((speakers Attested.sampleService).system (Serving.Unopened [])).run System.anyStep
      (Serving.sampleStart [] Serving.sampleWorld)
      (Serving.sampleEntry 0 ⟨3, true, true⟩ ++ Serving.sampleTurn 0 "AUTH TLS" 2 ++
        Serving.sampleTurn 0 "PBSZ 0" 1)).map (fun st => st.history 0) =
      some ([.line true (.final 200 "PBSZ=0")] ++ .secured :: [.line false (.final 234 "AUTH TLS successful"),
        .line false (.final 220 "Welcome to Simple Secure FTP Daemon")]) by
        decide +kernel)
  have hreach : ((speakers Attested.sampleService).system (Serving.Unopened [])).Reach System.anyStep st :=
    .run (.init (Serving.sampleStart_unopened _ _)) hst
  exact ⟨st, _, _, List.cons_ne_nil _ _, hhistory, (handshakes_part_replies hreach hhistory).1⟩

end SimpleSftpd
