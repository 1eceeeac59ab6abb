import SimpleSftpd.Core.HandlerAccess
import SimpleSftpd.Cxx.Columns
import SimpleSftpd.Sessions.ReplyLines

/-! Directories that are listed, by LIST and MLSD on a data connection and by STAT among the replies, and
what a client reads back from the lines. -/

namespace SimpleSftpd

open Cxx Interaction Prog

structure ListedFile where
  directory : Bool
  size : ℕ
  name : Str
  deriving DecidableEq

namespace ListedFile

variable (e : ListedFile)

def columns : List Str :=
  [if e.directory then "drw-rw-rw-" else "-rw-rw-rw-", "1", "owner", "group", decimal e.size]

def line : Str := columnsLine e.columns e.name

def read (line : Str) : Option ListedFile :=
  (Cxx.columns 5 line).bind fun parts => match parts.1 with
    | [mode, _, _, _, size] => (unsigned size).map fun n => ⟨mode.head? = some 100, n, parts.2⟩
    | _ => none

lemma columns_plain : ∀ part ∈ e.columns, IsColumn part := by
  have hsize : IsColumn (decimal e.size) := ⟨not_mem_decimal rfl _, not_mem_decimal rfl _⟩
  have hmode : IsColumn (if e.directory then "drw-rw-rw-" else "-rw-rw-rw-") := by
    split <;> exact ⟨by decide, by decide⟩
  simp only [columns, List.forall_mem_cons, List.not_mem_nil, false_imp_iff, implies_true, and_true]
  exact ⟨hmode, ⟨by decide, by decide⟩, ⟨by decide, by decide⟩, ⟨by decide, by decide⟩, hsize⟩

lemma read_line : read e.line = some e := by
  have hcolumns : Cxx.columns 5 e.line = some (e.columns, e.name) := columns_columnsLine e.name e.columns_plain
  rw [read, hcolumns, Option.bind_some]
  dsimp only [columns]
  rw [unsigned_decimal]
  obtain ⟨_ | _, size, name⟩ := e <;> rfl

end ListedFile

structure MachineEntry where
  directory : Bool
  size : Option ℕ
  modify : Option Str
  writable : Bool
  name : Str
  deriving DecidableEq

namespace MachineEntry

variable (e : MachineEntry)

def perm : Str :=
  if e.directory then if e.writable then "elcmpd" else "el" else if e.writable then "adfrw" else "r"

def type : Str := if e.directory then "dir" else "file"

def facts : List Fact :=
  (ascii "type", e.type) :: ((e.size.map fun n => (ascii "size", decimal n)).toList ++
    ((e.modify.map fun date => (ascii "modify", date)).toList ++ [(ascii "perm", e.perm)]))

def line : Str := factsLine e.facts e.name

def ofFacts (facts : List Fact) (name : Str) : MachineEntry :=
  let directory := (facts.lookup (ascii "type")).any (· = ascii "dir")
  { directory
    size := (facts.lookup (ascii "size")).bind unsigned
    modify := facts.lookup (ascii "modify")
    writable := (facts.lookup (ascii "perm")).any (·.contains (if directory then 99 else 119))
    name }

def read (line : Str) : Option MachineEntry := (readFacts line).map fun parts => ofFacts parts.1 parts.2

def Dated : Prop := ∀ date, e.modify = some date → ∀ c ∈ date, (digit 10 c).isSome = true

variable {e}

lemma Dated.plain (h : e.Dated) : ∀ f ∈ e.facts, Fact.Plain f := by
  have hperm : IsColumn e.perm ∧ 59 ∉ e.perm := by
    unfold perm
    split <;> split <;> exact ⟨⟨by decide, by decide⟩, by decide⟩
  have htype : IsColumn e.type ∧ 59 ∉ e.type := by
    unfold type
    split <;> exact ⟨⟨by decide, by decide⟩, by decide⟩
  intro f hf
  simp only [facts, List.mem_cons, List.mem_append, Option.mem_toList, Option.map_eq_some_iff,
    List.not_mem_nil, or_false] at hf
  rcases hf with rfl | ⟨n, _, rfl⟩ | ⟨date, hdate, rfl⟩ | rfl
  · exact plain_fact ⟨⟨by decide, by decide⟩, by decide⟩ htype
  · exact plain_fact ⟨⟨by decide, by decide⟩, by decide⟩ ⟨⟨not_mem_decimal rfl n, not_mem_decimal rfl n⟩,
      not_mem_decimal rfl n⟩
  · have hdigit {c : Byte} (hc : digit 10 c = none) : c ∉ date := fun hmem => by
      have hsome := h date hdate c hmem
      rw [hc] at hsome
      cases hsome
    exact plain_fact ⟨⟨by decide, by decide⟩, by decide⟩ ⟨⟨hdigit rfl, hdigit rfl⟩, hdigit rfl⟩
  · exact plain_fact ⟨⟨by decide, by decide⟩, by decide⟩ hperm

lemma line_eq (directory : Bool) (size : Option ℕ) (modify : Option Str) (writable : Bool) (name : Str) :
    line ⟨directory, size, modify, writable, name⟩ = ascii (if directory then "type=dir;" else "type=file;") ++
      (size.elim ([] : Str) fun n => ("size=" : Str) ++ decimal n ++ (";" : Str)) ++
      (modify.elim ([] : Str) fun m => ("modify=" : Str) ++ m ++ (";" : Str)) ++
      Session.permFact directory writable ++ (" " : Str) ++ name := by
  cases directory <;> cases size <;> cases modify <;> cases writable <;>
    simp [line, factsLine, facts, Fact.text, perm, Session.permFact] <;> rfl

lemma ofFacts_facts : ofFacts e.facts e.name = e := by
  obtain ⟨directory, size, modify, writable, name⟩ := e
  have htype : (facts ⟨directory, size, modify, writable, name⟩).lookup (ascii "type") =
      some (type ⟨directory, size, modify, writable, name⟩) := rfl
  have hsize : (facts ⟨directory, size, modify, writable, name⟩).lookup (ascii "size") = size.map decimal := by
    cases size <;> cases modify <;> rfl
  have hmodify : (facts ⟨directory, size, modify, writable, name⟩).lookup (ascii "modify") = modify := by
    cases size <;> cases modify <;> rfl
  have hperm : (facts ⟨directory, size, modify, writable, name⟩).lookup (ascii "perm") =
      some (perm ⟨directory, size, modify, writable, name⟩) := by
    cases size <;> cases modify <;> rfl
  have hunsigned : (size.map decimal).bind unsigned = size := by
    cases size with
    | none => rfl
    | some n => exact unsigned_decimal n
  simp only [ofFacts, htype, hsize, hmodify, hperm, hunsigned]
  cases directory <;> cases writable <;> rfl

lemma read_line (h : e.Dated) : read e.line = some e := by
  rw [read, line, readFacts_factsLine h.plain, Option.map_some, ofFacts_facts]

end MachineEntry

def Call.sent? {β : Type} : Call β → Option Str
  | send _ data => some data
  | _ => none

namespace World

variable (w : World)

def Dated : Prop :=
  ∀ t p date, w.choose t (.modifiedTimeUtc p) = some date → ∀ c ∈ date, (digit 10 c).isSome = true

def tells {β : Type} (o : Call β) : β → Prop := match o with
  | .nameSpace => fun r => r = w.fs
  | .status p => fun r => r = w.fs.status p
  | .fileSize p => fun r => r = w.fs.fileSize p
  | .readDirectory p => fun r => r = w.fs.readDirectory p
  | .modifiedTimeUtc p => fun r => ∃ t, r = w.choose t (.modifiedTimeUtc p)
  | _ => fun _ => True

def listedFile (path name : Str) : Option ListedFile :=
  (w.fs.status path).toOption.bind fun t =>
    (if t = .directory then some 0 else (w.fs.fileSize path).toOption).map fun size => ⟨t = .directory, size, name⟩

def ShowsFile (path name line : Str) : Prop := ∃ e, w.listedFile path name = some e ∧ ListedFile.read line = some e

variable {w} in
lemma listedFile_name {path name : Str} {e : ListedFile} (h : w.listedFile path name = some e) :
    e.name = name := by
  obtain ⟨t, _, ht⟩ := Option.bind_eq_some_iff.1 h
  obtain ⟨size, _, rfl⟩ := Option.map_eq_some_iff.1 ht
  rfl

def Lists (shows : Str → Str → Str → Prop) (dir : Str) (lines : List Str) : Prop :=
  List.Forall₂ (fun name line => shows (Path.join dir name) name line) (w.fs.readDirectory dir).1 lines

end World

namespace Session

variable (s : Session) (w : World)

def machineEntry (path name : Str) (modify : Option Str) : MachineEntry where
  directory := isDirectory (w.fs.status path)
  size := if isDirectory (w.fs.status path) then none else (w.fs.fileSize path).toOption
  modify
  writable := s.current_user_.any fun u => u.hasPermission w.fs "write" path
  name

def Shows (path name line : Str) : Prop :=
  ∃ t, MachineEntry.read line = some (s.machineEntry w path name (w.choose t (.modifiedTimeUtc path)))

def said (r : Reply) : List Reply := if s.socket_ = none then [] else [r.customized s.current_virtual_host_]

end Session

/-- Calls that leave the tree alone and are told what is in it, where all that is sent satisfies `K`. The
ghost state are the replies. -/
def observing (w : World) (K : Str → Prop) : Contract Call (List Reply) where
  pre _ o := o.kind ∉ [Kind.change, .write, .chroot] ∧ ∀ data, o.sent? = some data → K data
  post _ o r := w.tells o r
  next g o _ := g ++ o.reply?.toList

section

variable {w : World} {K : Str → Prop} {me : SessionId}

lemma observing_describes :
    (observing w K).Describes (World.machine me) fun _ v => v.fs = w.fs ∧ @World.choose v = @World.choose w := by
  intro β g v o hv ho
  refine ⟨?_, (World.answer_fs o ho.1).trans hv.1, (World.answer_choose o).trans hv.2⟩
  obtain ⟨hfs, hchoose⟩ := hv
  cases o with
  | nameSpace => exact hfs
  | status p => exact congrArg (FileSystem.status · p) hfs
  | fileSize p => exact congrArg (FileSystem.fileSize · p) hfs
  | readDirectory p => exact congrArg (FileSystem.readDirectory · p) hfs
  | modifiedTimeUtc p =>
    refine ⟨v.time, ?_⟩
    rw [← hchoose]
  | _ => trivial

lemma observing_final (g : List Reply) (t : Trace) :
    (observing w K).final (World.machine me) g t = g ++ t.replies := by
  induction t generalizing g with
  | nil => exact (List.append_nil g).symm
  | cons c t ih =>
    have hstep : (observing w K).final (World.machine me) g (c :: t) =
        (observing w K).final (World.machine me) (g ++ c.2.2.reply?.toList) t := rfl
    rw [hstep, ih, List.append_assoc, Trace.replies, Trace.replies, List.filterMap_cons]
    cases c.2.2.reply? <;> rfl

end

def Observes {α : Type} (w : World) (K : Str → Prop) (p : Io α) (P : α → List Reply → Prop) : Prop :=
  ∀ g, Meets (observing w K) p (fun a g' => ∃ rs, g' = g ++ rs ∧ P a rs) g

section

variable {w : World} {K : Str → Prop} {s : Session} {α β : Type} {P : α → List Reply → Prop}
    {Q : β → List Reply → Prop}

lemma observes_pure {a : α} (h : P a []) : Observes w K (pure a) P :=
  fun g => (meets_pure a).2 ⟨[], (List.append_nil g).symm, h⟩

lemma observes_bind {p : Io β} {f : β → Io α} (hp : Observes w K p Q)
    (hf : ∀ b rs, Q b rs → Observes w K (f b) fun a rs' => P a (rs ++ rs')) : Observes w K (p >>= f) P := by
  intro g
  refine meets_bind.2 ((hp g).mono fun b g' h => ?_)
  obtain ⟨rs, rfl, hQ⟩ := h
  refine (hf b rs hQ _).mono fun a g'' h => ?_
  obtain ⟨rs', rfl, hP⟩ := h
  exact ⟨rs ++ rs', List.append_assoc g rs rs', hP⟩

lemma observes_ite {c : Prop} [Decidable c] {p q : Io α} (hp : c → Observes w K p P) (hq : ¬c → Observes w K q P) :
    Observes w K (if c then p else q) P := by
  split
  · exact hp ‹_›
  · exact hq ‹_›

lemma observes_ask {o : Call β} (hkind : o.kind ∉ [Kind.change, .write, .chroot]) (hreply : o.reply? = none)
    (hsent : ∀ data, o.sent? = some data → K data) {f : β → Io α} (hf : ∀ r, w.tells o r → Observes w K (f r) P) :
    Observes w K (perform o >>= f) P := by
  intro g
  refine (meets_call o f).2 ⟨⟨hkind, hsent⟩, fun r hr => ?_⟩
  have hsame : (observing w K).next g o r = g := by
    change g ++ o.reply?.toList = g
    rw [hreply]
    exact List.append_nil g
  rw [hsame]
  exact hf r hr g

lemma observes_query {o : Call β} (ho : o.kind ∈ [Kind.query, .opens, .close]) {f : β → Io α}
    (hf : ∀ r, w.tells o r → Observes w K (f r) P) : Observes w K (perform o >>= f) P := by
  refine observes_ask ?_ ?_ ?_ hf
  · intro h
    revert ho h
    cases o <;> simp [Call.kind]
  · cases o <;> first | rfl | simp [Call.kind] at ho
  · intro data h
    cases o <;> first | (simp [Call.kind] at ho; done) | cases h

lemma observes_send {r : Reply} {f : Unit → Io α} (hf : Observes w K (f ()) fun a rs => P a (s.said r ++ rs)) :
    Observes w K (s.sendResponse r >>= f) P := by
  intro g
  unfold Session.sendResponse
  unfold Session.said at hf
  by_cases hsocket : s.socket_ = none
  · rw [if_pos hsocket]
    rw [if_pos hsocket] at hf
    exact hf g
  · rw [if_neg hsocket, bind_assoc']
    rw [if_neg hsocket] at hf
    have hrest : Meets (observing w K) (f ()) (fun a g' => ∃ rs, g' = g ++ rs ∧ P a rs)
        (g ++ [r.customized s.current_virtual_host_]) := by
      refine (hf _).mono fun a g' h => ?_
      obtain ⟨rs, rfl, hP⟩ := h
      exact ⟨_ :: rs, List.append_assoc g _ rs, hP⟩
    refine (meets_call _ _).2 ⟨⟨by simp [Call.kind], fun data h => by cases h⟩, fun sent _ => ?_⟩
    cases sent with
    | true => exact hrest
    | false =>
      have hsame (g : List Reply) (u : Unit) : (observing w K).next g .deactivate u = g := List.append_nil g
      refine (meets_call _ _).2 ⟨⟨by simp [Call.kind], fun data h => by cases h⟩, fun _ _ => ?_⟩
      rw [hsame]
      exact hrest

lemma observes_try {x : Except Errc β} {f : β → Io α} (hf : ∀ b, x = .ok b → Observes w K (f b) P) :
    Observes w K (orThrow x >>= f) P := by
  cases x with
  | ok b => exact hf b rfl
  | error e => exact fun g => meets_throw _

end

section

variable {names lines : List Str} {R : Str → Str → Prop}

lemma forall₂_chomp (h : List.Forall₂ (fun name line => R name line ∧ (10 ∉ name → 10 ∉ line)) names lines)
    (hnames : Without 10 names) : List.Forall₂ R names ((tokens 10 (inLines lines)).map chomp) := by
  rw [tokens_chomp]
  · exact h.imp fun _ _ hline => hline.1
  · induction h with
    | nil => exact fun _ hline => by cases hline
    | cons hline _ ih =>
      obtain ⟨hname, hrest⟩ := without_cons.1 hnames
      exact List.forall_mem_cons.2 ⟨hline.2 hname, ih hrest⟩

end

namespace Session

variable {w : World} {K : Str → Prop} {s : Session}

lemma accept_shows (d : DataConnection) : Observes w K d.acceptDataConnection fun _ rs => rs = [] := by
  unfold DataConnection.acceptDataConnection DataConnection.connectActiveDataSocket
  refine observes_ite (fun _ => observes_ite (fun _ => observes_pure rfl) fun _ => ?_) fun _ => ?_
  · refine observes_query (by simp [Call.kind]) fun made _ => ?_
    cases made with
    | none => exact observes_pure rfl
    | some fd =>
      dsimp only
      cases inetPton d.active_mode_ip_ with
      | none => exact observes_query (by simp [Call.kind]) fun _ _ => observes_pure rfl
      | some octets =>
        refine observes_ask (by simp [Call.kind]) rfl (fun _ h => by cases h) fun peer _ => ?_
        cases peer with
        | none => exact observes_query (by simp [Call.kind]) fun _ _ => observes_pure rfl
        | some peer => exact observes_pure rfl
  · cases d.passive_listen_socket_ with
    | none => exact observes_pure rfl
    | some listener =>
      refine observes_ask (by simp [Call.kind]) rfl (fun _ h => by cases h) fun ready _ => ?_
      refine observes_ite (fun _ => observes_pure rfl) fun _ => ?_
      exact observes_query (by simp [Call.kind]) fun accepted _ => observes_pure rfl

lemma listEntry_shows (dir name : Str) : Observes w K (listEntry dir name) fun r rs => rs = [] ∧
    ∀ text, r = some text → ∃ e, w.listedFile (Path.join dir name) name = some e ∧
      text = e.line ++ ascii "\r\n" := by
  refine observes_query (by simp [Call.kind]) fun found hfound => ?_
  cases found with
  | error e => exact observes_pure ⟨rfl, fun _ h => by cases h⟩
  | ok t =>
    have hstatus : w.fs.status (Path.join dir name) = .ok t := Eq.symm hfound
    refine observes_bind (Q := fun size rs => rs = [] ∧
      size = if t = .directory then .ok 0 else w.fs.fileSize (Path.join dir name)) ?_ fun size rs hsize => ?_
    · refine observes_ite (fun hdir => observes_pure ⟨rfl, (if_pos hdir).symm⟩) fun hdir => ?_
      rw [← bind_pure' (perform (.fileSize _))]
      refine observes_query (by simp [Call.kind]) fun size hsize => ?_
      exact observes_pure ⟨rfl, hsize.trans (if_neg hdir).symm⟩
    · obtain ⟨rfl, hsize⟩ := hsize
      cases size with
      | error e => exact observes_pure ⟨rfl, fun _ h => by cases h⟩
      | ok size =>
        refine observes_query (by simp [Call.kind]) fun written _ => ?_
        cases written with
        | error e => exact observes_pure ⟨rfl, fun _ h => by cases h⟩
        | ok _ =>
          refine observes_pure ⟨rfl, fun text htext => ⟨⟨t = .directory, size, name⟩, ?_, ?_⟩⟩
          · rw [World.listedFile, hstatus]
            by_cases hdir : t = .directory
            · rw [if_pos hdir] at hsize
              cases hsize
              simp [hdir, Except.toOption]
            · rw [if_neg hdir] at hsize
              simp [hdir, ← hsize, Except.toOption]
          · cases htext
            by_cases hdir : t = .directory <;>
              simp [ListedFile.line, ListedFile.columns, columnsLine, hdir] <;> rfl

lemma listEntries_shows (dir : Str) (names : List Str) : Observes w K (listEntries dir names) fun r rs => rs = [] ∧
    ∀ text, r = some text → ∃ lines : List Str, text = inLines lines ∧
      List.Forall₂ (fun name line => ∃ e, w.listedFile (Path.join dir name) name = some e ∧
        line = e.line) names lines := by
  induction names with
  | nil => exact observes_pure ⟨rfl, fun text h => ⟨[], (Option.some.inj h).symm, .nil⟩⟩
  | cons name names ih =>
    refine observes_bind (listEntry_shows dir name) fun entry rs hentry => ?_
    obtain ⟨rfl, hentry⟩ := hentry
    cases entry with
    | none => exact observes_pure ⟨rfl, fun _ h => by cases h⟩
    | some line =>
      refine observes_bind ih fun rest rs hrest => ?_
      obtain ⟨rfl, hrest⟩ := hrest
      cases rest with
      | none => exact observes_pure ⟨rfl, fun _ h => by cases h⟩
      | some rest =>
        refine observes_pure ⟨rfl, fun text htext => ?_⟩
        obtain ⟨e, he, rfl⟩ := hentry line rfl
        obtain ⟨lines, rfl, hlines⟩ := hrest rest rfl
        exact ⟨e.line :: lines, (Option.some.inj htext).symm, .cons ⟨e, he, rfl⟩ hlines⟩

lemma buildMachineFacts_shows (path name : Str) :
    Observes w K (s.buildMachineFacts path name) fun text rs => rs = [] ∧
    ∃ t, text = (s.machineEntry w path name (w.choose t (.modifiedTimeUtc path))).line := by
  refine observes_query (by simp [Call.kind]) fun found hfound => ?_
  have hfound : found = w.fs.status path := hfound
  subst hfound
  refine observes_bind (Q := fun size rs => rs = [] ∧ size = ((if isDirectory (w.fs.status path) then none
    else (w.fs.fileSize path).toOption).elim ([] : Str) fun n => ("size=" : Str) ++ decimal n ++ (";" :
      Str))) ?_ fun size rs hsize => ?_
  · refine observes_ite (fun hdir => observes_pure ⟨rfl, ?_⟩) fun hdir => observes_query (by simp [Call.kind])
      fun size hsize => ?_
    · rw [if_pos hdir]
      rfl
    · have hsize : size = w.fs.fileSize path := hsize
      rw [if_neg hdir, ← hsize]
      cases size with
      | ok n => exact observes_pure ⟨rfl, rfl⟩
      | error e => exact observes_pure ⟨rfl, rfl⟩
  · obtain ⟨rfl, rfl⟩ := hsize
    refine observes_query (by simp [Call.kind]) fun modify hmodify => ?_
    refine observes_query (by simp [Call.kind]) fun fs hfs => ?_
    have hfs : fs = w.fs := hfs
    obtain ⟨t, rfl⟩ := hmodify
    subst hfs
    refine observes_pure ⟨rfl, t, ?_⟩
    rw [machineEntry, MachineEntry.line_eq]
    cases w.choose t (.modifiedTimeUtc path) <;> rfl

lemma shows_line (hw : w.Dated) (path name : Str) (t : ℕ) :
    let line := (s.machineEntry w path name (w.choose t (.modifiedTimeUtc path))).line
    s.Shows w path name line ∧ (10 ∉ name → 10 ∉ line) := by
  have hdated : (s.machineEntry w path name (w.choose t (.modifiedTimeUtc path))).Dated :=
    fun date => hw t path date
  exact ⟨⟨t, MachineEntry.read_line hdated⟩, notMem_factsLine hdated.plain⟩

lemma machineEntries_shows (hw : w.Dated) (dir : Str) (names : List Str) :
    Observes w K (s.machineEntries dir names) fun text rs =>
    rs = [] ∧ ∃ lines : List Str, text = inLines lines ∧
      List.Forall₂ (fun name line => s.Shows w (Path.join dir name) name line ∧
        (10 ∉ name → 10 ∉ line)) names lines := by
  induction names with
  | nil => exact observes_pure ⟨rfl, [], rfl, .nil⟩
  | cons name names ih =>
    refine observes_bind (buildMachineFacts_shows _ name) fun line rs hline => ?_
    refine observes_bind ih fun rest rs' hrest => observes_pure ?_
    obtain ⟨rfl, t, rfl⟩ := hline
    obtain ⟨rfl, lines, rfl, hlines⟩ := hrest
    exact ⟨rfl, _ :: lines, rfl, .cons (shows_line hw _ name t) hlines⟩

lemma statEntries_shows (hw : w.Dated) (dir : Str) (names : List Str) :
    Observes w K (s.statEntries dir names) fun _ rs =>
    ∃ lines : List Str, rs = lines.flatMap (fun line => s.said (.inner line)) ∧
      List.Forall₂ (fun name line => s.Shows w (Path.join dir name) name line) names lines := by
  induction names with
  | nil => exact observes_pure ⟨[], rfl, .nil⟩
  | cons name names ih =>
    refine observes_bind (buildMachineFacts_shows _ name) fun line rs hline => observes_send ?_
    obtain ⟨rfl, t, rfl⟩ := hline
    intro g
    refine (ih g).mono fun _ g' h => ?_
    obtain ⟨rs, hg, lines, rfl, hlines⟩ := h
    exact ⟨_, hg, _ :: lines, rfl, .cons (shows_line hw _ name t).1 hlines⟩

lemma observes_return {α : Type} {code : ℕ} {text : Str} {a : α} :
    Observes w K (s.reply code text >>= fun _ => pure a) fun _ _ => True := observes_send (observes_pure trivial)

lemma listDirectory_shows (dir : Str) : Observes w K (listDirectory dir) fun r rs => rs = [] ∧
    ∀ text, r = some text → (w.fs.readDirectory dir).2 = none ∧ ∃ lines : List Str, text = inLines lines ∧
      List.Forall₂ (fun name line => ∃ e, w.listedFile (Path.join dir name) name = some e ∧ line = e.line)
        (w.fs.readDirectory dir).1 lines := by
  refine observes_query (by simp [Call.kind]) fun entries hentries => ?_
  have hentries : entries = w.fs.readDirectory dir := hentries
  rw [← hentries]
  obtain ⟨names, failure⟩ := entries
  refine observes_bind (listEntries_shows dir names) fun r rs hr => ?_
  obtain ⟨rfl, hr⟩ := hr
  cases r with
  | none => exact observes_pure ⟨rfl, fun _ h => by cases h⟩
  | some text =>
    cases failure with
    | some e => exact observes_pure ⟨rfl, fun _ h => by cases h⟩
    | none =>
      refine observes_pure ⟨rfl, fun text' htext => ?_⟩
      cases htext
      exact ⟨rfl, hr text rfl⟩

section

variable {a : Str} (hnames : Without 10 (w.fs.readDirectory (s.resolvePath w.fs a)).1)
  (hdir : w.fs.status (s.resolvePath w.fs a) = .ok .directory)

include hdir hnames in
lemma handleLIST_shows : Observes w (fun data => (w.fs.readDirectory (s.resolvePath w.fs a)).2 = none ∧
    w.Lists w.ShowsFile (s.resolvePath w.fs a) ((tokens 10 data).map chomp)) (s.handleLIST a) fun _ _ => True := by
  refine observes_query (by simp [Call.kind]) fun fs hfs => ?_
  have hfs : fs = w.fs := hfs
  subst hfs
  refine observes_ite (fun _ => observes_return) fun _ => ?_
  rw [s.resolvePath_named a]
  refine observes_ite (fun _ => observes_return) fun _ => ?_
  refine observes_query (by simp [Call.kind]) fun found _ => ?_
  refine observes_try fun t _ => ?_
  refine observes_ite (fun _ => observes_return) fun _ => ?_
  refine observes_send (observes_bind (accept_shows s.data) fun opened rs _ => ?_)
  obtain ⟨_ | ⟨fd, peer⟩, d⟩ := opened
  · exact observes_return
  · refine observes_query (by simp [Call.kind]) fun kind hkind => observes_try fun t ht => ?_
    have hdirectory : t = .directory := Except.ok.inj (ht.symm.trans (Eq.trans hkind hdir))
    rw [if_pos hdirectory]
    refine observes_bind (listDirectory_shows _) fun listing rs hlisting => ?_
    cases listing with
    | none => exact observes_query (by simp [Call.kind]) fun _ _ => observes_return
    | some listing =>
      obtain ⟨hall, lines, rfl, hlines⟩ := hlisting.2 listing rfl
      refine observes_ask (by simp [Call.kind]) rfl (fun data hdata => ?_) fun _ _ => ?_
      · cases hdata
        refine ⟨hall, forall₂_chomp (hlines.imp fun name line hline => ?_) hnames⟩
        obtain ⟨e, he, rfl⟩ := hline
        have hname : e.name = name := World.listedFile_name he
        exact ⟨⟨e, he, e.read_line⟩, fun h => notMem_columnsLine e.columns_plain (hname ▸ h)⟩
      · exact observes_query (by simp [Call.kind]) fun _ _ => observes_return

include hnames in
lemma handleMLSD_shows (hw : w.Dated) :
    Observes w (fun data => (w.fs.readDirectory (s.resolvePath w.fs a)).2 = none ∧
    w.Lists (s.Shows w) (s.resolvePath w.fs a) ((tokens 10 data).map chomp)) (s.handleMLSD a) fun _ _ => True := by
  refine observes_query (by simp [Call.kind]) fun fs hfs => ?_
  have hfs : fs = w.fs := hfs
  subst hfs
  refine observes_ite (fun _ => observes_return) fun _ => ?_
  rw [s.resolvePath_named a]
  refine observes_ite (fun _ => observes_return) fun _ => ?_
  refine observes_query (by simp [Call.kind]) fun found _ => ?_
  refine observes_ite (fun _ => observes_return) fun _ => ?_
  refine observes_send (observes_bind (accept_shows s.data) fun opened rs _ => ?_)
  obtain ⟨_ | ⟨fd, peer⟩, d⟩ := opened
  · exact observes_return
  · refine observes_query (by simp [Call.kind]) fun entries hentries => ?_
    have hentries : w.fs.readDirectory (s.resolvePath w.fs a) = entries := Eq.symm hentries
    unfold World.Lists
    rw [hentries]
    rw [hentries] at hnames
    obtain ⟨names, failure⟩ := entries
    refine observes_bind (machineEntries_shows hw _ names) fun listing rs hlisting => ?_
    cases failure with
    | some e => exact observes_query (by simp [Call.kind]) fun _ _ => observes_return
    | none =>
      obtain ⟨_, lines, rfl, hlines⟩ := hlisting
      refine observes_ask (by simp [Call.kind]) rfl (fun data hdata => ?_) fun _ _ => ?_
      · cases hdata
        exact ⟨rfl, forall₂_chomp hlines hnames⟩
      · exact observes_query (by simp [Call.kind]) fun _ _ => observes_return

include hdir in
lemma handleSTAT_shows (hw : w.Dated) (ha : a ≠ []) (hvalid : s.validatePath w.fs (s.resolvePath w.fs a) = true) :
    Observes w (fun _ => False) (s.handleSTAT a) fun _ rs => ∃ lines :
      List Str, w.Lists (s.Shows w) (s.resolvePath w.fs a) lines ∧
      rs = s.said (.opening 213 ("Status of " ++ a)) ++ (lines.flatMap (fun line => s.said (.inner line)) ++
        s.said (.final 213 "End of status")) := by
  rw [handleSTAT, if_neg ha]
  refine observes_query (by simp [Call.kind]) fun fs hfs => ?_
  have hfs : fs = w.fs := hfs
  subst hfs
  refine observes_ite (fun h => by simp [hvalid] at h) fun _ => ?_
  refine observes_query (by simp [Call.kind]) fun found hfound => ?_
  have hfound : found = .ok .directory := Eq.trans hfound hdir
  refine observes_ite (fun h => absurd h (by rw [hfound]; decide)) fun _ => ?_
  refine observes_send (observes_query (by simp [Call.kind]) fun kind hkind => ?_)
  have hkind : kind = .ok .directory := Eq.trans hkind hdir
  refine observes_bind (Q := fun _ rs => ∃ lines : List Str, w.Lists (s.Shows w) (s.resolvePath w.fs a) lines ∧
    rs = lines.flatMap fun line =>
      s.said (.inner line)) (observes_ite (fun _ => ?_) fun h => absurd (by rw [hkind]; rfl) h) ?_
  · refine observes_query (by simp [Call.kind]) fun entries hentries => ?_
    have hentries : w.fs.readDirectory (s.resolvePath w.fs a) = entries := Eq.symm hentries
    unfold World.Lists
    rw [hentries]
    obtain ⟨names, failure⟩ := entries
    intro g
    refine (statEntries_shows hw _ names g).mono fun _ g' h => ?_
    obtain ⟨rs, hg, lines, rfl, hlines⟩ := h
    exact ⟨_, hg, lines, hlines, rfl⟩
  · intro _ rs hrs
    obtain ⟨lines, hlines, rfl⟩ := hrs
    rw [← bind_pure' (s.reply 213 _)]
    exact observes_send (observes_pure ⟨lines, hlines, by rw [List.append_nil]⟩)

end

end Session

/-- What LIST and MLSD send of a directory, and what STAT says of it, reads back as its entries, each once
and in the order of the directory. -/
theorem listings_read_back (env : Service) (me : SessionId) (s : Session) {w : World} (hfs : w.fs.Lacks 10)
    (hw : w.Dated)
    {line target : Str} (htarget : target = s.resolvePath w.fs (Command.parse line).argument)
    (hdir : w.fs.status target = .ok .directory) :
    ((Command.parse line).verb = .list → ∀ c ∈ s.trace env me ⟨w, line⟩, ∀ data, c.2.2.sent? = some data →
      (w.fs.readDirectory target).2 = none ∧ w.Lists w.ShowsFile target ((tokens 10 data).map chomp)) ∧
    ((Command.parse line).verb = .mlsd → ∀ c ∈ s.trace env me ⟨w, line⟩, ∀ data, c.2.2.sent? = some data →
      (w.fs.readDirectory target).2 = none ∧ w.Lists (s.Shows w) target ((tokens 10 data).map chomp)) ∧
    ((Command.parse line).verb = .stat → (Command.parse line).argument ≠ [] → s.socket_ ≠ none →
      s.authenticated_ = true →
      s.validatePath w.fs target = true → (w.fs.readDirectory target).2 = none →
        ∀ s', s.after env me ⟨w, line⟩ = some s' →
      ∃ lines : List Str, w.Lists (s.Shows w) target lines ∧ (s.trace env me ⟨w, line⟩).replies =
        .opening 213 ("Status of " ++ (Command.parse line).argument) :: (lines.map .inner ++
          [(Reply.final 213 "End of status").customized s.current_virtual_host_])) := by
  subst htarget
  have hnames := hfs.readDirectory (p := s.resolvePath w.fs (Command.parse line).argument)
  have hsent {K : Str → Prop} {P : Session → List Reply → Prop} (h :
    Observes w K (s.handle env (Command.parse line)) P)
      (c) (hc : c ∈ s.trace env me ⟨w, line⟩) (data : Str) (hdata : c.2.2.sent? = some data) : K data := by
    have hkind : c.2.2.kind ≠ .reply := by
      obtain ⟨v, β, o⟩ := c
      cases o <;> first | (simp [Call.kind]; done) | cases hdata
    have hlogin := Session.trace_logged hc hkind
    rw [Session.trace, Session.dispatch_handle hlogin] at hc
    obtain ⟨g, _, hpre⟩ := wp_calls observing_describes (h []) ⟨rfl, rfl⟩ c hc
    exact hpre.2 data hdata
  generalize hcommand : Command.parse line = command at *
  obtain ⟨verb, a⟩ := command
  refine ⟨?_, ?_, ?_⟩
  · rintro rfl
    refine hsent (P := fun _ _ => True) (observes_bind (Session.handleLIST_shows hnames hdir) fun _ _ _ => ?_)
    exact observes_pure trivial
  · rintro rfl
    refine hsent (P := fun _ _ => True) (observes_bind (Session.handleMLSD_shows hnames hw) fun _ _ _ => ?_)
    exact observes_pure trivial
  · rintro rfl ha hsocket hlogged hvalid _ s' hs'
    obtain ⟨w', he⟩ := Session.exec_of_after hs'
    have hdispatch : s.dispatch env line = s.handle env (Command.parse line) := if_pos (.inr hlogged)
    rw [hcommand] at hdispatch
    have hobserves : Observes w (fun _ => False) (s.dispatch env line) fun _ rs => ∃ lines : List Str,
        w.Lists (s.Shows w) (s.resolvePath w.fs a) lines ∧ rs = s.said (.opening 213 ("Status of " ++ a)) ++
          (lines.flatMap (fun line => s.said (.inner line)) ++ s.said (.final 213 "End of status")) := by
      rw [hdispatch]
      refine observes_bind (Session.handleSTAT_shows hdir hw ha hvalid) fun _ rs h => ?_
      refine observes_pure ?_
      rw [List.append_nil]
      exact h
    have hfinal := (wp_final observing_describes (hobserves []) ⟨rfl, rfl⟩).2 s' (congrArg Prod.fst he)
    rw [observing_final] at hfinal
    obtain ⟨rs, hreplies, lines, hlines, rfl⟩ := hfinal
    refine ⟨lines, hlines, ?_⟩
    have hsaid (r : Reply) : s.said r = [r.customized s.current_virtual_host_] := if_neg hsocket
    simp only [hsaid] at hreplies
    rw [List.map_eq_flatMap]
    exact hreplies

def World.sampleTree : World :=
  .favourable ⟨[(["d"], .directory), (["d", "f"], .regular "abc")], [], fun _ _ _ => none, []⟩

def Session.sampleReader : Session :=
  { socket_ := some 3, authenticated_ := true, current_user_ := some ⟨"u", "p", "/", [], [], false, 0, 0⟩ }

theorem listings_read_back_stat : ∃ lines : List Str,
    World.sampleTree.Lists (Session.sampleReader.Shows World.sampleTree) "/d" lines ∧ lines.length = 1 ∧
      (Session.sampleReader.trace Attested.sampleService 0 ⟨World.sampleTree, "STAT /d"⟩).replies =
        .opening 213 "Status of /d" :: (lines.map .inner ++ [.final 213 "End of status"]) := by
  have hfs : World.sampleTree.fs.Lacks 10 := by
    have hnodes : ∀ e ∈ World.sampleTree.fs.nodes, ∀ c ∈ e.1, (10 : Byte) ∉ c := by decide
    refine ⟨hnodes, fun e he t ht => ?_, fun _ h => by cases h⟩
    have hplain : ∀ e ∈ World.sampleTree.fs.nodes, e.2 = .directory ∨ e.2 = .regular "abc" := by decide
    rcases hplain e he with h | h <;> cases h.symm.trans ht
  have hdates : World.sampleTree.Dated := fun _ _ _ h => by cases h
  have htarget : ("/d" : Str) = Session.sampleReader.resolvePath World.sampleTree.fs
      (Command.parse "STAT /d").argument := by
    decide +kernel
  have hdir : World.sampleTree.fs.status "/d" = .ok .directory := by decide +kernel
  obtain ⟨s', hs'⟩ := Option.isSome_iff_exists.1 (show
    (Session.sampleReader.after Attested.sampleService 0 ⟨World.sampleTree, "STAT /d"⟩).isSome = true by
      decide +kernel)
  obtain ⟨_, _, hstat⟩ := listings_read_back Attested.sampleService 0 Session.sampleReader hfs hdates htarget hdir
  obtain ⟨lines, hlines, hreplies⟩ :=
    hstat (by decide +kernel) (by decide +kernel) (by decide) rfl (by decide +kernel) (by decide +kernel) s' hs'
  exact ⟨lines, hlines, hlines.length_eq.symm.trans (by decide +kernel), hreplies⟩

end SimpleSftpd
