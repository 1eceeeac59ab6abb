import Mathlib.Data.List.TakeWhile
import SimpleSftpd.Core.Answered
import SimpleSftpd.Core.PathForms
import SimpleSftpd.Sessions.CommandLines

namespace SimpleSftpd

open Cxx Interaction Prog

/-- What a client reads up to the closing quote; after a quote, a second one stands for a quote and
anything else shows that the first has closed the path. -/
def closing (after_quote : Bool) : Str → Option Str
  | [] => if after_quote then some [] else none
  | c :: s =>
    if c = 34 then if after_quote then (closing false s).map (34 :: ·) else closing true s
    else if after_quote then some [] else (closing false s).map (c :: ·)

def quoted : Str → Option Str
  | [] => none
  | c :: s => if c = 34 then closing false s else none

def Reply.quoted : Reply → Option Str
  | .final code text => if code = 257 then SimpleSftpd.quoted text else none
  | _ => none

def Trace.quoted (t : Trace) : Option Str := t.replies.findSome? Reply.quoted

variable (env : Service) (me : SessionId)

namespace Session

variable (s : Session)

def sending (w : World) (command : Str) : Arrival := ⟨w, (s.readLine ⟨command ++ "\r\n", true⟩).line⟩

def ReadsBack (a : Arrival) (w : World) (P : Str → Prop) : Prop :=
  ∃ s₁, s.after env me a = some s₁ ∧ ∃ p ∈ (s.trace env me a).quoted,
    ∃ s₂, s₁.after env me (s₁.sending w ("CWD " ++ p)) = some s₂ ∧
      (s₁.trace env me (s₁.sending w ("CWD " ++ p))).answers 250 = true ∧ P s₂.current_directory_

def reported (dir : Str) : Option Str :=
  ((Reply.final 257 ("\"" ++ dir ++ "\"")).customized s.current_virtual_host_).quoted

/-- What is left of a path as the argument of CWD: a line has an end and a greatest length, and its
blanks are trimmed. -/
def heard (p : Str) : Str := (Command.parse (s.readLine ⟨"CWD " ++ p ++ "\r\n", true⟩).line).argument

def home : Str := (s.current_user_.map (·.home_directory_)).getD "/"

def Unworded : Prop := ∀ h ∈ s.current_virtual_host_, h.getCustomError (decimal 257) = []

variable {env me} {s} {s' : Session} {a : Arrival} {w w' : World} {fs : FileSystem} {p dir : Str}

lemma closing_none {y : Str} (hy : 34 ∉ y) : closing false y = none := by
  induction y with
  | nil => rfl
  | cons c y ih =>
    rw [List.mem_cons, not_or] at hy
    simp [closing, Ne.symm hy.1, ih hy.2]

lemma closing_append (after_quote : Bool) {x y : Str} (hy : 34 ∉ y) :
    closing after_quote (x ++ 34 :: y) = closing after_quote (x ++ [34]) := by
  induction x generalizing after_quote with
  | nil =>
    cases after_quote with
    | true => simp [closing, closing_none hy]
    | false =>
      cases y with
      | nil => rfl
      | cons d y =>
        rw [List.mem_cons, not_or] at hy
        simp [closing, Ne.symm hy.1]
  | cons c x ih => simp only [List.cons_append, closing, ih]

lemma closing_plain {x : Str} (hx : 34 ∉ x) : closing false (x ++ [34]) = some x := by
  induction x with
  | nil => rfl
  | cons c x ih =>
    rw [List.mem_cons, not_or] at hx
    simp [closing, Ne.symm hx.1, ih hx.2]

lemma customized_created (host : Option FTPVirtualHost) (dir : Str) :
    ((Reply.final 257 ("\"" ++ dir ++ "\" created")).customized host).quoted =
      ((Reply.final 257 ("\"" ++ dir ++ "\"")).customized host).quoted := by
  have htext : SimpleSftpd.quoted ("\"" ++ dir ++ "\" created") = SimpleSftpd.quoted ("\"" ++ dir ++ "\"") :=
    closing_append false (x := dir) (y := " created") (by decide)
  cases host with
  | none => exact htext
  | some h =>
    simp only [Reply.customized]
    split
    · exact htext
    · rfl

lemma quoted_singleton (r : Reply) : [r].findSome? Reply.quoted = r.quoted := by
  rw [List.findSome?_cons]
  cases r.quoted <;> rfl

lemma pwd_quoted (hs : s.socket_ ≠ none) (hauth : s.authenticated_ = true) (hv : a.command.verb = .pwd) :
    s.after env me a = some s ∧ (s.trace env me a).quoted = s.reported s.current_directory_ := by
  have hyields : Yields me (s.dispatch env a.line) a.world
      (fun rs s' _ => s' = s ∧ rs.findSome? Reply.quoted = s.reported s.current_directory_) fun _ => False := by
    rw [dispatch_handle (.inr hauth), Arrival.command_eq hv]
    exact yields_return hs fun _ _ => ⟨rfl, quoted_singleton _⟩
  rcases yields_dispatch hyields with ⟨s', _, hs', rfl, hquoted⟩ | ⟨_, h⟩
  · exact ⟨hs', hquoted⟩
  · exact h.elim

def leaves (env : Service) (me : SessionId) (s : Session) (a : Arrival) : World :=
  ((s.dispatch env a.line).exec (World.machine me) a.world).2

lemma yields_leaves {Q : List Reply → Session → World → Prop} {E : List Reply → Prop}
    (h : Yields me (s.dispatch env a.line) a.world Q E) :
    (∃ s', s.after env me a = some s' ∧ Q (s.trace env me a).replies s' (s.leaves env me a)) ∨
      s.after env me a = none ∧ E (s.trace env me a).replies := by
  unfold Yields at h
  unfold after trace leaves
  cases he : (s.dispatch env a.line).exec (World.machine me) a.world with
  | mk r w' =>
    rw [he] at h
    cases r with
    | ok s' => exact .inl ⟨s', rfl, h⟩
    | error e => exact .inr ⟨rfl, h⟩

lemma mkd_quoted (hs : s.socket_ ≠ none) (hauth : s.authenticated_ = true) (hv : a.command.verb = .mkd)
    (hdir : dir = s.resolvePath a.world.fs a.command.argument) (h257 : (s.trace env me a).answers 257 = true) :
    (s.after env me a = some s ∧ (s.trace env me a).quoted = s.reported dir) ∧
      (a.world.fs.createDirectory dir).1 = .ok true ∧
        (s.leaves env me a).fs = (a.world.fs.createDirectory dir).2 := by
  have hyields : Yields me (s.dispatch env a.line) a.world (fun rs s' w' => s' = s ∧ (answeredWith 257 rs = true →
      rs.findSome? Reply.quoted = s.reported dir ∧ (a.world.fs.createDirectory dir).1 = .ok true ∧
        w'.fs = (a.world.fs.createDirectory dir).2)) fun rs => rs = [] := by
    have hrefused {text : Str} {P : Prop}
        (h : answeredWith 257 [(Reply.final 550 text).customized s.current_virtual_host_] = true) :
        P := by simp at h
    rw [dispatch_handle (.inr hauth), Arrival.command_eq hv]
    refine yields_bind ?_
    unfold handleMKD
    refine yields_call rfl (yields_ite (fun _ => ?_) fun _ => yields_ite (fun _ => ?_) fun _ => yields_call rfl ?_)
    · exact yields_reply hs fun _ _ => yields_pure ⟨rfl, hrefused⟩
    · exact yields_reply hs fun _ _ => yields_pure ⟨rfl, hrefused⟩
    · subst hdir
      refine yields_orThrow (fun made hmade => yields_ite (fun htrue => ?_) fun _ => ?_) fun _ _ => rfl
      · refine yields_reply hs fun w' hcalm => ?_
        refine yields_pure ⟨rfl, fun _ => ⟨?_, ?_, hcalm.fs⟩⟩
        · exact (quoted_singleton _).trans (customized_created _ _)
        · rw [htrue] at hmade
          exact hmade
      · exact yields_reply hs fun _ _ => yields_pure ⟨rfl, hrefused⟩
  rcases yields_leaves hyields with ⟨s', hs', rfl, hquoted⟩ | ⟨_, h⟩
  · obtain ⟨hreported, hmade, hleaves⟩ := hquoted h257
    exact ⟨⟨hs', hreported⟩, hmade, hleaves⟩
  · rw [Trace.answers_eq, h] at h257
    cases h257

lemma cwd_accepted (hs : s.socket_ ≠ none) (hauth : s.authenticated_ = true) (hv : a.command.verb = .cwd)
    {P : Str → Prop}
    {dir : Str} (hresolve : s.resolvePath a.world.fs a.command.argument = dir) :
    (∃ s₂, s.after env me a = some s₂ ∧ (s.trace env me a).answers 250 = true ∧ P s₂.current_directory_) ↔
      s.validatePath a.world.fs dir = true ∧ a.world.fs.status dir = .ok .directory ∧ P dir := by
  subst hresolve
  let dir := s.resolvePath a.world.fs a.command.argument
  let valid := s.validatePath a.world.fs dir = true ∧ a.world.fs.status dir = .ok .directory
  have hyields : Yields me (s.dispatch env a.line) a.world
      (fun rs s' _ => (valid ∧ answeredWith 250 rs = true ∧ s'.current_directory_ = dir) ∨
        ¬valid ∧ answeredWith 250 rs = false) fun rs => ¬valid ∧ rs = [] := by
    rw [dispatch_handle (.inr hauth), Arrival.command_eq hv]
    refine yields_bind ?_
    unfold handleCWD
    refine yields_call rfl (yields_ite (fun hinvalid => ?_) fun hvalid => yields_call rfl ?_)
    · have hinvalid : s.validatePath a.world.fs dir = false := by simpa using hinvalid
      refine yields_return hs fun _ _ => ?_
      exact yields_pure (.inr ⟨fun h => Bool.false_ne_true (hinvalid.symm.trans h.1), by simp⟩)
    · refine yields_orThrow (fun found hfound => yields_ite (fun hdir => ?_) fun hdir => ?_) fun e he => ?_
      · refine yields_return hs fun _ _ => ?_
        exact yields_pure (.inl ⟨⟨by simpa using hvalid, by simpa using hdir ▸ hfound⟩, by simp, rfl⟩)
      · refine yields_return hs fun _ _ => ?_
        exact yields_pure (.inr ⟨fun h => hdir (Except.ok.inj (hfound.symm.trans h.2)), by simp⟩)
      · exact ⟨fun h => (by cases he.symm.trans h.2), rfl⟩
  rcases yields_dispatch hyields with ⟨s', _, hs', hends⟩ | ⟨hnone, hends, _⟩
  · rw [Trace.answers_eq, hs']
    rcases hends with ⟨hvalid, h250, hdir⟩ | ⟨hvalid, h250⟩
    · rw [h250]
      simp only [Option.some.injEq, exists_eq_left', true_and, hdir]
      exact ⟨fun h => ⟨hvalid.1, hvalid.2, h⟩, fun h => h.2.2⟩
    · rw [h250]
      refine ⟨fun ⟨_, _, h, _⟩ => (by cases h), fun h => absurd ⟨h.1, h.2.1⟩ hvalid⟩
  · rw [hnone]
    exact ⟨fun ⟨_, h, _⟩ => (by cases h), fun h => absurd ⟨h.1, h.2.1⟩ hends⟩

lemma prefix_chomp {start line : Str} (h : start <+: line) (hstart : start.getLast? ≠ some 13) :
    start <+: chomp line := by
  unfold chomp
  split
  · rename_i hline
    obtain ⟨rest, rfl⟩ := h
    rcases List.eq_nil_or_concat rest with rfl | ⟨rest, c, rfl⟩
    · rw [List.append_nil] at hline
      exact absurd hline hstart
    · rw [List.concat_eq_append, ← List.append_assoc, List.dropLast_concat]
      exact List.prefix_append start rest
  · exact h

lemma prefix_readLineFrom {orderly : Bool} {start line : Str} (h : start <+: line)
    (hstart : start.getLast? ≠ some 13)
    (bytes : Str) : start <+: (readLineFrom orderly line bytes).line := by
  induction bytes generalizing line with
  | nil => exact h
  | cons c bytes ih =>
    have hnext : start <+: line ++ [c] := h.trans (List.prefix_append line [c])
    unfold readLineFrom
    split
    · exact prefix_chomp h hstart
    · split
      · exact hnext
      · exact ih hnext

lemma sending_command (hs : s.socket_ ≠ none) (p : Str) :
    (s.sending w ("CWD " ++ p)).command = ⟨.cwd, s.heard p⟩ := by
  have hstart : ("CWD " : Str) <+: (s.readLine ⟨"CWD " ++ p ++ "\r\n", true⟩).line := by
    rw [readLine, if_neg hs]
    have hpre : ("CWD " : Str) <+: "CWD " := List.prefix_refl _
    exact prefix_readLineFrom hpre (by decide) (p ++ "\r\n")
  obtain ⟨rest, hline⟩ := hstart
  have hverb : (Command.parse ("CWD " ++ rest)).verb = .cwd := rfl
  unfold heard
  rw [Arrival.command, sending, ← hline] at *
  rw [← hverb]

lemma readsBack_iff (hs : s.socket_ ≠ none) (hauth : s.authenticated_ = true) {reported : Option Str}
    (hreply : s.after env me a = some s ∧ (s.trace env me a).quoted = reported) {P : Str → Prop} :
    s.ReadsBack env me a w P ↔ ∃ p ∈ reported, s.validatePath w.fs (s.resolvePath w.fs (s.heard p)) = true ∧
      w.fs.status (s.resolvePath w.fs (s.heard p)) = .ok .directory ∧ P (s.resolvePath w.fs (s.heard p)) := by
  unfold ReadsBack
  rw [hreply.1, hreply.2]
  simp only [Option.some.injEq, exists_eq_left']
  refine exists_congr fun p => and_congr_right fun _ => ?_
  have hcommand : (s.sending w ("CWD " ++ p)).command = ⟨.cwd, s.heard p⟩ := sending_command hs p
  exact cwd_accepted hs hauth (by rw [hcommand]) (by rw [hcommand]; rfl)

end Session

def Cxx.FileSystem.IsMade (old new : FileSystem) (dir : Str) : Prop :=
  ∃ l, old.node l = none ∧ new.node l = some .directory ∧ new.locate dir = .ok l

structure IsPlain (p : Str) : Prop where
  slash : p.head? = some 47 ∧ p.tail.head? ≠ some 47
  quote : 34 ∉ p
  line : 10 ∉ p
  short : p.length ≤ 1018
  last : ∀ c ∈ p.getLast?, isBlank c = false

instance (p : Str) : Decidable (IsPlain p) :=
  decidable_of_iff ((p.head? = some 47 ∧ p.tail.head? ≠ some 47) ∧ 34 ∉ p ∧ 10 ∉ p ∧ p.length ≤ 1018 ∧
    p.getLast?.all (fun c => !isBlank c) = true)
    ⟨fun h => ⟨h.1, h.2.1, h.2.2.1, h.2.2.2.1,
        fun c hc => by simpa using (Option.all_eq_true _ _).1 h.2.2.2.2 c hc⟩,
      fun h => ⟨h.slash, h.quote, h.line, h.short, (Option.all_eq_true _ _).2 fun c hc => by simp [h.last c hc]⟩⟩

structure Cxx.FileSystem.Shows (fs : FileSystem) (p : Str) : Prop where
  plain : IsPlain p
  status : fs.status p = .ok .directory
  canonical : fs.canonical p = .ok p

namespace Session

variable {env : Service} {me : SessionId} {s : Session} {a : Arrival} {w : World} {fs : FileSystem}
    {u : FTPUser} {p : Str}

lemma reported_plain (hhost : s.Unworded) (hp : IsPlain p) :
    s.reported p = some p := by
  have htext : quoted ("\"" ++ p ++ "\"") = some p := closing_plain hp.quote
  unfold reported
  cases hh : s.current_virtual_host_ with
  | none => exact htext
  | some h =>
    simp only [Reply.customized, hhost h hh, if_true]
    exact htext

lemma argument_plain (hp : IsPlain p) : (Command.parse ("CWD " ++ p)).argument = p := by
  have hline : getline (32 :: p) = 32 :: p := by
    refine List.takeWhile_eq_self_iff.2 fun c hc => ?_
    rcases List.mem_cons.1 hc with rfl | hc
    · rfl
    · simpa using fun h : c = 10 => hp.line (h ▸ hc)
  have hleft : trimLeft (32 :: p) = p := by
    obtain ⟨rest, rfl⟩ : ∃ rest, p = 47 :: rest := List.head?_eq_some_iff.1 hp.slash.1
    rfl
  have hright : trimRight p = p := trimRight_self hp.last
  change trimRight (trimLeft (getline (32 :: p))) = p
  rw [hline, hleft, hright]

lemma heard_plain (hs : s.socket_ ≠ none) (hp : IsPlain p) : s.heard p = p := by
  have hshort := hp.short
  have hread : s.readLine ⟨"CWD " ++ p ++ "\r\n", true⟩ = ⟨"CWD " ++ p, ⟨[], true⟩, true⟩ := by
    have hr : 10 ∉ ("CWD " ++ p ++ "\r" : Str) := by
      simp only [List.mem_append, not_or]
      exact ⟨⟨by decide, hp.line⟩, by decide⟩
    have hlen : ([] : Str).length + ("CWD " ++ p ++ "\r" : Str).length ≤ 1024 := by
      have : ("CWD " ++ p ++ "\r" : Str).length = 4 + p.length + 1 := by
        simp only [List.length_append]
        rfl
      simp only [List.length_nil, this]
      omega
    have hsplit : ("CWD " ++ p ++ "\r\n" : Str) = ("CWD " ++ p ++ "\r" : Str) ++ 10 :: [] := by
      simp only [List.append_assoc]
      rfl
    rw [readLine, if_neg hs, hsplit, readLineFrom_line hr hlen]
    have hchomp : chomp ("CWD " ++ p ++ "\r") = "CWD " ++ p := by
      unfold chomp
      change (if (("CWD " ++ p : Str) ++ [13]).getLast? = some 13 then
        (("CWD " ++ p : Str) ++ [13]).dropLast else _) = _
      rw [List.getLast?_concat, if_pos rfl, List.dropLast_concat]
    rw [List.nil_append, hchomp]
  unfold heard
  rw [hread]
  exact argument_plain hp

lemma resolvePath_plain (hp : IsPlain p) :
    s.resolvePath fs p = normalizeForComparison fs (Path.join s.home (Path.relativePath p)) := by
  have hne : p ≠ [] := fun h => by simpa [h] using hp.slash.1
  rw [resolvePath, if_neg hne, if_pos hp.slash.1, home]
  cases s.current_user_ <;> rfl

lemma relativePath_plain (hp : IsPlain p) : p = 47 :: Path.relativePath p := by
  obtain ⟨hhead, htail⟩ := hp.slash
  obtain ⟨rest, rfl⟩ := List.head?_eq_some_iff.1 hhead
  exact congrArg (47 :: ·) (Path.relativePath_of_relative (decide_eq_false htail)).symm

lemma join_root (hp : IsPlain p) : Path.join "/" (Path.relativePath p) = p := by
  conv_rhs => rw [relativePath_plain hp]
  rw [Path.join, Path.isAbsolute_relativePath]
  rfl

lemma leads_below (home : Str) (hclean : ∀ c ∈ Path.names p, Path.IsName c) :
    Path.leads (Path.join home (Path.relativePath p)) = Path.leads home ++ Path.names p := by
  rw [Path.leads_join (Path.isAbsolute_relativePath p), Path.components_eq,
    Path.walkFrom_relativePath p fun c hc => Path.isName_leads hc, Path.walkFrom_eq fun c hc =>
      Path.isName_leads hc,
    Path.foldl_push_names _ hclean, List.reverse_append, List.reverse_reverse, List.reverse_reverse]

lemma resolvePath_root (hroot : s.home = "/") (h : fs.Shows p) : s.resolvePath fs p = p := by
  have hne : p ≠ [] := fun hnil => by simpa [hnil] using h.plain.slash.1
  have hweakly : fs.weaklyCanonical p = .ok p := by
    rw [FileSystem.weaklyCanonical, h.status]
    exact h.canonical
  rw [resolvePath_plain h.plain, hroot, join_root h.plain, normalizeForComparison_eq hweakly hne]

section LinkFree

variable (hfs : fs.LinkFree) (h : fs.Shows p)

include hfs h

lemma names_shown :
    Path.names p = Path.leads p ∧ (∀ c ∈ Path.names p, Path.IsName c) ∧
    p = 47 :: Path.joinNames (Path.names p) := by
  have hself := hfs.canonical h.canonical
  have hclean : ∀ c ∈ Path.leads p, 47 ∉ c ∧ c ≠ [] :=
    fun c hc => ⟨(Path.isName_leads hc).slash, (Path.isName_leads hc).nonempty⟩
  have hnames : Path.names p = Path.leads p := by
    conv_lhs => rw [hself]
    exact (Path.names_slash _).trans (Path.names_joinNames hclean)
  rw [hnames]
  exact ⟨rfl, fun c hc => Path.isName_leads hc, hself⟩

lemma leads_resolvePath (hhome : Path.isAbsolute s.home = true) :
    Path.leads (s.resolvePath fs p) = Path.leads s.home ++ Path.leads p := by
  obtain ⟨hnames, hclean, _⟩ := names_shown hfs h
  have hform := normalizeForComparison_form hfs (Path.isAbsolute_join hhome (Path.relativePath p))
  rw [Path.components_eq] at hform
  have hleads := hform.names_leads
  rw [resolvePath_plain h.plain, Path.leads_eq_names fun c hc => Path.isName_leads (hleads ▸ hc), hleads,
    leads_below s.home hclean, hnames]

lemma keepsSlash_below (hne : Path.names p ≠ []) (home : Str) :
    Path.keepsSlash (Path.join home (Path.relativePath p)) = false := by
  obtain ⟨_, hclean, hself⟩ := names_shown hfs h
  have hrelative : Path.isAbsolute (Path.relativePath p) = false := Path.isAbsolute_relativePath p
  have hkeeps : Path.keepsSlash p = false := by
    have hroot := Path.keepsSlash_root_join hclean
    rw [← hself] at hroot
    exact hroot.resolve_left hne
  have hrest : Path.relativePath p ≠ [] := fun hnil => by
    rw [← Path.names_relativePath, hnil] at hne
    exact hne rfl
  have hends : Path.endsWithSlash (Path.relativePath p) = false := by
    have hpath := (Bool.or_eq_false_iff.1 hkeeps).1
    rw [relativePath_plain h.plain, Path.endsWithSlash, List.getLast?_cons_of_ne_nil hrest] at hpath
    exact hpath
  have hlast : (Path.names (Path.join home (Path.relativePath p))).getLast? = (Path.names p).getLast? := by
    rw [Path.names_join hrelative, Path.names_relativePath, List.getLast?_append_of_ne_nil _ hne]
  exact Path.keepsSlash_congr (Path.endsWithSlash_join_of hrelative hrest hends) hlast hkeeps

lemma resolvePath_self (hhome : Path.isAbsolute s.home = true) (hroot : Path.leads s.home = []) :
    s.resolvePath fs p = p := by
  obtain ⟨_, hclean, hself⟩ := names_shown hfs h
  have habs := Path.isAbsolute_join hhome (Path.relativePath p)
  have hbelow := leads_below s.home hclean
  rw [hroot, List.nil_append] at hbelow
  have hform := normalizeForComparison_form hfs habs
  rw [Path.components_eq] at hform
  have hnames := hform.names_leads
  rw [hbelow] at hform hnames
  rw [resolvePath_plain h.plain]
  rcases hform with hform | ⟨hne, hslash⟩
  · rw [hform]
    exact hself.symm
  · have hplain := normalizeForComparison_plain hfs habs (keepsSlash_below hfs h hne s.home)
    have hends : Path.endsWithSlash (47 :: Path.joinNames (Path.names p) ++ [47]) = true :=
      decide_eq_true (List.getLast?_concat (l := 47 :: Path.joinNames (Path.names p)))
    rw [← hslash] at hends
    exact absurd (hnames.symm.trans (hplain hends)) hne

end LinkFree

lemma readsBack_shown (hs : s.socket_ ≠ none) (hauth : s.authenticated_ = true) (hhost : s.Unworded)
    (hreply : s.after env me a = some s ∧ (s.trace env me a).quoted = s.reported p) (h : w.fs.Shows p)
    {P : Str → Prop}
    (hp : P p) (hleads : w.fs.LinkFree → ∀ q, P q → Path.leads q = Path.leads p) :
    (s.home = "/" → s.validatePath w.fs p = true → s.ReadsBack env me a w P) ∧
      (w.fs.LinkFree → Path.isAbsolute s.home = true →
        (s.ReadsBack env me a w P ↔ Path.leads s.home = [] ∧ s.validatePath w.fs p = true)) := by
  rw [readsBack_iff hs hauth hreply, reported_plain hhost h.plain]
  simp only [Option.mem_some_iff, exists_eq_left', heard_plain hs h.plain]
  constructor
  · intro hroot hvalid
    rw [resolvePath_root hroot h]
    exact ⟨hvalid, h.status, hp⟩
  · intro hfs hhome
    constructor
    · rintro ⟨hvalid, _, hq⟩
      have hnames := leads_resolvePath hfs h hhome
      rw [hleads hfs _ hq] at hnames
      have hroot := List.self_eq_append_left.1 hnames
      rw [resolvePath_self hfs h hhome hroot] at hvalid
      exact ⟨hroot, hvalid⟩
    · rintro ⟨hroot, hvalid⟩
      rw [resolvePath_self hfs h hhome hroot]
      exact ⟨hvalid, h.status, hp⟩

end Session

/-- Where the home directory is the root directory, the path in a 257 reply is good for CWD if it is valid;
in a tree without links it is good only there. -/
theorem reported_paths_read_back (env : Service) (me : SessionId) {s : Session}
    (h : (sessionSystem env me).Reach System.anyStep s) (hauth : s.authenticated_ = true) (hhost : s.Unworded) :
    (∀ (a : Arrival) (w : World), a.command.verb = .pwd → w.fs.Shows s.current_directory_ →
      (s.home = "/" → s.validatePath w.fs s.current_directory_ = true →
        s.ReadsBack env me a w (· = s.current_directory_)) ∧
      (w.fs.LinkFree → Path.isAbsolute s.home = true →
        (s.ReadsBack env me a w (· = s.current_directory_) ↔
          Path.leads s.home = [] ∧ s.validatePath w.fs s.current_directory_ = true))) ∧
    ∀ (a : Arrival) (w : World), a.command.verb = .mkd → (s.trace env me a).answers 257 = true →
      let made := s.resolvePath a.world.fs a.command.argument
      let new := (s.leaves env me a).fs
      new.Shows made →
        (s.home = "/" → s.validatePath new made = true →
          s.ReadsBack env me a (w.withFs new) (a.world.fs.IsMade new)) ∧
        (new.LinkFree → Path.isAbsolute s.home = true →
          (s.ReadsBack env me a (w.withFs new) (a.world.fs.IsMade new) ↔
            Path.leads s.home = [] ∧ s.validatePath new made = true)) := by
  have hs := Session.connected_of_reach h
  constructor
  · intro a w hv hshows
    refine Session.readsBack_shown hs hauth hhost (Session.pwd_quoted hs hauth hv) hshows rfl fun _ q hq => ?_
    exact congrArg _ hq
  · intro a w hv h257 made new hshows
    obtain ⟨hreply, hmade, hnew⟩ := Session.mkd_quoted hs hauth hv rfl h257
    obtain ⟨l, hl, honly⟩ := FileSystem.createDirectory_made hmade
    rw [← hnew] at hl honly
    obtain ⟨hnone, hdirectory⟩ := (honly l).2 rfl
    have hfound : a.world.fs.IsMade new made := ⟨l, hnone, hdirectory, hl⟩
    refine Session.readsBack_shown (w := w.withFs new) hs hauth hhost hreply hshows hfound ?_
    rintro hfs q ⟨m, hm, hmnew, hq⟩
    obtain rfl := (honly m).1 ⟨hm, hmnew⟩
    exact List.append_cancel_left ((hfs.locate hq).symm.trans (hfs.locate hl))

namespace ReportedPaths

def tree : FileSystem := ⟨[(["home"], .directory), (["home", "u"], .directory)], [], fun _ _ _ => none, []⟩

def service (home : Str) : Service := .standard [⟨"u", "p", home, [], [], false, 0, 0⟩] []

def lines (lines : List String) : List Arrival := lines.map fun line => ⟨.favourable tree, ascii line⟩

def arrival (line : Str) : Arrival := ⟨.favourable tree, line⟩

end ReportedPaths

section

open ReportedPaths

theorem reported_paths_read_back_root : ∃ s : Session, s.current_directory_ = ascii "/home" ∧
    s.ReadsBack (service "/") 0 (arrival "PWD") (.favourable tree) (· = s.current_directory_) ∧
    s.ReadsBack (service "/") 0 (arrival "MKD d")
      ((World.favourable tree).withFs (s.leaves (service "/") 0 (arrival "MKD d")).fs)
      (tree.IsMade (s.leaves (service "/") 0 (arrival "MKD d")).fs) := by
  obtain ⟨s, hs, he⟩ := Option.map_eq_some_iff.1 (show
    ((sessionSystem (service "/") 0).run System.anyStep (.opened 3 false false)
      (lines ["USER u", "PASS p", "CWD home"])).map (fun s =>
        let made := (s.leaves (service "/") 0 (arrival "MKD d")).fs
        decide ((s.authenticated_ = true ∧ s.current_directory_ = ascii "/home" ∧ s.home = ascii "/" ∧
          s.current_virtual_host_ = none) ∧
          s.validatePath tree "/home" = true ∧ (s.trace (service "/") 0 (arrival "MKD d")).answers 257 = true ∧
          s.resolvePath tree "d" = ascii "/home/d" ∧ s.validatePath made "/home/d" = true ∧ IsPlain "/home/d" ∧
          made.status "/home/d" = .ok .directory ∧ made.canonical "/home/d" = .ok (ascii "/home/d"))) =
            some true by decide +kernel)
  obtain ⟨⟨hauth, hdir, hhome, hhost⟩, hvalid, h257, hmade, hvalid', hplain, hstatus, hcanonical⟩ :=
    of_decide_eq_true he
  have hshows : tree.Shows s.current_directory_ := by
    rw [hdir]
    exact ⟨by decide +kernel, by decide +kernel, by decide +kernel⟩
  have hreach : (sessionSystem (service "/") 0).Reach System.anyStep s := .run (.init ⟨_, _, _, rfl⟩) hs
  have hunworded : s.Unworded := by
    rw [Session.Unworded, hhost]
    exact fun _ h => by cases h
  obtain ⟨hpwd, hmkd⟩ := reported_paths_read_back (service "/") 0 hreach hauth hunworded
  refine ⟨s, hdir, (hpwd _ _ rfl hshows).1 hhome (by rw [hdir]; exact hvalid), ?_⟩
  refine (hmkd _ _ rfl h257 ?_).1 hhome ?_
  · exact hmade ▸ ⟨hplain, hstatus, hcanonical⟩
  · exact hmade ▸ hvalid'

theorem reported_paths_do_not_read_back :
    ∃ s : Session, (sessionSystem (service "/home/u") 0).Reach System.anyStep s ∧
    s.authenticated_ = true ∧ tree.status s.current_directory_ = .ok .directory ∧
      ¬s.ReadsBack (service "/home/u") 0 (arrival "PWD") (.favourable tree) (· = s.current_directory_) := by
  obtain ⟨s, hs, he⟩ := Option.map_eq_some_iff.1 (show
    ((sessionSystem (service "/home/u") 0).run System.anyStep (.opened 3 false false)
      (lines ["USER u", "PASS p"])).map (fun s => decide ((s.authenticated_ = true ∧ s.socket_ = some 3 ∧
        s.current_directory_ = ascii "/home/u") ∧ s.reported "/home/u" = some (ascii "/home/u") ∧
        s.resolvePath tree (s.heard "/home/u") = ascii "/home/u/home/u")) = some true by decide +kernel)
  obtain ⟨⟨hauth, hsocket, hdir⟩, hreported, hresolved⟩ := of_decide_eq_true he
  have hstatus : tree.status s.current_directory_ = .ok .directory := by
    rw [hdir]
    decide +kernel
  refine ⟨s, .run (.init ⟨_, _, _, rfl⟩) hs, hauth, hstatus, fun hback => ?_⟩
  obtain ⟨p, hp, _, _, hself⟩ :=
    (Session.readsBack_iff (by simp [hsocket]) hauth (Session.pwd_quoted (by simp [hsocket]) hauth rfl)).1 hback
  rw [hdir, hreported] at hp
  cases hp
  rw [hdir] at hself
  exact absurd (hresolved.symm.trans hself) (by decide)

end

end SimpleSftpd
