import SimpleSftpd.Core.Descriptors
import SimpleSftpd.Core.Ledger
import SimpleSftpd.Core.Returns

namespace SimpleSftpd

open Cxx Interaction Prog

inductive Completion : List Reply → Prop
  | line (code : ℕ) (text : Str) : 200 ≤ code → Completion [.final code text]
  | lines (code : ℕ) (text : Str) (inner : List Str) (text' : Str) : 200 ≤ code →
      Completion (.opening code text :: (inner.map .inner ++ [.final code text']))

def Completes (rs : List Reply) : Prop :=
  Completion rs ∨ ∃ text rs', Completion rs' ∧ rs = .final 150 text :: rs'

def Call.failed {β : Type} (o : Call β) : β → Bool := match o with
  | .status _ => fun r => !r.isOk
  | .fileSize _ => fun r => !r.isOk
  | .remove _ | .createDirectory _ | .createDirectories _ => fun r => !r.isOk
  | .allocate _ => fun made => !made
  | _ => fun _ => false

def Call.received? {β : Type} : Call β → Option (Str × Bool)
  | .recv _ (some data) => some (data, decide (data = []))
  | _ => none

def Call.Tells {β : Type} (fs : FileSystem) (o : Call β) : β → Prop := match o with
  | .nameSpace => fun r => r = fs
  | .status p => fun r => r = fs.status p
  | _ => fun _ => True

def Session.listed (s : Session) (fs : FileSystem) (path : Str) : Str :=
  if path = [] then s.current_directory_ else s.resolvePath fs path

structure Conduct where
  replies : List Reply := []
  failed : Bool := false
  received : List (Str × Bool) := []
  changed : Bool := false

namespace Conduct

def next (u : (Σ β, Call β) → Bool) (g : Conduct) {β : Type} (o : Call β) (r : β) : Conduct where
  replies := g.replies ++ o.reply?.toList
  failed := g.failed || (u ⟨β, o⟩ && o.failed r)
  received := g.received ++ o.received?.toList
  changed := g.changed || decide (o.kind ∈ [.change, .write, .chroot])

def calls (u : (Σ β, Call β) → Bool) (fs : FileSystem) : Contract Call Conduct where
  pre _ _ := True
  post g o r := g.changed = false → o.Tells fs r
  next g o r := g.next u o r

structure Open (h : List (Str × Bool) → Bool) (g : Conduct) : Prop where
  failed : g.failed = false
  calm : h g.received = false
  replies : g.replies = [] ∨ ∃ text, g.replies = [.final 150 text]

structure Done (h : List (Str × Bool) → Bool) (g : Conduct) : Prop where
  failed : g.failed = false
  calm : h g.received = false
  replies : Completes g.replies

def Broken (h : List (Str × Bool) → Bool) (g : Conduct) : Prop := g.failed = true ∨ h g.received = true

variable {u : (Σ β, Call β) → Bool} {fs : FileSystem} {h : List (Str × Bool) → Bool} {g : Conduct}

lemma calls_describes (me : SessionId) :
    (calls u fs).Describes (World.machine me) fun g w => g.changed = false → w.fs = fs := by
  intro β g w o hw _
  constructor
  · intro hchanged
    cases o with
    | nameSpace => exact hw hchanged
    | status p => exact congrArg (FileSystem.status · p) (hw hchanged)
    | _ => trivial
  · intro hchanged
    obtain ⟨hbefore, hkind⟩ := Bool.or_eq_false_iff.1 hchanged
    have hkind : o.kind ∉ [.change, .write, .chroot] := of_decide_eq_false hkind
    exact (World.answer_fs o hkind).trans (hw hbefore)

def Hushed (u : (Σ β, Call β) → Bool) (o : Σ β, Call β) : Prop := ∀ (g : Conduct) (r : o.1), g.next u o.2 r = g

lemma next_eq {β : Type} {o : Call β} {r : β} (hreply : o.reply? = none) (hreceived : o.received? = none)
    (hfailed : (u ⟨β, o⟩ && o.failed r) = false) (hkind : o.kind ∉ [.change, .write, .chroot]) :
    g.next u o r = g := by
  simp only [next, hreply, hreceived, hfailed, Option.toList_none, List.append_nil, Bool.or_false,
    decide_eq_false hkind]

lemma failed_of_kind {β : Type} {o : Call β} (hq : o.kind ≠ .query) (hc : o.kind ≠ .change)
    (hm : o.kind ≠ .memory) (r : β) :
    o.failed r = false := by
  cases o with
  | allocate => exact absurd rfl hm
  | status | fileSize => exact absurd rfl hq
  | remove | createDirectory | createDirectories => exact absurd rfl hc
  | _ => rfl

lemma reply_of_kind {β : Type} {o : Call β} (ho : o.kind ≠ .reply) : o.reply? = none := by
  cases o with
  | sendControl => exact absurd rfl ho
  | _ => rfl

lemma received_of_kind {β : Type} {o : Call β} (ho : o.kind ≠ .transfer) : o.received? = none := by
  cases o with
  | recv => exact absurd rfl ho
  | _ => rfl

lemma hushed_plain {β : Type} {o : Call β} (hreply : o.reply? = none) (hreceived : o.received? = none)
    (hfailed : ∀ r, o.failed r = false) (hkind : o.kind ∉ [.change, .write, .chroot]) : Hushed u ⟨β, o⟩ :=
  fun _ r => next_eq hreply hreceived (by rw [hfailed r, Bool.and_false]) hkind

lemma hushed_of_kinds {ks : List Kind}
    (hks : ∀ k ∈ [Kind.reply, .query, .change, .memory, .write, .chroot, .transfer], k ∉ ks)
    {o : Σ β, Call β} (ho : Kinds ks o) : Hushed u o := by
  obtain ⟨β, o⟩ := o
  have hne {k : Kind} (hk : k ∈ [Kind.reply, .query, .change, .memory, .write, .chroot, .transfer]) : o.kind ≠ k :=
    fun he => hks k hk (he ▸ ho)
  intro g r
  apply next_eq (reply_of_kind (hne (by simp))) (received_of_kind (hne (by simp)))
  · rw [failed_of_kind (hne (by simp)) (hne (by simp)) (hne (by simp)), Bool.and_false]
  · simp [hne]

lemma hushed_of_query (hstatus : ∀ p, u ⟨_, .status p⟩ = false) (hsize : ∀ p, u ⟨_, .fileSize p⟩ = false)
    {o : Σ β, Call β} (ho : Kinds [.query] o) : Hushed u o := by
  obtain ⟨β, o⟩ := o
  have hkind : o.kind = .query := List.mem_singleton.1 ho
  intro g r
  apply next_eq (reply_of_kind (by simp [hkind])) (received_of_kind (by simp [hkind])) ?_ (by simp [hkind])
  cases o with
  | status p => rw [hstatus, Bool.false_and]
  | fileSize p => rw [hsize, Bool.false_and]
  | remove | createDirectory | createDirectories | allocate => cases hkind
  | _ => exact Bool.and_false _

lemma hushed_of_unlogged {o : Σ β, Call β} (ho : Ledger.Unlogged o)
    (hk : ∀ k ∈ [Kind.reply, .query, .change, .memory, .write, .chroot], o.2.kind ≠ k) : Hushed u o := by
  obtain ⟨β, o⟩ := o
  have hreceived : o.received? = none := by
    cases o with
    | recv fd result =>
      cases result with
      | none => rfl
      | some data =>
        cases data with
        | nil => exact absurd (congrArg Ledger.eof (ho {} ())) Bool.noConfusion
        | cons c data => exact absurd (congrArg Ledger.received (ho {} ())) (List.cons_ne_nil _ _)
    | _ => rfl
  intro g r
  apply next_eq (reply_of_kind (hk _ (by simp))) hreceived
  · rw [failed_of_kind (hk _ (by simp)) (hk _ (by simp)) (hk _ (by simp)), Bool.and_false]
  · simp [hk]

/-! Rules -/

section

variable {α β : Type} {P : α → Conduct → Prop} {E : Conduct → Prop} {s : Session}

lemma ends_call {o : Call β} {f : β → Io α}
    (hf : ∀ r, (g.changed = false → o.Tells fs r) → Ends (calls u fs) (f r) P E (g.next u o r)) :
    Ends (calls u fs) (perform o >>= f) P E g := ⟨trivial, hf⟩

lemma ends_ask {o : Call β} {f : β → Io α} (ho : Hushed u ⟨β, o⟩)
    (hf : ∀ r, (g.changed = false → o.Tells fs r) → Ends (calls u fs) (f r) P E g) :
    Ends (calls u fs) (perform o >>= f) P E g := by
  apply ends_call
  intro r hr
  rw [ho g r]
  exact hf r hr

lemma ends_hushed {p : Io β} {f : β → Io α} {P' : β → Prop} (hp : p.Within (Hushed u) P') (hr : p.Returns)
    (hf : ∀ b, P' b → Ends (calls u fs) (f b) P E g) : Ends (calls u fs) (p >>= f) P E g := by
  have hstill : Ends (calls u fs) p (fun b g' => P' b ∧ g' = g) (fun g' => g' = g) g :=
    Within.ends hp (fun o g' ho hg => ⟨trivial, fun r _ => (ho g' r).trans hg⟩) rfl
  apply ends_bind
  apply (hstill.of_returns hr).mono ?_ fun _ he => he
  rintro b _ ⟨hb, rfl⟩
  exact hf b hb

lemma Open.next {o : Call β} (hg : g.Open h) (hreply : o.reply? = none) (hfailed : ∀ r, o.failed r = false)
    (hcalm : h (g.received ++ o.received?.toList) = false) (r : β) : Open h (g.next u o r) := by
  refine ⟨?_, hcalm, ?_⟩
  · simp only [Conduct.next, hg.failed, hfailed, Bool.and_false, Bool.or_false]
  · simp only [Conduct.next, hreply, Option.toList_none, List.append_nil]
    exact hg.replies

lemma ends_loud {ks : List Kind} (hks : ∀ k ∈ [Kind.reply, .query, .change, .memory], k ∉ ks)
    (hcalm : ∀ l, h l = false)
    {p : Io β} {f : β → Io α} {K : (Σ β, Call β) → Prop} {P' : β → Prop} (hp : p.Within K P')
    (hK : ∀ o, K o → Kinds ks o)
    (hr : p.Returns) (hg : g.Open h) (hf : ∀ b g', P' b → Open h g' → Ends (calls u fs) (f b) P E g') :
    Ends (calls u fs) (p >>= f) P E g := by
  have hopen : Ends (calls u fs) p (fun b g' => P' b ∧ Open h g') (Open h) g := by
    apply Within.ends hp ?_ hg
    intro γ o g' ho hg'
    have hne {k : Kind} (hk : k ∈ [Kind.reply, .query, .change, .memory]) : o.kind ≠ k :=
      fun he => hks k hk (he ▸ hK _ ho)
    have hfailed (r : γ) : o.failed r = false := failed_of_kind (hne (by simp)) (hne (by simp)) (hne (by simp)) r
    exact ⟨trivial, fun r _ => hg'.next (reply_of_kind (hne (by simp))) hfailed (hcalm _) r⟩
  apply ends_bind
  apply (hopen.of_returns hr).mono ?_ fun _ he => he
  exact fun b g' hb => hf b g' hb.1 hb.2

lemma ends_steady {ks : List Kind} (hks : ∀ k ∈ [Kind.reply, .query, .change, .memory, .transfer], k ∉ ks)
    {p : Io β} {f : β → Io α} {P' : β → Prop} (hp : p.Within (Kinds ks) P') (hr : p.Returns) (hg : g.Open h)
    (hf : ∀ b g', Open h g' → g'.received = g.received → Ends (calls u fs) (f b) P E g') :
    Ends (calls u fs) (p >>= f) P E g := by
  have hopen : Ends (calls u fs) p (fun b g' => P' b ∧ Open h g' ∧ g'.received = g.received)
      (fun g' => Open h g' ∧ g'.received = g.received) g := by
    apply Within.ends hp ?_ ⟨hg, rfl⟩
    rintro γ o g' ho ⟨hg', hsame⟩
    have hne {k : Kind} (hk : k ∈ [Kind.reply, .query, .change, .memory, .transfer]) : o.kind ≠ k :=
      fun he => hks k hk (he ▸ ho)
    have hfailed (r : γ) : o.failed r = false := failed_of_kind (hne (by simp)) (hne (by simp)) (hne (by simp)) r
    have hreceived : g'.received ++ o.received?.toList = g.received := by
      rw [received_of_kind (hne (by simp)), Option.toList_none, List.append_nil, hsame]
    exact ⟨trivial, fun r _ =>
      ⟨hg'.next (reply_of_kind (hne (by simp))) hfailed (hreceived ▸ hg.calm) r, hreceived⟩⟩
  apply ends_bind
  apply (hopen.of_returns hr).mono ?_ fun _ he => he
  exact fun b g' hb => hf b g' hb.2.1 hb.2.2

lemma ends_try {o : Call (Except Errc β)} {f : β → Io α} (ho : u ⟨_, o⟩ = true)
    (hfailed : ∀ r, o.failed r = !r.isOk)
    (hreceived : o.received? = none) (hkind : o.kind = .query)
    (hf : ∀ b, (g.changed = false → o.Tells fs (.ok b)) → Ends (calls u fs) (f b) P (Broken h) g) :
    Ends (calls u fs) (perform o >>= fun r => orThrow r >>= f) P (Broken h) g := by
  have hreply : o.reply? = none := reply_of_kind (by simp [hkind])
  apply ends_call
  intro r hr
  cases r with
  | error e =>
    apply ends_throw
    exact .inl (by simp [next, ho, hfailed, Except.isOk, Except.toBool])
  | ok b =>
    have hsame : g.next u o (.ok b) = g :=
      next_eq hreply hreceived (by simp [hfailed, Except.isOk, Except.toBool]) (by simp [hkind])
    rw [hsame]
    exact hf b hr

lemma ends_makeBuffer {t : Retrieval} {f : Unit → Io α} (ho : u ⟨_, .allocate t.buf_size⟩ = true)
    (hf : Ends (calls u fs) (f ()) P (Broken h) g) : Ends (calls u fs) (t.makeBuffer >>= f) P (Broken h) g := by
  apply ends_bind
  apply ends_call
  intro made _
  cases made with
  | false =>
    apply ends_throw
    exact .inl (by simp [next, ho, Call.failed])
  | true =>
    have hsame : g.next u (.allocate t.buf_size) true = g :=
      next_eq rfl rfl (Bool.and_false _) (by simp [Call.kind])
    rw [hsame]
    exact ends_pure hf

lemma ends_change {o : Call (Except Errc β)} {f : β → Io α} (ho : u ⟨_, o⟩ = true)
    (hfailed : ∀ r, o.failed r = !r.isOk)
    (hreceived : o.received? = none) (hkind : o.kind = .change)
    (hf : ∀ b, Ends (calls u fs) (f b) P (Broken h) { g with changed := true }) :
    Ends (calls u fs) (perform o >>= fun r => orThrow r >>= f) P (Broken h) g := by
  have hreply : o.reply? = none := reply_of_kind (by simp [hkind])
  apply ends_call
  intro r _
  cases r with
  | error e =>
    apply ends_throw
    exact .inl (by simp [next, ho, hfailed, Except.isOk, Except.toBool])
  | ok b =>
    have hnext : g.next u o (.ok b) = { g with changed := true } := by
      simp [next, hreply, hreceived, hfailed, hkind, Except.isOk, Except.toBool]
    rw [hnext]
    exact hf b

lemma ends_send (hs : s.socket_ ≠ none) (r : Reply) {f : Unit → Io α}
    (hf : Ends (calls u fs) (f ()) P E { g with replies := g.replies ++ [r.customized s.current_virtual_host_] }) :
    Ends (calls u fs) (s.sendResponse r >>= f) P E g := by
  apply ends_bind
  rw [Session.sendResponse, if_neg hs]
  apply ends_call
  intro sent _
  have hnext (tls : Bool) : g.next u (.sendControl tls (r.customized s.current_virtual_host_)) sent =
      { g with replies := g.replies ++ [r.customized s.current_virtual_host_] } := by
    simp [next, Call.reply?, Call.received?, Call.failed, Call.kind]
  rw [hnext]
  apply ends_ite
  · exact fun _ => ends_pure hf
  · intro _
    have hstill (g : Conduct) : g.next u .deactivate () = g :=
      next_eq rfl rfl (Bool.and_false _) (by simp [Call.kind])
    apply ends_perform trivial
    intro _ _
    change Ends (calls u fs) (f ()) P E (Conduct.next u _ .deactivate ())
    rwa [hstill]

lemma customized_final (host : Option FTPVirtualHost) (code : ℕ) (text : Str) :
    ∃ text', (Reply.final code text).customized host = .final code text' := by
  cases host with
  | none => exact ⟨text, rfl⟩
  | some h =>
    rw [Reply.customized]
    split
    · exact ⟨_, rfl⟩
    · exact ⟨_, rfl⟩

lemma ends_reply (hs : s.socket_ ≠ none) {code : ℕ} {text : Str} {f : Unit → Io α}
    (hf : ∀ text', Ends (calls u fs) (f ()) P E { g with replies := g.replies ++ [.final code text'] }) :
    Ends (calls u fs) (s.reply code text >>= f) P E g := by
  obtain ⟨text', hcustomized⟩ := customized_final s.current_virtual_host_ code text
  apply ends_send hs
  rw [hcustomized]
  exact hf text'

lemma Open.answered (hg : g.Open h) {code : ℕ} (hcode : 200 ≤ code) (text : Str) :
    Done h { g with replies := g.replies ++ [.final code text] } := by
  refine ⟨hg.failed, hg.calm, ?_⟩
  have hline : Completion [.final code text] := .line code text hcode
  rcases hg.replies with hnone | ⟨text', hopened⟩
  · rw [hnone]
    exact .inl hline
  · rw [hopened]
    exact .inr ⟨text', _, hline, rfl⟩

lemma ends_return (hs : s.socket_ ≠ none) (hg : g.Open h) {code : ℕ} (hcode : 200 ≤ code) {text : Str} {a : α} :
    Ends (calls u fs) (s.reply code text >>= fun _ => pure a) (fun _ => Done h) E g := by
  apply ends_reply hs
  exact fun text' => ends_pure (hg.answered hcode text')

lemma ends_answer (hs : s.socket_ ≠ none) (hg : g.Open h) {code : ℕ} (hcode : 200 ≤ code) {text : Str} :
    Ends (calls u fs) (s.reply code text) (fun _ => Done h) E g := by
  have hreturn : Ends (calls u fs) (s.reply code text >>= fun _ => pure ()) (fun _ => Done h) E g :=
    ends_return hs hg hcode
  rwa [bind_pure] at hreturn

lemma ends_map {p : Io β} {f : β → α} (hp : Ends (calls u fs) p (fun _ => Done h) E g) :
    Ends (calls u fs) (p >>= fun b => pure (f b)) (fun _ => Done h) E g := by
  apply ends_bind
  exact hp.mono (fun _ _ hg => ends_pure hg) fun _ he => he

structure Amid (h : List (Str × Bool) → Bool) (code : ℕ) (g : Conduct) : Prop where
  failed : g.failed = false
  calm : h g.received = false
  replies : ∃ (text : Str) (inner : List Str), g.replies = .opening code text :: inner.map .inner

lemma Amid.inner {code : ℕ} (hg : g.Amid h code) (text : Str) :
    Amid h code { g with replies := g.replies ++ [.inner text] } := by
  obtain ⟨text', inner, hreplies⟩ := hg.replies
  refine ⟨hg.failed, hg.calm, text', inner ++ [text], ?_⟩
  rw [hreplies, List.map_append, List.map_singleton, List.cons_append]

lemma Amid.answered {code : ℕ} (hg : g.Amid h code) (hcode : 200 ≤ code) (text : Str) :
    Done h { g with replies := g.replies ++ [.final code text] } := by
  obtain ⟨text', inner, hreplies⟩ := hg.replies
  refine ⟨hg.failed, hg.calm, .inl ?_⟩
  rw [hreplies, List.cons_append]
  exact .lines code text' inner text hcode

lemma ends_finish (hs : s.socket_ ≠ none) {code : ℕ} (hg : g.Amid h code) (hcode : 200 ≤ code) {text : Str} :
    Ends (calls u fs) (s.reply code text) (fun _ => Done h) E g := by
  have hreply : Ends (calls u fs) (s.reply code text >>= fun _ => pure ()) (fun _ => Done h) E g := by
    apply ends_reply hs
    exact fun text' => ends_pure (hg.answered hcode text')
  rwa [bind_pure] at hreply

lemma ends_lines (hs : s.socket_ ≠ none) {code : ℕ} (hcode : 200 ≤ code) {text : Str} (inner : List Str) :
    ∀ g : Conduct, g.Amid h code →
      Ends (calls u fs) (s.sendLines (inner.map .inner ++ [.final code text])) (fun _ => Done h) E g := by
  induction inner with
  | nil =>
    intro g hg
    apply ends_reply hs
    exact fun text' => ends_pure (hg.answered hcode text')
  | cons t inner ih =>
    intro g hg
    apply ends_send hs
    exact ih _ (hg.inner t)

variable (hh : h [] = false)
include hh

lemma open_new : Open h {} := ⟨rfl, hh, .inl rfl⟩

lemma ends_open (hs : s.socket_ ≠ none) {code : ℕ} {text : Str} {f : Unit → Io α}
    (hf : ∀ g : Conduct, g.Amid h code → Ends (calls u fs) (f ()) P E g) :
    Ends (calls u fs) (s.sendResponse (.opening code text) >>= f) P E {} := by
  apply ends_send hs
  exact hf _ ⟨rfl, hh, text, [], rfl⟩

lemma ends_sendLines (hs : s.socket_ ≠ none) {code : ℕ} (hcode : 200 ≤ code) {text text' : Str}
    (inner : List Str) :
    Ends (calls u fs) (s.sendLines (.opening code text :: (inner.map .inner ++ [.final code text'])))
      (fun _ => Done h) E {} := by
  apply ends_open hh hs
  exact fun g hg => ends_lines hs hcode inner g hg

end

end Conduct

end SimpleSftpd
