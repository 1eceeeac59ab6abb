import SimpleSftpd.Core.Run

/-! What the calls of a transfer come to: the part of the file that was sent, the bytes received
and written, and the calls that fell short. -/

namespace SimpleSftpd

open Cxx Interaction Prog

structure Ledger where
  completed : Bool := false
  regular : Bool := false
  size : ℕ := 0
  target : Bool := false
  prepared : Bool := false
  stuck : Bool := false
  position : Int := 0
  held : Int × Str := (0, [])
  reads : List Str := []
  unread : Bool := false
  sent : List (Int × Int) := []
  offered : Str := []
  accepted : Str := []
  short : Bool := false
  received : List Str := []
  eof : Bool := false
  broken : Bool := false
  written : Str := []
  lost : Bool := false
  deriving DecidableEq

namespace Ledger

/-- The ledger after a call and its answer. A read holds its bytes at their place in the file, and
what a `send` accepts of them is entered under that place, as `sendfile` and the mapping do. -/
def next (g : Ledger) {β : Type} (o : Call β) : β → Ledger := match o with
  | .sendControl _ (.final code _) => fun _ => { g with completed := g.completed || code = 226 }
  | .fstat _ => fun
    | some (true, n) => { g with regular := true, size := n }
    | _ => g
  | .openWrite _ _ => fun
    | some _ => { g with target := true }
    | none => g
  | .zlibInit _ => fun valid => { g with prepared := g.prepared || valid, stuck := g.stuck || !valid }
  | .lseek _ pos => fun sought =>
    if sought then { g with position := pos } else { g with stuck := true }
  | .read _ _ => fun
    | none => { g with unread := true }
    | some data => { g with
        reads := g.reads ++ [data], unread := g.unread || data = [], held := (g.position, data),
        position := g.position + data.length }
  | .sendfile _ _ offset _ => fun n => { g with sent := g.sent ++ [(offset, offset + n)] }
  | .sendMapped _ _ index _ => fun n => { g with sent := g.sent ++ [(index, index + n)] }
  | .send _ data => fun n => { g with
      offered := g.offered ++ data, accepted := g.accepted ++ data.take n.toNat,
      short := g.short || n < data.length,
      sent := if data = g.held.2 then g.sent ++ [(g.held.1, g.held.1 + n)] else g.sent }
  | .recv _ none => fun _ => { g with broken := true }
  | .recv _ (some []) => fun _ => { g with eof := true }
  | .recv _ (some chunk) => fun _ => { g with received := g.received ++ [chunk] }
  | .write _ _ data | .appendTo _ data => fun ok =>
    if ok then { g with written := g.written ++ data } else { g with lost := true }
  | _ => fun _ => g

def transfers : Contract Call Ledger where
  pre _ _ := True
  post _ o := match o with
    | .send _ data => fun n => n ≤ data.length
    | .sendfile _ _ _ count => fun n => n ≤ count
    | .sendMapped _ _ _ count => fun n => n ≤ count
    | .read _ n => fun r => ∀ data, r = some data → data.length ≤ n
    | .lseek _ pos => fun sought => sought = true → 0 ≤ pos
    | _ => fun _ => True
  next g o r := g.next o r

lemma transfers_describes (me : SessionId) : transfers.Describes (World.machine me) fun _ _ => True := by
  intro β g w o _ _
  refine ⟨?_, trivial⟩
  cases o with
  | send fd data => exact min_le_right _ _
  | sendMapped fd mapped index count => exact min_le_right _ _
  | sendfile out file offset count =>
    simp only [transfers, World.machine, World.answer]
    split
    · have hcount := Nat.min_le_left count
      exact (min_le_right _ _).trans (Int.ofNat_le.2 (hcount _))
    · exact (min_le_right _ _).trans (Int.natCast_nonneg count)
  | read fd n =>
    simp only [transfers, World.machine, World.answer]
    intro data h
    split at h
    · cases h
      simp
    · cases h
  | lseek fd pos =>
    simp only [transfers, World.machine, World.answer]
    split
    · rename_i h
      exact fun _ => h.1
    · exact fun h => absurd h Bool.false_ne_true
  | _ => trivial

def Unlogged (o : Σ β, Call β) : Prop := ∀ (g : Ledger) (r : o.1), g.next o.2 r = g

def quietKinds : List Kind :=
  [.clock, .account, .census, .register, .query, .opens, .openRead, .close, .chroot, .memory]

variable {α β : Type} {g : Ledger} {p : Io α} {P : α → Prop} {P' : α → Ledger → Prop} {s : Session}

lemma unlogged_of_kind {o : Call β} (ho : o.kind ∈ quietKinds) : Unlogged ⟨β, o⟩ := by
  intro g r
  cases o with
  | sendControl | fstat | openWrite | zlibInit | lseek | read | sendfile | sendMapped | send | recv | write
  | appendTo => simp [Call.kind, quietKinds] at ho
  | _ => rfl

lemma meets_unlogged (h : p.Within Unlogged P) (hP : ∀ a, P a → P' a g) : Meets transfers p P' g :=
  h.meets (fun _ ho => ⟨trivial, fun r => ho g r⟩) hP

lemma meets_silent {ks : List Kind} (h : p.Within (Kinds ks) P) (hk : ks ⊆ quietKinds)
    (hP : ∀ a, P a → P' a g) : Meets transfers p P' g :=
  meets_unlogged (h.mono (fun _ ho => unlogged_of_kind (hk ho)) fun _ h => h) hP

lemma meets_logged (o : Call β) {P : β → Ledger → Prop} :
    Meets transfers (perform o) P g ↔ ∀ r, transfers.post g o r → P r (g.next o r) := by
  rw [meets_perform]
  exact and_iff_right trivial

@[simp] lemma meets_orThrow (x : Except Errc α) {P : α → Ledger → Prop} :
    Meets transfers (orThrow x) P g ↔ ∀ a, x = .ok a → P a g := by
  cases x <;> simp [orThrow]

def replied (g : Ledger) (code : ℕ) : Ledger := { g with completed := g.completed || code = 226 }

@[simp] lemma replied_other {code : ℕ} (h : code ≠ 226) : g.replied code = g := by
  simp [replied, h]

lemma next_final (tls : Bool) (host : Option FTPVirtualHost) (code : ℕ) (text : Str) (r : Bool) :
    g.next (.sendControl tls ((Reply.final code text).customized host)) r = g.replied code := by
  cases host with
  | none => rfl
  | some h =>
    simp only [Reply.customized]
    split <;> rfl

lemma meets_answer (hs : s.socket_ ≠ none) (code : ℕ) (text : Str) {P : Unit → Ledger → Prop}
    (h : P () (g.replied code)) : Meets transfers (s.reply code text) P g := by
  simp only [Session.reply, Session.sendResponse, if_neg hs, meets_bind]
  refine (meets_logged _).2 fun r _ => ?_
  rw [next_final]
  refine meets_ite.2 ⟨fun _ => (meets_pure _).2 h, fun _ => ?_⟩
  exact (meets_logged _).2 fun _ _ => h

lemma meets_answer_return (hs : s.socket_ ≠ none) (code : ℕ) (text : Str) {a : α}
    (h : P' a (g.replied code)) : Meets transfers (s.reply code text >>= fun _ => pure a) P' g :=
  meets_bind.2 (meets_answer hs code text ((meets_pure a).2 h))

lemma leads_meets {me : SessionId} (h : Meets transfers p P' g) (w : World) :
    Leads transfers (World.machine me) p P' g w := h.leads (transfers_describes me) trivial

lemma leads_orThrow {me : SessionId} {x : Except Errc β} {f : β → Io α} {w : World}
    (h : ∀ b, x = .ok b → Leads transfers (World.machine me) (f b) P' g w) :
    Leads transfers (World.machine me) (orThrow x >>= f) P' g w := by
  cases x with
  | ok b => exact h b rfl
  | error e => exact fun a w' ha => by cases ha

end Ledger

def Session.ledger (env : Service) (me : SessionId) (s : Session) (a : Arrival) : Ledger :=
  Ledger.transfers.final (World.machine me) {} (s.trace env me a)

lemma Session.leads_after {env : Service} {me : SessionId} {s s' : Session} {a : Arrival}
    {P : Session → Ledger → Prop} (h : s.after env me a = some s')
    (hlogin : a.command.verb.beforeLogin = true ∨ s.authenticated_ = true)
    (hP : Leads Ledger.transfers (World.machine me) (s.handle env a.command) P {} a.world) :
    P s' (s.ledger env me a) := by
  obtain ⟨w', he⟩ := exec_of_after h
  unfold ledger trace
  rcases dispatch_cases env s a.line with ⟨_, hd⟩ | ⟨hb, hout, _⟩
  · rw [hd] at he ⊢
    exact hP s' w' he
  · change a.command.verb.beforeLogin = false at hb
    simp [hb, hout] at hlogin

lemma Session.after_refused {env : Service} {me : SessionId} {s s' : Session} {a : Arrival} (hs : s.socket_ ≠ none)
    (hb : a.command.verb.beforeLogin = false) (hauth : s.authenticated_ = false)
    (h : s.after env me a = some s') : s' = s ∧ s.ledger env me a = {} := by
  obtain ⟨w', he⟩ := exec_of_after h
  unfold ledger trace
  rcases dispatch_cases env s a.line with ⟨hlogin, _⟩ | ⟨_, _, hd⟩
  · change a.command.verb.beforeLogin = true ∨ _ at hlogin
    simp [hb, hauth] at hlogin
  · rw [hd] at he ⊢
    have hreply : Meets Ledger.transfers (s.reply 530 "Please login with USER and PASS" >>= fun _ => pure s)
        (fun s' g => s' = s ∧ g = {}) {} :=
      Ledger.meets_answer_return hs _ _ ⟨rfl, Ledger.replied_other (by decide)⟩
    exact Ledger.leads_meets hreply a.world s' w' he

def Zlib.stream (process : List (Str × Bool) → Option Str) (made : List (Str × Bool)) : List Str → Option Str
  | [] => process (made ++ [([], true)])
  | chunk :: chunks => (process (made ++ [(chunk, false)])).bind fun out =>
    (stream process (made ++ [(chunk, false)]) chunks).map (out ++ ·)

def Zlib.inflated (zlib : Zlib) (made : List (Str × Bool)) : Option Str :=
  match zlib.inflate made with
  | .ok output => some output
  | _ => none

namespace Ledger

variable (zlib : Zlib) (z : Bool) (offset : Int) (g : Ledger)

def Covers (i : Int) : Prop := ∃ r ∈ g.sent, r.1 ≤ i ∧ i < r.2

def Retrieved : Prop :=
  if z then g.reads.flatten.length = (g.size - offset).toNat ∧
    Zlib.stream zlib.deflate [] g.reads = some g.accepted
  else ∀ i, 0 ≤ i → offset ≤ i → i < g.size → g.Covers i

def ReadsThrough : Prop :=
  g.unread = false ∧ g.short = false ∧
    (z = true → g.prepared = true → (Zlib.stream zlib.deflate [] g.reads).isSome)

def Stored : Prop :=
  g.eof = true ∧ if z then Zlib.stream zlib.inflated [] g.received = some g.written
    else g.written = g.received.flatten

/-- No write failed. In MODE Z a transfer that cannot be decompressed, or whose connection breaks,
is refused; else nothing is but the connection must not break. -/
def WritesThrough : Prop :=
  if z then g.broken = true ∨ Zlib.stream zlib.inflated [] g.received = none ∨ g.lost = false
  else g.broken = false ∧ g.lost = false

end Ledger

lemma DataConnection.acceptDataConnection_unlogged (d : DataConnection) :
    d.acceptDataConnection.Within Ledger.Unlogged fun _ => True := by
  have hk {β : Type} (o : Call β) (ho : Ledger.Unlogged ⟨β, o⟩) : Ledger.Unlogged ⟨β, o⟩ ∧ ∀ _ : β, True :=
    ⟨ho, fun _ => trivial⟩
  unfold acceptDataConnection connectActiveDataSocket
  refine within_ite.2 ⟨fun _ => within_ite.2 ⟨fun _ => within_pure _ |>.2 trivial, fun _ => ?_⟩, fun _ => ?_⟩
  · refine within_bind.2 ((within_perform _).2 ⟨fun _ _ => rfl, fun made => ?_⟩)
    cases made with
    | none => exact (within_pure _).2 trivial
    | some fd =>
      cases inetPton d.active_mode_ip_ with
      | none =>
        refine within_bind.2 ((within_perform _).2 ⟨fun _ _ => rfl, fun _ => ?_⟩)
        exact (within_pure _).2 trivial
      | some _ =>
        refine within_bind.2 ((within_perform _).2 ⟨fun _ _ => rfl, fun peer => ?_⟩)
        cases peer with
        | none =>
          refine within_bind.2 ((within_perform _).2 ⟨fun _ _ => rfl, fun _ => ?_⟩)
          exact (within_pure _).2 trivial
        | some peer => exact (within_pure _).2 trivial
  · cases d.passive_listen_socket_ with
    | none => exact (within_pure _).2 trivial
    | some listener =>
      refine within_bind.2 ((within_perform _).2 ⟨fun _ _ => rfl, fun ready => ?_⟩)
      refine within_ite.2 ⟨fun _ => (within_pure _).2 trivial, fun _ => ?_⟩
      refine within_bind.2 ((within_perform _).2 ⟨fun _ _ => rfl, fun _ => ?_⟩)
      exact (within_pure _).2 trivial

end SimpleSftpd
