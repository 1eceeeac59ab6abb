import Mathlib.Data.Multiset.UnionInter
import SimpleSftpd.Core.Server

namespace SimpleSftpd

open Interaction

/-- `lent` are the connections that callers have, and `releasing` those that `releaseConnection` has found
active and not put away yet. -/
structure FTPConnectionPool where
  connection_pool_ : List ConnectionId := []
  pool_size_ : ℕ := 10
  active : ConnectionId → Bool := fun _ => false
  made : ℕ := 0
  lent : List ConnectionId := []
  releasing : List ConnectionId := []

namespace FTPConnectionPool

variable (m : FTPConnectionPool)

def halt (c : ConnectionId) : FTPConnectionPool := { m with active := Function.update m.active c false }

def make : FTPConnectionPool :=
  { m with active := Function.update m.active m.made true, made := m.made + 1, lent := m.made :: m.lent }

def acquireConnection : Option ConnectionId × FTPConnectionPool :=
  match m.connection_pool_.getLast? with
  | none => (none, m)
  | some c =>
    let popped := { m with connection_pool_ := m.connection_pool_.dropLast }
    if m.active c then (some c, { popped with lent := c :: m.lent }) else (none, popped)

def releaseConnection (c : ConnectionId) : Option FTPConnectionPool :=
  if c ∈ m.lent then
    some (if m.active c then { m with lent := m.lent.erase c, releasing := c :: m.releasing }
      else { m with lent := m.lent.erase c })
  else none

def putAway (c : ConnectionId) : Option FTPConnectionPool :=
  if c ∈ m.releasing then
    some (if m.connection_pool_.length < m.pool_size_ then
        { m with connection_pool_ := m.connection_pool_ ++ [c], releasing := m.releasing.erase c }
      else { m.halt c with releasing := m.releasing.erase c })
  else none

def trim : ℕ → FTPConnectionPool → FTPConnectionPool
  | 0, m => m
  | n + 1, m => match m.connection_pool_.getLast? with
    | none => m
    | some c => trim n { m.halt c with connection_pool_ := m.connection_pool_.dropLast }

def setPoolSize (pool_size : ℕ) : FTPConnectionPool :=
  trim (m.connection_pool_.length - pool_size) { m with pool_size_ := pool_size }

def maintain (c : ConnectionId) : Option FTPConnectionPool :=
  if c ∈ m.connection_pool_ ∧ ¬ m.active c then
    some { m.halt c with connection_pool_ := m.connection_pool_.erase c }
  else none

def clear : FTPConnectionPool :=
  { m with connection_pool_ := [], active := fun c => m.active c && c ∉ m.connection_pool_ }

end FTPConnectionPool

inductive PoolUse
  | make
  | acquireConnection
  | releaseConnection (c : ConnectionId)
  | putAway (c : ConnectionId)
  | setPoolSize (pool_size : ℕ)
  | maintain (c : ConnectionId)
  | finish (c : ConnectionId)
  | clear

namespace FTPConnectionPool

def step (m : FTPConnectionPool) : PoolUse → Option FTPConnectionPool
  | .make => some m.make
  | .acquireConnection => some m.acquireConnection.2
  | .releaseConnection c => m.releaseConnection c
  | .putAway c => m.putAway c
  | .setPoolSize n => some (m.setPoolSize n)
  | .maintain c => m.maintain c
  | .finish c => some (m.halt c)
  | .clear => some m.clear

def inUse : System FTPConnectionPool PoolUse where
  init m := m = {}
  next := step

def known (m : FTPConnectionPool) : Multiset ConnectionId := m.connection_pool_ + m.releasing + m.lent

structure Shared (m : FTPConnectionPool) : Prop where
  nodup : m.known.Nodup
  made : ∀ c ∈ m.known, c < m.made
  kept : ∀ c, m.active c = true → c ∈ m.known

variable {m m' : FTPConnectionPool} {c : ConnectionId}

lemma Shared.of_le (h : m.Shared) (hknown : m'.known ≤ m.known) (hmade : m'.made = m.made)
    (hactive : ∀ c, m'.active c = true → m.active c = true ∧ (c ∈ m.known → c ∈ m'.known)) : m'.Shared where
  nodup := Multiset.nodup_of_le hknown h.nodup
  made c hc := hmade ▸ h.made c (Multiset.mem_of_le hknown hc)
  kept c hc := (hactive c hc).2 (h.kept c (hactive c hc).1)

lemma Shared.of_eq (h : m.Shared) (hknown : m'.known = m.known) (hmade : m'.made = m.made)
    (hactive : ∀ c, m'.active c = true → m.active c = true) : m'.Shared :=
  h.of_le hknown.le hmade fun c hc => ⟨hactive c hc, fun hmem => hknown ▸ hmem⟩

lemma awake_of_halt {c' : ConnectionId} (h : (m.halt c).active c' = true) : c' ≠ c ∧ m.active c' = true := by
  by_cases heq : c' = c
  · subst heq
    simp [halt] at h
  · exact ⟨heq, by simpa [halt, heq] using h⟩

lemma popped_perm (h : m.connection_pool_.getLast? = some c) :
    m.connection_pool_.Perm (c :: m.connection_pool_.dropLast) := by
  obtain ⟨rest, hrest⟩ := List.getLast?_eq_some_iff.1 h
  rw [hrest, List.dropLast_concat]
  exact List.perm_append_singleton c rest

lemma Shared.popped (h : m.Shared) {pool : List ConnectionId} (hpool : m.connection_pool_.Perm (c :: pool))
    {active : ConnectionId → Bool} (hactive : ∀ c', active c' = true → c' ≠ c ∧ m.active c' = true) :
    Shared { m with connection_pool_ := pool, active := active } := by
  have hknown : m.known = c ::ₘ known { m with connection_pool_ := pool, active := active } := by
    rw [known, Multiset.coe_eq_coe.2 hpool]
    simp [known, ← Multiset.cons_coe]
  refine h.of_le (hknown ▸ Multiset.le_cons_self _ _) rfl fun c' hc' => ?_
  refine ⟨(hactive c' hc').2, fun hmem => ?_⟩
  exact (Multiset.mem_cons.1 (hknown ▸ hmem)).resolve_left (hactive c' hc').1

lemma Shared.trim (n : ℕ) : ∀ {m : FTPConnectionPool}, m.Shared → (trim n m).Shared := by
  induction n with
  | zero => exact fun h => h
  | succ n ih =>
    intro m h
    unfold FTPConnectionPool.trim
    split
    · exact h
    · rename_i c hc
      exact ih (h.popped (popped_perm hc) fun _ => awake_of_halt)

lemma length_trim (n : ℕ) :
    ∀ m : FTPConnectionPool, (trim n m).connection_pool_.length = m.connection_pool_.length - n ∧
    (trim n m).pool_size_ = m.pool_size_ := by
  induction n with
  | zero => exact fun m => ⟨rfl, rfl⟩
  | succ n ih =>
    intro m
    unfold FTPConnectionPool.trim
    split
    · rename_i hnone
      rw [List.getLast?_eq_none_iff] at hnone
      simp [hnone]
    · obtain ⟨hlength, hsize⟩ := ih { m.halt _ with connection_pool_ := m.connection_pool_.dropLast }
      refine ⟨?_, hsize⟩
      rw [hlength, List.length_dropLast, Nat.sub_sub, Nat.add_comm]

lemma Shared.step (h : m.Shared) {l : PoolUse} (hnext : m.step l = some m') : m'.Shared := by
  cases l with
  | make =>
    cases hnext
    have hfresh : m.made ∉ m.known := fun hmem => (h.made _ hmem).false
    have hknown : m.make.known = m.made ::ₘ m.known := by simp [known, make, ← Multiset.cons_coe]
    refine ⟨?_, fun c hc => ?_, fun c hc => ?_⟩
    · rw [hknown]
      exact Multiset.nodup_cons.2 ⟨hfresh, h.nodup⟩
    · rw [hknown] at hc
      rcases Multiset.mem_cons.1 hc with rfl | hc
      · exact Nat.lt_succ_self _
      · exact (h.made c hc).trans (Nat.lt_succ_self _)
    · rw [hknown, Multiset.mem_cons]
      by_cases heq : c = m.made
      · exact .inl heq
      · exact .inr (h.kept c (by simpa [make, heq] using hc))
  | acquireConnection =>
    cases hnext
    unfold acquireConnection
    split
    · exact h
    · rename_i c hc
      dsimp only
      split
      · refine h.of_eq ?_ rfl fun _ => id
        rw [known, known, Multiset.coe_eq_coe.2 (popped_perm hc)]
        simp [← Multiset.cons_coe]
      · rename_i hactive
        refine h.popped (popped_perm hc) fun c' hc' => ⟨?_, hc'⟩
        rintro rfl
        exact hactive hc'
  | releaseConnection c =>
    obtain ⟨hmem, heq⟩ := Option.ite_none_right_eq_some.1 hnext
    cases heq
    have hlent : (m.lent : Multiset ConnectionId) = c ::ₘ ↑(m.lent.erase c) :=
      Multiset.coe_eq_coe.2 (List.perm_cons_erase hmem)
    split
    · refine h.of_eq ?_ rfl fun _ => id
      rw [known, known, hlent]
      simp [← Multiset.cons_coe]
    · rename_i hactive
      have hknown : m.known = c ::ₘ known { m with lent := m.lent.erase c } := by
        rw [known, hlent, Multiset.add_cons]
        rfl
      refine h.of_le (hknown ▸ Multiset.le_cons_self _ _) rfl fun c' hc' => ⟨hc', fun hmem' => ?_⟩
      refine (Multiset.mem_cons.1 (hknown ▸ hmem')).resolve_left ?_
      rintro rfl
      exact hactive hc'
  | putAway c =>
    obtain ⟨hmem, heq⟩ := Option.ite_none_right_eq_some.1 hnext
    cases heq
    have hreleasing : (m.releasing : Multiset ConnectionId) = c ::ₘ ↑(m.releasing.erase c) :=
      Multiset.coe_eq_coe.2 (List.perm_cons_erase hmem)
    split
    · refine h.of_eq ?_ rfl fun _ => id
      rw [known, known, hreleasing, ← Multiset.coe_add, Multiset.add_cons, Multiset.coe_singleton,
        Multiset.add_assoc ↑_ {c},
        Multiset.singleton_add, Multiset.add_cons]
    · have hknown : m.known = c ::ₘ known { m.halt c with releasing := m.releasing.erase c } := by
        rw [known, hreleasing]
        simp [known, halt]
      refine h.of_le (hknown ▸ Multiset.le_cons_self _ _) rfl fun c' hc' => ?_
      obtain ⟨hne, hactive⟩ := awake_of_halt (m := m) hc'
      exact ⟨hactive, fun hmem' => (Multiset.mem_cons.1 (hknown ▸ hmem')).resolve_left hne⟩
  | setPoolSize n =>
    cases hnext
    exact Shared.trim _ (h.of_eq rfl rfl fun _ => id)
  | maintain c =>
    obtain ⟨⟨hmem, _⟩, heq⟩ := Option.ite_none_right_eq_some.1 hnext
    cases heq
    exact h.popped (List.perm_cons_erase hmem) fun _ => awake_of_halt
  | finish c =>
    cases hnext
    exact h.of_eq rfl rfl fun _ hc => (awake_of_halt hc).2
  | clear =>
    cases hnext
    have hknown : m.known = m.connection_pool_ + m.clear.known := by
      simp [known, clear]
    refine h.of_le (hknown ▸ Multiset.le_add_left _ _) rfl fun c hc => ?_
    obtain ⟨hactive, hout⟩ := Bool.and_eq_true_iff.1 hc
    refine ⟨hactive, fun hmem => (Multiset.mem_add.1 (hknown ▸ hmem)).resolve_left ?_⟩
    simpa using hout

lemma length_step (h : m.connection_pool_.length ≤ m.pool_size_) {l : PoolUse} (hnext : m.step l = some m') :
    m'.connection_pool_.length ≤ m'.pool_size_ := by
  cases l with
  | make | finish =>
    cases hnext
    exact h
  | acquireConnection =>
    cases hnext
    unfold acquireConnection
    split
    · exact h
    · have hle : m.connection_pool_.dropLast.length ≤ m.pool_size_ := by
        rw [List.length_dropLast]
        exact (Nat.sub_le _ _).trans h
      dsimp only
      split <;> exact hle
  | releaseConnection c =>
    obtain ⟨_, heq⟩ := Option.ite_none_right_eq_some.1 hnext
    cases heq
    split <;> exact h
  | putAway c =>
    obtain ⟨_, heq⟩ := Option.ite_none_right_eq_some.1 hnext
    cases heq
    split
    · rename_i hroom
      rw [List.length_append]
      exact hroom
    · exact h
  | setPoolSize n =>
    cases hnext
    obtain ⟨hlength, hsize⟩ := length_trim (m.connection_pool_.length - n) { m with pool_size_ := n }
    unfold setPoolSize
    rw [hlength, hsize]
    have hle : m.connection_pool_.length - (m.connection_pool_.length - n) ≤ n := by omega
    exact hle
  | maintain c =>
    obtain ⟨_, heq⟩ := Option.ite_none_right_eq_some.1 hnext
    cases heq
    exact List.length_erase_le.trans h
  | clear =>
    cases hnext
    exact Nat.zero_le _

end FTPConnectionPool

/-- Whoever uses the pool and in whatever order: it keeps its size, nobody shares a connection, no active
one is lost, and the one it lends is active. -/
theorem pooled_connections_have_one_holder {m : FTPConnectionPool}
    (h : FTPConnectionPool.inUse.Reach System.anyStep m) :
    m.connection_pool_.length ≤ m.pool_size_ ∧ (m.connection_pool_ ++ m.releasing ++ m.lent).Nodup ∧
      (∀ c, m.active c = true → c ∈ m.connection_pool_ ++ m.releasing ++ m.lent) ∧
      ∀ c, m.acquireConnection.1 = some c → m.active c = true ∧ c ∉ m.lent := by
  have hshared : m.Shared ∧ m.connection_pool_.length ≤ m.pool_size_ := by
    refine h.invariant (P := fun m => m.Shared ∧ m.connection_pool_.length ≤ m.pool_size_) ?_
      fun m l m' hm _ hnext =>
      ⟨hm.1.step hnext, FTPConnectionPool.length_step hm.2 hnext⟩
    rintro _ rfl
    exact ⟨⟨Multiset.nodup_zero, by simp [FTPConnectionPool.known], by simp⟩, Nat.zero_le _⟩
  have hknown : m.known = ↑(m.connection_pool_ ++ m.releasing ++ m.lent) := by
    simp [FTPConnectionPool.known]
  have hnodup : (m.connection_pool_ ++ m.releasing ++ m.lent).Nodup :=
    Multiset.coe_nodup.1 (hknown ▸ hshared.1.nodup)
  refine ⟨hshared.2, hnodup, fun c hc => Multiset.mem_coe.1 (hknown ▸ hshared.1.kept c hc), fun c hc => ?_⟩
  unfold FTPConnectionPool.acquireConnection at hc
  split at hc
  · cases hc
  · rename_i c' hlast
    dsimp only at hc
    split at hc
    · rename_i hactive
      cases hc
      have hmem : c ∈ m.connection_pool_ ++ m.releasing := List.mem_append_left _ (List.mem_of_getLast? hlast)
      exact ⟨hactive, fun hlent => (List.nodup_append.1 hnodup).2.2 c hmem c hlent rfl⟩
    · cases hc

theorem pooled_connections_have_one_holder_lent : ∃ m : FTPConnectionPool,
    m.acquireConnection.1 = some 0 ∧ m.active 0 = true ∧ 0 ∉ m.lent := by
  obtain ⟨m, hm, hlent⟩ := Option.map_eq_some_iff.1 (show
    (FTPConnectionPool.inUse.run System.anyStep {} [.make, .make, .releaseConnection 0, .putAway 0,
      .releaseConnection 1]).map
      (fun m => m.acquireConnection.1) = some (some 0) by decide)
  obtain ⟨_, _, _, hacquired⟩ := pooled_connections_have_one_holder (.run (.init rfl) hm)
  exact ⟨m, hlent, hacquired 0 hlent⟩

end SimpleSftpd
