import Mathlib.Data.Multiset.Count
import Mathlib.Data.Multiset.MapFold
import SimpleSftpd.Core.SessionTracker
import SimpleSftpd.Interaction.System

namespace SimpleSftpd

open Interaction

structure Counts.Tallies (c : Counts) (names : Multiset Str) : Prop where
  get_eq : ∀ k, c.get k = if k = [] then 0 else names.count k
  lookup_ne : ∀ k, c.lookup k ≠ some 0

namespace Counts

variable {c : Counts} {names : Multiset Str}

lemma lookup_increment (hc : ∀ k, c.lookup k ≠ some 0) (k u : Str) : (c.increment k).lookup u ≠ some 0 := by
  unfold increment
  split_ifs
  · exact hc u
  · by_cases hu : u = k
    · rw [hu, AList.lookup_insert]
      exact fun h => Nat.succ_ne_zero _ (Option.some.inj h)
    · rw [AList.lookup_insert_ne hu]
      exact hc u

lemma lookup_decrement (hc : ∀ k, c.lookup k ≠ some 0) (k u : Str) : (c.decrement k).lookup u ≠ some 0 := by
  unfold decrement
  split_ifs
  · exact hc u
  · cases hk : c.lookup k with
    | none => exact hc u
    | some n =>
      dsimp only
      by_cases hu : u = k
      · split_ifs with hn
        · rw [hu, AList.lookup_erase]
          exact (Option.some_ne_none 0).symm
        · rw [hu, AList.lookup_insert]
          intro h
          have hzero := Option.some.inj h
          omega
      · split_ifs
        · rw [AList.lookup_erase_ne hu]
          exact hc u
        · rw [AList.lookup_insert_ne hu]
          exact hc u

lemma tallies_empty : Tallies ∅ 0 := ⟨fun k => by simp [get], fun k => by simp⟩

lemma Tallies.increment (h : c.Tallies names) (k : Str) : (c.increment k).Tallies (k ::ₘ names) := by
  refine ⟨fun u => ?_, lookup_increment h.lookup_ne k⟩
  rw [get_increment, h.get_eq, Multiset.count_cons]
  by_cases hu : u = []
  · simp [hu]
  · simp [hu, eq_comm]

lemma Tallies.decrement (h : c.Tallies names) (k : Str) : (c.decrement k).Tallies (names.erase k) := by
  refine ⟨fun u => ?_, lookup_decrement h.lookup_ne k⟩
  rw [get_decrement, h.get_eq]
  by_cases hu : u = []
  · simp [hu]
  · by_cases hku : k = u
    · rw [← hku, Multiset.count_erase_self]
      simp [hku, hu]
    · rw [Multiset.count_erase_of_ne (Ne.symm hku)]
      simp [hku, hu]

lemma Tallies.empty_notMem (h : c.Tallies names) : ([] : Str) ∉ c := by
  intro hmem
  obtain ⟨n, hn⟩ := Option.isSome_iff_exists.1 (AList.lookup_isSome.2 hmem)
  have hget := h.get_eq []
  simp only [get, hn, if_true, Option.getD_some] at hget
  exact h.lookup_ne [] (hget ▸ hn)

end Counts

structure Registration (Client : Type) where
  client : Client
  username : Str
  hostname : Str
  deriving DecidableEq

inductive TrackerCall (Client : Type)
  | registerSession (r : Registration Client)
  | unregisterSession (r : Registration Client)

/-- The tracker, with the registrations not taken back as history. -/
structure Registry (Client : Type) where
  tracker : SessionTracker
  outstanding : Multiset (Registration Client)

variable {Client : Type} [DecidableEq Client] {g : Registry Client}

/-- Calls of any number of clients in any order, each whole under the lock of the tracker. A client
takes back what it has registered itself, once for each time. -/
def trackerSystem (Client : Type) [DecidableEq Client] : System (Registry Client) (TrackerCall Client) where
  init g := g.tracker = .empty ∧ g.outstanding = 0
  next g
    | .registerSession r => some ⟨g.tracker.registerSession r.username r.hostname, r ::ₘ g.outstanding⟩
    | .unregisterSession r =>
      if r ∈ g.outstanding then some ⟨g.tracker.unregisterSession r.username r.hostname,
        g.outstanding.erase r⟩ else none

structure Registry.Counted (g : Registry Client) : Prop where
  users : g.tracker.count_by_user_.Tallies (g.outstanding.map (·.username))
  hosts : g.tracker.count_by_host_.Tallies (g.outstanding.map (·.hostname))

lemma Registry.Counted.step {g' : Registry Client} {call : TrackerCall Client} (h : g.Counted)
    (hnext : (trackerSystem Client).next g call = some g') : g'.Counted := by
  cases call with
  | registerSession r =>
    obtain rfl := Option.some.inj hnext
    constructor
    · rw [Multiset.map_cons]
      exact h.users.increment r.username
    · rw [Multiset.map_cons]
      exact h.hosts.increment r.hostname
  | unregisterSession r =>
    by_cases hr : r ∈ g.outstanding
    · obtain rfl := Option.some.inj ((if_pos hr).symm.trans hnext)
      constructor
      · rw [Multiset.map_erase_of_mem _ _ hr]
        exact h.users.decrement r.username
      · rw [Multiset.map_erase_of_mem _ _ hr]
        exact h.hosts.decrement r.hostname
    · cases (if_neg hr).symm.trans hnext

lemma Registry.counted (h : (trackerSystem Client).Reach System.anyStep g) : g.Counted := by
  refine h.invariant (fun g h0 => ?_) fun _ _ _ hg _ hnext => hg.step hnext
  obtain ⟨tracker, outstanding⟩ := g
  obtain ⟨rfl, rfl⟩ := h0
  exact ⟨Counts.tallies_empty, Counts.tallies_empty⟩

theorem registrations_are_counted (h : (trackerSystem Client).Reach System.anyStep g) :
    (∀ u, g.tracker.getCountForUser u = if u = [] then 0 else (g.outstanding.filter (·.username = u)).card) ∧
    (∀ v, g.tracker.getCountForHost v = if v = [] then 0 else (g.outstanding.filter (·.hostname = v)).card) ∧
    (([] : Str) ∉ g.tracker.count_by_user_ ∧ ([] : Str) ∉ g.tracker.count_by_host_) ∧
    ∀ k, g.tracker.count_by_user_.lookup k ≠ some 0 ∧ g.tracker.count_by_host_.lookup k ≠ some 0 := by
  have hcounted := Registry.counted h
  refine ⟨fun u => ?_, fun v => ?_, ⟨hcounted.users.empty_notMem, hcounted.hosts.empty_notMem⟩,
    fun k => ⟨hcounted.users.lookup_ne k, hcounted.hosts.lookup_ne k⟩⟩
  · rw [SessionTracker.getCountForUser, hcounted.users.get_eq, Multiset.count_map]
    simp only [eq_comm]
  · rw [SessionTracker.getCountForHost, hcounted.hosts.get_eq, Multiset.count_map]
    simp only [eq_comm]

theorem registrations_are_counted_two : ∃ g : Registry ℕ, (trackerSystem ℕ).Reach System.anyStep g ∧
    g.tracker.getCountForUser "u" = 1 ∧ g.tracker.getCountForHost "h" = 0 := by
  let tracker := ((SessionTracker.empty.registerSession "u" "h").registerSession "u" []).unregisterSession "u" "h"
  have hrun : (trackerSystem ℕ).run System.anyStep ⟨.empty, 0⟩ [.registerSession ⟨0, "u", "h"⟩,
      .registerSession ⟨1, "u", []⟩, .unregisterSession ⟨0, "u", "h"⟩] = some ⟨tracker, {⟨1, "u", []⟩}⟩ := rfl
  have hstart : (trackerSystem ℕ).Reach System.anyStep ⟨.empty, 0⟩ := .init ⟨rfl, rfl⟩
  have hreach := hstart.run hrun
  have hcounts := registrations_are_counted hreach
  exact ⟨_, hreach, (hcounts.1 "u").trans (by decide), (hcounts.2.1 "h").trans (by decide)⟩

end SimpleSftpd
