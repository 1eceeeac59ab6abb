import SimpleSftpd.Cxx.Strings
import Mathlib.Data.List.AList

/-! session_tracker.cpp: open sessions counted by user and by virtual host. -/

namespace SimpleSftpd

abbrev Counts := AList (fun _ : Str => ℕ)

namespace Counts

def get (c : Counts) (k : Str) : ℕ := (c.lookup k).getD 0

def increment (c : Counts) (k : Str) : Counts := if k = [] then c else c.insert k (c.get k + 1)

def decrement (c : Counts) (k : Str) : Counts :=
  if k = [] then c
  else match c.lookup k with
    | none => c
    | some n => if n ≤ 1 then c.erase k else c.insert k (n - 1)

lemma get_increment (c : Counts) (k u : Str) :
    (c.increment k).get u = c.get u + if k = u ∧ u ≠ [] then 1 else 0 := by
  by_cases hk : k = []
  · subst hk
    have h : ¬([] = u ∧ u ≠ []) := fun h => h.2 h.1.symm
    simp only [increment, if_true, if_neg h, Nat.add_zero]
  · by_cases hu : u = k
    · subst hu
      simp [increment, get, hk, AList.lookup_insert]
    · simp [increment, get, hk, AList.lookup_insert_ne hu, Ne.symm hu]

lemma get_decrement (c : Counts) (k u : Str) :
    (c.decrement k).get u = c.get u - if k = u ∧ u ≠ [] then 1 else 0 := by
  by_cases hk : k = []
  · subst hk
    have h : ¬([] = u ∧ u ≠ []) := fun h => h.2 h.1.symm
    simp only [decrement, if_true, if_neg h, Nat.sub_zero]
  · cases hc : c.lookup k with
    | none =>
      by_cases hu : u = k
      · subst hu
        simp [decrement, get, hk, hc]
      · simp [decrement, get, hk, hc, Ne.symm hu]
    | some n =>
      by_cases hu : u = k
      · subst hu
        by_cases hn : n ≤ 1
        · simp [decrement, get, hk, hc, hn]
        · simp [decrement, get, hk, hc, hn, AList.lookup_insert]
      · by_cases hn : n ≤ 1
        · simp [decrement, get, hk, hc, hn, AList.lookup_erase_ne hu, Ne.symm hu]
        · simp [decrement, get, hk, hc, hn, AList.lookup_insert_ne hu, Ne.symm hu]

end Counts

structure SessionTracker where
  count_by_user_ : Counts
  count_by_host_ : Counts

namespace SessionTracker

def empty : SessionTracker := ⟨∅, ∅⟩

def registerSession (t : SessionTracker) (username hostname : Str) : SessionTracker :=
  ⟨t.count_by_user_.increment username, t.count_by_host_.increment hostname⟩

def unregisterSession (t : SessionTracker) (username hostname : Str) : SessionTracker :=
  ⟨t.count_by_user_.decrement username, t.count_by_host_.decrement hostname⟩

def getCountForUser (t : SessionTracker) (username : Str) : ℕ := t.count_by_user_.get username

def getCountForHost (t : SessionTracker) (hostname : Str) : ℕ := t.count_by_host_.get hostname

end SessionTracker

end SimpleSftpd
