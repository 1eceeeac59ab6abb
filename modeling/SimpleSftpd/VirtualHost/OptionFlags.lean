import Mathlib.Algebra.Group.Nat.Even
import SimpleSftpd.VirtualHost.VirtualHostManager

namespace SimpleSftpd

open Cxx

inductive OptionKind
  | hostname | root | cert | key | ca | user_file | enabled | max_sessions | storage_quota | bandwidth_quota
  deriving DecidableEq

namespace OptionKind

def all : List OptionKind :=
  [.hostname, .root, .cert, .key, .ca, .user_file, .enabled, .max_sessions, .storage_quota, .bandwidth_quota]

def flags : OptionKind → List Str
  | .hostname => ["--hostname", "-n"]
  | .root => ["--root", "-r"]
  | .cert => ["--certificate", "--cert"]
  | .key => ["--private-key", "--key"]
  | .ca => ["--ca-certificate", "--ca"]
  | .user_file => ["--user-file"]
  | .enabled => ["--enabled"]
  | .max_sessions => ["--max-sessions"]
  | .storage_quota => ["--storage-quota"]
  | .bandwidth_quota => ["--bandwidth-quota"]

def store (opts : VirtualHostCliOptions) (value : Str) : OptionKind → Option VirtualHostCliOptions
  | .hostname => some { opts with hostname := value }
  | .root => some { opts with root := value }
  | .cert => some { opts with cert := value }
  | .key => some { opts with key := value }
  | .ca => some { opts with ca := value }
  | .user_file => some { opts with user_file := value }
  | .enabled => some { opts with enabled := some (value = "true" ∨ value = "1" ∨ value = "yes") }
  | .max_sessions => (stoi value).map fun n => { opts with max_sessions := some n }
  | .storage_quota => (stoull value).map fun n => { opts with storage_quota := some n }
  | .bandwidth_quota => (stoull value).map fun n => { opts with bandwidth_quota := some n }

def Holds (opts : VirtualHostCliOptions) (value : Option Str) : OptionKind → Prop
  | .hostname => opts.hostname = value.getD []
  | .root => opts.root = value.getD []
  | .cert => opts.cert = value.getD []
  | .key => opts.key = value.getD []
  | .ca => opts.ca = value.getD []
  | .user_file => opts.user_file = value.getD []
  | .enabled => opts.enabled = value.map fun v : Str => decide (v = "true" ∨ v = "1" ∨ v = "yes")
  | .max_sessions => opts.max_sessions = value.bind stoi
  | .storage_quota => opts.storage_quota = value.bind stoull
  | .bandwidth_quota => opts.bandwidth_quota = value.bind stoull

def Converts (value : Str) : OptionKind → Prop
  | .max_sessions => (stoi value).isSome = true
  | .storage_quota | .bandwidth_quota => (stoull value).isSome = true
  | _ => True

variable {opts opts' : VirtualHostCliOptions} {flag value : Str} {v : Option Str} {k k' : OptionKind}

lemma mem_all (k : OptionKind) : k ∈ all := by cases k <;> decide

lemma eq_of_mem_flags (h : flag ∈ k.flags) (h' : flag ∈ k'.flags) : k = k' := by
  have htable : ∀ k ∈ all, ∀ k' ∈ all, ∀ flag ∈ k.flags, flag ∈ k'.flags → k = k' := by decide +kernel
  exact htable k (mem_all k) k' (mem_all k') flag h h'

lemma set_of_mem (h : flag ∈ k.flags) : opts.set flag value = k.store opts value := by
  cases k <;> simp only [flags, List.mem_cons, List.not_mem_nil, or_false] at h <;> rcases h with rfl | rfl <;> rfl

lemma set_of_notMem (h : ∀ k : OptionKind, flag ∉ k.flags) : opts.set flag value = some opts := by
  have htwo (a b : Str) (hne : flag ∉ [a, b]) : ¬(flag = a ∨ flag = b) := by simpa using hne
  have hone (a : Str) (hne : flag ∉ [a]) : flag ≠ a := by simpa using hne
  rw [VirtualHostCliOptions.set, if_neg (htwo _ _ (h .hostname)), if_neg (htwo _ _ (h .root)),
    if_neg (htwo _ _ (h .cert)),
    if_neg (htwo _ _ (h .key)), if_neg (htwo _ _ (h .ca)), if_neg (hone _ (h .user_file)),
      if_neg (hone _ (h .max_sessions)),
    if_neg (hone _ (h .storage_quota)), if_neg (hone _ (h .bandwidth_quota)), if_neg (hone _ (h .enabled))]

lemma store_isSome : (k.store opts value).isSome = true ↔ k.Converts value := by
  cases k <;> simp [store, Converts]

lemma store_holds (h : k.store opts value = some opts') : k.Holds opts' (some value) := by
  cases k with
  | max_sessions | storage_quota | bandwidth_quota =>
    obtain ⟨n, hn, rfl⟩ := Option.map_eq_some_iff.1 h
    exact hn.symm
  | _ =>
    obtain rfl := Option.some.inj h
    rfl

lemma store_keeps (h : k.store opts value = some opts') (hne : k ≠ k') (hv : k'.Holds opts v) :
    k'.Holds opts' v := by
  cases k with
  | max_sessions | storage_quota | bandwidth_quota =>
    obtain ⟨n, _, rfl⟩ := Option.map_eq_some_iff.1 h
    cases k' <;> first | exact hv | exact absurd rfl hne
  | _ =>
    obtain rfl := Option.some.inj h
    cases k' <;> first | exact hv | exact absurd rfl hne

end OptionKind

def IsRecognised (flag : Str) : Prop := ∃ k ∈ OptionKind.all, flag ∈ k.flags

instance : DecidablePred IsRecognised :=
  fun flag => inferInstanceAs (Decidable (∃ k ∈ OptionKind.all, flag ∈ k.flags))

inductive Argument
  | pair (flag value : Str) (h : IsRecognised flag)
  | lone (flag : Str) (h : ¬IsRecognised flag)

namespace Argument

def tokens : Argument → List Str
  | pair flag value _ => [flag, value]
  | lone flag _ => [flag]

def given : Argument → Option (Str × Str)
  | pair flag value _ => some (flag, value)
  | lone _ _ => none

end Argument

def tokensOf (args : List Argument) : List Str := args.flatMap Argument.tokens

def pairsOf (args : List Argument) : List (Str × Str) := args.filterMap Argument.given

def takenPairs : List Str → List (Str × Str)
  | flag :: value :: rest => if IsRecognised flag then (flag, value) :: takenPairs rest else takenPairs rest
  | _ => []

def lastValue (pairs : List (Str × Str)) (flags : List Str) : Option Str :=
  ((pairs.filter fun p => flags.contains p.1).getLast?).map Prod.snd

/-- The value of the last occurrence of every recognised flag is returned, and the flags are taken with
the values they were given with: none is lost, and none is taken for a value. -/
def ReadsOptions (args : List Argument) : Prop := takenPairs (tokensOf args) = pairsOf args ∧
  ∃ opts, parseVirtualHostOptions {} (tokensOf args) = some opts ∧ ∀ k :
    OptionKind, k.Holds opts (lastValue (pairsOf args) k.flags)

def PairedFrom (n : ℕ) (args : List Argument) : Prop := ∀ before flag value h after,
  args = before ++ .pair flag value h :: after → Even (n + before.countP fun a => a.given.isNone)

def Convertible (args : List Argument) : Prop :=
  ∀ p ∈ pairsOf args, ∀ k : OptionKind, p.1 ∈ k.flags → k.Converts p.2

section Loop

variable {opts opts' : VirtualHostCliOptions} {pairs : List (Str × Str)} {p : Str × Str}

lemma set_unrecognised {flag : Str} (h : ¬IsRecognised flag) (value : Str) : opts.set flag value = some opts :=
  OptionKind.set_of_notMem fun k hk => h ⟨k, k.mem_all, hk⟩

lemma parse_eq (tokens : List Str) (opts : VirtualHostCliOptions) :
    parseVirtualHostOptions opts tokens = (takenPairs tokens).foldlM
      (fun (opts : VirtualHostCliOptions) p => opts.set p.1 p.2) opts := by
  induction tokens using List.twoStepInduction generalizing opts with
  | nil | singleton => rfl
  | cons_cons flag value rest ih _ =>
    rw [parseVirtualHostOptions, takenPairs]
    by_cases h : IsRecognised flag
    · rw [if_pos h, List.foldlM_cons]
      exact congrArg (Option.bind (opts.set flag value)) (funext ih)
    · rw [if_neg h, set_unrecognised h, Option.bind_some, ih]

lemma lastValue_append (pairs : List (Str × Str)) (p : Str × Str) (flags : List Str) :
    lastValue (pairs ++ [p]) flags = if p.1 ∈ flags then some p.2 else lastValue pairs flags := by
  unfold lastValue
  rw [List.filter_append]
  by_cases h : p.1 ∈ flags
  · simp [h]
  · simp [h]

lemma set_isSome (flag value : Str) :
    (opts.set flag value).isSome = true ↔ ∀ k : OptionKind, flag ∈ k.flags → k.Converts value := by
  by_cases h : IsRecognised flag
  · obtain ⟨k, _, hk⟩ := h
    rw [OptionKind.set_of_mem hk, OptionKind.store_isSome]
    refine ⟨fun hconverts k' hk' => ?_, fun hconverts => hconverts k hk⟩
    rwa [← OptionKind.eq_of_mem_flags hk hk']
  · rw [set_unrecognised h]
    exact iff_of_true rfl fun k hk => absurd ⟨k, k.mem_all, hk⟩ h

lemma set_holds {flag value : Str} (h : opts.set flag value = some opts') {k : OptionKind} {v : Option Str}
    (hv : k.Holds opts v) :
    k.Holds opts' (if flag ∈ k.flags then some value else v) := by
  by_cases hrecognised : IsRecognised flag
  · obtain ⟨k', _, hk'⟩ := hrecognised
    rw [OptionKind.set_of_mem hk'] at h
    by_cases hk : flag ∈ k.flags
    · obtain rfl := OptionKind.eq_of_mem_flags hk hk'
      rw [if_pos hk]
      exact OptionKind.store_holds h
    · rw [if_neg hk]
      refine OptionKind.store_keeps h ?_ hv
      rintro rfl
      exact hk hk'
  · rw [if_neg fun hk => hrecognised ⟨k, k.mem_all, hk⟩]
    obtain rfl := Option.some.inj ((set_unrecognised hrecognised value).symm.trans h)
    exact hv

lemma foldlM_isSome (pairs : List (Str × Str)) (opts : VirtualHostCliOptions) :
    (pairs.foldlM (fun (opts : VirtualHostCliOptions) p => opts.set p.1 p.2) opts).isSome = true ↔
      ∀ p ∈ pairs, ∀ k : OptionKind, p.1 ∈ k.flags → k.Converts p.2 := by
  induction pairs generalizing opts with
  | nil => exact iff_of_true rfl fun _ h => absurd h List.not_mem_nil
  | cons p pairs ih =>
    rw [List.forall_mem_cons, ← set_isSome, List.foldlM_cons]
    cases hset : opts.set p.1 p.2 with
    | none => exact iff_of_false Bool.false_ne_true fun h => Bool.false_ne_true h.1
    | some opts' => exact (ih opts').trans (and_iff_right rfl).symm

lemma foldlM_holds
    (h : pairs.foldlM (fun (opts : VirtualHostCliOptions) p => opts.set p.1 p.2) {} = some opts) (k : OptionKind) :
    k.Holds opts (lastValue pairs k.flags) := by
  induction pairs using List.reverseRecOn generalizing opts with
  | nil =>
    obtain rfl := Option.some.inj h
    cases k <;> rfl
  | append_singleton pairs p ih =>
    rw [List.foldlM_append] at h
    obtain ⟨opts₁, hpairs, hlast⟩ := Option.bind_eq_some_iff.1 h
    rw [List.foldlM_cons] at hlast
    obtain ⟨opts₂, hset, hnil⟩ := Option.bind_eq_some_iff.1 hlast
    obtain rfl := Option.some.inj hnil
    rw [lastValue_append]
    exact set_holds hset (ih hpairs)

end Loop

section Pairing

variable {args : List Argument} {flag : Str}

lemma takenPairs_unrecognised (h : ¬IsRecognised flag) (value : Str) (rest : List Str) :
    takenPairs (flag :: value :: rest) = takenPairs rest := by rw [takenPairs, if_neg h]

lemma takenPairs_recognised (h : IsRecognised flag) (value : Str) (rest : List Str) :
    takenPairs (flag :: value :: rest) = (flag, value) :: takenPairs rest := by rw [takenPairs, if_pos h]

lemma length_takenPairs_le (args : List Argument) : (takenPairs (tokensOf args)).length ≤ (pairsOf args).length ∧
    ∀ w, (takenPairs (w :: tokensOf args)).length ≤ (pairsOf args).length + 1 ∧
      (¬IsRecognised w → (takenPairs (w :: tokensOf args)).length ≤ (pairsOf args).length) := by
  induction args with
  | nil =>
    refine ⟨le_rfl, fun w => ?_⟩
    exact ⟨Nat.zero_le _, fun _ => le_rfl⟩
  | cons arg args ih =>
    obtain ⟨hwhole, hshifted⟩ := ih
    cases arg with
    | pair flag value h =>
      change (takenPairs (flag :: value :: tokensOf args)).length ≤ (pairsOf args).length + 1 ∧ ∀ w,
        (takenPairs (w :: flag :: value :: tokensOf args)).length ≤ (pairsOf args).length + 1 + 1 ∧
          (¬IsRecognised w → (takenPairs (w :: flag :: value :: tokensOf args)).length ≤ (pairsOf args).length + 1)
      refine ⟨?_, fun w => ?_⟩
      · rw [takenPairs_recognised h]
        exact Nat.succ_le_succ hwhole
      · by_cases hw : IsRecognised w
        · rw [takenPairs_recognised hw]
          exact ⟨Nat.succ_le_succ (hshifted value).1, fun hnot => absurd hw hnot⟩
        · rw [takenPairs_unrecognised hw]
          exact ⟨(hshifted value).1.trans (Nat.le_succ _), fun _ => (hshifted value).1⟩
    | lone flag h =>
      change (takenPairs (flag :: tokensOf args)).length ≤ (pairsOf args).length ∧ ∀ w,
        (takenPairs (w :: flag :: tokensOf args)).length ≤ (pairsOf args).length + 1 ∧
          (¬IsRecognised w → (takenPairs (w :: flag :: tokensOf args)).length ≤ (pairsOf args).length)
      refine ⟨(hshifted flag).2 h, fun w => ?_⟩
      by_cases hw : IsRecognised w
      · rw [takenPairs_recognised hw]
        exact ⟨Nat.succ_le_succ hwhole, fun hnot => absurd hw hnot⟩
      · rw [takenPairs_unrecognised hw]
        exact ⟨hwhole.trans (Nat.le_succ _), fun _ => hwhole⟩

lemma takenPairs_shifted (args : List Argument) {flag : Str} (hflag : IsRecognised flag) (value : Str) :
    takenPairs (value :: tokensOf args) ≠ (flag, value) :: pairsOf args := by
  induction args generalizing flag value with
  | nil => exact (List.cons_ne_nil _ _).symm
  | cons arg args ih =>
    intro h
    have hlength := congrArg List.length h
    cases arg with
    | pair flag' value' h' =>
      change takenPairs (value :: flag' :: value' :: tokensOf args) = (flag, value) :: (flag',
        value') :: pairsOf args at h
      by_cases hvalue : IsRecognised value
      · rw [takenPairs_recognised hvalue] at h
        exact ih h' value' (List.cons.inj h).2
      · rw [takenPairs_unrecognised hvalue] at h
        have hle := ((length_takenPairs_le args).2 value').1
        rw [h, List.length_cons, List.length_cons] at hle
        omega
    | lone flag' h' =>
      change takenPairs (value :: flag' :: tokensOf args) = (flag, value) :: pairsOf args at h
      by_cases hvalue : IsRecognised value
      · rw [takenPairs_recognised hvalue] at h
        obtain ⟨_, hsame⟩ := Prod.mk.inj (List.cons.inj h).1
        exact h' (hsame ▸ hvalue)
      · rw [takenPairs_unrecognised hvalue] at h
        have hle := (length_takenPairs_le args).1
        rw [h, List.length_cons] at hle
        omega

variable {n : ℕ}

lemma pairedFrom_nil (n : ℕ) : PairedFrom n [] := by
  intro before _ _ _ _ h
  cases before <;> cases h

lemma pairedFrom_pair {value : Str} {h : IsRecognised flag} :
    PairedFrom n (.pair flag value h :: args) ↔ Even n ∧ PairedFrom n args := by
  constructor
  · intro hpaired
    refine ⟨hpaired [] flag value h args rfl, ?_⟩
    rintro before flag' value' h' after rfl
    simpa [Argument.given] using hpaired (.pair flag value h :: before) flag' value' h' after rfl
  · rintro ⟨heven, hpaired⟩ before flag' value' h' after hsplit
    cases before with
    | nil => exact heven
    | cons arg before =>
      obtain ⟨rfl, hrest⟩ := List.cons.inj hsplit
      simpa [Argument.given] using hpaired before flag' value' h' after hrest

lemma pairedFrom_lone {h : ¬IsRecognised flag} :
    PairedFrom n (.lone flag h :: args) ↔ PairedFrom (n + 1) args := by
  constructor
  · rintro hpaired before flag' value' h' after rfl
    have heven := hpaired (.lone flag h :: before) flag' value' h' after rfl
    simpa [Argument.given, Nat.add_assoc, Nat.add_comm 1] using heven
  · rintro hpaired before flag' value' h' after hsplit
    cases before with
    | nil => cases hsplit
    | cons arg before =>
      obtain ⟨rfl, hrest⟩ := List.cons.inj hsplit
      simpa [Argument.given, Nat.add_assoc, Nat.add_comm 1] using hpaired before flag' value' h' after hrest

lemma pairedFrom_two : PairedFrom 2 args ↔ PairedFrom 0 args := by
  unfold PairedFrom
  simp [Nat.even_add]

lemma takenPairs_eq_iff (args : List Argument) : (takenPairs (tokensOf args) = pairsOf args ↔ PairedFrom 0 args) ∧
    ∀ w, ¬IsRecognised w → (takenPairs (w :: tokensOf args) = pairsOf args ↔ PairedFrom 1 args) := by
  induction args with
  | nil => exact ⟨iff_of_true rfl (pairedFrom_nil 0), fun w _ => iff_of_true rfl (pairedFrom_nil 1)⟩
  | cons arg args ih =>
    obtain ⟨hwhole, hshifted⟩ := ih
    cases arg with
    | pair flag value h =>
      change (takenPairs (flag :: value :: tokensOf args) = (flag, value) :: pairsOf args ↔ _) ∧
        ∀ w, ¬IsRecognised w →
        (takenPairs (w :: flag :: value :: tokensOf args) = (flag, value) :: pairsOf args ↔ _)
      refine ⟨?_, fun w hw => ?_⟩
      · rw [takenPairs_recognised h, List.cons_inj_right, pairedFrom_pair, hwhole]
        exact (and_iff_right Even.zero).symm
      · rw [takenPairs_unrecognised hw, pairedFrom_pair]
        refine iff_of_false (takenPairs_shifted args h value) fun hpaired => ?_
        exact absurd hpaired.1 (by decide)
    | lone flag h =>
      change (takenPairs (flag :: tokensOf args) = pairsOf args ↔ _) ∧ ∀ w, ¬IsRecognised w →
        (takenPairs (w :: flag :: tokensOf args) = pairsOf args ↔ _)
      refine ⟨?_, fun w hw => ?_⟩
      · rw [pairedFrom_lone]
        exact hshifted flag h
      · rw [takenPairs_unrecognised hw, pairedFrom_lone, pairedFrom_two]
        exact hwhole

end Pairing

theorem options_are_read (args : List Argument) : ReadsOptions args ↔ PairedFrom 0 args ∧ Convertible args := by
  unfold ReadsOptions Convertible
  rw [(takenPairs_eq_iff args).1.symm, ← foldlM_isSome (pairsOf args) {}]
  refine and_congr_right fun htaken => ?_
  rw [parse_eq, htaken]
  constructor
  · rintro ⟨opts, hopts, _⟩
    rw [hopts]
    rfl
  · intro hsome
    obtain ⟨opts, hopts⟩ := Option.isSome_iff_exists.1 hsome
    exact ⟨opts, hopts, foldlM_holds hopts⟩

def documentedAdd : List Argument :=
  [.pair "--hostname" "ftp.example.com" (by decide), .pair "--root" "/var/ftp/example" (by decide),
    .lone "--ssl" (by decide),
    .pair "--certificate" "/etc/ssl/certs/example.com.crt" (by decide),
    .pair "--private-key" "/etc/ssl/private/example.com.key" (by decide)]

theorem options_are_not_read : ¬ReadsOptions documentedAdd ∧
    (parseVirtualHostOptions {} (tokensOf documentedAdd)).map (fun opts => (opts.cert, opts.key)) =
      some ([], []) := by
  refine ⟨fun h => ?_, by decide⟩
  exact absurd (congrArg List.length h.1) (by decide)

end SimpleSftpd
