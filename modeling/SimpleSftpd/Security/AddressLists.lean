import SimpleSftpd.Cxx.Fields
import SimpleSftpd.Cxx.Octets
import SimpleSftpd.Security.IPAccessControl

namespace SimpleSftpd

open Cxx

structure IPv4 where
  first : Fin 256
  second : Fin 256
  third : Fin 256
  fourth : Fin 256
  deriving DecidableEq

namespace IPv4

variable (ip : IPv4)

def octets : List ℕ := [ip.first, ip.second, ip.third, ip.fourth]

def text : Str := [46].intercalate (ip.octets.map decimal)

def bits : BitVec 32 := BitVec.ofNat 32 (bigEndian ip.octets)

def values : List Int := ip.octets.map Int.ofNat

variable {ip} {other : IPv4}

lemma octets_lt : ∀ o ∈ ip.octets, o < 256 := by
  simp only [octets, List.forall_mem_cons, Fin.is_lt, true_and]
  nofun

lemma octets_injective (h : ip.octets = other.octets) : ip = other := by
  obtain ⟨a, b, c, d⟩ := ip
  obtain ⟨a', b', c', d'⟩ := other
  simp only [octets, List.cons.injEq, Fin.val_inj, and_true] at h
  obtain ⟨rfl, rfl, rfl, rfl⟩ := h
  rfl

lemma text_splitOn : ip.text.splitOn 46 = ip.octets.map decimal := by
  apply List.splitOn_intercalate
  · intro part hpart
    obtain ⟨o, _, rfl⟩ := List.mem_map.1 hpart
    exact not_mem_decimal rfl o
  · exact List.cons_ne_nil _ _

lemma text_injective (h : ip.text = other.text) : ip = other := by
  have hmap : ip.octets.map decimal = other.octets.map decimal := by rw [← text_splitOn, h, text_splitOn]
  exact octets_injective (List.map_injective_iff.2 decimal_injective hmap)

lemma text_slash : (47 : Byte) ∉ ip.text := by
  have hdigits : ∀ o : ℕ, (47 : Byte) ∉ decimal o := fun o => not_mem_decimal rfl o
  have hdot : (47 : Byte) ≠ 46 := by decide
  simp only [text, octets, List.map_cons, List.map_nil, List.intercalate_cons_cons,
    List.intercalate_singleton, List.mem_append,
    List.mem_singleton, hdigits, hdot, or_false, not_false_eq_true]

lemma firstBits_values (n : Fin 33) :
    FirstBits (n : ℕ) ip.values other.values ↔ ∀ i < (n : ℕ), ip.bits.getMsbD i = other.bits.getMsbD i := by
  have hn : (n : ℕ) ≤ 32 := Nat.le_of_lt_succ n.isLt
  have hlt : ∀ ip : IPv4, bigEndian ip.octets < 2 ^ 32 := fun ip => bigEndian_lt octets_lt
  have hlength : ip.octets.length = other.octets.length := rfl
  have hoctets := firstBits_iff hlength octets_lt octets_lt hn
  exact hoctets.trans (div_two_pow_eq_iff (hlt ip) (hlt other) hn)

end IPv4

inductive CanonicalEntry
  | address (ip : IPv4)
  | block (network : IPv4) (prefix_len : Fin 33)

def CanonicalEntry.text : CanonicalEntry → Str
  | address ip => ip.text
  | block network prefix_len => network.text ++ 47 :: decimal prefix_len

def CanonicalEntry.Contains (ip : IPv4) : CanonicalEntry → Prop
  | address other => ip = other
  | block network prefix_len => ∀ i < (prefix_len : ℕ), ip.bits.getMsbD i = network.bits.getMsbD i

instance (ip : IPv4) (entry : CanonicalEntry) : Decidable (entry.Contains ip) := by
  cases entry with
  | address other => exact inferInstanceAs (Decidable (ip = other))
  | block network prefix_len =>
    exact inferInstanceAs (Decidable (∀ i < (prefix_len : ℕ), ip.bits.getMsbD i = network.bits.getMsbD i))

namespace IPAccessControl

/-- The first `n` fields of a text; the last field stands for those that are missing. -/
def repeatLast : ℕ → List Str → List Str
  | 0, _ => []
  | _ + 1, [] => []
  | n + 1, [part] => part :: repeatLast n [part]
  | n + 1, part :: next :: rest => part :: repeatLast n (next :: rest)

def blockNumbers (network length : Str) : Option (Int × List Int) := do
  let prefix_len ← stoi length
  let net ← (repeatLast 4 (network.splitOn 46)).mapM stoi
  return (prefix_len, net)

def Readable (ip : IPv4) (entry : Str) : Prop :=
  match cut '/' entry with
  | none => True
  | some (network, length) => match blockNumbers network length with
    | none => False
    | some (prefix_len, net) => ¬(40 ≤ prefix_len ∧ ip.values = net)

def Names (ip : IPv4) (entry : Str) : Prop :=
  match cut '/' entry with
  | none => ip.text = entry
  | some (network, length) => match blockNumbers network length with
    | none => False
    | some (prefix_len, net) => FirstBits prefix_len ip.values net

def Searchable (ip : IPv4) : List Str → Prop
  | [] => True
  | entry :: entries => Readable ip entry ∧ (¬Names ip entry → Searchable ip entries)

section

variable {n : ℕ} {part s : Str}

def fieldsRead : ℕ → Str × Option Str → List Str
  | 0, _ => []
  | n + 1, stream => (nextPart stream.1 stream.2).1 :: fieldsRead n (nextPart stream.1 stream.2)

lemma fieldsRead_ended (n : ℕ) (part : Str) : fieldsRead n (part, none) = repeatLast n [part] := by
  induction n with
  | zero => rfl
  | succ n ih => exact congrArg (part :: ·) ih

lemma fieldsRead_splitOn (n : ℕ) (part s : Str) : fieldsRead n (part, some s) = repeatLast n (s.splitOn 46) := by
  induction n generalizing part s with
  | zero => rfl
  | succ n ih =>
    rw [fieldsRead]
    cases hcut : cut '.' s with
    | none =>
      have hnext : nextPart part (some s) = (s, none) := by
        rw [nextPart]
        simp only [hcut]
      have hfields : s.splitOn 46 = [s] := splitOn_uncut hcut
      rw [hfields, hnext, fieldsRead_ended]
      rfl
    | some cuts =>
      obtain ⟨p, rest⟩ := cuts
      have hnext : nextPart part (some s) = (p, some rest) := by
        rw [nextPart]
        simp only [hcut]
      have hfields : s.splitOn 46 = p :: rest.splitOn 46 := splitOn_cut hcut
      obtain ⟨next, fields, hrest⟩ := List.exists_cons_of_ne_nil (List.splitOn_ne_nil 46 rest)
      rw [hfields, hnext, ih, hrest]
      rfl

lemma octets_eq (n : ℕ) (ip net : Str × Option Str) : IPAccessControl.octets n ip net =
    match (fieldsRead n ip).mapM stoi, (fieldsRead n net).mapM stoi with
    | some ip_bytes, some net_bytes => .ok (ip_bytes, net_bytes)
    | _, _ => .error .conversion := by
  induction n generalizing ip net with
  | zero => rfl
  | succ n ih =>
    rw [IPAccessControl.octets, ih]
    simp only [fieldsRead, List.mapM_cons, octet]
    cases stoi (nextPart ip.1 ip.2).1 <;> cases stoi (nextPart net.1 net.2).1 <;>
      cases (fieldsRead n (nextPart ip.1 ip.2)).mapM stoi <;>
        cases (fieldsRead n (nextPart net.1 net.2)).mapM stoi <;> rfl

lemma fieldsRead_text (ip : IPv4) : (fieldsRead 4 ([], some ip.text)).mapM stoi = some ip.values := by
  have hvalue : ∀ o : Fin 256, stoi (decimal o) = some (o : Int) := fun o => stoi_decimal (by omega)
  rw [fieldsRead_splitOn, IPv4.text_splitOn]
  simp only [IPv4.octets, IPv4.values, List.map_cons, List.map_nil, repeatLast, List.mapM_cons,
    List.mapM_nil, hvalue]
  rfl

lemma octets_text (ip : IPv4) (network : Str) : IPAccessControl.octets 4 ([], some ip.text) ([], some network) =
    match (repeatLast 4 (network.splitOn 46)).mapM stoi with
    | some net => .ok (ip.values, net)
    | none => .error .conversion := by
  rw [octets_eq, fieldsRead_text, fieldsRead_splitOn]
  cases (repeatLast 4 (network.splitOn 46)).mapM stoi <;> rfl

end

section

variable {prefix_len : Int} {as bs : List Int}

lemma masked_toNat (a : Int) {r : ℕ} (hr : r ≤ 8) :
    (masked a r).toNat = (a % 256).toNat / 2 ^ (8 - r) * 2 ^ (8 - r) := by
  have hlow : (a % 256).toNat = (a % ((2 ^ 32 : ℕ) : Int)).toNat % 2 ^ 8 := by omega
  have hmask : (255#32 <<< (8 - r) &&& 255#32).toNat = 255 <<< (8 - r) &&& 255 := by
    interval_cases r <;> decide
  rw [masked, BitVec.toNat_and, BitVec.toNat_ofInt, hmask, and_highBits _ _ (Nat.sub_le _ _), ← hlow]

lemma masked_iff {a b : Int} {r : ℕ} (hr : r ≤ 8) :
    masked a r = masked b r ↔ a % 256 / 2 ^ (8 - r) = b % 256 / 2 ^ (8 - r) := by
  have hcast : ∀ a : Int, a % 256 / 2 ^ (8 - r) = (((a % 256).toNat / 2 ^ (8 - r) : ℕ) : Int) := by
    intro a
    have hnonneg : ((a % 256).toNat : Int) = a % 256 := Int.toNat_of_nonneg (Int.emod_nonneg a (by decide))
    push_cast
    rw [hnonneg]
  rw [← BitVec.toNat_inj, masked_toNat a hr, masked_toNat b hr,
    Nat.mul_left_inj (Nat.two_pow_pos _).ne', hcast, hcast]
  exact Int.ofNat_inj.symm

instance : Decidable (FirstBits prefix_len as bs) := FirstBits.decidable prefix_len as bs

/-- The comparison of `matchesPrefix` once its length is divided into whole octets and bits. -/
def sharesPrefix (mask_bytes mask_bits : ℕ) (ip_bytes net_bytes : List Int) : Except MatchError Bool := do
  if ! (← sameBytes mask_bytes ip_bytes net_bytes) then return false
  if mask_bits > 0 ∧ mask_bytes < ip_bytes.length then
    match ip_bytes[mask_bytes]?, net_bytes[mask_bytes]? with
    | some a, some b => return masked a mask_bits = masked b mask_bits
    | _, _ => throw .index
  else return true

lemma firstBits_part {r : ℕ} (hr : r < 8) (a b : Int) :
    FirstBits r (a :: as) (b :: bs) ↔ (0 < r → masked a r = masked b r) := by
  have hrest : FirstBits ((r : Int) - 8) as bs := firstBits_of_nonpos (by omega)
  rw [FirstBits, and_iff_left hrest, OctetAgrees, if_neg (by omega)]
  by_cases hzero : r = 0
  · rw [if_neg (by omega), hzero]
    exact iff_of_true trivial fun h => absurd h (Nat.lt_irrefl 0)
  · have hbits : (8 - (r : Int)).toNat = 8 - r := by omega
    rw [if_pos (by omega), hbits, ← masked_iff hr.le]
    exact ⟨fun h _ => h, fun h => h (by omega)⟩

lemma sharesPrefix_cons (q r : ℕ) (a b : Int) (as bs : List Int) : sharesPrefix (q + 1) r (a :: as) (b :: bs) =
    if a = b then sharesPrefix q r as bs else .ok false := by
  rw [sharesPrefix, sharesPrefix, sameBytes]
  by_cases hab : a = b
  · rw [if_neg (not_not.2 hab), if_pos hab]
    simp only [List.length_cons, Nat.add_lt_add_iff_right, List.getElem?_cons_succ]
  · rw [if_pos hab, if_neg hab]
    rfl

lemma sharesPrefix_eq {q r : ℕ} (hr : r < 8) (hlength : as.length = bs.length) : sharesPrefix q r as bs =
    if as.length < q ∧ as = bs then .error .index else .ok (decide (FirstBits (8 * q + r : ℕ) as bs)) := by
  induction q generalizing as bs with
  | zero =>
    have hlow : ((8 * 0 + r : ℕ) : Int) = r := by omega
    rw [if_neg fun h => Nat.not_lt_zero _ h.1, hlow]
    cases as with
    | nil =>
      have hnone : ¬(r > 0 ∧ 0 < ([] : List Int).length) := fun h => Nat.lt_irrefl 0 h.2
      rw [sharesPrefix, sameBytes]
      simp only [hnone]
      rfl
    | cons a as =>
      cases bs with
      | nil => cases hlength
      | cons b bs =>
        simp only [firstBits_part hr a b]
        rw [sharesPrefix, sameBytes]
        by_cases hzero : 0 < r
        · have hpart : r > 0 ∧ 0 < (a :: as).length := ⟨hzero, Nat.succ_pos _⟩
          simp only [hpart, List.getElem?_cons_zero, forall_const]
          rfl
        · simp only [gt_iff_lt, hzero, false_and, false_imp_iff]
          rfl
  | succ q ih =>
    cases as with
    | nil =>
      obtain rfl : bs = [] := List.length_eq_zero_iff.1 hlength.symm
      rfl
    | cons a as =>
      cases bs with
      | nil => cases hlength
      | cons b bs =>
        have hlow : ((8 * (q + 1) + r : ℕ) : Int) - 8 = (8 * q + r : ℕ) := by omega
        have hwhole : FirstBits (8 * (q + 1) + r : ℕ) (a :: as) (b :: bs) ↔
            a = b ∧ FirstBits (8 * q + r : ℕ) as bs := by
          rw [FirstBits, OctetAgrees, if_pos (by omega), hlow]
        simp only [sharesPrefix_cons, hwhole]
        by_cases hab : a = b
        · simp [hab, ih (Nat.succ.inj hlength)]
        · simp [hab]

lemma matchesPrefix_eq (has : as.length = 4) (hbs : bs.length = 4) : matchesPrefix prefix_len as bs =
    if 40 ≤ prefix_len ∧ as = bs then .error .index else .ok (decide (FirstBits prefix_len as bs)) := by
  by_cases hneg : prefix_len < 0
  · obtain ⟨m, hm⟩ := Int.exists_eq_neg_ofNat (le_of_lt hneg)
    have hdiv : prefix_len.tdiv 8 = -((m / 8 : ℕ) : Int) := by rw [hm, Int.neg_tdiv]; rfl
    have hmod : prefix_len.tmod 8 = -((m % 8 : ℕ) : Int) := by rw [hm, Int.neg_tmod]; rfl
    have hbytes : (prefix_len.tdiv 8).toNat = 0 := by omega
    have hbits : ¬(prefix_len.tmod 8 > 0 ∧ prefix_len.tdiv 8 < 4) := by omega
    have hall : FirstBits prefix_len as bs := firstBits_of_nonpos (by omega)
    have hindex : ¬(40 ≤ prefix_len ∧ as = bs) := by omega
    rw [matchesPrefix, hbytes, sameBytes]
    simp only [hbits, hall, hindex]
    rfl
  · obtain ⟨n, rfl⟩ := Int.eq_ofNat_of_zero_le (not_lt.1 hneg)
    have hshare : matchesPrefix n as bs = sharesPrefix (n / 8) (n % 8) as bs := by
      have hbytes : (n : Int).tdiv 8 = ((n / 8 : ℕ) : Int) := rfl
      have hbits : (n : Int).tmod 8 = ((n % 8 : ℕ) : Int) := rfl
      have hpart : ((n % 8 : ℕ) : Int) > 0 ∧ ((n / 8 : ℕ) : Int) < 4 ↔ n % 8 > 0 ∧ n / 8 < 4 := by omega
      rw [matchesPrefix, sharesPrefix, hbytes, hbits, has]
      refine bind_congr fun same => ?_
      cases same with
      | false => rfl
      | true =>
        simp only [Bool.not_true, Bool.false_eq_true, if_false]
        exact if_congr hpart rfl rfl
    have hsplit : 8 * (n / 8) + n % 8 = n := Nat.div_add_mod n 8
    have hindex : 4 < n / 8 ↔ (40 : Int) ≤ n := by omega
    rw [hshare, sharesPrefix_eq (Nat.mod_lt n (by decide)) (has.trans hbs.symm), hsplit, has]
    simp only [hindex]

end

section

variable {ip : IPv4} {entry : Str} {entries : List Str}

lemma repeatLast_length (n : ℕ) {fields : List Str} (h : fields ≠ []) : (repeatLast n fields).length = n := by
  induction n generalizing fields with
  | zero => cases fields <;> rfl
  | succ n ih =>
    match fields with
    | [part] => exact congrArg Nat.succ (ih (List.cons_ne_nil part []))
    | part :: next :: rest => exact congrArg Nat.succ (ih (List.cons_ne_nil next rest))

lemma mapM_length {parts : List Str} {ns : List Int} (h : parts.mapM stoi = some ns) :
    ns.length = parts.length := by
  induction parts generalizing ns with
  | nil =>
    cases h
    rfl
  | cons part parts ih =>
    rw [List.mapM_cons] at h
    obtain ⟨n, _, h⟩ := Option.bind_eq_some_iff.1 h
    obtain ⟨ms, hms, h⟩ := Option.bind_eq_some_iff.1 h
    cases h
    exact congrArg Nat.succ (ih hms)

lemma matchesCIDR_eq (ip : IPv4) (entry : Str) : matchesCIDR ip.text entry = match cut '/' entry with
    | none => .ok (matchesIP ip.text entry)
    | some (network, length) => match blockNumbers network length with
      | none => .error .conversion
      | some (prefix_len, net) =>
        if 40 ≤ prefix_len ∧ ip.values = net then .error .index else
          .ok (decide (FirstBits prefix_len ip.values net)) := by
  rw [matchesCIDR]
  cases cut '/' entry with
  | none => rfl
  | some cuts =>
    obtain ⟨network, length⟩ := cuts
    simp only [blockNumbers, octet, octets_text]
    cases stoi length with
    | none => rfl
    | some prefix_len =>
      cases hnet : (repeatLast 4 (network.splitOn 46)).mapM stoi with
      | none => rfl
      | some net =>
        have hlength : net.length = 4 :=
          (mapM_length hnet).trans (repeatLast_length 4 (List.splitOn_ne_nil 46 network))
        exact matchesPrefix_eq rfl hlength

lemma matchesCIDR_readable (h : Readable ip entry) :
    ∃ b, matchesCIDR ip.text entry = .ok b ∧ (b = true ↔ Names ip entry) := by
  rw [matchesCIDR_eq]
  rw [Readable] at h
  rw [Names]
  cases hcut : cut '/' entry with
  | none => exact ⟨_, rfl, decide_eq_true_iff⟩
  | some cuts =>
    rw [hcut] at h
    dsimp only at h ⊢
    cases hnumbers : blockNumbers cuts.1 cuts.2 with
    | none =>
      rw [hnumbers] at h
      exact absurd h id
    | some numbers =>
      rw [hnumbers] at h
      exact ⟨_, if_neg h, decide_eq_true_iff⟩

lemma matchesCIDR_unreadable (h : ¬Readable ip entry) : ∃ e, matchesCIDR ip.text entry = .error e := by
  rw [matchesCIDR_eq]
  rw [Readable] at h
  cases hcut : cut '/' entry with
  | none =>
    rw [hcut] at h
    exact absurd trivial h
  | some cuts =>
    rw [hcut] at h
    dsimp only at h ⊢
    cases hnumbers : blockNumbers cuts.1 cuts.2 with
    | none => exact ⟨_, rfl⟩
    | some numbers =>
      rw [hnumbers] at h
      exact ⟨_, if_pos (not_not.1 h)⟩

lemma names_of_matchesIP (h : matchesIP ip.text entry = true) : Names ip entry := by
  have hentry : ip.text = entry := of_decide_eq_true h
  have hcut : cut '/' entry = none := cut_eq_none (hentry ▸ IPv4.text_slash)
  rw [Names, hcut]
  exact hentry

lemma listed_searchable (h : Searchable ip entries) :
    ∃ b, listed ip.text entries = .ok b ∧ (b = true ↔ ∃ entry ∈ entries, Names ip entry) := by
  induction entries with
  | nil => exact ⟨false, rfl, by simp⟩
  | cons entry entries ih =>
    obtain ⟨hreadable, hrest⟩ := h
    obtain ⟨b, hmatch, hb⟩ := matchesCIDR_readable hreadable
    rw [listed, hmatch]
    by_cases hnames : Names ip entry
    · rw [hb.2 hnames]
      exact ⟨true, rfl, iff_of_true rfl ⟨entry, List.mem_cons_self .., hnames⟩⟩
    · have hfalse : b = false := Bool.eq_false_iff.2 fun h => hnames (hb.1 h)
      have hip : matchesIP ip.text entry = false := Bool.eq_false_iff.2 fun h => hnames (names_of_matchesIP h)
      obtain ⟨c, hlisted, hc⟩ := ih (hrest hnames)
      rw [hfalse, hip]
      refine ⟨c, hlisted, hc.trans ?_⟩
      simp only [List.mem_cons, exists_eq_or_imp, hnames, false_or]

lemma listed_unsearchable (h : ¬Searchable ip entries) : ∃ e, listed ip.text entries = .error e := by
  induction entries with
  | nil => exact absurd trivial h
  | cons entry entries ih =>
    rw [listed]
    by_cases hreadable : Readable ip entry
    · obtain ⟨hnames, hrest⟩ := Classical.not_imp.1 fun hrest => h ⟨hreadable, hrest⟩
      obtain ⟨b, hmatch, hb⟩ := matchesCIDR_readable hreadable
      have hfalse : b = false := Bool.eq_false_iff.2 fun h => hnames (hb.1 h)
      have hip : matchesIP ip.text entry = false := Bool.eq_false_iff.2 fun h => hnames (names_of_matchesIP h)
      obtain ⟨e, he⟩ := ih hrest
      rw [hmatch, hfalse, hip]
      exact ⟨e, he⟩
    · obtain ⟨e, he⟩ := matchesCIDR_unreadable hreadable
      rw [he]
      exact ⟨e, rfl⟩

end

section

variable {ip : IPv4}

lemma repeatLast_text : (repeatLast 4 (ip.text.splitOn 46)).mapM stoi = some ip.values := by
  rw [← fieldsRead_splitOn 4 [] ip.text, fieldsRead_text]

lemma canonical_entry (entry : CanonicalEntry) :
    Readable ip entry.text ∧ (Names ip entry.text ↔ entry.Contains ip) := by
  cases entry with
  | address other =>
    have hcut : cut '/' other.text = none := cut_eq_none IPv4.text_slash
    rw [Readable, Names, CanonicalEntry.text, hcut]
    exact ⟨trivial, fun h => IPv4.text_injective h, fun h => congrArg IPv4.text h⟩
  | block network prefix_len =>
    have hcut : cut '/' (network.text ++ 47 :: decimal prefix_len) = some (network.text, decimal prefix_len) :=
      cut_append IPv4.text_slash _
    have hnumbers : blockNumbers network.text (decimal prefix_len) = some (((prefix_len : ℕ) : Int),
        network.values) := by
      have hlength : stoi (decimal prefix_len) = some ((prefix_len : ℕ) : Int) := stoi_decimal (by omega)
      rw [blockNumbers, hlength, repeatLast_text]
      rfl
    rw [Readable, Names, CanonicalEntry.text, hcut]
    simp only [hnumbers]
    exact ⟨fun h => by omega, IPv4.firstBits_values prefix_len⟩

lemma canonical_entries (ip : IPv4) (entries : List CanonicalEntry) :
    Searchable ip (entries.map CanonicalEntry.text) := by
  induction entries with
  | nil => trivial
  | cons entry entries ih => exact ⟨(canonical_entry entry).1, fun _ => ih⟩

def Listed (ip : IPv4) (entries : List CanonicalEntry) : Prop := ∃ entry ∈ entries, entry.Contains ip

instance (entries : List CanonicalEntry) : Decidable (Listed ip entries) :=
  inferInstanceAs (Decidable (∃ entry ∈ entries, entry.Contains ip))

lemma listed_canonical (entries : List CanonicalEntry) :
    listed ip.text (entries.map CanonicalEntry.text) = .ok (decide (Listed ip entries)) := by
  obtain ⟨b, hlisted, hb⟩ := listed_searchable (canonical_entries ip entries)
  rw [hlisted]
  refine congrArg _ ((Bool.eq_iff_iff).2 (hb.trans ?_))
  rw [decide_eq_true_iff]
  constructor
  · rintro ⟨_, hmem, hnames⟩
    obtain ⟨entry, hentry, rfl⟩ := List.mem_map.1 hmem
    exact ⟨entry, hentry, (canonical_entry entry).2.1 hnames⟩
  · rintro ⟨entry, hentry, hcontains⟩
    exact ⟨entry.text, List.mem_map_of_mem hentry, (canonical_entry entry).2.2 hcontains⟩

end

theorem isAllowed_canonical (ip : IPv4) (whitelist blacklist : List CanonicalEntry) :
    (IPAccessControl.mk (whitelist.map CanonicalEntry.text) (blacklist.map CanonicalEntry.text)).isAllowed
      ip.text =
      .ok (decide (¬Listed ip blacklist ∧ (whitelist = [] ∨ Listed ip whitelist))) := by
  rw [isAllowed, listed_canonical]
  by_cases hblack : Listed ip blacklist
  · rw [decide_eq_true hblack, decide_eq_false fun h => h.1 hblack]
    rfl
  · by_cases hempty : whitelist = []
    · subst hempty
      rw [decide_eq_false hblack, decide_eq_true (⟨hblack, Or.inl rfl⟩ : _ ∧ _)]
      rfl
    · have hmap : whitelist.map CanonicalEntry.text ≠ [] := fun h => hempty (List.map_eq_nil_iff.1 h)
      have hlisted : (¬Listed ip blacklist ∧ (whitelist = [] ∨ Listed ip whitelist)) ↔ Listed ip whitelist :=
        ⟨fun h => h.2.resolve_left hempty, fun h => ⟨hblack, Or.inr h⟩⟩
      rw [decide_eq_false hblack, listed_canonical, decide_eq_decide.2 hlisted]
      exact if_neg hmap

theorem isAllowed_answers (a : IPAccessControl) (ip : IPv4) : (∃ b, a.isAllowed ip.text = .ok b) ↔
    Searchable ip a.blacklist_ ∧ ((∀ entry ∈ a.blacklist_, ¬Names ip entry) → Searchable ip a.whitelist_) := by
  rw [isAllowed]
  by_cases hblack : Searchable ip a.blacklist_
  · obtain ⟨b, hlisted, hb⟩ := listed_searchable hblack
    rw [hlisted, and_iff_right hblack]
    cases b with
    | true =>
      obtain ⟨entry, hentry, hnames⟩ := hb.1 rfl
      exact iff_of_true ⟨false, rfl⟩ fun h => absurd hnames (h entry hentry)
    | false =>
      have hnone : ∀ entry ∈ a.blacklist_, ¬Names ip entry := fun entry hentry hnames =>
        Bool.false_ne_true (hb.2 ⟨entry, hentry, hnames⟩)
      rw [imp_iff_right hnone]
      by_cases hempty : a.whitelist_ = []
      · rw [hempty]
        exact iff_of_true ⟨true, rfl⟩ trivial
      · have hscan : (if a.whitelist_ = [] then pure true else listed ip.text a.whitelist_) =
            listed ip.text a.whitelist_ :=
          if_neg hempty
        by_cases hwhite : Searchable ip a.whitelist_
        · obtain ⟨c, hc, _⟩ := listed_searchable hwhite
          exact iff_of_true ⟨c, hscan.trans hc⟩ hwhite
        · obtain ⟨e, he⟩ := listed_unsearchable hwhite
          refine iff_of_false ?_ hwhite
          rintro ⟨c, hc⟩
          cases (hscan.trans he).symm.trans hc
  · obtain ⟨e, he⟩ := listed_unsearchable hblack
    rw [he]
    refine iff_of_false ?_ fun h => hblack h.1
    rintro ⟨b, hb⟩
    cases hb

theorem isAllowed_throws :
    (IPAccessControl.mk [] ["::1/128"]).isAllowed (IPv4.mk 127 0 0 1).text = .error .conversion ∧
    (IPAccessControl.mk ["10.0.0.0/"] []).isAllowed (IPv4.mk 127 0 0 1).text = .error .conversion ∧
    (IPAccessControl.mk ["127.0.0.1/x"] []).isAllowed (IPv4.mk 127 0 0 1).text = .error .conversion ∧
    (IPAccessControl.mk ["127.0.0.1/40"] []).isAllowed (IPv4.mk 127 0 0 1).text = .error .index := by
  refine ⟨?_, ?_, ?_, ?_⟩ <;> decide +kernel

end IPAccessControl

end SimpleSftpd
