import SimpleSftpd.Cxx.Numerals

namespace SimpleSftpd.Cxx

variable {d : Byte} {s part : Str} {n : ℕ}

def dropEmptyLast (parts : List Str) : List Str := if parts.getLast? = some [] then parts.dropLast else parts

lemma dropEmptyLast_cons (part : Str) {parts : List Str} (h : parts ≠ []) :
    dropEmptyLast (part :: parts) = part :: dropEmptyLast parts := by
  obtain ⟨next, rest, rfl⟩ := List.exists_cons_of_ne_nil h
  rw [dropEmptyLast, dropEmptyLast, List.getLast?_cons_cons]
  split
  · rfl
  · rfl

lemma dropEmptyLast_of_ne_nil {parts : List Str} (h : ∀ part ∈ parts, part ≠ []) : dropEmptyLast parts = parts :=
  if_neg fun hlast => h [] (List.mem_of_getLast? hlast) rfl

lemma tokensFrom_splitOn (d : Byte) (s : Str) (acc : Str) :
    tokensFrom d acc s = dropEmptyLast ((s.splitOn d).modifyHead (acc ++ ·)) := by
  induction s generalizing acc with
  | nil =>
    rw [tokensFrom, List.splitOn_nil, List.modifyHead_cons, List.append_nil, dropEmptyLast]
    simp only [List.getLast?_singleton, Option.some.injEq, List.dropLast_singleton]
  | cons c s ih =>
    rw [tokensFrom, List.splitOn_cons_eq_if_modifyHead]
    by_cases hc : c = d
    · subst hc
      rw [if_pos rfl, if_pos (beq_self_eq_true c), ih, List.modifyHead_cons, List.append_nil,
        dropEmptyLast_cons _ (List.splitOn_ne_nil _ _)]
      congr 2
      cases s.splitOn c <;> rfl
    · rw [if_neg hc, if_neg (by simpa using hc), ih, List.modifyHead_modifyHead]
      congr 2
      funext part
      simp

lemma tokensFrom_line {acc line rest : Str} (hd : d ∉ line) :
    tokensFrom d acc (line ++ d :: rest) = (acc ++ line) :: tokensFrom d [] rest := by
  induction line generalizing acc with
  | nil => simp [tokensFrom]
  | cons c line ih =>
    simp only [List.mem_cons, not_or] at hd
    rw [List.cons_append, tokensFrom, if_neg (Ne.symm hd.1), ih hd.2, List.append_assoc]
    rfl

lemma tokens_lines {lines : List Str} (h : ∀ line ∈ lines, d ∉ line) :
    tokens d (lines.flatMap (· ++ [d])) = lines := by
  induction lines with
  | nil => rfl
  | cons line lines ih =>
    rw [tokens, List.flatMap_cons, List.append_assoc, List.singleton_append,
      tokensFrom_line (h line List.mem_cons_self)]
    exact congrArg (line :: ·) (ih fun l hl => h l (List.mem_cons_of_mem _ hl))

lemma tokens_splitOn (d : Byte) (s : Str) : tokens d s = dropEmptyLast (s.splitOn d) := by
  rw [tokens, tokensFrom_splitOn]
  congr 1
  cases s.splitOn d <;> rfl

lemma splitOn_cut {rest : Str} (h : cut d s = some (part, rest)) : s.splitOn d = part :: rest.splitOn d := by
  obtain ⟨rfl, hpart⟩ := cut_eq_some h
  exact List.splitOn_append_cons_self_of_not_mem hpart rest

lemma splitOn_uncut (h : cut d s = none) : s.splitOn d = [s] := by
  apply List.splitOn_eq_singleton
  intro hd
  obtain ⟨before, rest, rfl, hbefore⟩ := List.eq_append_cons_of_mem hd
  rw [cut_append hbefore] at h
  cases h

lemma cut_eq_none (h : d ∉ s) : cut d s = none := by
  cases hcut : cut d s with
  | none => rfl
  | some cuts =>
    obtain ⟨rfl, _⟩ := cut_eq_some hcut
    exact absurd (List.mem_append_right _ (List.mem_cons_self ..)) h

def unsigned (part : Str) : Option ℕ :=
  if part ≠ [] ∧ part.all (fun c => (digit 10 c).isSome) = true then some (readDigits 10 0 part) else none

lemma unsigned_eq_some (h : unsigned part = some n) :
    (part ≠ [] ∧ ∀ c ∈ part, (digit 10 c).isSome = true) ∧ n = readDigits 10 0 part := by
  rw [unsigned] at h
  split at h
  · rename_i hdigits
    exact ⟨⟨hdigits.1, List.all_eq_true.1 hdigits.2⟩, (Option.some.inj h).symm⟩
  · cases h

lemma unsigned_decimal (n : ℕ) : unsigned (decimal n) = some n := by
  rw [unsigned, if_pos ⟨decimal_ne_nil n, List.all_eq_true.2 (decimal_isDigit n)⟩, readDigits_decimal]

lemma stoi_unsigned (h : unsigned part = some n) (hn : n < 2 ^ 31) : stoi part = some (n : Int) := by
  obtain ⟨⟨hne, hdigits⟩, rfl⟩ := unsigned_eq_some h
  have hrange : -2 ^ 31 ≤ (readDigits 10 0 part : Int) ∧ (readDigits 10 0 part : Int) < 2 ^ 31 := by omega
  rw [stoi, (numeral_digits hne hdigits).1, Option.bind_some]
  exact if_pos hrange

lemma stoi_decimal (hn : n < 2 ^ 31) : stoi (decimal n) = some (n : Int) := stoi_unsigned (unsigned_decimal n) hn

end SimpleSftpd.Cxx
