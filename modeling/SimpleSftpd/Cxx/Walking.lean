import SimpleSftpd.Cxx.Normal

namespace SimpleSftpd.Cxx

namespace Path

structure IsEntry (c : Str) : Prop where
  passes : ¬(c = [] ∨ isDot c = true)
  dotDot : isDotDot c = false

lemma IsEntry.isName {c : Str} (h : IsEntry c) (hc : 47 ∉ c) : IsName c :=
  ⟨hc, fun hnil => h.passes (.inl hnil), by simpa using fun hdot => h.passes (.inr hdot), h.dotDot⟩

lemma IsName.isEntry {c : Str} (h : IsName c) : IsEntry c := ⟨by simp [h.nonempty, h.dot], h.dotDot⟩

end Path

namespace FileSystem

open Cxx.Path

variable {fs : FileSystem} {j k k' n : ℕ} {cur cur' m m' d l : Location} {cs ms ms' more : List Str}
    {c : Str} {p q t : Str}

inductive Step (fs : FileSystem) : ℕ → Location → Str → Location → List Str → Prop
  | skip {cur : Location} {c : Str} (hc : c = [] ∨ isDot c = true) : Step fs 0 cur c cur []
  | up {cur : Location} {c : Str} (hc : ¬(c = [] ∨ isDot c = true)) (hup : isDotDot c = true) :
    Step fs 0 cur c (if cur = fs.root then cur else cur.dropLast) []
  | down {cur : Location} {c : Str} {e : Node} (hc : IsEntry c) (he : fs.node (cur ++ [c]) = some e)
    (hlink : ∀ t, e ≠ .symlink t) : Step fs 0 cur c (cur ++ [c]) []
  | link {cur : Location} {c t : Str} (hc : IsEntry c) (he : fs.node (cur ++ [c]) = some (.symlink t)) :
    Step fs 1 cur c (if isAbsolute t then fs.root else cur) (pieces t)

inductive Walks (fs : FileSystem) : ℕ → Location → List Str → Location → List Str → Prop
  | refl (cur : Location) (cs : List Str) : Walks fs 0 cur cs cur cs
  | step {j k : ℕ} {cur cur' m : Location} {c : Str} {more cs ms : List Str} (hcur : fs.node cur = some .directory)
    (hstep : fs.Step j cur c cur' more) (h : Walks fs k cur' (more ++ cs) m ms) :
    Walks fs (k + j) cur (c :: cs) m ms

namespace Walks

lemma trans (h : fs.Walks k cur cs m ms) (h' : fs.Walks k' m ms m' ms') : fs.Walks (k' + k) cur cs m' ms' := by
  induction h with
  | refl => exact h'
  | step hcur hstep _ ih =>
    rw [← Nat.add_assoc]
    exact .step hcur hstep (ih h')

lemma append (h : fs.Walks k cur cs m ms) (more : List Str) : fs.Walks k cur (cs ++ more) m (ms ++ more) := by
  induction h with
  | refl cur cs => exact .refl cur (cs ++ more)
  | step hcur hstep _ ih =>
    rw [List.append_assoc] at ih
    exact .step hcur hstep ih

lemma cut {ds es : List Str} (h : fs.Walks k cur ds m ms) : ∀ cs, ds = cs ++ es →
    (∃ k₁ k₂ m₁, k = k₂ + k₁ ∧ fs.Walks k₁ cur cs m₁ [] ∧ fs.Walks k₂ m₁ es m ms) ∨ ∃ rest, rest ≠ [] ∧
      ms = rest ++ es := by
  induction h with
  | refl cur ds =>
    rintro cs rfl
    by_cases hcs : cs = []
    · subst hcs
      exact .inl ⟨0, 0, cur, rfl, .refl _ _, .refl _ _⟩
    · exact .inr ⟨cs, hcs, rfl⟩
  | @step j k cur _ m c more ds ms hcur hstep h ih =>
    intro cs hsplit
    cases cs with
    | nil =>
      rw [List.nil_append] at hsplit
      subst hsplit
      exact .inl ⟨0, k + j, cur, rfl, .refl _ _, .step hcur hstep h⟩
    | cons c' cs =>
      obtain ⟨rfl, rfl⟩ := List.cons.inj hsplit
      rcases ih (more ++ cs) (List.append_assoc _ _ _).symm with ⟨k₁, k₂, m₁, rfl, hfirst, hsecond⟩ | hstays
      · exact .inl ⟨k₁ + j, k₂, m₁, Nat.add_assoc _ _ _, .step hcur hstep hfirst, hsecond⟩
      · exact .inr hstays

lemma filter {ds : List Str} (h : fs.Walks k cur ds m []) :
    ∀ as cs, ds = as ++ cs → fs.Walks k cur (as ++ cs.filter (· ≠ [])) m [] := by
  generalize hms : ([] : List Str) = ms at h
  induction h with
  | refl cur ds =>
    rintro as cs rfl
    obtain ⟨rfl, rfl⟩ := List.append_eq_nil_iff.1 hms.symm
    exact .refl _ _
  | @step j k cur cur' m c more ds ms hcur hstep h ih =>
    subst hms
    intro as cs hsplit
    cases as with
    | nil =>
      rw [List.nil_append] at hsplit
      subst hsplit
      have hrest := ih rfl more ds rfl
      by_cases hc : c = []
      · rw [List.nil_append, List.filter_cons_of_neg (by simpa using hc)]
        subst hc
        cases hstep with
        | skip => exact hrest
        | up hpasses => exact absurd (.inl rfl) hpasses
        | down hentry => exact absurd (.inl rfl) hentry.passes
        | link hentry => exact absurd (.inl rfl) hentry.passes
      · rw [List.nil_append, List.filter_cons_of_pos (by simpa using hc)]
        exact .step hcur hstep hrest
    | cons a as =>
      obtain ⟨rfl, rfl⟩ := List.cons.inj hsplit
      have hrest := ih rfl (more ++ as) cs (List.append_assoc _ _ _).symm
      rw [List.append_assoc] at hrest
      exact .step hcur hstep hrest

lemma skip {es : List Str} (hcur : fs.node cur = some .directory) (hes : ∀ e ∈ es, e = [])
    (h : fs.Walks k cur cs m ms) :
    fs.Walks k cur (es ++ cs) m ms := by
  induction es with
  | nil => exact h
  | cons e es ih =>
    obtain ⟨he, hrest⟩ := List.forall_mem_cons.1 hes
    exact .step hcur (.skip (.inl he)) (ih hrest)

lemma spread {ds : List Str} (h : fs.Walks k cur ds m []) (hm : fs.node m = some .directory) :
    ∀ as cs, ds = as ++ cs.filter (· ≠ []) → fs.Walks k cur (as ++ cs) m [] := by
  generalize hms : ([] : List Str) = ms at h
  induction h with
  | refl cur ds =>
    intro as cs hsplit
    subst hms
    obtain ⟨rfl, hcs⟩ := List.append_eq_nil_iff.1 hsplit.symm
    have hempty : ∀ c ∈ cs, c = [] := by simpa using hcs
    have hskip := skip hm hempty (.refl cur [])
    rwa [List.append_nil] at hskip
  | @step j k cur cur' m c more ds ms hcur hstep h ih =>
    subst hms
    intro as cs hsplit
    cases as with
    | nil =>
      rw [List.nil_append] at hsplit
      obtain ⟨es, rest, rfl, hes, _, rfl⟩ := List.filter_eq_cons_iff.1 hsplit.symm
      have hempty : ∀ e ∈ es, e = [] := by simpa using hes
      rw [List.nil_append]
      exact skip hcur hempty (.step hcur hstep (ih hm rfl more rest rfl))
    | cons a as =>
      obtain ⟨rfl, rfl⟩ := List.cons.inj hsplit
      have hrest := ih hm rfl (more ++ as) cs (List.append_assoc _ _ _).symm
      rw [List.append_assoc] at hrest
      exact .step hcur hstep hrest

end Walks

variable {last : LastName}

lemma walk_eq_walkAux (fs : FileSystem) (last : LastName) (n : ℕ) :
    ∃ onLink, fs.walk last n = fs.walkAux last onLink := by
  cases n with
  | zero => exact ⟨_, rfl⟩
  | succ n => exact ⟨_, rfl⟩

lemma walk_step (hlast : last ≠ .entry) (hcur : fs.node cur = some .directory)
    (hstep : fs.Step j cur c cur' more) :
    fs.walk last (n + j) cur (c :: cs) = fs.walk last n cur' (more ++ cs) := by
  cases hstep with
  | skip hc =>
    obtain ⟨onLink, hwalk⟩ := fs.walk_eq_walkAux last n
    simp only [Nat.add_zero, hwalk, walkAux, hcur, if_pos hc, List.nil_append]
  | up hc hup =>
    obtain ⟨onLink, hwalk⟩ := fs.walk_eq_walkAux last n
    simp only [Nat.add_zero, hwalk, walkAux, hcur, if_neg hc, if_pos hup, List.nil_append]
  | down hc he hlink =>
    obtain ⟨onLink, hwalk⟩ := fs.walk_eq_walkAux last n
    simp only [Nat.add_zero, hwalk, walkAux, hcur, if_neg hc.passes, hc.dotDot, Bool.false_eq_true, if_false,
      he, List.nil_append]
  | link hc he =>
    change fs.walkAux last (fs.walk last n) cur (c :: cs) = _
    simp only [walkAux, hcur, if_neg hc.passes, hc.dotDot, Bool.false_eq_true, if_false, he, hlast, false_and]

lemma Walks.walk (h : fs.Walks k cur cs m ms) (hlast : last ≠ .entry) (n : ℕ) :
    fs.walk last (n + k) cur cs = fs.walk last n m ms := by
  induction h with
  | refl => rfl
  | @step j k _ _ _ _ _ _ _ hcur hstep _ ih =>
    rw [← Nat.add_assoc, walk_step hlast hcur hstep]
    exact ih

structure Vacant (fs : FileSystem) (d : Location) (c : Str) : Prop where
  directory : fs.node d = some .directory
  entry : IsEntry c
  free : fs.node (d ++ [c]) = none

def Comes (fs : FileSystem) (last : LastName) (n : ℕ) (cur : Location) (cs : List Str) (l : Location) : Prop :=
  ∃ k ≤ n, fs.Walks k cur cs l [] ∨ last = .place ∧ ∃ d c, fs.Walks k cur cs d [c] ∧ fs.Vacant d c ∧ l = d ++ [c]

lemma Comes.step (hcur : fs.node cur = some .directory) (hstep : fs.Step j cur c cur' more)
    (h : fs.Comes last n cur' (more ++ cs) l) : fs.Comes last (n + j) cur (c :: cs) l := by
  obtain ⟨k, hk, h⟩ := h
  refine ⟨k + j, by omega, ?_⟩
  rcases h with h | ⟨hplace, d, c', h, hvacant, hl⟩
  · exact .inl (.step hcur hstep h)
  · exact .inr ⟨hplace, d, c', .step hcur hstep h, hvacant, hl⟩

lemma walkAux_comes (hlast : last ≠ .entry) {onLink : Location → List Str → Except Errc Location}
    (hlink : ∀ cur cs l, onLink cur cs = .ok l → ∃ n', n' + 1 = n ∧ fs.Comes last n' cur cs l) :
    ∀ {cur : Location}, fs.walkAux last onLink cur cs = .ok l → fs.Comes last n cur cs l := by
  induction cs with
  | nil =>
    intro cur h
    cases h
    exact ⟨0, Nat.zero_le n, .inl (.refl _ _)⟩
  | cons c cs ih =>
    intro cur h
    rw [walkAux] at h
    cases hcur : fs.node cur with
    | none =>
      rw [hcur] at h
      cases h
    | some e =>
      rw [hcur] at h
      cases e with
      | directory =>
        dsimp only at h
        by_cases hc : c = [] ∨ isDot c = true
        · rw [if_pos hc] at h
          exact (ih h).step hcur (.skip hc)
        rw [if_neg hc] at h
        by_cases hup : isDotDot c = true
        · rw [if_pos hup] at h
          exact (ih h).step hcur (.up hc hup)
        rw [if_neg hup] at h
        have hentry : IsEntry c := ⟨hc, by simpa using hup⟩
        cases he : fs.node (cur ++ [c]) with
        | none =>
          rw [he] at h
          dsimp only at h
          split at h
          · rename_i hend
            obtain ⟨hobject, rfl⟩ := hend
            cases h
            have hplace : last = .place := by
              cases last with
              | object => exact absurd rfl hobject
              | place => rfl
              | entry => exact absurd rfl hlast
            exact ⟨0, Nat.zero_le n, .inr ⟨hplace, cur, c, .refl _ _, ⟨hcur, hentry, he⟩, rfl⟩⟩
          · cases h
        | some e =>
          rw [he] at h
          cases e with
          | symlink t =>
            dsimp only at h
            rw [if_neg fun hend => hlast hend.1] at h
            obtain ⟨n', rfl, hcomes⟩ := hlink _ _ _ h
            exact hcomes.step hcur (.link hentry he)
          | directory | regular | other => exact (ih h).step hcur (.down hentry he (by simp))
      | regular | symlink | other => cases h

lemma walk_comes (hlast : last ≠ .entry) (n : ℕ) : ∀ {cur : Location} {cs : List Str} {l : Location},
    fs.walk last n cur cs = .ok l → fs.Comes last n cur cs l := by
  induction n with
  | zero => exact walkAux_comes hlast fun _ _ _ h => by cases h
  | succ n ih => exact walkAux_comes hlast fun _ _ _ h => ⟨n, rfl, ih h⟩

section Links

variable {r : Except Errc Location}

lemma walkAux_mono {onLink onLink' : Location → List Str → Except Errc Location}
    (hlink : ∀ cur cs, onLink cur cs = r → onLink' cur cs = r) (cs : List Str) :
    ∀ cur, fs.walkAux last onLink cur cs = r → fs.walkAux last onLink' cur cs = r := by
  induction cs with
  | nil => exact fun _ h => h
  | cons c cs ih =>
    intro cur h
    unfold walkAux at h ⊢
    cases hcur : fs.node cur with
    | none =>
      rw [hcur] at h
      exact h
    | some e =>
      rw [hcur] at h
      cases e with
      | directory =>
        dsimp only at h ⊢
        split
        · rename_i hc
          rw [if_pos hc] at h
          exact ih _ h
        · rename_i hc
          rw [if_neg hc] at h
          split
          · rename_i hup
            rw [if_pos hup] at h
            exact ih _ h
          · rename_i hup
            rw [if_neg hup] at h
            cases he : fs.node (cur ++ [c]) with
            | none =>
              rw [he] at h
              exact h
            | some e =>
              rw [he] at h
              cases e with
              | symlink t =>
                dsimp only at h ⊢
                split
                · rename_i hend
                  rw [if_pos hend] at h
                  exact h
                · rename_i hend
                  rw [if_neg hend] at h
                  exact hlink _ _ h
              | directory | regular | other => exact ih _ h
      | regular | symlink | other => exact h

lemma walk_mono (hr : r ≠ .error .eloop) (n k : ℕ) :
    ∀ cur cs, fs.walk last n cur cs = r → fs.walk last (n + k) cur cs = r := by
  induction n with
  | zero =>
    intro cur cs h
    obtain ⟨onLink, hwalk⟩ := fs.walk_eq_walkAux last (0 + k)
    rw [hwalk]
    exact walkAux_mono (fun _ _ he => absurd he.symm hr) cs cur h
  | succ n ih =>
    intro cur cs h
    rw [Nat.succ_add]
    exact walkAux_mono ih cs cur h

end Links

section Vacancy

lemma walkAux_vacant {onLink onLink' : Location → List Str → Except Errc Location}
    (hlink : ∀ cur cs, onLink cur cs = .ok l → onLink' cur cs = .ok l) (hnone : fs.node l = none) (cs : List Str) :
    ∀ cur, fs.walkAux .entry onLink cur cs = .ok l → fs.walkAux .place onLink' cur cs = .ok l := by
  induction cs with
  | nil => exact fun _ h => h
  | cons c cs ih =>
    intro cur h
    unfold walkAux at h ⊢
    cases hcur : fs.node cur with
    | none =>
      rw [hcur] at h
      cases h
    | some e =>
      rw [hcur] at h
      cases e with
      | directory =>
        dsimp only at h ⊢
        split
        · rename_i hc
          rw [if_pos hc] at h
          exact ih _ h
        · rename_i hc
          rw [if_neg hc] at h
          split
          · rename_i hup
            rw [if_pos hup] at h
            exact ih _ h
          · rename_i hup
            rw [if_neg hup] at h
            cases he : fs.node (cur ++ [c]) with
            | none =>
              rw [he] at h
              simpa using h
            | some e =>
              rw [he] at h
              cases e with
              | symlink t =>
                dsimp only at h ⊢
                rw [if_neg (by simp)]
                split at h
                · cases h
                  cases hnone.symm.trans he
                · exact hlink _ _ h
              | directory | regular | other => exact ih _ h
      | regular | symlink | other => cases h

lemma walk_vacant (hnone : fs.node l = none) (n : ℕ) :
    ∀ cur cs, fs.walk .entry n cur cs = .ok l → fs.walk .place n cur cs = .ok l := by
  induction n with
  | zero => exact fun cur cs => walkAux_vacant (fun _ _ h => by cases h) hnone cs cur
  | succ n ih => exact fun cur cs => walkAux_vacant ih hnone cs cur

end Vacancy

inductive Real (fs : FileSystem) : Location → Prop
  | root (h : fs.node fs.root = some .directory) : Real fs fs.root
  | child {d : Location} {c : Str} {e : Node} (hd : Real fs d) (hdir : fs.node d = some .directory) (hc : IsName c)
    (he : fs.node (d ++ [c]) = some e) (hlink : ∀ t, e ≠ .symlink t) : Real fs (d ++ [c])

lemma Real.node (h : fs.Real l) : ∃ e, fs.node l = some e ∧ ∀ t, e ≠ .symlink t := by
  cases h with
  | root h => exact ⟨_, h, by simp⟩
  | child _ _ _ he hlink => exact ⟨_, he, hlink⟩

lemma Real.names (h : fs.Real l) :
    ∃ ns, l = fs.root ++ ns ∧ (∀ c ∈ ns, IsName c) ∧ fs.Walks 0 fs.root ns l [] := by
  induction h with
  | root => exact ⟨[], (List.append_nil _).symm, by simp, .refl _ _⟩
  | @child d c e hd hdir hc he hlink ih =>
    obtain ⟨ns, rfl, hns, hwalks⟩ := ih
    refine ⟨ns ++ [c], List.append_assoc _ _ _, ?_, ?_⟩
    · simpa [or_imp, forall_and] using ⟨hns, hc⟩
    · exact (hwalks.append [c]).trans (.step hdir (.down hc.isEntry he hlink) (.refl _ _))

lemma Real.directory (h : fs.Real l) :
    ∀ d ns, l = d ++ ns → ns ≠ [] → fs.root.length ≤ d.length → fs.node d = some .directory := by
  induction h with
  | root =>
    intro d ns hl hns hlength
    have := congrArg List.length hl
    rw [List.length_append] at this
    have := List.length_pos_iff.2 hns
    omega
  | @child e c _ _ hdir _ _ _ ih =>
    intro d ns hl hns hlength
    cases ns using List.reverseRecOn with
    | nil => exact absurd rfl hns
    | append_singleton ns c' =>
      rw [← List.append_assoc] at hl
      obtain ⟨rfl, _⟩ := List.append_inj' hl rfl
      by_cases hnil : ns = []
      · rwa [hnil, List.append_nil] at hdir
      · exact ih d ns rfl hnil hlength

lemma Real.root_directory (h : fs.Real l) (hl : fs.node l = some .directory) :
    fs.node fs.root = some .directory := by
  obtain ⟨ns, rfl, _⟩ := h.names
  by_cases hns : ns = []
  · rwa [hns, List.append_nil] at hl
  · exact h.directory _ _ rfl hns le_rfl

lemma Step.real (hstep : fs.Step j cur c cur' more) (hdir : fs.node cur = some .directory)
    (hcur : fs.Real cur) (hc : 47 ∉ c) :
    fs.Real cur' ∧ ∀ d ∈ more, 47 ∉ d := by
  cases hstep with
  | skip => exact ⟨hcur, by simp⟩
  | up =>
    refine ⟨?_, by simp⟩
    split
    · exact hcur
    · rename_i hne
      cases hcur with
      | root => exact absurd rfl hne
      | child hd => rwa [List.dropLast_concat]
  | down hentry he hlink => exact ⟨hcur.child hdir (hentry.isName hc) he hlink, by simp⟩
  | link =>
    refine ⟨?_, fun d => slash_notMem_pieces⟩
    split
    · exact .root (hcur.root_directory hdir)
    · exact hcur

lemma Walks.real (h : fs.Walks k cur cs m ms) (hcur : fs.Real cur) (hcs : ∀ c ∈ cs, 47 ∉ c) :
    fs.Real m ∧ ∀ c ∈ ms, 47 ∉ c := by
  induction h with
  | refl => exact ⟨hcur, hcs⟩
  | step hdir hstep _ ih =>
    obtain ⟨hc, hcs⟩ := List.forall_mem_cons.1 hcs
    obtain ⟨hcur', hmore⟩ := hstep.real hdir hcur hc
    exact ih hcur' (List.forall_mem_append.2 ⟨hmore, hcs⟩)

lemma Walks.directory (h : fs.Walks k cur cs m ms) (hm : ms ≠ cs ∨ fs.node m = some .directory) :
    fs.node cur = some .directory := by
  cases h with
  | refl => exact hm.resolve_left fun hne => hne rfl
  | step hcur => exact hcur

end FileSystem

end SimpleSftpd.Cxx
