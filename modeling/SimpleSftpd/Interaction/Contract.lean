import SimpleSftpd.Interaction.Prog

/-! Contracts: what a caller owes before each call and what it may rely on after it, relative to
a ghost state. A program checked against a contract keeps it on every machine the contract
describes. -/

namespace SimpleSftpd.Interaction

structure Contract (I : Interface) (G : Type) where
  pre : ∀ {β : Type}, G → I β → Prop
  post : ∀ {β : Type}, G → I β → β → Prop
  next : ∀ {β : Type}, G → I β → β → G

variable {I : Interface} {G ε α β γ : Type} {W : Type 1}

namespace Prog

def wp (C : Contract I G) : Prog I ε α → (Except ε α → G → Prop) → G → Prop
  | ret a, Q, g => Q (.ok a) g
  | throw e, Q, g => Q (.error e) g
  | call o k, Q, g => C.pre g o ∧ ∀ r, C.post g o r → (k r).wp C Q (C.next g o r)

variable (C : Contract I G)

@[simp] lemma wp_pure (a : α) (Q : Except ε α → G → Prop) (g : G) :
    (pure a : Prog I ε α).wp C Q g ↔ Q (.ok a) g := Iff.rfl

@[simp] lemma wp_throw (e : ε) (Q : Except ε α → G → Prop) (g : G) :
    (throw e : Prog I ε α).wp C Q g ↔ Q (.error e) g := Iff.rfl

@[simp] lemma wp_call (o : I γ) (k : γ → Prog I ε α) (Q : Except ε α → G → Prop) (g : G) :
    (call o k).wp C Q g ↔ C.pre g o ∧ ∀ r, C.post g o r → (k r).wp C Q (C.next g o r) := Iff.rfl

@[simp] lemma wp_perform (o : I γ) (Q : Except ε γ → G → Prop) (g : G) :
    (perform o : Prog I ε γ).wp C Q g ↔
      C.pre g o ∧ ∀ r, C.post g o r → Q (.ok r) (C.next g o r) := Iff.rfl

lemma wp_mono {p : Prog I ε α} {Q Q' : Except ε α → G → Prop} {g : G}
    (h : p.wp C Q g) (hQ : ∀ x g, Q x g → Q' x g) : p.wp C Q' g := by
  induction p generalizing g with
  | ret a => exact hQ _ _ h
  | throw e => exact hQ _ _ h
  | call o k ih => exact ⟨h.1, fun r hr => ih r (h.2 r hr)⟩

def andThen (C : Contract I G) (f : α → Prog I ε β) (Q : Except ε β → G → Prop) :
    Except ε α → G → Prop
  | .ok a, g => (f a).wp C Q g
  | .error e, g => Q (.error e) g

@[simp] lemma andThen_ok (f : α → Prog I ε β) (Q : Except ε β → G → Prop) (a : α) (g : G) :
    andThen C f Q (.ok a) g ↔ (f a).wp C Q g := Iff.rfl

@[simp] lemma andThen_error (f : α → Prog I ε β) (Q : Except ε β → G → Prop) (e : ε) (g : G) :
    andThen C f Q (.error e) g ↔ Q (.error e) g := Iff.rfl

@[simp] lemma wp_bind (p : Prog I ε α) (f : α → Prog I ε β) (Q : Except ε β → G → Prop) (g : G) :
    (p >>= f).wp C Q g ↔ p.wp C (andThen C f Q) g := by
  induction p generalizing g with
  | ret a => rfl
  | throw e => rfl
  | call o k ih =>
    simp only [call_bind, wp_call]
    refine and_congr_right fun _ => ?_
    refine forall_congr' fun r => ?_
    exact imp_congr_right fun _ => ih r _

@[simp] lemma wp_map (p : Prog I ε α) (f : α → β) (Q : Except ε β → G → Prop) (g : G) :
    (f <$> p).wp C Q g ↔ p.wp C (andThen C (fun a => pure (f a)) Q) g := by
  rw [map_eq_pure_bind, wp_bind]

@[simp] lemma wp_ite {c : Prop} [Decidable c] (p q : Prog I ε α) (Q : Except ε α → G → Prop) (g : G) :
    (if c then p else q).wp C Q g ↔ (c → p.wp C Q g) ∧ (¬c → q.wp C Q g) := by
  by_cases hc : c <;> simp [hc]

lemma wp_seq {p : Prog I ε α} {f : α → Prog I ε β} {Q : Except ε β → G → Prop} {g : G}
    (P : Except ε α → G → Prop) (hp : p.wp C P g)
    (hok : ∀ a g, P (.ok a) g → (f a).wp C Q g)
    (herr : ∀ e g, P (.error e) g → Q (.error e) g) : (p >>= f).wp C Q g := by
  rw [wp_bind]
  refine wp_mono C hp fun x g hx => ?_
  cases x with
  | ok a => exact hok a g hx
  | error e => exact herr e g hx

lemma wp_and {p : Prog I ε α} {Q Q' : Except ε α → G → Prop} {g : G}
    (h : p.wp C Q g) (h' : p.wp C Q' g) : p.wp C (fun x g => Q x g ∧ Q' x g) g := by
  induction p generalizing g with
  | ret a => exact ⟨h, h'⟩
  | throw e => exact ⟨h, h'⟩
  | call o k ih => exact ⟨h.1, fun r hr => ih r (h.2 r hr) (h'.2 r hr)⟩

end Prog

def Contract.Describes (C : Contract I G) (M : Machine I W) (R : G → W → Prop) : Prop :=
  ∀ {β : Type} (g : G) (w : W) (o : I β), R g w → C.pre g o →
    C.post g o (M w o).1 ∧ R (C.next g o (M w o).1) (M w o).2

def Contract.final (C : Contract I G) (M : Machine I W) (g : G) (calls : List (W × Σ β, I β)) : G :=
  calls.foldl (fun g c => C.next g c.2.2 (M c.1 c.2.2).1) g

namespace Prog

variable {C : Contract I G} {M : Machine I W} {R : G → W → Prop}

lemma wp_exec (hM : C.Describes M R) {p : Prog I ε α} {Q : Except ε α → G → Prop} {g : G} {w : W}
    (hp : p.wp C Q g) (hR : R g w) : ∃ g', R g' (p.exec M w).2 ∧ Q (p.exec M w).1 g' := by
  induction p generalizing g w with
  | ret a => exact ⟨g, hR, hp⟩
  | throw e => exact ⟨g, hR, hp⟩
  | call o k ih =>
    obtain ⟨hpost, hR'⟩ := hM g w o hR hp.1
    exact ih _ (hp.2 _ hpost) hR'

lemma wp_final (hM : C.Describes M R) {p : Prog I ε α} {Q : Except ε α → G → Prop} {g : G} {w : W}
    (hp : p.wp C Q g) (hR : R g w) :
    R (C.final M g (p.calls M w)) (p.exec M w).2 ∧ Q (p.exec M w).1 (C.final M g (p.calls M w)) := by
  induction p generalizing g w with
  | ret a => exact ⟨hR, hp⟩
  | throw e => exact ⟨hR, hp⟩
  | call o k ih =>
    obtain ⟨hpost, hR'⟩ := hM g w o hR hp.1
    exact ih _ (hp.2 _ hpost) hR'

lemma wp_calls (hM : C.Describes M R) {p : Prog I ε α} {Q : Except ε α → G → Prop} {g : G} {w : W}
    (hp : p.wp C Q g) (hR : R g w) : ∀ c ∈ p.calls M w, ∃ g', R g' c.1 ∧ C.pre g' c.2.2 := by
  induction p generalizing g w with
  | ret a => simp
  | throw e => simp [calls]
  | call o k ih =>
    obtain ⟨hpost, hR'⟩ := hM g w o hR hp.1
    intro c hc
    simp only [calls_call, List.mem_cons] at hc
    rcases hc with rfl | hc
    · exact ⟨g, hR, hp.1⟩
    · exact ih _ (hp.2 _ hpost) hR' c hc

lemma wp_prefix (hM : C.Describes M R) {p : Prog I ε α} {Q : Except ε α → G → Prop} {g : G} {w : W}
    (hp : p.wp C Q g) (hR : R g w) {t t' : List (W × Σ β, I β)} {c : W × Σ β, I β}
    (ht : p.calls M w = t ++ c :: t') : C.pre (C.final M g t) c.2.2 ∧ R (C.final M g t) c.1 := by
  induction p generalizing g w t with
  | ret a => cases t <;> cases ht
  | throw e => cases t <;> cases ht
  | call o k ih =>
    obtain ⟨hpost, hR'⟩ := hM g w o hR hp.1
    rw [calls_call] at ht
    cases t with
    | nil =>
      obtain ⟨rfl, _⟩ := List.cons.inj ht
      exact ⟨hp.1, hR⟩
    | cons c' t =>
      obtain ⟨rfl, hrest⟩ := List.cons.inj ht
      exact ih _ (hp.2 _ hpost) hR' hrest

end Prog

def Prog.Stage (M : Machine I W) (p : Prog I ε α) (w : W) (t : List (W × Σ β, I β)) (v : W) : Prop :=
  (∃ c t', p.calls M w = t ++ c :: t' ∧ c.1 = v) ∨ p.calls M w = t ∧ (p.exec M w).2 = v

def Contract.only (K : (Σ β, I β) → Prop) : Contract I Unit where
  pre _ o := K ⟨_, o⟩
  post _ _ _ := True
  next _ _ _ := ()

namespace Prog

def Within (p : Prog I ε α) (K : (Σ β, I β) → Prop) (P : α → Prop) : Prop :=
  p.wp (.only K) (fun x _ => ∀ a, x = .ok a → P a) ()

variable {K K' : (Σ β, I β) → Prop} {P P' : α → Prop}

@[simp] lemma within_pure (a : α) : (pure a : Prog I ε α).Within K P ↔ P a := by
  simp [Within]

@[simp] lemma within_throw (e : ε) : (throw e : Prog I ε α).Within K P := by
  simp [Within]

@[simp] lemma within_call (o : I γ) (k : γ → Prog I ε α) :
    (call o k).Within K P ↔ K ⟨_, o⟩ ∧ ∀ r, (k r).Within K P := by
  simp [Within, Contract.only]

@[simp] lemma within_perform (o : I γ) {P : γ → Prop} :
    (perform o : Prog I ε γ).Within K P ↔ K ⟨_, o⟩ ∧ ∀ r, P r := by
  simp [Within, Contract.only]

lemma Within.mono {p : Prog I ε α} (h : p.Within K P) (hK : ∀ o, K o → K' o)
    (hP : ∀ a, P a → P' a) : p.Within K' P' := by
  induction p with
  | ret a => exact (within_pure a).2 (hP a ((within_pure a).1 h))
  | throw e => exact within_throw e
  | call o k ih =>
    obtain ⟨ho, hk⟩ := (within_call o k).1 h
    exact (within_call o k).2 ⟨hK _ ho, fun r => ih r (hk r)⟩

lemma Within.and {p : Prog I ε α} (h : p.Within K P) (h' : p.Within K P') : p.Within K fun a => P a ∧ P' a :=
  wp_mono _ (wp_and _ h h') fun _ _ hx a ha => ⟨hx.1 a ha, hx.2 a ha⟩

lemma within_any (p : Prog I ε α) : p.Within (fun _ => True) fun _ => True := by
  induction p with
  | ret a => exact (within_pure a).2 trivial
  | throw e => exact within_throw e
  | call o k ih => exact (within_call o k).2 ⟨trivial, ih⟩

lemma Within.both {p : Prog I ε α} (h : p.Within K P) (h' : p.Within K' P') :
    p.Within (fun o => K o ∧ K' o) P := by
  induction p with
  | ret a => exact (within_pure a).2 ((within_pure a).1 h)
  | throw e => exact within_throw e
  | call o k ih =>
    obtain ⟨ho, hk⟩ := (within_call o k).1 h
    obtain ⟨ho', hk'⟩ := (within_call o k).1 h'
    exact (within_call o k).2 ⟨⟨ho, ho'⟩, fun r => ih r (hk r) (hk' r)⟩

lemma within_bind {p : Prog I ε α} {f : α → Prog I ε β} {P : β → Prop} :
    (p >>= f).Within K P ↔ p.Within K fun a => (f a).Within K P := by
  induction p with
  | ret a => rw [ret_eq_pure, pure_bind', within_pure]
  | throw e => simp
  | call o k ih => simp only [call_bind, within_call, ih]

@[simp] lemma within_map {p : Prog I ε α} {f : α → β} {P : β → Prop} :
    (f <$> p).Within K P ↔ p.Within K fun a => P (f a) := by
  rw [map_eq_pure_bind, within_bind]
  simp only [within_pure]

@[simp] lemma within_ite {c : Prop} [Decidable c] {p q : Prog I ε α} :
    (if c then p else q).Within K P ↔ (c → p.Within K P) ∧ (¬c → q.Within K P) := by
  by_cases hc : c <;> simp [hc]

lemma Within.bind {p : Prog I ε α} {f : α → Prog I ε β} {P : β → Prop}
    (hp : p.Within K fun _ => True) (hf : ∀ a, (f a).Within K P) : (p >>= f).Within K P :=
  within_bind.2 (hp.mono (fun _ h => h) fun a _ => hf a)

lemma Within.andReturn {p : Prog I ε α} {f : α → β} {P : β → Prop} (hp : p.Within K fun _ => True)
    (hP : ∀ a, P (f a)) : (p >>= fun a => pure (f a)).Within K P :=
  hp.bind fun a => (within_pure _).2 (hP a)

lemma Within.exec {p : Prog I ε α} (h : p.Within K P) (M : Machine I W) {w w' : W} {a : α}
    (he : p.exec M w = (.ok a, w')) : P a := by
  have hM : (Contract.only K).Describes M fun _ _ => True := fun _ _ _ _ _ => ⟨trivial, trivial⟩
  obtain ⟨_, _, hP⟩ := wp_exec hM h (w := w) trivial
  exact hP a (by rw [he])

lemma Within.calls {p : Prog I ε α} (h : p.Within K P) (M : Machine I W) (w : W) :
    ∀ c ∈ p.calls M w, K c.2 := by
  have hM : (Contract.only K).Describes M fun _ _ => True := fun _ _ _ _ _ => ⟨trivial, trivial⟩
  intro c hc
  obtain ⟨_, _, hK⟩ := wp_calls hM h (w := w) trivial c hc
  exact hK

lemma Within.keeps {p : Prog I ε α} (h : p.Within K P) {M : Machine I W} {J : W → Prop}
    (hJ : ∀ {β : Type} (w : W) (o : I β), K ⟨_, o⟩ → J w → J (M w o).2) {w : W} (hw : J w) : J (p.exec M w).2 := by
  have hM : (Contract.only K).Describes M fun _ w => J w := fun _ w o hw ho => ⟨trivial, hJ w o ho hw⟩
  obtain ⟨_, hJ', _⟩ := wp_exec hM h hw
  exact hJ'

def Meets (C : Contract I G) (p : Prog I ε α) (P : α → G → Prop) (g : G) : Prop :=
  p.wp C (fun x g => ∀ a, x = .ok a → P a g) g

section

variable {P : α → G → Prop} {g : G}

@[simp] lemma meets_pure (a : α) : Meets C (pure a : Prog I ε α) P g ↔ P a g := by
  simp [Meets]

@[simp] lemma meets_throw (e : ε) : Meets C (throw e : Prog I ε α) P g := by
  simp [Meets]

lemma meets_call (o : I γ) (k : γ → Prog I ε α) : Meets C (call o k) P g ↔
    C.pre g o ∧ ∀ r, C.post g o r → Meets C (k r) P (C.next g o r) := Iff.rfl

lemma meets_perform (o : I α) : Meets C (perform o : Prog I ε α) P g ↔
    C.pre g o ∧ ∀ r, C.post g o r → P r (C.next g o r) := by
  simp [Meets]

@[simp] lemma meets_bind {p : Prog I ε α} {f : α → Prog I ε β} {P : β → G → Prop} :
    Meets C (p >>= f) P g ↔ Meets C p (fun a g => Meets C (f a) P g) g := by
  induction p generalizing g with
  | ret a => rw [ret_eq_pure, pure_bind', meets_pure]
  | throw e => simp
  | call o k ih => simp only [call_bind, meets_call, ih]

@[simp] lemma meets_map {p : Prog I ε α} {f : α → β} {P : β → G → Prop} :
    Meets C (f <$> p) P g ↔ Meets C p (fun a => P (f a)) g := by
  rw [map_eq_pure_bind, meets_bind]
  simp only [meets_pure]

@[simp] lemma meets_ite {c : Prop} [Decidable c] {p q : Prog I ε α} :
    Meets C (if c then p else q) P g ↔ (c → Meets C p P g) ∧ (¬c → Meets C q P g) := by
  by_cases hc : c <;> simp [hc]

lemma Meets.mono {p : Prog I ε α} {P' : α → G → Prop} (h : Meets C p P g) (hP : ∀ a g, P a g → P' a g) :
    Meets C p P' g :=
  wp_mono C h fun _ _ hx a ha => hP a _ (hx a ha)

lemma Within.meets {p : Prog I ε α} {P : α → Prop} (h : p.Within K P) {P' : α → G → Prop}
    (hK : ∀ {β : Type} (o : I β), K ⟨_, o⟩ → C.pre g o ∧ ∀ r, C.next g o r = g) (hP : ∀ a, P a → P' a g) :
    Meets C p P' g := by
  induction p with
  | ret a => exact (meets_pure a).2 (hP a ((within_pure a).1 h))
  | throw e => exact meets_throw e
  | call o k ih =>
    obtain ⟨ho, hk⟩ := (within_call o k).1 h
    refine (meets_call o k).2 ⟨(hK o ho).1, fun r _ => ?_⟩
    rw [(hK o ho).2 r]
    exact ih r (hk r)

def Ends (C : Contract I G) (p : Prog I ε α) (P : α → G → Prop) (E : G → Prop) (g : G) : Prop :=
  p.wp C (fun x g => match x with
    | .ok a => P a g
    | .error _ => E g) g

section

variable {E : G → Prop}

lemma ends_pure {a : α} (h : P a g) : Ends C (pure a : Prog I ε α) P E g := h

lemma ends_throw {e : ε} (h : E g) : Ends C (throw e : Prog I ε α) P E g := h

lemma ends_perform {o : I α} (hpre : C.pre g o) (h : ∀ r, C.post g o r → P r (C.next g o r)) :
    Ends C (perform o : Prog I ε α) P E g := ⟨hpre, h⟩

lemma ends_bind {p : Prog I ε α} {f : α → Prog I ε β} {P : β → G → Prop}
    (h : Ends C p (fun a g => Ends C (f a) P E g) E g) : Ends C (p >>= f) P E g := by
  refine wp_seq C _ h ?_ ?_
  · exact fun a g ha => ha
  · exact fun e g he => he

lemma ends_ite {c : Prop} [Decidable c] {p q : Prog I ε α} (hp : c → Ends C p P E g)
    (hq : ¬c → Ends C q P E g) : Ends C (if c then p else q) P E g := by
  split
  · exact hp ‹_›
  · exact hq ‹_›

lemma Ends.mono {p : Prog I ε α} {P' : α → G → Prop} {E' : G → Prop} (h : Ends C p P E g)
    (hP : ∀ a g, P a g → P' a g) (hE : ∀ g, E g → E' g) : Ends C p P' E' g := by
  refine wp_mono C h fun x g hx => ?_
  cases x with
  | ok a => exact hP a g hx
  | error e => exact hE g hx

lemma Ends.and {p : Prog I ε α} {P' : α → G → Prop} {E' : G → Prop} (h : Ends C p P E g) (h' : Ends C p P' E' g) :
    Ends C p (fun a g => P a g ∧ P' a g) (fun g => E g ∧ E' g) g := by
  refine wp_mono C (wp_and C h h') fun x g hx => ?_
  cases x with
  | ok a => exact hx
  | error e => exact hx

lemma ends_trivial (hC : ∀ {β : Type} (g : G) (o : I β), C.pre g o) (p : Prog I ε α) :
    Ends C p (fun _ _ => True) (fun _ => True) g := by
  induction p generalizing g with
  | ret a => exact trivial
  | throw e => exact trivial
  | call o k ih => exact ⟨hC g o, fun r _ => ih r⟩

lemma Within.ends {p : Prog I ε α} {P : α → Prop} (h : p.Within K P) {J : G → Prop}
    (hJ : ∀ {β : Type} (o : I β) (g : G), K ⟨_, o⟩ → J g → C.pre g o ∧ ∀ r, C.post g o r → J (C.next g o r))
    (hg : J g) : Ends C p (fun a g => P a ∧ J g) J g := by
  induction p generalizing g with
  | ret a => exact ⟨(within_pure a).1 h, hg⟩
  | throw e => exact hg
  | call o k ih =>
    obtain ⟨ho, hk⟩ := (within_call o k).1 h
    obtain ⟨hpre, hnext⟩ := hJ o g ho hg
    exact ⟨hpre, fun r hr => ih r (hk r) (hnext r hr)⟩

def Returns : Prog I ε α → Prop
  | ret _ => True
  | throw _ => False
  | call _ k => ∀ r, (k r).Returns

lemma Returns.bind {p : Prog I ε α} {f : α → Prog I ε β} (h : p.Returns) (hf : ∀ a, (f a).Returns) :
    (p >>= f).Returns := by
  induction p with
  | ret a => exact hf a
  | throw e => exact h.elim
  | call o k ih => exact fun r => ih r (h r)

lemma Ends.of_returns {p : Prog I ε α} {E' : G → Prop} (h : Ends C p P E g) (hr : p.Returns) :
    Ends C p P E' g := by
  induction p generalizing g with
  | ret a => exact h
  | throw e => exact hr.elim
  | call o k ih => exact ⟨h.1, fun r hpost => ih r (h.2 r hpost) (hr r)⟩

lemma Ends.exec {p : Prog I ε α} (h : Ends C p P E g) (hM : C.Describes M R) {w : W} (hw : R g w) :
    (∃ a w' g', p.exec M w = (.ok a, w') ∧ R g' w' ∧ P a g') ∨ ∃ e w' g', p.exec M w = (.error e, w') ∧
      R g' w' ∧ E g' := by
  obtain ⟨g', hR, hP⟩ := wp_exec hM h hw
  cases hp : p.exec M w with
  | mk r w' =>
    rw [hp] at hR hP
    cases r with
    | ok a => exact .inl ⟨a, w', g', rfl, hR, hP⟩
    | error e => exact .inr ⟨e, w', g', rfl, hR, hP⟩

lemma Ends.final {p : Prog I ε α} {J : G → Prop} (h : Ends C p (fun _ g => J g) J g) (hM : C.Describes M R)
    {w : W} (hw : R g w) : J (C.final M g (p.calls M w)) := by
  obtain ⟨_, hJ⟩ := wp_final hM h hw
  split at hJ <;> exact hJ

end

lemma Ends.stage {p : Prog I ε α} {J : G → Prop} (h : Ends C p (fun _ => J) J g)
    (hpre : ∀ {β : Type} (g : G) (o : I β), C.pre g o → J g)
    (hM : C.Describes M R) {w v : W} {t : List (W × Σ β, I β)} (hw : R g w) (hs : p.Stage M w t v) :
    J (C.final M g t) ∧ R (C.final M g t) v := by
  rcases hs with ⟨c, t', ht, rfl⟩ | ⟨rfl, rfl⟩
  · obtain ⟨hp, hR⟩ := wp_prefix hM h hw ht
    exact ⟨hpre _ _ hp, hR⟩
  · exact ⟨h.final hM hw, (wp_final hM h hw).1⟩

def Leads (C : Contract I G) (M : Machine I W) (p : Prog I ε α) (P : α → G → Prop) (g : G) (w : W) : Prop :=
  ∀ a w', p.exec M w = (.ok a, w') → P a (C.final M g (p.calls M w))

lemma Leads.mono {p : Prog I ε α} {P' : α → G → Prop} {w : W} (h : Leads C M p P g w)
    (hP : ∀ a g, P a g → P' a g) : Leads C M p P' g w :=
  fun a w' ha => hP _ _ (h a w' ha)

lemma leads_pure {a : α} {w : W} (h : P a g) : Leads C M (pure a : Prog I ε α) P g w := by
  intro b w' hb
  cases hb
  exact h

lemma leads_call {o : I β} {f : β → Prog I ε α} {w : W}
    (h : Leads C M (f (M w o).1) P (C.next g o (M w o).1) (M w o).2) : Leads C M (perform o >>= f) P g w := h

lemma leads_ite {c : Prop} [Decidable c] {p q : Prog I ε α} {w : W} (hp : c → Leads C M p P g w)
    (hq : ¬c → Leads C M q P g w) : Leads C M (if c then p else q) P g w := by
  split
  · exact hp ‹_›
  · exact hq ‹_›

lemma leads_bind {p : Prog I ε α} {f : α → Prog I ε β} {P : β → G → Prop} {w : W}
    (h : Leads C M p (fun a g => ∀ w, Leads C M (f a) P g w) g w) : Leads C M (p >>= f) P g w := by
  intro b w' hb
  obtain ⟨a, v, ha, hf⟩ := exec_bind_ok M hb
  rw [calls_bind, ha, Contract.final, List.foldl_append]
  exact h a v ha v b w' hf

lemma Meets.leads {p : Prog I ε α} (h : Meets C p P g) (hM : C.Describes M R) {w : W} (hw : R g w) :
    Leads C M p P g w := by
  intro a w' ha
  obtain ⟨_, hP⟩ := wp_final hM h hw
  exact hP a (congrArg Prod.fst ha)

lemma Meets.calls {p : Prog I ε α} (h : Meets C p P g) (hM : C.Describes M R) {w : W} (hw : R g w) :
    ∀ c ∈ p.calls M w, ∃ g', R g' c.1 ∧ C.pre g' c.2.2 := wp_calls hM h hw

end

end Prog

end SimpleSftpd.Interaction
