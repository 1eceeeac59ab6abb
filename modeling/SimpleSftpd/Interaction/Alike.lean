import SimpleSftpd.Interaction.Prog

namespace SimpleSftpd.Interaction

namespace Prog

variable {I : Interface} {W : Type 1} {ε α α' β β' : Type}

inductive Alike (R : α → β → Prop) : Prog I ε α → Prog I ε β → Prop
  | ret {a : α} {b : β} : R a b → Alike R (ret a) (ret b)
  | throw (e : ε) : Alike R (throw e) (throw e)
  | call {γ : Type} {o : I γ} {k : γ → Prog I ε α} {k' : γ → Prog I ε β} :
      (∀ r, Alike R (k r) (k' r)) → Alike R (call o k) (call o k')

namespace Alike

variable {R R' : α → β → Prop} {S : α' → β' → Prop} {p : Prog I ε α} {q : Prog I ε β}

lemma pure {a : α} {b : β} (h : R a b) : Alike R (Pure.pure a : Prog I ε α) (Pure.pure b) := .ret h

lemma refl (p : Prog I ε α) : Alike Eq p p := by
  induction p with
  | ret a => exact .ret rfl
  | throw e => exact .throw e
  | call o k ih => exact .call ih

lemma mono (h : Alike R p q) (hR : ∀ a b, R a b → R' a b) : Alike R' p q := by
  induction h with
  | ret h => exact .ret (hR _ _ h)
  | throw e => exact .throw e
  | call _ ih => exact .call ih

lemma bind {f : α → Prog I ε α'} {g : β → Prog I ε β'} (h : Alike R p q)
    (hfg : ∀ a b, R a b → Alike S (f a) (g b)) : Alike S (p >>= f) (q >>= g) := by
  induction h with
  | ret h => exact hfg _ _ h
  | throw e => exact .throw e
  | call _ ih => exact .call ih

lemma bind_left {γ : Type} {p : Prog I ε γ} {f : γ → Prog I ε α'} {g : γ → Prog I ε β'}
    (hfg : ∀ c, Alike S (f c) (g c)) :
    Alike S (p >>= f) (p >>= g) := by
  apply (refl p).bind
  rintro a _ rfl
  exact hfg a

variable (M : Machine I W) (w : W)

lemma calls (h : Alike R p q) : p.calls M w = q.calls M w := by
  induction h generalizing w with
  | ret _ => rfl
  | throw _ => rfl
  | call _ ih => exact congrArg (_ :: ·) (ih _ _)

lemma exec (h : Alike R p q) :
    (∃ a b w', p.exec M w = (.ok a, w') ∧ q.exec M w = (.ok b, w') ∧ R a b) ∨
      ∃ e w', p.exec M w = (.error e, w') ∧ q.exec M w = (.error e, w') := by
  induction h generalizing w with
  | ret h => exact .inl ⟨_, _, w, rfl, rfl, h⟩
  | throw e => exact .inr ⟨e, w, rfl, rfl⟩
  | call _ ih => exact ih _ _

end Alike

end Prog

end SimpleSftpd.Interaction
