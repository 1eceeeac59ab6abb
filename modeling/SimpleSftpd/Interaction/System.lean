import Mathlib.Logic.Basic
import Mathlib.Data.Option.Basic

namespace SimpleSftpd.Interaction

universe u v

structure System (S : Type u) (L : Type v) where
  init : S → Prop
  next : S → L → Option S

namespace System

variable {S : Type u} {L : Type v} (T : System S L)

inductive Reach (ok : S → L → Prop) : S → Prop
  | init {s : S} : T.init s → Reach ok s
  | step {s s' : S} {l : L} : Reach ok s → ok s l → T.next s l = some s' → Reach ok s'

def anyStep : S → L → Prop := fun _ _ => True

instance (s : S) (l : L) : Decidable (anyStep s l) := .isTrue trivial

def run (ok : S → L → Prop) [∀ s l, Decidable (ok s l)] (s : S) (ls : List L) : Option S :=
  ls.foldlM (fun s l => if ok s l then T.next s l else none) s

variable {T}

lemma Reach.invariant {ok : S → L → Prop} {P : S → Prop} (h0 : ∀ s, T.init s → P s)
    (hstep : ∀ s l s', P s → ok s l → T.next s l = some s' → P s') {s : S}
    (h : T.Reach ok s) : P s := by
  induction h with
  | init h => exact h0 _ h
  | step _ hok hnext ih => exact hstep _ _ _ ih hok hnext

lemma Reach.mono {ok ok' : S → L → Prop} (hok : ∀ s l, ok s l → ok' s l) {s : S}
    (h : T.Reach ok s) : T.Reach ok' s := by
  induction h with
  | init h => exact .init h
  | step _ h hnext ih => exact ih.step (hok _ _ h) hnext

lemma Reach.under {ok ok' : S → L → Prop} {P : S → Prop} (h0 : ∀ s, T.init s → P s)
    (hstep : ∀ s l s', P s → ok' s l → T.next s l = some s' → P s') (hok : ∀ s l, P s → ok' s l → ok s l) {s : S}
    (h : T.Reach ok' s) : T.Reach ok s := by
  induction h with
  | init h => exact .init h
  | step h hl hnext ih => exact ih.step (hok _ _ (h.invariant h0 hstep) hl) hnext

lemma Reach.run {ok : S → L → Prop} [∀ s l, Decidable (ok s l)] {s s' : S} (h : T.Reach ok s)
    {ls : List L} (hr : T.run ok s ls = some s') : T.Reach ok s' := by
  induction ls generalizing s with
  | nil =>
    rw [System.run, List.foldlM_nil, Option.pure_def, Option.some.injEq] at hr
    exact hr ▸ h
  | cons l ls ih =>
    obtain ⟨t, ht, hr⟩ := Option.bind_eq_some_iff.1 hr
    dsimp only at ht
    split at ht
    · rename_i hok
      exact ih (h.step hok ht) hr
    · cases ht

end System

end SimpleSftpd.Interaction
