/- module: SonicBmp/Library/Lockstep
   digest: Two programs that throw, go on and end together, with related results. -/

import SonicBmp.Library.Throwing

set_option autoImplicit false
set_option relaxedAutoImplicit false

namespace SonicBmp.Library.Lockstep

open SonicBmp.Library.Throwing

variable {ε σ α β γ δ : Type}

/-- Two outcomes: the same error, or related results in the same state. -/
inductive Together (R : α → β → Prop) : Except ε (α × σ) → Except ε (β × σ) → Prop
  | thrown (e : ε) : Together R (.error e) (.error e)
  | returned {a : α} {b : β} (s : σ) (related : R a b) : Together R (.ok (a, s)) (.ok (b, s))

/-- From every state the two programs end together. -/
def InStep (R : α → β → Prop) (p : Throws ε σ α) (q : Throws ε σ β) : Prop :=
  ∀ s, Together R (p.run s) (q.run s)

theorem inStep_refl (p : Throws ε σ α) : InStep (· = ·) p p := by
  intro s
  cases p.run s with
  | error e => exact .thrown e
  | ok result => exact .returned result.2 rfl

theorem inStep_pure {R : α → β → Prop} {a : α} {b : β} (related : R a b) :
    InStep R (pure a : Throws ε σ α) (pure b) := fun s => .returned s related

theorem InStep.bind {R : α → β → Prop} {R' : γ → δ → Prop} {p : Throws ε σ α}
    {q : Throws ε σ β} {f : α → Throws ε σ γ} {g : β → Throws ε σ δ} (first : InStep R p q)
    (rest : ∀ a b, R a b → InStep R' (f a) (g b)) : InStep R' (p >>= f) (q >>= g) := by
  intro s
  rw [StateT.run_bind, StateT.run_bind]
  have ends := first s
  generalize p.run s = one, q.run s = two at ends
  cases ends with
  | thrown e => exact .thrown e
  | returned s' related => exact rest _ _ related s'

/-- Both read the state that they are in. -/
theorem inStep_get_bind {R : α → β → Prop} {f : σ → Throws ε σ α} {g : σ → Throws ε σ β}
    (rest : ∀ s, Together R ((f s).run s) ((g s).run s)) :
    InStep R (get >>= f) (get >>= g) := rest

end SonicBmp.Library.Lockstep
