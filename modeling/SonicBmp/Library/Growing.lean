/- module: SonicBmp/Library/Growing
   digest: Programs that read from a source: while something is left unread, more input changes nothing. -/

import SonicBmp.Library.Throwing

set_option autoImplicit false
set_option relaxedAutoImplicit false

namespace SonicBmp.Library.Growing

open SonicBmp.Library.Throwing

variable {ε σ α β ι : Type}

/-- A part of the state that is read from, with a way to append to it. -/
structure Source (σ ι : Type) where
  rest : σ → List ι
  grow : List ι → σ → σ
  rest_grow : ∀ t s, rest (grow t s) = rest s ++ t

/-- A program that never refills the source and that, unless it empties the source, does the
same whatever comes behind: it returns the same and leaves what came behind. -/
def Grows (S : Source σ ι) (p : Throws ε σ α) : Prop :=
  ∀ s a s', p.run s = .ok (a, s') →
    (S.rest s = [] → S.rest s' = []) ∧
      (S.rest s' ≠ [] → ∀ t, p.run (S.grow t s) = .ok (a, S.grow t s'))

variable {S : Source σ ι}

theorem grows_pure (a : α) : Grows S (pure a : Throws ε σ α) := by
  rintro s _ _ ⟨⟩
  exact ⟨id, fun _ _ => rfl⟩

theorem grows_throw (e : ε) : Grows S (throw e : Throws ε σ α) := by
  rintro s a s' ⟨⟩

theorem Grows.bind {p : Throws ε σ α} {f : α → Throws ε σ β} (first : Grows S p)
    (rest : ∀ a, Grows S (f a)) : Grows S (p >>= f) := by
  intro s b s'' run
  rw [StateT.run_bind] at run
  cases done : p.run s with
  | error e =>
    rw [done] at run
    cases run
  | ok result =>
    obtain ⟨a, s'⟩ := result
    rw [done] at run
    obtain ⟨shrinks, same⟩ := first s a s' done
    obtain ⟨shrinks', same'⟩ := rest a s' b s'' run
    refine ⟨fun empty => shrinks' (shrinks empty), fun left t => ?_⟩
    have left' : S.rest s' ≠ [] := fun empty => left (shrinks' empty)
    rw [run_bind_of_ok (same left' t)]
    exact same' left t

theorem grows_modify {f : σ → σ} (keeps : ∀ s, S.rest (f s) = S.rest s)
    (comm : ∀ t s, f (S.grow t s) = S.grow t (f s)) : Grows S (modify f : Throws ε σ Unit) := by
  rintro s _ _ ⟨⟩
  refine ⟨fun empty => (keeps s).trans empty, fun _ t => ?_⟩
  rw [run_modify, comm]

theorem grows_modify_bind {f : σ → σ} {g : Unit → Throws ε σ β}
    (keeps : ∀ s, S.rest (f s) = S.rest s) (comm : ∀ t s, f (S.grow t s) = S.grow t (f s))
    (rest : Grows S (g ())) : Grows S (modify f >>= g) :=
  (grows_modify keeps comm).bind fun _ => rest

/-- What is read off the state must not depend on what comes behind. -/
theorem grows_get_bind {f : σ → Throws ε σ β} (blind : ∀ t s, f (S.grow t s) = f s)
    (rest : ∀ s, Grows S (f s)) : Grows S (get >>= f) := by
  intro s b s' run
  obtain ⟨shrinks, same⟩ := rest s s b s' run
  refine ⟨shrinks, fun left t => ?_⟩
  rw [run_get_bind, blind]
  exact same left t

theorem grows_ite {c : Prop} [Decidable c] {p q : Throws ε σ α} (yes : c → Grows S p)
    (no : ¬ c → Grows S q) : Grows S (if c then p else q) := by
  by_cases h : c
  · rw [if_pos h]
    exact yes h
  · rw [if_neg h]
    exact no h

end SonicBmp.Library.Growing
