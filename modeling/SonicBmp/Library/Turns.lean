/- module: SonicBmp/Library/Turns
   digest: Loops with a rising count: the list of their turns, its length, and the run as a fold over it. -/

import Mathlib.Data.List.Basic
import Mathlib.Tactic.Ring

set_option autoImplicit false
set_option relaxedAutoImplicit false

namespace SonicBmp.Library.Turns

variable {σ α : Type}

/-- A loop `while (count < bound)`. A turn leaves the loop or goes on with a larger
count, so that a loop that does not end cannot be written down. -/
structure CountingLoop (σ : Type) where
  bound : Nat
  count : σ → Nat
  next : σ → Option σ
  advances : ∀ s s', count s < bound → next s = some s' → count s < count s'

namespace CountingLoop

variable (L : CountingLoop σ)

/-- The states in which the body is entered, in order. -/
def turns (s : σ) : List σ :=
  if _ : L.count s < L.bound then
    s :: match _ : L.next s with
      | none => []
      | some s' => turns s'
  else []
termination_by L.bound - L.count s
decreasing_by
  have := L.advances s s' ‹_› ‹_›
  omega

theorem turns_done {s : σ} (done : ¬ L.count s < L.bound) : L.turns s = [] := by
  rw [turns, dif_neg done]

theorem turns_last {s : σ} (more : L.count s < L.bound) (ends : L.next s = none) :
    L.turns s = [s] := by
  rw [turns, dif_pos more]
  split
  · rfl
  · rename_i s' goes
    rw [ends] at goes
    cases goes

theorem turns_next {s s' : σ} (more : L.count s < L.bound) (goes : L.next s = some s') :
    L.turns s = s :: L.turns s' := by
  rw [turns, dif_pos more]
  split
  · rename_i ends
    rw [goes] at ends
    cases ends
  · rename_i s'' goes'
    rw [goes] at goes'
    cases goes'
    rfl

/-- Induction along the turns of a loop. -/
theorem induct {P : σ → Prop} (done : ∀ s, ¬ L.count s < L.bound → P s)
    (last : ∀ s, L.count s < L.bound → L.next s = none → P s)
    (step : ∀ s s', L.count s < L.bound → L.next s = some s' → P s' → P s) (s : σ) : P s := by
  fun_induction L.turns s with
  | case1 s more ih =>
    cases goes : L.next s with
    | none => exact last s more goes
    | some s' => exact step s s' more goes (ih s' goes)
  | case2 s enough => exact done s enough

/-- A loop whose count rises by `k` at every turn. -/
theorem length_turns_le {k : Nat} (pos : 0 < k)
    (rises : ∀ s s', L.count s < L.bound → L.next s = some s' → L.count s + k ≤ L.count s')
    (s : σ) : k * (L.turns s).length ≤ L.bound - L.count s + (k - 1) := by
  induction s using L.induct with
  | done s done => simp [L.turns_done done]
  | last s more ends =>
    rw [L.turns_last more ends, List.length_singleton]
    omega
  | step s s' more goes ih =>
    have risen := rises s s' more goes
    rw [L.turns_next more goes, List.length_cons, Nat.mul_succ]
    by_cases more' : L.count s' < L.bound
    · omega
    · rw [L.turns_done more', List.length_nil]
      omega

/-- The same as a number of turns. -/
theorem length_turns_le_div {k : Nat} (pos : 0 < k)
    (rises : ∀ s s', L.count s < L.bound → L.next s = some s' → L.count s + k ≤ L.count s')
    (s : σ) : (L.turns s).length ≤ (L.bound - L.count s + (k - 1)) / k := by
  rw [Nat.le_div_iff_mul_le pos, Nat.mul_comm]
  exact L.length_turns_le pos rises s

/-- A loop with an accumulator is the fold of its body over its turns. -/
theorem run_eq_foldl (run : σ → α → α) (body : α → σ → α)
    (leave : ∀ s a, ¬ L.count s < L.bound → run s a = a)
    (last : ∀ s a, L.count s < L.bound → L.next s = none → run s a = body a s)
    (step : ∀ s s' a, L.count s < L.bound → L.next s = some s' → run s a = run s' (body a s))
    (s : σ) (a : α) : run s a = (L.turns s).foldl body a := by
  induction s using L.induct generalizing a with
  | done s done => rw [leave s a done, L.turns_done done, List.foldl_nil]
  | last s more ends =>
    rw [last s a more ends, L.turns_last more ends, List.foldl_cons, List.foldl_nil]
  | step s s' more goes ih =>
    rw [step s s' a more goes, ih, L.turns_next more goes, List.foldl_cons]

/-- A loop that only appends to its accumulator and leaves only by its count. -/
theorem run_eq_flatMap {γ : Type} (run : σ → List γ → List γ) (emit : σ → List γ)
    (leave : ∀ s a, ¬ L.count s < L.bound → run s a = a)
    (step : ∀ s a, L.count s < L.bound →
      ∃ s', L.next s = some s' ∧ run s a = run s' (a ++ emit s))
    (s : σ) (a : List γ) : run s a = a ++ (L.turns s).flatMap emit := by
  rw [List.flatMap_def, ← List.foldl_append_eq_append]
  refine L.run_eq_foldl run (fun acc s => acc ++ emit s) leave ?_ ?_ s a
  · intro s a more ends
    obtain ⟨s', goes, -⟩ := step s a more
    rw [ends] at goes
    cases goes
  · intro s s' a more goes
    obtain ⟨s'', goes', turn⟩ := step s a more
    rw [goes] at goes'
    cases goes'
    exact turn

end CountingLoop

end SonicBmp.Library.Turns
