/- module: SonicBmp/Library/Queue
   digest: An unbounded queue with its history, and conservation along every run. -/

import Mathlib.Logic.Relation
import Mathlib.Data.List.Basic

set_option autoImplicit false
set_option relaxedAutoImplicit false

namespace SonicBmp.Library.Queue

/-- A queue together with everything it ever accepted and delivered. -/
structure Fifo (α : Type) where
  accepted : List α
  held : List α
  delivered : List α

variable {α : Type}

def Fifo.empty : Fifo α := ⟨[], [], []⟩

def Fifo.push (q : Fifo α) (xs : List α) : Fifo α :=
  ⟨q.accepted ++ xs, q.held ++ xs, q.delivered⟩

def Fifo.pop (q : Fifo α) (n : Nat) : Fifo α :=
  ⟨q.accepted, q.held.drop n, q.delivered ++ q.held.take n⟩

inductive Fifo.Step : Fifo α → Fifo α → Prop
  | push (q : Fifo α) (xs : List α) : Fifo.Step q (q.push xs)
  | pop (q : Fifo α) (n : Nat) : Fifo.Step q (q.pop n)

def Fifo.Run : Fifo α → Fifo α → Prop := Relation.ReflTransGen Fifo.Step

/-- Nothing lost, nothing duplicated, nothing reordered. -/
def Fifo.Conserved (q : Fifo α) : Prop := q.delivered ++ q.held = q.accepted

theorem Fifo.Step.conserved {q q' : Fifo α} (step : Fifo.Step q q') (h : q.Conserved) :
    q'.Conserved := by
  unfold Fifo.Conserved at h ⊢
  cases step with
  | push xs => simp only [Fifo.push, ← h, List.append_assoc]
  | pop n => simp only [Fifo.pop, List.append_assoc, List.take_append_drop, h]

theorem Fifo.Run.conserved {q : Fifo α} (run : Fifo.Run Fifo.empty q) : q.Conserved := by
  induction run with
  | refl => rfl
  | tail _ step ih => exact step.conserved ih

end SonicBmp.Library.Queue
