/- module: SonicBmp/Library/Footprint
   digest: Programs that read memory in an order of their own making, and what they have read. -/

import SonicBmp.Library.Memory

set_option autoImplicit false
set_option relaxedAutoImplicit false

namespace SonicBmp.Library.Footprint

open SonicBmp.Library.Memory

/-- A range of addresses that is read. -/
structure Span where
  start : Nat
  len : Nat
  deriving DecidableEq

def Span.stop (s : Span) : Nat := s.start + s.len

/-- Every span lies between two addresses. -/
def Inside (lo hi : Nat) (spans : List Span) : Prop := ∀ s ∈ spans, lo ≤ s.start ∧ s.stop ≤ hi

@[simp] theorem inside_nil (lo hi : Nat) : Inside lo hi [] := by
  intro s here
  exact absurd here List.not_mem_nil

@[simp] theorem inside_cons (lo hi : Nat) (s : Span) (spans : List Span) :
    Inside lo hi (s :: spans) ↔ (lo ≤ s.start ∧ s.stop ≤ hi) ∧ Inside lo hi spans :=
  List.forall_mem_cons

@[simp] theorem inside_append (lo hi : Nat) (spans spans' : List Span) :
    Inside lo hi (spans ++ spans') ↔ Inside lo hi spans ∧ Inside lo hi spans' :=
  List.forall_mem_append

def Agree (spans : List Span) (m m' : Mem) : Prop :=
  ∀ s ∈ spans, SameBytes s.len m s.start m' s.start

/-- The program `f` looks at no more than the spans it has collected on the way: on a memory
that agrees there it takes the same course and has the same result. -/
def ReadsOnly {α : Type} (f : Mem → α) (spans : Mem → List Span) : Prop :=
  ∀ m m', Agree (spans m) m m' → f m = f m' ∧ spans m = spans m'

section

variable {α β : Type}

theorem ReadsOnly.pure (a : α) : ReadsOnly (fun _ => a) (fun _ => []) :=
  fun _ _ _ => ⟨rfl, rfl⟩

theorem ReadsOnly.read {p n : Nat} {f : Mem → α}
    (same : ∀ m m', SameBytes n m p m' p → f m = f m') : ReadsOnly f (fun _ => [⟨p, n⟩]) :=
  fun m m' agree => ⟨same m m' (agree ⟨p, n⟩ (List.mem_singleton.mpr rfl)), rfl⟩

/-- What is read next may depend on what was read before. -/
theorem ReadsOnly.bind_range {f : Mem → α} {g : α → Mem → β} {s : Mem → List Span}
    {t : α → Mem → List Span} (first : ReadsOnly f s)
    (next : ∀ m, ReadsOnly (g (f m)) (t (f m))) :
    ReadsOnly (fun m => g (f m) m) (fun m => s m ++ t (f m) m) := by
  intro m m' agree
  obtain ⟨value, spans⟩ := first m m' (fun x here => agree x (List.mem_append_left _ here))
  obtain ⟨value', spans'⟩ :=
    next m m m' (fun x here => agree x (List.mem_append_right _ here))
  constructor
  · show g (f m) m = g (f m') m'
    rw [value', value]
  · show s m ++ t (f m) m = s m' ++ t (f m') m'
    rw [spans', spans, value]

theorem ReadsOnly.bind {f : Mem → α} {g : α → Mem → β} {s : Mem → List Span}
    {t : α → Mem → List Span} (first : ReadsOnly f s) (next : ∀ a, ReadsOnly (g a) (t a)) :
    ReadsOnly (fun m => g (f m) m) (fun m => s m ++ t (f m) m) :=
  first.bind_range fun m => next (f m)

theorem ReadsOnly.map {f : Mem → α} {s : Mem → List Span} (first : ReadsOnly f s) (g : α → β) :
    ReadsOnly (fun m => g (f m)) s :=
  fun m m' agree => ⟨congrArg g (first m m' agree).1, (first m m' agree).2⟩

theorem ReadsOnly.of_eq {f f' : Mem → α} {s s' : Mem → List Span} (h : ReadsOnly f s)
    (same : ∀ m, f' m = f m) (spans : ∀ m, s' m = s m) : ReadsOnly f' s' := by
  have hf : f' = f := funext same
  have hs : s' = s := funext spans
  rw [hf, hs]
  exact h

theorem ReadsOnly.ite {c : Prop} [Decidable c] {f g : Mem → α} {s t : Mem → List Span}
    (yes : c → ReadsOnly f s) (no : ¬ c → ReadsOnly g t) :
    ReadsOnly (fun m => if c then f m else g m) (fun m => if c then s m else t m) := by
  by_cases h : c
  · simp only [if_pos h]
    exact yes h
  · simp only [if_neg h]
    exact no h

end

end SonicBmp.Library.Footprint
