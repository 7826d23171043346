/- module: SonicBmp/Library/Throwing
   digest: Programs over a state that may throw, and what holds when they return. -/

import Mathlib.Init

set_option autoImplicit false
set_option relaxedAutoImplicit false

namespace SonicBmp.Library.Throwing

variable {ε σ α β : Type}

/-- A program that reads and writes a state and may throw. -/
abbrev Throws (ε σ : Type) := StateT σ (Except ε)

/-- Either the program throws, or its result and final state satisfy `post`. -/
def Returns (p : Throws ε σ α) (s : σ) (post : α → σ → Prop) : Prop :=
  ∀ a s', p.run s = .ok (a, s') → post a s'

theorem returns_pure {a : α} {s : σ} {post : α → σ → Prop} (h : post a s) :
    Returns (pure a : Throws ε σ α) s post := by
  intro a' s' run
  cases run
  exact h

theorem returns_true (p : Throws ε σ α) (s : σ) : Returns p s (fun _ _ => True) :=
  fun _ _ _ => trivial

theorem returns_throw {e : ε} {s : σ} {post : α → σ → Prop} :
    Returns (throw e : Throws ε σ α) s post := by
  intro a' s' run
  cases run

theorem returns_modify {f : σ → σ} {s : σ} {post : Unit → σ → Prop} (h : post () (f s)) :
    Returns (modify f : Throws ε σ Unit) s post := by
  intro a' s' run
  cases run
  exact h

theorem Returns.bind {p : Throws ε σ α} {f : α → Throws ε σ β} {s : σ} {mid : α → σ → Prop}
    {post : β → σ → Prop} (first : Returns p s mid)
    (rest : ∀ a s', mid a s' → Returns (f a) s' post) : Returns (p >>= f) s post := by
  intro b s'' run
  rw [StateT.run_bind] at run
  cases done : p.run s with
  | error e => rw [done] at run; cases run
  | ok result =>
    rw [done] at run
    exact rest result.1 result.2 (first _ _ done) b s'' run

theorem run_bind_of_ok {p : Throws ε σ α} {f : α → Throws ε σ β} {s s' : σ} {a : α}
    (first : p.run s = .ok (a, s')) : (p >>= f).run s = (f a).run s' := by
  rw [StateT.run_bind, first]
  rfl

theorem run_get_bind (f : σ → Throws ε σ β) (s : σ) : (get >>= f).run s = (f s).run s := rfl

theorem run_modify_bind (g : σ → σ) (f : Unit → Throws ε σ β) (s : σ) :
    (modify g >>= f).run s = (f ()).run (g s) := rfl

theorem run_modify (g : σ → σ) (s : σ) :
    (modify g : Throws ε σ Unit).run s = .ok ((), g s) := rfl

theorem returns_get_bind {f : σ → Throws ε σ β} {s : σ} {post : β → σ → Prop}
    (rest : Returns (f s) s post) : Returns (get >>= f) s post := rest

theorem returns_modify_bind {g : σ → σ} {f : Unit → Throws ε σ β} {s : σ} {post : β → σ → Prop}
    (rest : Returns (f ()) (g s) post) : Returns (modify g >>= f) s post := rest

theorem Returns.mono {p : Throws ε σ α} {s : σ} {post post' : α → σ → Prop}
    (h : Returns p s post) (weaker : ∀ a s', post a s' → post' a s') : Returns p s post' :=
  fun a s' run => weaker a s' (h a s' run)

/-! What a program leaves alone. -/

/-- A view of the state that is the same afterwards, unless the program throws. -/
def Keeps {ν : Type} (view : σ → ν) (p : Throws ε σ α) : Prop :=
  ∀ s, Returns p s (fun _ s' => view s' = view s)

section Keeps

variable {ν : Type} {view : σ → ν}

theorem keeps_pure (a : α) : Keeps view (pure a : Throws ε σ α) := fun _ => returns_pure rfl

theorem keeps_throw (e : ε) : Keeps view (throw e : Throws ε σ α) := fun _ => returns_throw

theorem Keeps.bind {p : Throws ε σ α} {f : α → Throws ε σ β} (first : Keeps view p)
    (rest : ∀ a, Keeps view (f a)) : Keeps view (p >>= f) := by
  intro s
  refine (first s).bind fun a s' same => ?_
  exact (rest a s').mono fun _ _ same' => same'.trans same

theorem keeps_modify {f : σ → σ} (same : ∀ s, view (f s) = view s) :
    Keeps view (modify f : Throws ε σ Unit) := fun s => returns_modify (same s)

theorem keeps_modify_bind {f : σ → σ} {g : Unit → Throws ε σ β} (same : ∀ s, view (f s) = view s)
    (rest : Keeps view (g ())) : Keeps view (modify f >>= g) :=
  (keeps_modify same).bind fun _ => rest

theorem keeps_get_bind {f : σ → Throws ε σ β} (rest : ∀ s, Keeps view (f s)) :
    Keeps view (get >>= f) := fun s => returns_get_bind (rest s s)

theorem keeps_ite {c : Prop} [Decidable c] {p q : Throws ε σ α} (yes : Keeps view p)
    (no : Keeps view q) : Keeps view (if c then p else q) := by
  split
  · exact yes
  · exact no

end Keeps

/-! Invariants of the state. -/

/-- What holds before the program holds after it, unless it throws. -/
def Preserves (inv : σ → Prop) (p : Throws ε σ α) : Prop :=
  ∀ s, inv s → Returns p s (fun _ s' => inv s')

section Preserves

variable {inv : σ → Prop}

theorem preserves_pure (a : α) : Preserves inv (pure a : Throws ε σ α) :=
  fun _ holds => returns_pure holds

theorem preserves_throw (e : ε) : Preserves inv (throw e : Throws ε σ α) :=
  fun _ _ => returns_throw

theorem preserves_modify {f : σ → σ} (keeps : ∀ s, inv s → inv (f s)) :
    Preserves inv (modify f : Throws ε σ Unit) := fun s holds => returns_modify (keeps s holds)

theorem Preserves.bind {p : Throws ε σ α} {f : α → Throws ε σ β} (first : Preserves inv p)
    (rest : ∀ a, Preserves inv (f a)) : Preserves inv (p >>= f) :=
  fun s holds => (first s holds).bind fun a s' holds' => rest a s' holds'

theorem preserves_ite {c : Prop} [Decidable c] {p q : Throws ε σ α} (yes : c → Preserves inv p)
    (no : ¬ c → Preserves inv q) : Preserves inv (if c then p else q) := by
  split
  · exact yes ‹_›
  · exact no ‹_›

theorem preserves_forM {ι : Type} {p : ι → Throws ε σ PUnit} (each : ∀ i, Preserves inv (p i))
    (items : List ι) : Preserves inv (items.forM p) := by
  induction items with
  | nil => exact preserves_pure _
  | cons i items ih => exact (each i).bind fun _ => ih

end Preserves

end SonicBmp.Library.Throwing
