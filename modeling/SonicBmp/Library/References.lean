/- module: SonicBmp/Library/References
   digest: Histories in which every key that is needed was given before. -/

import Mathlib.Data.List.Basic

set_option autoImplicit false
set_option relaxedAutoImplicit false

namespace SonicBmp.Library.References

variable {α κ : Type} {gives needs : α → κ → Prop}

/-- Every key an event needs is known from the start or was given by an earlier event. -/
def Justified (gives needs : α → κ → Prop) (known : κ → Prop) : List α → Prop
  | [] => True
  | event :: events =>
    (∀ key, needs event key → known key) ∧
      Justified gives needs (fun key => known key ∨ gives event key) events

theorem Justified.mono {known known' : κ → Prop} {events : List α}
    (just : Justified gives needs known events) (more : ∀ key, known key → known' key) :
    Justified gives needs known' events := by
  induction events generalizing known known' with
  | nil => trivial
  | cons event events ih =>
    exact ⟨fun key need => more key (just.1 key need), ih just.2 fun key => Or.imp_left (more key)⟩

theorem justified_append {known : κ → Prop} {events events' : List α} :
    Justified gives needs known (events ++ events') ↔
      Justified gives needs known events ∧
        Justified gives needs (fun key => known key ∨ ∃ event ∈ events, gives event key) events' := by
  induction events generalizing known with
  | nil => simp [Justified]
  | cons event events ih =>
    simp only [List.cons_append, Justified, ih, and_assoc, List.exists_mem_cons_iff, or_assoc]

/-- Histories that need no more than what is known from the start may follow one another. -/
theorem Justified.append {known : κ → Prop} {events events' : List α}
    (one : Justified gives needs known events) (two : Justified gives needs known events') :
    Justified gives needs known (events ++ events') :=
  justified_append.mpr ⟨one, two.mono fun _ => Or.inl⟩

theorem justified_of_needs_known {known : κ → Prop} {events : List α}
    (all : ∀ event ∈ events, ∀ key, needs event key → known key) :
    Justified gives needs known events := by
  induction events generalizing known with
  | nil => trivial
  | cons event events ih =>
    refine ⟨all event List.mem_cons_self, ih fun other here key need => ?_⟩
    exact Or.inl (all other (List.mem_cons_of_mem _ here) key need)

/-- At any event of a history. -/
theorem Justified.split {known : κ → Prop} {before after : List α} {event : α} {key : κ}
    (just : Justified gives needs known (before ++ event :: after)) (need : needs event key) :
    known key ∨ ∃ earlier ∈ before, gives earlier key :=
  (justified_append.mp just).2.1 key need

end SonicBmp.Library.References
