/- module: SonicBmp/Library/Replay
   digest: Replaying additions and removals on a set. -/

import Mathlib.Data.Set.Insert
import Mathlib.Tactic.Tauto

set_option autoImplicit false
set_option relaxedAutoImplicit false

namespace SonicBmp.Library.Replay

variable {α : Type}

inductive Edit (α : Type)
  | add (a : α)
  | remove (a : α)

def Edit.apply (content : Set α) : Edit α → Set α
  | .add a => insert a content
  | .remove a => content \ {a}

def replay (edits : List (Edit α)) (prior : Set α) : Set α := edits.foldl Edit.apply prior

theorem replay_append (edits edits' : List (Edit α)) (prior : Set α) :
    replay (edits ++ edits') prior = replay edits' (replay edits prior) := List.foldl_append

theorem replay_adds (adds : List α) (prior : Set α) :
    replay (adds.map .add) prior = prior ∪ {a | a ∈ adds} := by
  induction adds generalizing prior with
  | nil => simp [replay]
  | cons a adds ih =>
    have rest := ih (insert a prior)
    simp only [replay, List.map_cons, List.foldl_cons, Edit.apply] at rest ⊢
    rw [rest]
    ext b
    simp only [Set.mem_union, Set.mem_insert_iff, Set.mem_ofPred_eq, List.mem_cons]
    tauto

theorem replay_removes (removes : List α) (prior : Set α) :
    replay (removes.map .remove) prior = prior \ {a | a ∈ removes} := by
  induction removes generalizing prior with
  | nil =>
    ext b
    simp [replay]
  | cons a removes ih =>
    have rest := ih (prior \ {a})
    simp only [replay, List.map_cons, List.foldl_cons, Edit.apply] at rest ⊢
    rw [rest]
    ext b
    simp only [Set.mem_sdiff, Set.mem_singleton_iff, Set.mem_ofPred_eq, List.mem_cons, not_or]
    tauto

/-- Adding some of the wanted elements and then removing some of the unwanted ones updates
every prior set as wanted, exactly when all wanted elements are added, none of them is
removed again, and all other unwanted ones are removed. -/
theorem replay_exact_iff {wanted unwanted : Set α} {adds removes : List α}
    (added : ∀ a ∈ adds, a ∈ wanted) (removed : ∀ a ∈ removes, a ∈ unwanted) :
    (∀ prior, replay (adds.map .add ++ removes.map .remove) prior =
        (prior \ unwanted) ∪ wanted) ↔
      (∀ a ∈ wanted, a ∈ adds) ∧ (∀ a ∈ wanted, a ∉ removes) ∧
        ∀ a ∈ unwanted, a ∉ wanted → a ∈ removes := by
  have member (a : α) (prior : Set α) :
      a ∈ replay (adds.map .add ++ removes.map .remove) prior ↔
        (a ∈ prior ∨ a ∈ adds) ∧ a ∉ removes := by
    rw [replay_append, replay_adds, replay_removes]
    exact Iff.rfl
  constructor
  · intro exact_
    have fromNone (a : α) (here : a ∈ wanted) : a ∈ adds ∧ a ∉ removes := by
      have kept := (member a ∅).mp (by rw [exact_ ∅]; exact Or.inr here)
      exact ⟨kept.1.resolve_left id, kept.2⟩
    refine ⟨fun a here => (fromNone a here).1, fun a here => (fromNone a here).2, ?_⟩
    intro a gone other
    by_contra kept
    have still := (member a Set.univ).mpr ⟨Or.inl trivial, kept⟩
    rw [exact_ Set.univ] at still
    exact still.elim (fun left => left.2 gone) other
  · rintro ⟨all, once, rest⟩ prior
    ext a
    rw [member]
    constructor
    · rintro ⟨here | here, kept⟩
      · by_cases want : a ∈ wanted
        · exact Or.inr want
        · exact Or.inl ⟨here, fun gone => kept (rest a gone want)⟩
      · exact Or.inr (added a here)
    · rintro (⟨here, kept⟩ | here)
      · exact ⟨Or.inl here, fun gone => kept (removed a gone)⟩
      · exact ⟨Or.inr (all a here), once a here⟩

end SonicBmp.Library.Replay
