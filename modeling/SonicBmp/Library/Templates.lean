/- module: SonicBmp/Library/Templates
   digest: Texts with named holes, and filling the holes one name after another. -/

import Mathlib.Data.List.Basic

set_option autoImplicit false
set_option relaxedAutoImplicit false

namespace SonicBmp.Library.Templates

variable {α : Type}

/-- A character, or a hole with its name. -/
inductive Piece (α : Type)
  | char (c : α)
  | hole (name : List α)
  deriving DecidableEq

abbrev Template (α : Type) := List (Piece α)

/-! Written templates. -/

section Written

variable (left right : α)

/-- How a hole is written. -/
def mark (name : List α) : List α := left :: (name ++ [right])

def Piece.text : Piece α → List α
  | .char c => [c]
  | .hole name => mark left right name

def text (template : Template α) : List α := template.flatMap (Piece.text left right)

def Piece.Tidy : Piece α → Prop
  | .char c => c ≠ left
  | .hole name => left ∉ name ∧ right ∉ name

/-- The left bracket only begins holes, and no name has a bracket. -/
def Tidy (template : Template α) : Prop := ∀ piece ∈ template, piece.Tidy left right

instance [DecidableEq α] : DecidablePred (Piece.Tidy left right)
  | .char c => inferInstanceAs (Decidable (c ≠ left))
  | .hole name => inferInstanceAs (Decidable (left ∉ name ∧ right ∉ name))

instance [DecidableEq α] : DecidablePred (Tidy left right) := fun template =>
  inferInstanceAs (Decidable (∀ piece ∈ template, piece.Tidy left right))

end Written

/-! Filling. -/

def Piece.fill (values : List α → Option (List α)) : Piece α → Template α
  | .char c => [.char c]
  | .hole name => (values name).elim [.hole name] (List.map .char)

/-- Every hole that has a value gets it, all at once. -/
def fill (values : List α → Option (List α)) (template : Template α) : Template α :=
  template.flatMap (Piece.fill values)

/-- One name with its value. -/
def single [DecidableEq α] (name value : List α) : List α → Option (List α) :=
  fun name' => if name' = name then some value else none

theorem fill_chars (values : List α → Option (List α)) (cs : List α) :
    fill values (cs.map .char) = cs.map .char := by
  induction cs with
  | nil => rfl
  | cons c cs ih => exact congrArg (Piece.char c :: ·) ih

theorem fill_fill (values values' : List α → Option (List α)) (template : Template α) :
    fill values' (fill values template) = fill (fun name => (values name).or (values' name)) template := by
  induction template with
  | nil => rfl
  | cons piece template ih =>
    have split (values : List α → Option (List α)) (one two : Template α) :
        fill values (one ++ two) = fill values one ++ fill values two := List.flatMap_append
    rw [← List.singleton_append, split, split, split, ih]
    congr 1
    cases piece with
    | char c => rfl
    | hole name =>
      cases value : values name with
      | none => simp [fill, Piece.fill, value]
      | some cs =>
        have filled : fill values [.hole name] = cs.map .char := by simp [fill, Piece.fill, value]
        rw [filled, fill_chars]
        simp [fill, Piece.fill, value]

theorem fill_none (template : Template α) : fill (fun _ => none) template = template := by
  induction template with
  | nil => rfl
  | cons piece template ih =>
    cases piece <;> exact congrArg (_ :: ·) ih

/-- Names filled one after another: the first value of a name counts. -/
theorem foldl_fill [DecidableEq α] (vars : List (List α × List α)) (template : Template α) :
    vars.foldl (fun template var => fill (single var.1 var.2) template) template =
      fill (fun name => vars.lookup name) template := by
  induction vars generalizing template with
  | nil => exact (fill_none template).symm
  | cons var vars ih =>
    obtain ⟨key, value⟩ := var
    rw [List.foldl_cons, ih, fill_fill]
    congr 1
    funext name
    by_cases own : name = key
    · simp [single, own]
    · simp [single, own, List.lookup_cons, beq_false_of_ne own]

/-- The holes that stay are those without a value. -/
theorem hole_mem_fill_iff (values : List α → Option (List α)) (name : List α)
    (template : Template α) :
    .hole name ∈ fill values template ↔ .hole name ∈ template ∧ values name = none := by
  have own (piece : Piece α) :
      .hole name ∈ piece.fill values ↔ .hole name = piece ∧ values name = none := by
    cases piece with
    | char c => simp [Piece.fill]
    | hole name' =>
      by_cases same : name = name'
      · subst same
        cases value : values name <;> simp [Piece.fill, value]
      · cases value : values name' <;> simp [Piece.fill, value, same]
  constructor
  · intro here
    obtain ⟨piece, inside, here⟩ := List.mem_flatMap.mp here
    obtain ⟨rfl, free⟩ := (own piece).mp here
    exact ⟨inside, free⟩
  · intro ⟨inside, free⟩
    exact List.mem_flatMap.mpr ⟨_, inside, (own _).mpr ⟨rfl, free⟩⟩

/-- Values without a left bracket keep a template tidy. -/
theorem Tidy.fill {left right : α} {template : Template α} (tidy : Tidy left right template)
    {values : List α → Option (List α)}
    (plain : ∀ name value, values name = some value → left ∉ value) :
    Tidy left right (fill values template) := by
  intro piece here
  obtain ⟨old, inside, here⟩ := List.mem_flatMap.mp here
  have was := tidy old inside
  cases old with
  | char c =>
    rw [List.mem_singleton.mp here]
    exact was
  | hole name =>
    cases value : values name with
    | none =>
      rw [Piece.fill, value] at here
      rw [List.mem_singleton.mp here]
      exact was
    | some cs =>
      rw [Piece.fill, value] at here
      obtain ⟨c, inside, rfl⟩ := List.mem_map.mp here
      rintro rfl
      exact plain name cs value inside

end SonicBmp.Library.Templates
