/- module: SonicBmp/Library/Concat
   digest: Segments written side by side without a separator, and how two rows of them can read alike. -/

import Mathlib.Data.List.Basic

set_option autoImplicit false
set_option relaxedAutoImplicit false

namespace SonicBmp.Library.Concat

variable {α : Type}

/-- Two segments with what follows them read alike in one of two ways. -/
theorem append_eq_append_iff_drop (x y a b : List α) :
    x ++ a = y ++ b ↔ (x <+: y ∧ a = y.drop x.length ++ b) ∨ (y <+: x ∧ b = x.drop y.length ++ a) := by
  rw [List.append_eq_append_iff]
  constructor
  · rintro (⟨d, rfl, rfl⟩ | ⟨d, rfl, rfl⟩)
    · exact .inl ⟨List.prefix_append x d, by simp⟩
    · exact .inr ⟨List.prefix_append y d, by simp⟩
  · rintro (⟨⟨d, rfl⟩, rfl⟩ | ⟨⟨d, rfl⟩, rfl⟩)
    · exact .inl ⟨d, rfl, by simp⟩
    · exact .inr ⟨d, rfl, by simp⟩

variable [DecidableEq α]

/-- Where the two rows of segments first differ, one segment is the other with a piece
added, and the row with the shorter one goes on with that piece: it has moved over the
end of the segment. -/
def Shifted : List (List α) → List (List α) → Prop
  | x :: xs, y :: ys =>
    if x = y then Shifted xs ys
    else
      (x <+: y ∧ xs.flatten = y.drop x.length ++ ys.flatten) ∨
        (y <+: x ∧ ys.flatten = x.drop y.length ++ xs.flatten)
  | _, _ => False

instance Shifted.decidable : (xs ys : List (List α)) → Decidable (Shifted xs ys)
  | x :: xs, y :: ys =>
    have := Shifted.decidable xs ys
    inferInstanceAs (Decidable (if x = y then Shifted xs ys else _ ∨ _))
  | [], _ => isFalse id
  | _ :: _, [] => isFalse id

/-- Different rows of equally many segments read alike exactly when a piece has moved. -/
theorem shifted_iff {xs ys : List (List α)} (same : xs.length = ys.length) :
    Shifted xs ys ↔ xs.flatten = ys.flatten ∧ xs ≠ ys := by
  induction xs generalizing ys with
  | nil =>
    cases ys with
    | nil => simp [Shifted]
    | cons y ys => cases same
  | cons x xs ih =>
    cases ys with
    | nil => cases same
    | cons y ys =>
      rw [Shifted, List.flatten_cons, List.flatten_cons]
      by_cases here : x = y
      · subst here
        rw [if_pos rfl, ih (Nat.succ.inj same), List.append_cancel_left_eq]
        simp
      · rw [if_neg here, ← append_eq_append_iff_drop]
        simp [here]

example : Shifted ["ab".toList, "c".toList] ["a".toList, "bc".toList] := by decide

end SonicBmp.Library.Concat
