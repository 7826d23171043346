/- module: SonicBmp/Library/Tsv
   digest: Lines of fields with tabs between them, and texts that leave their number alone. -/

import SonicBmp.Library.Printing

set_option autoImplicit false
set_option relaxedAutoImplicit false

namespace SonicBmp.Library.Tsv

open SonicBmp.Library.Printing

/-- A single line that splits at the tabs into `n` fields. -/
def OneRecord (n : Nat) (data : Text) : Prop :=
  data.count '\n' = 1 ∧ data.getLast? = some '\n' ∧ (data.dropLast.splitOn '\t').length = n

instance (n : Nat) (data : Text) : Decidable (OneRecord n data) :=
  inferInstanceAs (Decidable (_ ∧ _))

/-- Neither a line feed nor a tab. -/
def Plain (text : Text) : Prop := '\n' ∉ text ∧ '\t' ∉ text

theorem length_splitOn (c : Char) (text : Text) : (text.splitOn c).length = text.count c + 1 := by
  induction text with
  | nil => rfl
  | cons x text ih =>
    rw [List.splitOn_cons_eq_if_modifyHead, List.count_cons]
    split
    · rw [List.length_cons, ih]
    · rw [List.length_modifyHead, ih]

theorem oneRecord_line (n : Nat) (line : Text) :
    OneRecord n (line ++ ['\n']) ↔ '\n' ∉ line ∧ line.count '\t' + 1 = n := by
  unfold OneRecord
  rw [List.dropLast_concat, length_splitOn, List.getLast?_concat, List.count_append]
  simp [List.count_eq_zero]

/-- Fields with tabs between them contain the characters of the fields and the tabs. -/
theorem count_fields (c : Char) (field : Text) (fields : List Text) :
    (List.intercalate ['\t'] (field :: fields)).count c =
      ((field :: fields).map (List.count c)).sum + if c = '\t' then fields.length else 0 := by
  rw [intercalate_cons]
  induction fields generalizing field with
  | nil => simp
  | cons next fields ih =>
    have rest := ih next
    simp only [List.count_append, List.flatMap_cons, List.cons_append, List.map_cons,
      List.sum_cons, List.count_cons, List.length_cons] at rest ⊢
    by_cases tab : c = '\t'
    · subst tab
      simp only [beq_self_eq_true, if_true] at rest ⊢
      omega
    · have other : ('\t' == c) = false := by simpa using fun same => tab same.symm
      simp only [other, tab, if_false, Bool.false_eq_true] at rest ⊢
      omega

theorem sum_count_eq_zero (c : Char) (fields : List Text) :
    (fields.map (List.count c)).sum = 0 ↔ ∀ field ∈ fields, c ∉ field := by
  rw [← List.count_flatten, List.count_eq_zero]
  simp

/-- Tabs in the fields add to the number of fields, a line feed anywhere ends the line. -/
theorem oneRecord_fields {n : Nat} {fields : List Text} (some_field : fields ≠ []) :
    OneRecord n (List.intercalate ['\t'] fields ++ ['\n']) ↔
      (∀ field ∈ fields, '\n' ∉ field) ∧
        (fields.map (List.count '\t')).sum + fields.length = n := by
  obtain ⟨field, rest, rfl⟩ := List.exists_cons_of_ne_nil some_field
  rw [oneRecord_line, ← List.count_eq_zero, count_fields, count_fields, if_neg (by decide),
    if_pos rfl, Nat.add_zero, sum_count_eq_zero, List.length_cons, Nat.add_assoc]

/-- With as many fields as there should be, all of them have to be plain. -/
theorem oneRecord_iff_plain {fields : List Text} (some_field : fields ≠ []) :
    OneRecord fields.length (List.intercalate ['\t'] fields ++ ['\n']) ↔
      ∀ field ∈ fields, Plain field := by
  rw [oneRecord_fields some_field, Nat.add_eq_right, sum_count_eq_zero]
  simp only [Plain, forall_and]

/-- A record has its last line feed at its end. -/
theorem OneRecord.last {n : Nat} {data : Text} {c : Char} (record : OneRecord n (data ++ [c])) :
    c = '\n' := by
  simpa using record.2.1

end SonicBmp.Library.Tsv
