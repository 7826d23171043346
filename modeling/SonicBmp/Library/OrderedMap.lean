/- module: SonicBmp/Library/OrderedMap
   digest: Maps kept in the order of their keys. -/

import Mathlib

set_option autoImplicit false
set_option relaxedAutoImplicit false

namespace SonicBmp.Library.OrderedMap

variable {κ β : Type} [LinearOrder κ]

structure SortedMap (κ β : Type) [LinearOrder κ] where
  entries : List (κ × β)
  sorted : entries.Pairwise (fun a b => a.1 < b.1)

def assignIn (key : κ) (value : β) : List (κ × β) → List (κ × β)
  | [] => [(key, value)]
  | entry :: rest =>
    if key = entry.1 then (key, value) :: rest
    else if key < entry.1 then (key, value) :: entry :: rest
    else entry :: assignIn key value rest

theorem mem_assignIn {key : κ} {value : β} {entries : List (κ × β)} {entry : κ × β}
    (here : entry ∈ assignIn key value entries) : entry = (key, value) ∨ entry ∈ entries := by
  induction entries with
  | nil => exact .inl (List.mem_singleton.mp here)
  | cons first rest ih =>
    rw [assignIn] at here
    split at here
    · rcases List.mem_cons.mp here with own | old
      · exact .inl own
      · exact .inr (List.mem_cons_of_mem _ old)
    · split at here
      · exact List.mem_cons.mp here
      · rcases List.mem_cons.mp here with own | later
        · exact .inr (own ▸ List.mem_cons_self)
        · exact (ih later).imp_right (List.mem_cons_of_mem _)

theorem sorted_assignIn (key : κ) (value : β) {entries : List (κ × β)}
    (sorted : entries.Pairwise (fun a b => a.1 < b.1)) :
    (assignIn key value entries).Pairwise (fun a b => a.1 < b.1) := by
  induction entries with
  | nil => exact List.pairwise_singleton _ _
  | cons first rest ih =>
    obtain ⟨least, tail⟩ := List.pairwise_cons.mp sorted
    rw [assignIn]
    split
    · rename_i same
      exact List.pairwise_cons.mpr ⟨fun entry here => same ▸ least entry here, tail⟩
    · rename_i other
      split
      · rename_i before
        refine List.pairwise_cons.mpr ⟨fun entry here => ?_, sorted⟩
        rcases List.mem_cons.mp here with rfl | here
        · exact before
        · exact before.trans (least entry here)
      · rename_i behind
        refine List.pairwise_cons.mpr ⟨fun entry here => ?_, ih tail⟩
        rcases mem_assignIn here with rfl | here
        · exact lt_of_le_of_ne (not_lt.mp behind) (Ne.symm other)
        · exact least entry here

def SortedMap.empty : SortedMap κ β := ⟨[], List.Pairwise.nil⟩

/-- `map[key] = value`. -/
def SortedMap.assign (map : SortedMap κ β) (key : κ) (value : β) : SortedMap κ β :=
  ⟨assignIn key value map.entries, sorted_assignIn key value map.sorted⟩

end SonicBmp.Library.OrderedMap
