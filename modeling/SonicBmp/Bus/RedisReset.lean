/- module: SonicBmp/Bus/RedisReset
   digest: Resetting the Redis tables: which keys are listed, which are deleted, what remains. -/

import Mathlib.Data.List.Infix
import Mathlib.Data.List.MinMax
import SonicBmp.Bus.Redis

set_option autoImplicit false
set_option relaxedAutoImplicit false

namespace SonicBmp.Bus.RedisReset

open SonicBmp.Library.Printing (Text)
open SonicBmp.Bus.Redis

/-- The keys in the database, listed; repetitions mean nothing. -/
abbrev Content := List Text

def Content.store (content : Content) : Store := content.contains

def Content.apply (separator : Text) (content : Content) : RedisCommand → Content
  | .set table key _ => (table.name ++ separator ++ key) :: content
  | .del keys => content.filter (fun key => !keys.contains key)

/-- The listed keys change as the store does. -/
theorem Content.store_apply (separator : Text) (content : Content) (command : RedisCommand) :
    (content.apply separator command).store = content.store.apply separator command := by
  funext key
  cases command with
  | set table written fieldValues =>
    by_cases same : key = table.name ++ (separator ++ written)
    · simp [Content.apply, Content.store, Store.apply, same]
    · simp [Content.apply, Content.store, Store.apply, same, Function.update]
  | del keys => simp [Content.apply, Content.store, Store.apply, List.mem_filter]

def IsKeyOf (separator : Text) (table : BmpTable) (key : Text) : Prop :=
  table.name ++ separator <+: key

instance (separator : Text) (table : BmpTable) (key : Text) :
    Decidable (IsKeyOf separator table key) :=
  inferInstanceAs (Decidable (_ <+: _))

/-- `swss::Table::getKeys`: the keys of a table, without its name and the separator. -/
def getKeys (separator : Text) (table : BmpTable) (content : Content) : List Text :=
  (content.filter (fun key => decide (IsKeyOf separator table key))).map
    (List.drop (table.name ++ separator).length)

/-- `RedisManager::ResetBMPTable` hands the listed keys to `del` as they are. -/
def resetBMPTable (separator : Text) (content : Content) (table : BmpTable) : Content :=
  content.apply separator (.del (getKeys separator table content))

/-- `RedisManager::ResetAllTables`, with the enabled tables in the order of the set. -/
def resetAllTables (separator : Text) (enabledTables : List BmpTable) (content : Content) :
    Content :=
  enabledTables.foldl (resetBMPTable separator) content

/-- A call of `WriteBMPTable`, with the tables enabled when it was made. -/
structure TableWrite where
  enabledTables : BmpTable → Bool
  table : BmpTable
  keys : List Text
  fieldValues : List FieldValue

def TableWrite.commands (separator : Text) (w : TableWrite) : List RedisCommand :=
  RedisManager.writeBMPTable ⟨separator, w.enabledTables⟩ w.table w.keys w.fieldValues

def written (separator : Text) (writes : List TableWrite) : Content :=
  (writes.flatMap (TableWrite.commands separator)).foldl (Content.apply separator) []

theorem mem_getKeys {separator : Text} {table : BmpTable} {content : Content} {key : Text} :
    key ∈ getKeys separator table content ↔ table.name ++ separator ++ key ∈ content := by
  simp only [getKeys, List.mem_map, List.mem_filter, decide_eq_true_eq]
  constructor
  · rintro ⟨_, ⟨inside, rest, rfl⟩, rfl⟩
    rwa [List.drop_left]
  · intro inside
    exact ⟨_, ⟨inside, List.prefix_append _ _⟩, List.drop_left⟩

private theorem mem_resetBMPTable {separator : Text} {table : BmpTable} {content : Content}
    {key : Text} : key ∈ resetBMPTable separator content table ↔
      key ∈ content ∧ table.name ++ separator ++ key ∉ content := by
  simp only [resetBMPTable, Content.apply, List.mem_filter, Bool.not_eq_true',
    List.contains_eq_mem, decide_eq_false_iff_not, mem_getKeys]

private theorem mem_foldl_set {separator : Text} (commands : List RedisCommand)
    (sets : ∀ command ∈ commands, command.deletedKeys = []) (content : Content) (key : Text) :
    key ∈ commands.foldl (Content.apply separator) content ↔
      key ∈ content ∨ key ∈ commands.flatMap (RedisCommand.storedKeys separator) := by
  induction commands generalizing content with
  | nil => simp
  | cons command commands ih =>
    have first := sets command List.mem_cons_self
    rw [List.foldl_cons, ih (fun c hc => sets c (List.mem_cons_of_mem _ hc)), List.flatMap_cons,
      List.mem_append]
    cases command with
    | set table written fieldValues =>
      simp [Content.apply, RedisCommand.storedKeys]
      tauto
    | del keys =>
      simp only [RedisCommand.deletedKeys] at first
      simp [Content.apply, RedisCommand.storedKeys, first]

/-- The keys of a table are those written while it was enabled. -/
theorem written_isKeyOf {separator : Text} (writes : List TableWrite) (table : BmpTable) :
    (∃ key ∈ written separator writes, IsKeyOf separator table key) ↔
      ∃ w ∈ writes, w.table = table ∧ w.enabledTables table = true := by
  have sets : ∀ command ∈ writes.flatMap (TableWrite.commands separator),
      command.deletedKeys = [] := by
    intro command here
    obtain ⟨w, -, here⟩ := List.mem_flatMap.mp here
    unfold TableWrite.commands RedisManager.writeBMPTable at here
    split at here
    · rw [List.mem_singleton.mp here]
      rfl
    · simp at here
  have stored (key : Text) : key ∈ written separator writes ↔ ∃ w ∈ writes,
      w.enabledTables w.table = true ∧ key = w.table.name ++ separator ++
        (w.keys.flatMap (· ++ separator)).dropLast := by
    rw [written, mem_foldl_set _ sets, List.flatMap_assoc, List.mem_flatMap]
    simp only [List.not_mem_nil, false_or]
    refine exists_congr fun w => and_congr_right fun _ => ?_
    unfold TableWrite.commands RedisManager.writeBMPTable
    by_cases enabled : w.enabledTables w.table = true
    · simp [enabled, RedisCommand.storedKeys]
    · simp [enabled]
  constructor
  · rintro ⟨key, inside, rest, parts⟩
    obtain ⟨w, here, enabled, rfl⟩ := (stored key).mp inside
    simp only [List.append_assoc] at parts
    have same := (BmpTable.name_append_inj parts).1
    exact ⟨w, here, same.symm, by rw [same]; exact enabled⟩
  · rintro ⟨w, here, rfl, enabled⟩
    exact ⟨_, (stored _).mpr ⟨w, here, enabled, rfl⟩, List.prefix_append _ _⟩

private theorem resetAllTables_subset {separator : Text} (tables : List BmpTable)
    (content : Content) : resetAllTables separator tables content ⊆ content := by
  induction tables generalizing content with
  | nil => exact List.Subset.refl _
  | cons table tables ih =>
    intro key here
    exact (mem_resetBMPTable.mp (ih _ here)).1

/-- A key goes only when a longer key of an enabled table ends in it. -/
private theorem mem_resetAllTables_of {separator : Text} (tables : List BmpTable)
    (content : Content) {key : Text} (inside : key ∈ content)
    (kept : ∀ table ∈ tables, table.name ++ separator ++ key ∉ content) :
    key ∈ resetAllTables separator tables content := by
  induction tables generalizing content with
  | nil => exact inside
  | cons table tables ih =>
    refine ih _ (mem_resetBMPTable.mpr ⟨inside, kept table List.mem_cons_self⟩) ?_
    intro other here long
    exact kept other (List.mem_cons_of_mem _ here) (mem_resetBMPTable.mp long).1

/-- What a reset should do: no key of an enabled table is left, and no other key goes. -/
structure Emptied (separator : Text) (enabledTables : List BmpTable) (before after : Content) :
    Prop where
  cleared : ∀ table ∈ enabledTables, ∀ key ∈ after, ¬ IsKeyOf separator table key
  untouched : ∀ table, table ∉ enabledTables → ∀ key, IsKeyOf separator table key →
    (key ∈ after ↔ key ∈ before)

/-- The longest key of the enabled tables outlives every reset. -/
private theorem longest_remains {separator : Text} (tables : List BmpTable) (content : Content)
    (some_key : ∃ table ∈ tables, ∃ key ∈ content, IsKeyOf separator table key) :
    ∃ table ∈ tables, ∃ key ∈ resetAllTables separator tables content,
      IsKeyOf separator table key := by
  let mine := content.filter (fun key => decide (∃ table ∈ tables, IsKeyOf separator table key))
  have in_mine (key : Text) : key ∈ mine ↔
      key ∈ content ∧ ∃ table ∈ tables, IsKeyOf separator table key := by
    simp only [mine, List.mem_filter, decide_eq_true_eq]
  obtain ⟨table, listed, key, inside, isKey⟩ := some_key
  have some_mine : mine ≠ [] :=
    List.ne_nil_of_mem ((in_mine key).mpr ⟨inside, table, listed, isKey⟩)
  obtain ⟨longest, here⟩ := Option.ne_none_iff_exists'.mp
    (fun none_left => some_mine (List.argmax_eq_none.mp none_left) :
      mine.argmax List.length ≠ none)
  obtain ⟨inside, table, listed, isKey⟩ := (in_mine longest).mp (List.argmax_mem here)
  refine ⟨table, listed, longest, mem_resetAllTables_of tables content inside ?_, isKey⟩
  intro other listed long
  have bound := List.le_of_mem_argmax
    ((in_mine _).mpr ⟨long, other, listed, List.prefix_append _ _⟩) here
  have name : 0 < other.name.length := by cases other <;> decide
  simp only [List.length_append] at bound
  omega

/-- A reset does what it should only when there is nothing to reset: no write has stored
under a table that is enabled now. -/
theorem resetAllTables_emptied_iff (separator : Text) (writes : List TableWrite)
    (enabledTables : List BmpTable) :
    Emptied separator enabledTables (written separator writes)
        (resetAllTables separator enabledTables (written separator writes)) ↔
      ∀ w ∈ writes, w.enabledTables w.table = true → w.table ∉ enabledTables := by
  constructor
  · intro emptied w here enabled listed
    obtain ⟨key, inside, isKey⟩ :=
      (@written_isKeyOf separator writes w.table).mpr ⟨w, here, rfl, enabled⟩
    obtain ⟨table, listed, key, remains, isKey⟩ :=
      longest_remains enabledTables _ ⟨w.table, listed, key, inside, isKey⟩
    exact emptied.cleared table listed key remains isKey
  · intro nothing
    have no_key : ∀ table ∈ enabledTables, ∀ key ∈ written separator writes,
        ¬ IsKeyOf separator table key := by
      intro table listed key inside isKey
      obtain ⟨w, here, rfl, enabled⟩ := (written_isKeyOf writes table).mp ⟨key, inside, isKey⟩
      exact nothing w here enabled listed
    refine ⟨fun table listed key remains => ?_, fun table _ key _ => ⟨fun remains => ?_, ?_⟩⟩
    · exact no_key table listed key (resetAllTables_subset enabledTables _ remains)
    · exact resetAllTables_subset enabledTables _ remains
    · intro inside
      refine mem_resetAllTables_of enabledTables _ inside ?_
      exact fun other listed long => no_key other listed _ long (List.prefix_append _ _)

private def neighborWrite : TableWrite := ⟨fun _ => true, .nei, ["10.0.0.1".toList], []⟩

/-- One neighbour row, and it is still there after the reset. -/
theorem neighbor_row_survives_reset :
    resetAllTables ['|'] [.nei] (written ['|'] [neighborWrite]) =
        ["BGP_NEIGHBOR_TABLE|10.0.0.1".toList] ∧
      ¬ Emptied ['|'] [.nei] (written ['|'] [neighborWrite])
        (resetAllTables ['|'] [.nei] (written ['|'] [neighborWrite])) := by
  refine ⟨by decide, fun emptied => ?_⟩
  exact emptied.cleared .nei (by decide) "BGP_NEIGHBOR_TABLE|10.0.0.1".toList (by decide)
    (by decide)

end SonicBmp.Bus.RedisReset
