/- module: SonicBmp/Bus/PrefixRanges
   digest: The prefix ranges of router and peer groups as the configuration is read. -/

import Mathlib.Data.Char
import Mathlib.Data.List.Lex
import SonicBmp.Library.Printing

set_option autoImplicit false
set_option relaxedAutoImplicit false

namespace SonicBmp.Bus.PrefixRanges

open SonicBmp.Library.Printing

/-! Maps from group names. -/

/-- A `std::map` from group names to lists, in the order of its keys. -/
structure GroupMap (α : Type) where
  entries : List (Text × List α)
  sorted : entries.Pairwise (fun a b => a.1 < b.1)

variable {α : Type}

def GroupMap.empty : GroupMap α := ⟨[], List.Pairwise.nil⟩

def pushBackIn (name : Text) (value : α) : List (Text × List α) → List (Text × List α)
  | [] => [(name, [value])]
  | (key, values) :: rest =>
    if name = key then (key, values ++ [value]) :: rest
    else if name < key then (name, [value]) :: (key, values) :: rest
    else (key, values) :: pushBackIn name value rest

theorem key_pushBackIn {name : Text} {value : α} {entries : List (Text × List α)}
    {e : Text × List α} (here : e ∈ pushBackIn name value entries) :
    e.1 = name ∨ ∃ old ∈ entries, e.1 = old.1 := by
  induction entries with
  | nil =>
    rw [pushBackIn, List.mem_singleton] at here
    exact .inl (here ▸ rfl)
  | cons first rest ih =>
    rw [pushBackIn] at here
    split at here
    · rcases List.mem_cons.mp here with rfl | here
      · exact .inr ⟨first, List.mem_cons_self, rfl⟩
      · exact .inr ⟨e, List.mem_cons_of_mem _ here, rfl⟩
    · split at here
      · rcases List.mem_cons.mp here with rfl | here
        · exact .inl rfl
        · exact .inr ⟨e, here, rfl⟩
      · rcases List.mem_cons.mp here with rfl | here
        · exact .inr ⟨first, List.mem_cons_self, rfl⟩
        · rcases ih here with own | ⟨old, there, same⟩
          · exact .inl own
          · exact .inr ⟨old, List.mem_cons_of_mem _ there, same⟩

theorem sorted_pushBackIn (name : Text) (value : α) {entries : List (Text × List α)}
    (sorted : entries.Pairwise (fun a b => a.1 < b.1)) :
    (pushBackIn name value entries).Pairwise (fun a b => a.1 < b.1) := by
  induction entries with
  | nil => exact List.pairwise_singleton _ _
  | cons first rest ih =>
    obtain ⟨least, tail⟩ := List.pairwise_cons.mp sorted
    rw [pushBackIn]
    split
    · exact List.pairwise_cons.mpr ⟨least, tail⟩
    · rename_i other
      split
      · rename_i before
        refine List.pairwise_cons.mpr ⟨?_, sorted⟩
        intro e here
        rcases List.mem_cons.mp here with rfl | here
        · exact before
        · exact before.trans (least e here)
      · rename_i behind
        refine List.pairwise_cons.mpr ⟨?_, ih tail⟩
        intro e here
        rcases key_pushBackIn here with own | ⟨old, there, same⟩
        · rw [own]
          exact lt_of_le_of_ne (not_lt.mp behind) (Ne.symm other)
        · rw [same]
          exact least old there

/-- `map[name].push_back(value)`. -/
def GroupMap.pushBack (map : GroupMap α) (name : Text) (value : α) : GroupMap α :=
  ⟨pushBackIn name value map.entries, sorted_pushBackIn name value map.sorted⟩

/-- The first group that has a member with the property. -/
def GroupMap.firstGroup (map : GroupMap α) (p : α → Bool) : Option Text :=
  (map.entries.find? (fun group => group.2.any p)).map Prod.fst

/-! Ranges. -/

def bitsMax (isIPv4 : Bool) : UInt8 := if isIPv4 then 32 else 128

/-- `match_type_ip`, with the octets of `prefix` as they lie in memory. -/
structure MatchTypeIp where
  isIPv4 : Bool
  prefixOctets : Vector UInt8 16
  bits : UInt8
  accepted : 1 ≤ bits ∧ bits ≤ bitsMax isIPv4

theorem MatchTypeIp.one_le_bits (range : MatchTypeIp) : 1 ≤ range.bits.toNat :=
  UInt8.le_iff_toNat_le.mp range.accepted.1

theorem MatchTypeIp.bits_le (range : MatchTypeIp) :
    range.bits.toNat ≤ if range.isIPv4 then 32 else 128 := by
  refine (UInt8.le_iff_toNat_le.mp range.accepted.2).trans ?_
  cases range.isIPv4 <;> exact le_rfl

/-- `inet_pton`, which writes the octets of an address of the family or nothing. -/
abbrev InetPton := (isIPv4 : Bool) → Text → Option (Vector UInt8 (if isIPv4 then 4 else 16))

/-- Sixteen octets that were zero before `inet_pton`. -/
def InetPton.fill (inet : InetPton) (isIPv4 : Bool) (text : Text) : Vector UInt8 16 :=
  match inet isIPv4 text with
  | none => Vector.replicate 16 0
  | some octets => Vector.ofFn fun i => octets.toList.getD i 0

/-- `strtok` for one delimiter: the token, if any, and where the next call goes on. -/
def strtok (delimiter : Char) (text : Text) : Option Text × Text :=
  let text := text.dropWhile (· = delimiter)
  if text = [] then (none, [])
  else (some (text.takeWhile (· ≠ delimiter)), text.dropWhile (· ≠ delimiter))

def isSpace (c : Char) : Bool := c ∈ [' ', '\t', '\n', '\x0b', '\x0c', '\r']

/-- `atoi`, which reads a `long`. -/
def atoi (text : Text) : Int :=
  let number (digits : Text) : Int := Nat.ofDigitChars 10 (digits.takeWhile Char.isDigit) 0
  let value :=
    match text.dropWhile isSpace with
    | '-' :: digits => -number digits
    | '+' :: digits => number digits
    | digits => number digits
  max (-2 ^ 63) (min (2 ^ 63 - 1) value)

/-- One entry of `prefix_range`. -/
def parsePrefix (inet : InetPton) (text : Text) : Except String MatchTypeIp :=
  let (address, rest) := strtok '/' (cString text)
  match address, (strtok '/' rest).1 with
  | some address, some digits =>
    let bits := UInt8.ofNat (atoi digits % 256).toNat
    let isIPv4 := decide ('.' ∈ text)
    if accepted : 1 ≤ bits ∧ bits ≤ bitsMax isIPv4 then
      .ok ⟨isIPv4, inet.fill isIPv4 address, bits, accepted⟩
    else if isIPv4 then .error "Invalid prefix range bits value, must be 1 - 32"
    else .error "Invalid prefix range bits value, must be 1 - 128"
  | _, _ => .error "Missing prefix range bits value"

/-- `parsePrefixList`; nodes that are no scalars are passed over. -/
def parsePrefixList (inet : InetPton) (name : Text) :
    List (Option Text) → GroupMap MatchTypeIp → Except String (GroupMap MatchTypeIp)
  | [], map => .ok map
  | none :: nodes, map => parsePrefixList inet name nodes map
  | some text :: nodes, map => do
    let value ← parsePrefix inet text
    parsePrefixList inet name nodes (map.pushBack name value)

end SonicBmp.Bus.PrefixRanges
