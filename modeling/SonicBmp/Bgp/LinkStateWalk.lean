/- module: SonicBmp/Bgp/LinkStateWalk
   digest: Where the loops over link-state NLRI and over prefix descriptors go, on any bytes. -/

import SonicBmp.Bgp.LinkStateCodec
import SonicBmp.Library.Footprint
import SonicBmp.Library.Turns

set_option autoImplicit false
set_option relaxedAutoImplicit false

namespace SonicBmp.Bgp.LinkStateWalk

open SonicBmp.Library.Memory
open SonicBmp.Library.Footprint
open SonicBmp.Library.Turns
open SonicBmp.Bus.Kafka (HashId Md5)
open SonicBmp.Bgp.LinkState
open SonicBmp.Bgp.LinkStateCodec

/-! The loop over the NLRI. -/

section Nlri

variable (m : Mem) (len : Nat)

/-- What the NLRI at an address says of itself: its type has a parser, and its length. -/
def Known (data : Nat) : Prop := u16 m data ∈ [1, 2, 3, 4]

instance (data : Nat) : Decidable (Known m data) :=
  inferInstanceAs (Decidable (u16 m data ∈ [1, 2, 3, 4]))

def declaredLen (data : Nat) : Nat := u16 m (data + 2)

/-- The length that is passed on with the body, a 16-bit number. -/
def bodyLen (data : Nat) : Nat := (declaredLen m data + 2 ^ 16 - 9) % 2 ^ 16

/-- What a turn at `data` reads itself, and the body it passes to a parser. -/
def turnSpans (data : Nat) : List Span :=
  ⟨data, 4⟩ :: if len < declaredLen m data then [] else
    ⟨data + 4, 9⟩ :: if Known m data then [⟨data + 13, bodyLen m data⟩] else []

/-- The data pointer and the 16-bit count at the head of the loop. -/
structure NlriCursor where
  data : Nat
  read : Nat
  deriving DecidableEq

/-- The turn behind one at `c`, if there is one. -/
def nextTurn (c : NlriCursor) : Option NlriCursor :=
  if len < declaredLen m c.data ∨ ¬ Known m c.data then none
  else
    let n := 13 + bodyLen m c.data
    let read := (c.read + n) % 2 ^ 16
    if read < len then some ⟨c.data + n, read⟩ else none

/-- Where the turn number `i` from `c` on starts; `none` if the loop has ended before. -/
def turnAt (c : Option NlriCursor) : Nat → Option NlriCursor
  | 0 => c
  | i + 1 => turnAt (c.bind (nextTurn m len)) i

def firstTurn (data : Nat) : Option NlriCursor := if 0 < len then some ⟨data, 0⟩ else none

theorem turnAt_none (i : Nat) : turnAt m len none i = none := by
  induction i with
  | zero => rfl
  | succ i ih => exact ih

theorem nlriTurn_leaves (md5 : Md5) {data : Nat} (ls : LsData)
    (leaves : len < declaredLen m data ∨ ¬ Known m data) : nlriTurn md5 m len data ls = none := by
  unfold nlriTurn
  dsimp only
  split
  · rfl
  · rename_i fits
    rw [nlriBody_unknown md5 (leaves.resolve_left fits)]
    rfl

theorem nlriTurn_goes_on (md5 : Md5) {data : Nat} (ls : LsData)
    (stays : ¬ (len < declaredLen m data ∨ ¬ Known m data)) :
    ∃ ls', nlriTurn md5 m len data ls = some (13 + bodyLen m data, ls') := by
  obtain ⟨fits, known⟩ := not_or.mp stays
  have body (id protoId : Nat) : ∃ ls', nlriBody md5 m (u16 m data) (data + 13) (bodyLen m data) id
      protoId ls = some ls' := by
    have types := not_not.mp known
    simp only [Known, List.mem_cons, List.not_mem_nil, or_false] at types
    rcases types with node | link | v4 | v6
    · rw [node]
      exact ⟨_, rfl⟩
    · rw [link]
      exact ⟨_, rfl⟩
    · rw [v4]
      exact ⟨_, rfl⟩
    · rw [v6]
      exact ⟨_, rfl⟩
  obtain ⟨ls', parsed⟩ := body (bigEndian (readBytes m (data + 5) 8)) (u8 m (data + 4))
  refine ⟨ls', ?_⟩
  unfold nlriTurn
  dsimp only
  rw [if_neg (show ¬ len < u16 m (data + 2) from fits)]
  exact congrArg (Option.map _) parsed

/-- The loop ends if its turns do. -/
theorem nlriLoop_ends (md5 : Md5) (fuel : Nat) : ∀ (data read : Nat) (ls : LsData),
    turnAt m len (if read < len then some ⟨data, read⟩ else none) fuel = none →
      ∃ ls', nlriLoop md5 m len (fuel + 1) data read ls = some ls' := by
  induction fuel with
  | zero =>
    intro data read ls ended
    by_cases more : read < len
    · rw [if_pos more] at ended
      cases ended
    · exact ⟨ls, by rw [nlriLoop, if_neg more]⟩
  | succ fuel ih =>
    intro data read ls ended
    rw [nlriLoop]
    by_cases more : read < len
    · rw [if_pos more, turnAt, Option.bind_some, nextTurn] at ended
      rw [if_pos more]
      by_cases leaves : len < declaredLen m data ∨ ¬ Known m data
      · rw [nlriTurn_leaves m len md5 ls leaves]
        exact ⟨ls, rfl⟩
      · obtain ⟨ls', turn⟩ := nlriTurn_goes_on m len md5 ls leaves
        rw [if_neg leaves] at ended
        rw [turn]
        exact ih _ _ ls' ended
    · exact ⟨ls, by rw [if_neg more]⟩

/-- Every turn reads and passes on octets of the list only, there are at most `len / 4 + 1`
turns, and after that many the loop has come back. -/
structure NlriSafe (md5 : Md5) (base : Nat) (ls : LsData) : Prop where
  inside : ∀ i c, turnAt m len (firstTurn len base) i = some c →
    Inside base (base + len) (turnSpans m len c.data)
  ends : turnAt m len (firstTurn len base) (len / 4 + 1) = none
  returns : ∃ ls', nlriLoop md5 m len (len / 4 + 2) base 0 ls = some ls'

/-- The lengths of the NLRI, followed from one to the next, stay inside the list: there is
room for what is read of each header, an NLRI with a parser has at least the nine octets of
protocol and identifier and does not go beyond the end. The walk ends at the end of the
list, at a length greater than the whole list, or at a type without a parser. -/
inductive Tiles (base : Nat) : Nat → Prop
  | done : Tiles base len
  | tooLong {off : Nat} (header : off + 4 ≤ len) (long : len < declaredLen m (base + off)) :
      Tiles base off
  | unknown {off : Nat} (header : off + 13 ≤ len) (fits : declaredLen m (base + off) ≤ len)
      (other : ¬ Known m (base + off)) : Tiles base off
  | nlri {off : Nat} (known : Known m (base + off)) (long : 9 ≤ declaredLen m (base + off))
      (inside : off + 4 + declaredLen m (base + off) ≤ len)
      (rest : Tiles base (off + 4 + declaredLen m (base + off))) : Tiles base off

/-- The turn at an offset of the list. -/
def turnOf (base off : Nat) : Option NlriCursor :=
  if off < len then some ⟨base + off, off⟩ else none

variable {m len}

theorem nextTurn_nlri {base off : Nat} (small : len < 65536) (known : Known m (base + off))
    (long : 9 ≤ declaredLen m (base + off))
    (inside : off + 4 + declaredLen m (base + off) ≤ len) :
    nextTurn m len ⟨base + off, off⟩ =
      turnOf len base (off + 4 + declaredLen m (base + off)) := by
  have body : 13 + bodyLen m (base + off) = 4 + declaredLen m (base + off) := by
    unfold bodyLen
    omega
  have stays : ¬ (len < declaredLen m (base + off) ∨ ¬ Known m (base + off)) := by
    rintro (beyond | other)
    · omega
    · exact other known
  have count : (off + (4 + declaredLen m (base + off))) % 2 ^ 16 =
      off + 4 + declaredLen m (base + off) := by
    rw [Nat.mod_eq_of_lt (by omega), Nat.add_assoc]
  rw [nextTurn, if_neg stays]
  dsimp only
  rw [body, count, turnOf]
  simp only [Nat.add_assoc]

theorem turnSpans_tooLong {data : Nat} (long : len < declaredLen m data) :
    turnSpans m len data = [⟨data, 4⟩] := by
  rw [turnSpans, if_pos long]

theorem turnSpans_unknown {data : Nat} (fits : declaredLen m data ≤ len) (other : ¬ Known m data) :
    turnSpans m len data = [⟨data, 4⟩, ⟨data + 4, 9⟩] := by
  rw [turnSpans, if_neg (not_lt.mpr fits), if_neg other]

theorem turnSpans_known {data : Nat} (fits : declaredLen m data ≤ len) (known : Known m data) :
    turnSpans m len data = [⟨data, 4⟩, ⟨data + 4, 9⟩, ⟨data + 13, bodyLen m data⟩] := by
  rw [turnSpans, if_neg (not_lt.mpr fits), if_pos known]

/-- A turn at an offset, and the turns behind it. -/
theorem turns_cons {base off k : Nat} (more : off < len)
    (here : Inside base (base + len) (turnSpans m len (base + off)))
    (inside : ∀ i c, turnAt m len (nextTurn m len ⟨base + off, off⟩) i = some c →
      Inside base (base + len) (turnSpans m len c.data))
    (ends : turnAt m len (nextTurn m len ⟨base + off, off⟩) k = none) :
    (∀ i c, turnAt m len (turnOf len base off) i = some c →
      Inside base (base + len) (turnSpans m len c.data)) ∧
      turnAt m len (turnOf len base off) (k + 1) = none := by
  rw [turnOf, if_pos more]
  refine ⟨?_, ends⟩
  intro i c turn
  cases i with
  | zero =>
    cases turn
    exact here
  | succ i => exact inside i c turn

/-- The loop leaves at a turn whose header is inside. -/
theorem turns_last {base off : Nat} (more : off < len)
    (here : Inside base (base + len) (turnSpans m len (base + off)))
    (leaves : len < declaredLen m (base + off) ∨ ¬ Known m (base + off)) :
    (∀ i c, turnAt m len (turnOf len base off) i = some c →
      Inside base (base + len) (turnSpans m len c.data)) ∧
      ∀ k, turnAt m len (turnOf len base off) (k + 1) = none := by
  have last : nextTurn m len ⟨base + off, off⟩ = none := if_pos leaves
  have behind : ∀ i c, turnAt m len (nextTurn m len ⟨base + off, off⟩) i = some c →
      Inside base (base + len) (turnSpans m len c.data) := by
    intro i c turn
    rw [last, turnAt_none] at turn
    cases turn
  have ends (k : Nat) : turnAt m len (nextTurn m len ⟨base + off, off⟩) k = none := by
    rw [last, turnAt_none]
  exact ⟨(turns_cons more here behind (ends 0)).1,
    fun k => (turns_cons more here behind (ends k)).2⟩

theorem turnAt_mono {c : Option NlriCursor} {k : Nat} (ended : turnAt m len c k = none) :
    ∀ n, k ≤ n → turnAt m len c n = none := by
  induction k generalizing c with
  | zero =>
    intro n _
    rw [show c = none from ended, turnAt_none]
  | succ k ih =>
    intro n long
    obtain ⟨n, rfl⟩ : ∃ n', n = n' + 1 := ⟨n - 1, by omega⟩
    exact ih ended n (by omega)

/-- The turns from an offset on are inside and few, if the walk from there is. -/
theorem turns_of_tiles {base off : Nat} (small : len < 65536) (tiles : Tiles m len base off) :
    off ≤ len ∧
      (∀ i c, turnAt m len (turnOf len base off) i = some c →
        Inside base (base + len) (turnSpans m len c.data)) ∧
      turnAt m len (turnOf len base off) ((len - off) / 4 + 1) = none := by
  induction tiles with
  | done =>
    have none_left : turnOf len base len = none := if_neg (Nat.lt_irrefl len)
    simp [none_left, turnAt_none]
  | @tooLong off header long =>
    have more : off < len := by omega
    have spans : Inside base (base + len) (turnSpans m len (base + off)) := by
      rw [turnSpans_tooLong long]
      simp [Span.stop]
      omega
    obtain ⟨inside, ends⟩ := turns_last more spans (Or.inl long)
    exact ⟨more.le, inside, ends _⟩
  | @unknown off header fits other =>
    have more : off < len := by omega
    have spans : Inside base (base + len) (turnSpans m len (base + off)) := by
      rw [turnSpans_unknown fits other]
      simp [Span.stop]
      omega
    obtain ⟨inside, ends⟩ := turns_last more spans (Or.inr other)
    exact ⟨more.le, inside, ends _⟩
  | @nlri off known long inside rest ih =>
    obtain ⟨_, behind, ends⟩ := ih
    have next := nextTurn_nlri small known long inside
    have body : bodyLen m (base + off) = declaredLen m (base + off) - 9 := by
      unfold bodyLen
      omega
    have spans : Inside base (base + len) (turnSpans m len (base + off)) := by
      rw [turnSpans_known (by omega) known]
      simp [Span.stop, body]
      omega
    rw [← next] at behind ends
    refine ⟨by omega, (turns_cons (by omega) spans behind ends).1, ?_⟩
    exact turns_cons (by omega) spans behind (turnAt_mono ends _ (by omega)) |>.2

/-- Turns that stay inside follow the lengths of the NLRI. -/
theorem tiles_of_turns {base : Nat} (small : len < 65536) (left : Nat) : ∀ off, off + left = len →
    (∀ i c, turnAt m len (turnOf len base off) i = some c →
      Inside base (base + len) (turnSpans m len c.data)) → Tiles m len base off := by
  induction left using Nat.strong_induction_on with
  | _ left ih =>
    intro off total inside
    by_cases more : off < len
    · have turn : turnOf len base off = some ⟨base + off, off⟩ := if_pos more
      have here := inside 0 _ turn
      by_cases long : len < declaredLen m (base + off)
      · rw [turnSpans_tooLong long] at here
        simp [Span.stop] at here
        exact .tooLong (by omega) long
      · by_cases known : Known m (base + off)
        · rw [turnSpans_known (by omega) known] at here
          simp only [inside_cons, Span.stop, inside_nil, and_true] at here
          have room : off + 13 + bodyLen m (base + off) ≤ len := by omega
          unfold bodyLen at room
          -- below nine octets the 16-bit length is too great for any list
          have nine : 9 ≤ declaredLen m (base + off) := by omega
          have fits : off + 4 + declaredLen m (base + off) ≤ len := by omega
          refine .nlri known nine fits (ih (len - (off + 4 + declaredLen m (base + off))) (by omega) _
            (by omega) ?_)
          intro i c behind
          rw [← nextTurn_nlri small known nine fits] at behind
          exact inside (i + 1) c (by rw [turn]; exact behind)
        · rw [turnSpans_unknown (by omega) known] at here
          simp [Span.stop] at here
          exact .unknown (by omega) (by omega) known
    · obtain rfl : off = len := by omega
      exact .done

/-- On any bytes, the loop over the NLRI stays inside its list exactly if the lengths of the
NLRI do, followed from one to the next. -/
theorem nlri_safe_iff (md5 : Md5) (m : Mem) (len : Nat) (small : len < 65536) (base : Nat)
    (ls : LsData) : NlriSafe m len md5 base ls ↔ Tiles m len base 0 := by
  have first : firstTurn len base = turnOf len base 0 := rfl
  constructor
  · intro safe
    exact tiles_of_turns small len 0 (Nat.zero_add len) (first ▸ safe.inside)
  · intro tiles
    obtain ⟨-, inside, ends⟩ := turns_of_tiles small tiles
    rw [Nat.sub_zero, ← first] at ends
    exact ⟨first ▸ inside, ends, nlriLoop_ends m len md5 _ base 0 ls ends⟩

end Nlri

/-- A node NLRI of 13 octets, without descriptors. -/
theorem nlri_safe_bare_node :
    NlriSafe (memOf ([0, 1, 0, 9] ++ List.replicate 9 0)) 13 (fun _ => HashId.zero) 0 LsData.none :=
  (nlri_safe_iff _ _ 13 (by decide) 0 _).mpr
    (.nlri (by decide) (by decide) (by decide) .done)

/-- The same with the length 0: 65527 octets behind it are passed on as its body. -/
theorem short_nlri_not_safe :
    ¬ NlriSafe (memOf ([0, 1, 0, 0] ++ List.replicate 9 0)) 13 (fun _ => HashId.zero) 0
      LsData.none := by
  intro safe
  have body := safe.inside 0 ⟨0, 0⟩ rfl ⟨13, 65527⟩ (by decide)
  exact absurd body.2 (by decide)

/-! Sub-TLVs. -/

section Descr

variable {δ : Type} (m : Mem)

/-- A sub-TLV with its whole value among the `left` octets at `data`. -/
def Complete (data left : Nat) : Prop := 4 + declaredLen m data ≤ left

instance (data left : Nat) : Decidable (Complete m data left) :=
  inferInstanceAs (Decidable (4 + declaredLen m data ≤ left))

/-- What is read of a sub-TLV whose value is read as `spans` says of its type, length and
place. -/
def descrSpans (spans : Nat → Nat → Nat → List Span) (data left : Nat) : List Span :=
  if left < 4 then []
  else ⟨data, 4⟩ :: if left - 4 < declaredLen m data then []
    else spans (u16 m data) (declaredLen m data) (data + 4)

theorem parseDescr_fst (value : Nat → Nat → Nat → Nat → δ → Nat × δ) (data left : Nat) (info : δ) :
    ((parseDescr m value).parse data left info).1 =
      if Complete m data left
      then 4 + (value left (u16 m data) (declaredLen m data) (data + 4) info).1 else left := by
  have complete : Complete m data left ↔ ¬ left < 4 ∧ ¬ left - 4 < u16 m (data + 2) := by
    unfold Complete declaredLen
    omega
  simp only [parseDescr]
  by_cases header : left < 4
  · rw [if_pos header, if_neg (fun whole => (complete.mp whole).1 header)]
  · by_cases value : left - 4 < u16 m (data + 2)
    · rw [if_neg header, if_pos value, if_neg (fun whole => (complete.mp whole).2 value)]
    · rw [if_neg header, if_neg value, if_pos (complete.mpr ⟨header, value⟩)]
      rfl

/-- A parser looks at the header, and at what it reads of the value of a complete sub-TLV. -/
theorem parseDescr_reads {value : Mem → Nat → Nat → Nat → Nat → δ → Nat × δ}
    {spans : Nat → Nat → Nat → List Span} {left : Nat}
    (reads : ∀ type len data info, len ≤ left →
      ReadsOnly (fun m => value m left type len data info) (fun _ => spans type len data))
    (data : Nat) (info : δ) :
    ReadsOnly (fun m => (parseDescr m (value m)).parse data left info)
      (fun m => descrSpans m spans data left) := by
  intro m m' agree
  simp only [parseDescr, descrSpans] at agree ⊢
  by_cases header : left < 4
  · simp only [if_pos header, and_self]
  · simp only [if_neg header] at agree ⊢
    have head : SameBytes 4 m data m' data := agree _ List.mem_cons_self
    have type : u16 m data = u16 m' data := head.u16 0 (by decide)
    have len : u16 m (data + 2) = u16 m' (data + 2) := head.u16 2 (by decide)
    have declared : declaredLen m data = declaredLen m' data := len
    simp only [type, len, declared] at agree ⊢
    refine ⟨?_, trivial⟩
    split
    · rfl
    · rename_i whole
      rw [if_neg (show ¬ left - 4 < declaredLen m' data from whole)] at agree
      have same := reads (u16 m' data) (u16 m' (data + 2)) (data + 4) info (by omega) m m'
        (fun span here => agree span (List.mem_cons_of_mem _ here))
      exact congrArg (fun read : Nat × δ => (4 + read.1, read.2)) same.1

end Descr

/-! The loop over the sub-TLVs of a prefix. -/

section Prefix

variable (m : Mem) (isIPv4 : Bool) (base size : Nat)

/-- What is read of the value of a sub-TLV. -/
def prefixValueSpans (type len data : Nat) : List Span :=
  match type with
  | 263 => if len < 2 ∨ 4 < len then [] else [⟨data, len⟩]
  | 264 => [⟨data, 1⟩]
  | 265 => if len < 1 then [] else [⟨data, 1⟩, ⟨data + 1, len - 1⟩]
  | _ => []

/-- What `parseDescrPrefix` reads. -/
def prefixSpans (data left : Nat) : List Span :=
  if left < 4 then []
  else ⟨data, 4⟩ :: if left - 4 < declaredLen m data then []
    else prefixValueSpans (u16 m data) (declaredLen m data) (data + 4)

/-- How many octets it copies into the field of the prefix. -/
def prefixCopied (data left : Nat) : Nat :=
  if Complete m data left ∧ u16 m data = 265 then declaredLen m data - 1 else 0

theorem prefixDescr_reads (dataLen type len data : Nat) (info : PrefixDescriptor) :
    ReadsOnly (fun m => prefixDescr m isIPv4 dataLen type len data info)
      (fun _ => prefixValueSpans type len data) := by
  intro m m' agree
  refine ⟨?_, rfl⟩
  unfold prefixDescr
  dsimp only at agree ⊢
  split
  · have same : mtIdOf m len data info.mtId = mtIdOf m' len data info.mtId := by
      by_cases kept : len < 2 ∨ 4 < len
      · unfold mtIdOf
        split
        · rfl
        · rename_i long
          rw [if_pos (kept.resolve_left long), if_pos (kept.resolve_left long)]
      · rw [prefixValueSpans, if_neg kept] at agree
        exact mtIdOf_congr (agree _ List.mem_cons_self) info.mtId
    rw [same]
  · have code : u8 m data = u8 m' data := (agree ⟨data, 1⟩ List.mem_cons_self).u8 0 Nat.one_pos
    rw [code]
  · split
    · rfl
    · rename_i some_
      rw [prefixValueSpans, if_neg some_] at agree
      have first : u8 m data = u8 m' data := (agree ⟨data, 1⟩ List.mem_cons_self).u8 0 Nat.one_pos
      have rest : readBytes m (data + 1) (len - 1) = readBytes m' (data + 1) (len - 1) :=
        agree ⟨data + 1, len - 1⟩ (List.mem_cons_of_mem _ List.mem_cons_self)
      simp only [ipReach, first, rest]
  · rfl

/-- The parser of a sub-TLV looks at nothing else. -/
theorem parseDescrPrefix_reads (data left : Nat) (info : PrefixDescriptor) :
    ReadsOnly (fun m => (parseDescrPrefix m isIPv4).parse data left info)
      (fun m => prefixSpans m data left) :=
  parseDescr_reads (fun type len data info _ => prefixDescr_reads isIPv4 left type len data info)
    data info

/-- The octets it counts, which do not depend on what the descriptor has so far. -/
def prefixAdvance (data left : Nat) : Nat :=
  ((parseDescrPrefix m isIPv4).parse data left PrefixDescriptor.zero).1

theorem prefixDescr_fst (dataLen type len data : Nat) (info : PrefixDescriptor) :
    (prefixDescr m isIPv4 dataLen type len data info).1 = if type = 264 then 1 else len := by
  unfold prefixDescr
  split
  · rfl
  · rfl
  · split <;> rfl
  · rename_i notRouteType _
    rw [if_neg notRouteType]

theorem parse_fst (data left : Nat) (info : PrefixDescriptor) :
    ((parseDescrPrefix m isIPv4).parse data left info).1 =
      if Complete m data left then 4 + (if u16 m data = 264 then 1 else declaredLen m data)
      else left := by
  rw [parseDescrPrefix, parseDescr_fst, prefixDescr_fst]

theorem prefixAdvance_eq (data left : Nat) :
    prefixAdvance m isIPv4 data left =
      if Complete m data left then 4 + (if u16 m data = 264 then 1 else declaredLen m data)
      else left :=
  parse_fst m isIPv4 data left _

/-- The loop of `parseNlriPrefix` over the offsets in its section. -/
def prefixWalk : CountingLoop Nat where
  bound := size
  count := id
  next off := some (off + prefixAdvance m isIPv4 (base + off) (size - off))
  advances := by
    rintro off _ more ⟨⟩
    exact Nat.lt_add_of_pos_right ((parseDescrPrefix m isIPv4).advances _ _ _ (Nat.sub_pos_of_lt more))

/-- The turns are those of the loop. -/
theorem descrLoop_eq_turns (off : Nat) (info : PrefixDescriptor) :
    (descrLoop (parseDescrPrefix m isIPv4) (base + off) (size - off) info).2 =
      ((prefixWalk m isIPv4 base size).turns off).foldl (fun info off =>
        ((parseDescrPrefix m isIPv4).parse (base + off) (size - off) info).2) info := by
  refine (prefixWalk m isIPv4 base size).run_eq_foldl
    (fun off info => (descrLoop (parseDescrPrefix m isIPv4) (base + off) (size - off) info).2) _
    ?_ ?_ ?_ off info
  · intro off info done
    have none_left : size - off = 0 := Nat.sub_eq_zero_of_le (not_lt.mp done)
    rw [none_left, descrLoop_done]
  · intro off info _ ends
    cases ends
  · rintro off _ info more ⟨⟩
    have left : 0 < size - off := Nat.sub_pos_of_lt more
    rw [descrLoop_step _ info left]
    dsimp only
    rw [parse_fst, ← prefixAdvance_eq, Nat.add_assoc, Nat.sub_sub]

/-- What is asked of the turn at an offset. -/
structure PrefixTurnSafe (off : Nat) : Prop where
  advances : Complete m (base + off) (size - off) →
    prefixAdvance m isIPv4 (base + off) (size - off) = 4 + declaredLen m (base + off)
  stays : off + prefixAdvance m isIPv4 (base + off) (size - off) ≤ size
  reads : Inside base (base + size) (prefixSpans m (base + off) (size - off))
  copies : prefixCopied m (base + off) (size - off) ≤ 16

def PrefixSafe : Prop :=
  ∀ off ∈ (prefixWalk m isIPv4 base size).turns 0, PrefixTurnSafe m isIPv4 base size off

/-- A route type of one octet, reachability information of at most 17. -/
def LegalTlv (data : Nat) : Prop :=
  (u16 m data = 264 → declaredLen m data = 1) ∧ (u16 m data = 265 → declaredLen m data ≤ 17)

/-- The sub-TLVs from an offset on, each behind the value of the one before, up to one that
is not wholly there: all of them are legal. -/
inductive LegalFrom : Nat → Prop
  | rest {off : Nat} (cut : ¬ Complete m (base + off) (size - off)) : LegalFrom off
  | tlv {off : Nat} (complete : Complete m (base + off) (size - off))
      (legal : LegalTlv m (base + off)) (behind : LegalFrom (off + 4 + declaredLen m (base + off))) :
      LegalFrom off

variable {m isIPv4 base size}

theorem prefixSpans_cut {data left : Nat} (cut : ¬ Complete m data left) :
    Inside data (data + left) (prefixSpans m data left) := by
  unfold Complete at cut
  unfold prefixSpans
  split
  · exact inside_nil _ _
  · rw [if_pos (by omega)]
    simp [Span.stop]
    omega

theorem prefixSpans_legal {data left : Nat} (complete : Complete m data left)
    (legal : LegalTlv m data) : Inside data (data + left) (prefixSpans m data left) := by
  unfold Complete at complete
  have routeType := legal.1
  unfold prefixSpans
  rw [if_neg (by omega), if_neg (by omega), inside_cons]
  refine ⟨by simp [Span.stop]; omega, ?_⟩
  unfold prefixValueSpans
  split
  · split
    · exact inside_nil _ _
    · simp [Span.stop]
      omega
  · rename_i type
    have one := routeType type
    simp [Span.stop]
    omega
  · split
    · exact inside_nil _ _
    · simp [Span.stop]
      omega
  · exact inside_nil _ _

theorem prefixTurnSafe_iff {off : Nat} (more : off < size) :
    PrefixTurnSafe m isIPv4 base size off ↔
      (Complete m (base + off) (size - off) → LegalTlv m (base + off)) := by
  have within {spans : List Span} (here : Inside (base + off) (base + off + (size - off)) spans) :
      Inside base (base + size) spans := by
    intro span mem
    have := here span mem
    omega
  constructor
  · intro safe complete
    have advances := safe.advances complete
    have copies := safe.copies
    rw [prefixAdvance_eq, if_pos complete] at advances
    refine ⟨fun type => ?_, fun type => ?_⟩
    · rw [if_pos type] at advances
      omega
    · rw [prefixCopied, if_pos ⟨complete, type⟩] at copies
      omega
  · intro legal
    by_cases complete : Complete m (base + off) (size - off)
    · obtain ⟨routeType, ipReach⟩ := legal complete
      have advance : prefixAdvance m isIPv4 (base + off) (size - off) =
          4 + declaredLen m (base + off) := by
        rw [prefixAdvance_eq, if_pos complete]
        split
        · rename_i type
          rw [routeType type]
        · rfl
      refine ⟨fun _ => advance, ?_, within (prefixSpans_legal complete (legal complete)), ?_⟩
      · unfold Complete at complete
        omega
      · unfold prefixCopied
        split
        · rename_i reach
          have := ipReach reach.2
          omega
        · omega
    · refine ⟨fun whole => absurd whole complete, ?_, within (prefixSpans_cut complete), ?_⟩
      · rw [prefixAdvance_eq, if_neg complete]
        omega
      · rw [prefixCopied, if_neg (fun reach => complete reach.1)]
        omega

/-- The next turn, behind a legal sub-TLV. -/
theorem turns_tlv {off : Nat} (complete : Complete m (base + off) (size - off))
    (legal : LegalTlv m (base + off)) :
    (prefixWalk m isIPv4 base size).turns off =
      off :: (prefixWalk m isIPv4 base size).turns (off + 4 + declaredLen m (base + off)) := by
  have more : off < size := by
    unfold Complete at complete
    omega
  have safe : PrefixTurnSafe m isIPv4 base size off := (prefixTurnSafe_iff more).mpr fun _ => legal
  rw [(prefixWalk m isIPv4 base size).turns_next more rfl, safe.advances complete, Nat.add_assoc]

theorem turns_rest {off : Nat} (cut : ¬ Complete m (base + off) (size - off)) :
    ∀ off' ∈ (prefixWalk m isIPv4 base size).turns off, off' = off ∧ off < size := by
  by_cases more : off < size
  · have next : off + prefixAdvance m isIPv4 (base + off) (size - off) = size := by
      rw [prefixAdvance_eq, if_neg cut]
      omega
    rw [(prefixWalk m isIPv4 base size).turns_next more rfl, next,
      (prefixWalk m isIPv4 base size).turns_done (Nat.lt_irrefl size)]
    intro off' here
    exact ⟨List.mem_singleton.mp here, more⟩
  · rw [(prefixWalk m isIPv4 base size).turns_done more]
    intro off' here
    cases here

theorem safe_of_legalFrom {off : Nat} (legal : LegalFrom m base size off) :
    ∀ off' ∈ (prefixWalk m isIPv4 base size).turns off, PrefixTurnSafe m isIPv4 base size off' := by
  induction legal with
  | rest cut =>
    intro off' here
    obtain ⟨rfl, more⟩ := turns_rest cut off' here
    exact (prefixTurnSafe_iff more).mpr fun complete => absurd complete cut
  | @tlv off complete legal behind ih =>
    rw [turns_tlv complete legal, List.forall_mem_cons]
    refine ⟨(prefixTurnSafe_iff ?_).mpr fun _ => legal, ih⟩
    unfold Complete at complete
    omega

theorem legalFrom_of_safe (left : Nat) : ∀ off, off + left = size →
    (∀ off' ∈ (prefixWalk m isIPv4 base size).turns off,
      PrefixTurnSafe m isIPv4 base size off') → LegalFrom m base size off := by
  induction left using Nat.strong_induction_on with
  | _ left ih =>
    intro off total safe
    by_cases complete : Complete m (base + off) (size - off)
    · have room : 4 + declaredLen m (base + off) ≤ size - off := complete
      have more : off < size := by omega
      have here : off ∈ (prefixWalk m isIPv4 base size).turns off := by
        rw [(prefixWalk m isIPv4 base size).turns_next more rfl]
        exact List.mem_cons_self
      have legal := (prefixTurnSafe_iff more).mp (safe off here) complete
      rw [turns_tlv complete legal, List.forall_mem_cons] at safe
      exact .tlv complete legal
        (ih (left - (4 + declaredLen m (base + off))) (by omega) _ (by omega) safe.2)
    · exact .rest complete

/-- On any bytes, the loop over the sub-TLVs of a prefix keeps to its section, tile by tile,
exactly if every route type in it is one octet long and all reachability information at most
17 octets. -/
theorem prefix_safe_iff (m : Mem) (isIPv4 : Bool) (base size : Nat) :
    PrefixSafe m isIPv4 base size ↔ LegalFrom m base size 0 :=
  ⟨legalFrom_of_safe size 0 (Nat.zero_add size), safe_of_legalFrom⟩

end Prefix

/-- A route type without a value at the end of its section: an octet behind the section is
read and counted. -/
theorem empty_route_type_not_safe : ¬ PrefixSafe (memOf [1, 8, 0, 0]) true 0 4 := by
  intro safe
  have here : 0 ∈ (prefixWalk (memOf [1, 8, 0, 0]) true 0 4).turns 0 := by
    rw [CountingLoop.turns_next _ (by decide) rfl]
    exact List.mem_cons_self
  exact absurd (safe 0 here).stays (by decide)

end SonicBmp.Bgp.LinkStateWalk
