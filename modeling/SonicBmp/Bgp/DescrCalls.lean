/- module: SonicBmp/Bgp/DescrCalls
   digest: What a call for a node or link sub-TLV counts and reads, and the 16-bit loop over node descriptors. -/

import SonicBmp.Bgp.LinkStateWalk

set_option autoImplicit false
set_option relaxedAutoImplicit false

namespace SonicBmp.Bgp.DescrCalls

open SonicBmp.Library.Memory
open SonicBmp.Library.Footprint
open SonicBmp.Bgp.LinkState
open SonicBmp.Bgp.LinkStateCodec
open SonicBmp.Bgp.LinkStateWalk

/-! One call. -/

/-- The whole value. -/
def valueSpan (_type len data : Nat) : List Span := [⟨data, len⟩]

/-- What is asked of a call at `data` with `dataLen` octets left. -/
structure CallSafe {δ : Type} (parser : Mem → DescrParser δ) (m : Mem) (data dataLen : Nat)
    (info : δ) : Prop where
  counts : 0 < ((parser m).parse data dataLen info).1
  within : ((parser m).parse data dataLen info).1 ≤ dataLen
  complete : Complete m data dataLen →
    ((parser m).parse data dataLen info).1 = 4 + declaredLen m data
  reads : ReadsOnly (fun m => (parser m).parse data dataLen info)
    (fun m => descrSpans m valueSpan data dataLen)
  inside : Inside data (data + dataLen) (descrSpans m valueSpan data dataLen)

theorem inside_descrSpans (m : Mem) (data dataLen : Nat) :
    Inside data (data + dataLen) (descrSpans m valueSpan data dataLen) := by
  unfold descrSpans
  split
  · exact inside_nil _ _
  · split
    · simp [Span.stop]
      omega
    · simp [Span.stop, valueSpan]
      omega

/-- A parser whose cases all count the length of the value, and read nothing but the value. -/
theorem callSafe_parseDescr {δ : Type} {value : Mem → Nat → Nat → Nat → Nat → δ → Nat × δ}
    {dataLen : Nat}
    (counts : ∀ m type len data info, len ≤ dataLen → (value m dataLen type len data info).1 = len)
    (reads : ∀ m m' type len data info, len ≤ dataLen → SameBytes len m data m' data →
      value m dataLen type len data info = value m' dataLen type len data info)
    (m : Mem) (data : Nat) (some_ : 0 < dataLen) (info : δ) :
    CallSafe (fun m => parseDescr m (value m)) m data dataLen info := by
  have whole (complete : Complete m data dataLen) :
      ((parseDescr m (value m)).parse data dataLen info).1 = 4 + declaredLen m data := by
    have room : 4 + declaredLen m data ≤ dataLen := complete
    rw [parseDescr_fst, if_pos complete, counts _ _ _ _ _ (by omega)]
  refine ⟨(parseDescr m (value m)).advances data dataLen info some_, ?_, whole, ?_, ?_⟩
  · by_cases complete : Complete m data dataLen
    · rw [whole complete]
      exact complete
    · rw [parseDescr_fst, if_neg complete]
  · refine parseDescr_reads ?_ data info
    intro type len data info room
    exact ReadsOnly.read fun m m' same => reads m m' type len data info room same
  · exact inside_descrSpans m data dataLen

theorem nodeDescr_fst (m : Mem) {dataLen type len data : Nat} (info : NodeDescriptor)
    (room : len ≤ dataLen) : (nodeDescr m dataLen type len data info).1 = len := by
  have four : (if len ≠ 4 then len else 4) = len := by
    split <;> omega
  unfold nodeDescr
  split
  · rw [apply_ite Prod.fst]
    exact four
  · rw [apply_ite Prod.fst]
    exact four
  · rw [if_pos room, apply_ite Prod.fst]
    exact four
  · split <;> rfl
  · rw [if_pos room, apply_ite Prod.fst]
    exact four
  · rfl

theorem linkAddr_fst (m : Mem) {dataLen size len data : Nat} (noted : LinkDescriptor)
    (store : List UInt8 → LinkDescriptor) (room : len ≤ dataLen) :
    (linkAddr m dataLen size len data noted store).1 = len := by
  unfold linkAddr
  rw [if_pos room, apply_ite Prod.fst]
  split
  · rfl
  · rename_i same
    exact (not_not.mp same).symm

theorem linkDescr_fst (m : Mem) {dataLen type len data : Nat} (info : LinkDescriptor)
    (room : len ≤ dataLen) : (linkDescr m dataLen type len data info).1 = len := by
  unfold linkDescr
  split
  · rw [apply_ite Prod.fst]
    split <;> omega
  · exact linkAddr_fst m _ _ room
  · exact linkAddr_fst m _ _ room
  · exact linkAddr_fst m _ _ room
  · exact linkAddr_fst m _ _ room
  · rfl
  · rfl

theorem callSafe_node (m : Mem) (data : Nat) {dataLen : Nat} (some_ : 0 < dataLen)
    (info : NodeDescriptor) : CallSafe parseDescrLocalRemoteNode m data dataLen info := by
  refine callSafe_parseDescr ?_ ?_ m data some_ info
  · intro m type len data info room
    exact nodeDescr_fst m info room
  · intro m m' type len data info room same
    exact nodeDescr_congr same room room type info

theorem callSafe_link (m : Mem) (data : Nat) {dataLen : Nat} (some_ : 0 < dataLen)
    (info : LinkDescriptor) : CallSafe parseDescrLink m data dataLen info := by
  refine callSafe_parseDescr ?_ ?_ m data some_ info
  · intro m type len data info room
    exact linkDescr_fst m info room
  · intro m m' type len data info room same
    exact linkDescr_congr same room room type info

/-! The loop. -/

section Loop

variable {δ : Type} (p : DescrParser δ)

/-- `len -= data_read` on a 16-bit length. -/
def wordSub (len read : Nat) : Nat := (len + 2 ^ 16 - read % 2 ^ 16) % 2 ^ 16

/-- `while (len > 0)` over the sub-TLVs of a node, as it is written: where it leaves the data
pointer, and the descriptor; `none` if it has not ended after `fuel` turns. -/
def wordLoop : Nat → Nat → Nat → δ → Option (Nat × δ)
  | 0, _, _, _ => none
  | fuel + 1, data, len, info =>
    if 0 < len then
      let read := p.parse data len info
      wordLoop fuel (data + read.1) (wordSub len read.1) read.2
    else some (data, info)

/-- The states at the head of the loop. -/
inductive LoopAt (data len : Nat) (info : δ) : Nat → Nat → δ → Prop
  | start : LoopAt data len info data len info
  | turn {data' left : Nat} {info' : δ} (before : LoopAt data len info data' left info')
      (more : 0 < left) :
      LoopAt data len info (data' + (p.parse data' left info').1)
        (wordSub left (p.parse data' left info').1) (p.parse data' left info').2

theorem wordSub_of_le {len read : Nat} (word : len < 2 ^ 16) (within : read ≤ len) :
    wordSub len read = len - read := by
  unfold wordSub
  omega

variable {p}

/-- Pointer and length keep their sum, so the length has never wrapped. -/
theorem LoopAt.sum (keeps : ∀ data left info, 0 < left → (p.parse data left info).1 ≤ left)
    {data len : Nat} {info : δ} (word : len < 2 ^ 16) {data' left : Nat} {info' : δ}
    (here : LoopAt p data len info data' left info') :
    data' + left = data + len ∧ left ≤ len := by
  induction here with
  | start => exact ⟨rfl, le_rfl⟩
  | @turn data' left info' before more ih =>
    obtain ⟨sum, less⟩ := ih
    have within := keeps data' left info' more
    rw [wordSub_of_le (by omega) within]
    omega

/-- Enough turns, and the descriptor of the loop without the word. -/
theorem wordLoop_ends (keeps : ∀ data left info, 0 < left → (p.parse data left info).1 ≤ left)
    (len : Nat) : ∀ fuel data info, len < fuel → len < 2 ^ 16 →
      wordLoop p fuel data len info = some (data + len, (descrLoop p data len info).2) ∧
        (descrLoop p data len info).1 = len := by
  induction len using Nat.strong_induction_on with
  | _ len ih =>
    intro fuel data info enough word
    obtain ⟨fuel, rfl⟩ : ∃ f, fuel = f + 1 := ⟨fuel - 1, by omega⟩
    rw [wordLoop]
    by_cases more : 0 < len
    · have counts := p.advances data len info more
      have within := keeps data len info more
      obtain ⟨rest, count⟩ := ih (len - (p.parse data len info).1) (by omega) fuel
        (data + (p.parse data len info).1) (p.parse data len info).2 (by omega) (by omega)
      rw [if_pos more, descrLoop_step p info more]
      dsimp only
      rw [wordSub_of_le word within, rest, count]
      constructor
      · congr 2
        omega
      · omega
    · obtain rfl : len = 0 := by omega
      rw [if_neg more, descrLoop_done]
      exact ⟨rfl, rfl⟩

end Loop

/-- The loop over `len` octets of node sub-TLVs comes to its end with nothing left, at the
octet behind them, and has never counted more than was left. -/
structure LoopSafe (m : Mem) (data len : Nat) (info : NodeDescriptor) : Prop where
  ends : ∃ info', wordLoop (parseDescrLocalRemoteNode m) (len + 1) data len info =
    some (data + len, info')
  model : wordLoop (parseDescrLocalRemoteNode m) (len + 1) data len info =
    some (data + (descrLoop (parseDescrLocalRemoteNode m) data len info).1,
      (descrLoop (parseDescrLocalRemoteNode m) data len info).2)
  never_wraps : ∀ data' left info',
    LoopAt (parseDescrLocalRemoteNode m) data len info data' left info' →
      data' + left = data + len ∧
        (0 < left → ((parseDescrLocalRemoteNode m).parse data' left info').1 ≤ left)

theorem loopSafe_node (m : Mem) (data : Nat) {len : Nat} (word : len < 2 ^ 16)
    (info : NodeDescriptor) : LoopSafe m data len info := by
  have keeps (data left : Nat) (info : NodeDescriptor) (more : 0 < left) :
      ((parseDescrLocalRemoteNode m).parse data left info).1 ≤ left :=
    (callSafe_node m data more info).within
  obtain ⟨ends, count⟩ := wordLoop_ends keeps len (len + 1) data info (Nat.lt_succ_self len) word
  refine ⟨⟨_, ends⟩, ?_, ?_⟩
  · rw [count]
    exact ends
  · intro data' left info' here
    exact ⟨(here.sum keeps word).1, keeps data' left info'⟩

/-- On any octets: a call for a sub-TLV of a node or a link counts some octets and never more
than are left, the whole sub-TLV where it is there, and reads nothing else; so the loop over
node descriptors ends with its 16-bit length at zero. -/
theorem descriptor_calls_tile (m : Mem) (data dataLen : Nat) (some_ : 0 < dataLen)
    (node : NodeDescriptor) (link : LinkDescriptor) (len : Nat) (word : len < 2 ^ 16) :
    CallSafe parseDescrLocalRemoteNode m data dataLen node ∧
      CallSafe parseDescrLink m data dataLen link ∧ LoopSafe m data len node :=
  ⟨callSafe_node m data some_ node, callSafe_link m data some_ link, loopSafe_node m data word node⟩

/-- Three octets, which are no sub-TLV. -/
theorem descriptor_calls_tile_three :
    CallSafe parseDescrLocalRemoteNode (memOf [2, 0, 0]) 0 3 NodeDescriptor.zero ∧
      CallSafe parseDescrLink (memOf [2, 0, 0]) 0 3 LinkDescriptor.zero ∧
      LoopSafe (memOf [2, 0, 0]) 0 3 NodeDescriptor.zero :=
  descriptor_calls_tile _ 0 3 (by decide) _ _ 3 (by decide)

end SonicBmp.Bgp.DescrCalls
