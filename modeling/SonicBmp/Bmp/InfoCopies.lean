/- module: SonicBmp/Bmp/InfoCopies
   digest: Which lengths of information TLVs are copied into their members within bounds. -/

import SonicBmp.Bmp.InfoWalk
import SonicBmp.Bus.InfoText

set_option autoImplicit false
set_option relaxedAutoImplicit false

namespace SonicBmp.Bmp.InfoCopies

open SonicBmp.Library.Memory
open SonicBmp.Bus.Interface
open SonicBmp.Bus.InfoText
open SonicBmp.Bmp.InfoWalk

/-- The three functions with a switch over information TLVs. -/
inductive Handler
  | init | term | peerUp
  deriving DecidableEq

/-- `sizeof(infoBuf)`. -/
def Handler.bufSize : Handler → Nat
  | .init => 4096
  | .term => 4096
  | .peerUp => 255

/-- The members a TLV is copied into. -/
inductive Member
  | name | descr | initiateData | termData | termReasonCode | tableName
  deriving DecidableEq

def Member.place : Member → Nat
  | .name => nameAt
  | .descr => descrAt
  | .initiateData => initiateDataAt
  | .termData => termDataAt
  | .termReasonCode => termReasonCodeAt
  | .tableName => 0

def Member.size : Member → Nat
  | .name => 255
  | .descr => 255
  | .initiateData => 4096
  | .termData => 4096
  | .termReasonCode => 2
  | .tableName => 255

/-- How many bytes may be copied: a text keeps its last byte for the NUL. -/
def Member.limit : Member → Nat
  | .termReasonCode => 2
  | other => other.size - 1

/-- The length that is passed to `memcpy` or `strncpy`. -/
def Member.count : Member → Nat → Nat
  | .name, len => copyLen 255 len
  | .descr, len => copyLen 255 len
  | .initiateData, len => copyLen 4096 len
  | .termData, len => len
  | .termReasonCode, _ => 2
  | .tableName, len => copyLen 255 len

/-- The member the switch of a handler chooses; an empty TLV of an initiation message does
not get there. -/
def Handler.member (h : Handler) (type len : Nat) : Option Member :=
  match h, type with
  | .init, 0 => if len = 0 then none else some .initiateData
  | .init, 1 => if len = 0 then none else some .descr
  | .init, 2 => if len = 0 then none else some .name
  | .term, 0 => some .termData
  | .term, 1 => some .termReasonCode
  | .peerUp, 3 => some .tableName
  | _, _ => none

/-- The object after the switch has handled the TLV. -/
def Handler.after (h : Handler) (beyond : List UInt8) (m : Mem) (tlv : InfoTlv) : Mem :=
  match h with
  | .init => initField beyond m tlv
  | .term => termField beyond m tlv
  | .peerUp => tableNameField beyond m tlv

/-- The value as the member should show it in its first `n` bytes: a name or a description up
to a NUL, the reason code in host order. -/
def Member.Shows (member : Member) (m : Mem) (n : Nat) (value : List UInt8) : Prop :=
  match member with
  | .name | .descr => readBytes m member.place n = strncpyBytes n value
  | .termReasonCode => (readBytes m member.place 2).reverse.take n = value.take n
  | _ => readBytes m member.place n = value.take n

/-- A copy as it should be: from the bytes there are, at most as many as the member takes, so
that the last byte of a text stays as it was, and with the start of the value in the member. -/
structure Sound (h : Handler) (member : Member) (beyond : List UInt8) (m : Mem) (t : Info)
    (offset : Nat) : Prop where
  source : member.count t.value.length ≤ if t.value = [] then 0 else h.bufSize
  bounded : member.count t.value.length ≤ member.limit
  terminated : member ≠ .termReasonCode →
    h.after beyond m (t.seen h.bufSize offset) (member.place + member.limit) =
      m (member.place + member.limit)
  shows : member.Shows (h.after beyond m (t.seen h.bufSize offset))
    (min t.value.length member.limit) t.value

/-- The lengths that are copied right. -/
def Handler.Fits (h : Handler) (type len : Nat) : Prop :=
  match h, type with
  | .init, 0 => len ≤ 4095 ∨ 4098 ≤ len
  | .init, 1 => len ≤ 254 ∨ 257 ≤ len
  | .init, 2 => len ≤ 254 ∨ 257 ≤ len
  | .term, 0 => len ≤ 4095
  | .term, 1 => 1 ≤ len
  | .peerUp, 3 => 1 ≤ len ∧ (len ≤ 254 ∨ 257 ≤ len)
  | _, _ => True

/-- Everything a switch can choose. -/
theorem member_cases {h : Handler} {type len : Nat} {member : Member}
    (chosen : h.member type len = some member) :
    (h = .init ∧ type = 0 ∧ len ≠ 0 ∧ member = .initiateData) ∨
    (h = .init ∧ type = 1 ∧ len ≠ 0 ∧ member = .descr) ∨
    (h = .init ∧ type = 2 ∧ len ≠ 0 ∧ member = .name) ∨
    (h = .term ∧ type = 0 ∧ member = .termData) ∨
    (h = .term ∧ type = 1 ∧ member = .termReasonCode) ∨
    (h = .peerUp ∧ type = 3 ∧ member = .tableName) := by
  unfold Handler.member at chosen
  split at chosen <;> simp_all

/-- The length the call is given is within the source and the member exactly for these. -/
theorem bounds_iff {h : Handler} {type len : Nat} {member : Member}
    (chosen : h.member type len = some member) :
    (member.count len ≤ (if len = 0 then 0 else h.bufSize) ∧ member.count len ≤ member.limit) ↔
      h.Fits type len := by
  rcases member_cases chosen with ⟨rfl, rfl, some_, rfl⟩ | ⟨rfl, rfl, some_, rfl⟩ |
      ⟨rfl, rfl, some_, rfl⟩ | ⟨rfl, rfl, rfl⟩ | ⟨rfl, rfl, rfl⟩ | ⟨rfl, rfl, rfl⟩ <;>
    simp only [Member.count, Member.limit, Member.size, Handler.bufSize, Handler.Fits, copyLen] <;>
    split_ifs <;> omega

/-- Where nothing is copied there is nothing to ask for. -/
theorem fits_of_none {h : Handler} {type len : Nat} (none_ : h.member type len = none) :
    h.Fits type len := by
  unfold Handler.member at none_
  unfold Handler.Fits
  split at none_ <;> simp_all

theorem copyLen_eq {size len : Nat} (some_ : len ≠ 0) (fits : len ≤ size - 1 ∨ size + 2 ≤ len) :
    copyLen size len = min len (size - 1) := by
  unfold copyLen
  split <;> omega

/-- Within the bounds a text is copied up to its own length or that of the member. -/
theorem count_of_fits {h : Handler} {type len : Nat} {member : Member}
    (chosen : h.member type len = some member) (fits : h.Fits type len)
    (text : member ≠ .termReasonCode) : member.count len = min len member.limit := by
  rcases member_cases chosen with ⟨rfl, rfl, some_, rfl⟩ | ⟨rfl, rfl, some_, rfl⟩ |
      ⟨rfl, rfl, some_, rfl⟩ | ⟨rfl, rfl, rfl⟩ | ⟨rfl, rfl, rfl⟩ | ⟨rfl, rfl, rfl⟩
  · exact copyLen_eq some_ fits
  · exact copyLen_eq some_ fits
  · exact copyLen_eq some_ fits
  · exact (Nat.min_eq_left fits).symm
  · exact absurd rfl text
  · exact copyLen_eq (by have := fits.1; omega) fits.2

/-! What the copy leaves in the object. -/

section

variable (beyond : List UInt8) (m : Mem) (t : Info) (offset : Nat)

theorem take_infoBuf {n size : Nat} (inValue : n ≤ t.value.length) (inBuf : n ≤ size) :
    (infoBuf size beyond (t.seen size offset)).take n = t.value.take n := by
  have short : n ≤ (t.value.take size).length := by
    rw [List.length_take]
    omega
  rw [infoBuf, Info.seen, List.take_append_of_le_length short, List.take_take, Nat.min_eq_left inBuf]

theorem strncpyBytes_congr {n : Nat} {src src' : List UInt8} (same : src.take n = src'.take n) :
    strncpyBytes n src = strncpyBytes n src' := by
  rw [strncpyBytes, strncpyBytes, same]

theorem length_infoBuf (size : Nat) : size ≤ (infoBuf size beyond (t.seen size offset)).length := by
  simp only [infoBuf, List.length_append, List.length_replicate]
  omega

/-- A member that a `memcpy` or a `strncpy` of `n` bytes was made into. -/
inductive Copied (m m' : Mem) (member : Member) (n : Nat) (src : List UInt8) : Prop
  | memcpy (plain : member = .initiateData ∨ member = .termData ∨ member = .tableName)
      (same : m' = writeBytes m member.place (src.take n))
  | strncpy (plain : member = .descr ∨ member = .name)
      (same : m' = writeBytes m member.place (strncpyBytes n src))

theorem copied {h : Handler} {member : Member}
    (chosen : h.member t.type t.value.length = some member) (text : member ≠ .termReasonCode) :
    Copied m (h.after beyond m (t.seen h.bufSize offset)) member
      (member.count t.value.length) (infoBuf h.bufSize beyond (t.seen h.bufSize offset)) := by
  have seenType : (t.seen h.bufSize offset).type = t.type := rfl
  rcases member_cases chosen with ⟨rfl, type, some_, rfl⟩ | ⟨rfl, type, some_, rfl⟩ |
      ⟨rfl, type, some_, rfl⟩ | ⟨rfl, type, rfl⟩ | ⟨rfl, type, rfl⟩ | ⟨rfl, type, rfl⟩
  · refine .memcpy (Or.inl rfl) ?_
    simp only [Handler.after, initField, seenType, type]
    rfl
  · refine .strncpy (Or.inl rfl) ?_
    simp only [Handler.after, initField, seenType, type]
    rfl
  · refine .strncpy (Or.inr rfl) ?_
    simp only [Handler.after, initField, seenType, type]
    rfl
  · refine .memcpy (Or.inr (Or.inl rfl)) ?_
    simp only [Handler.after, termField, seenType, type]
    rfl
  · exact absurd rfl text
  · refine .memcpy (Or.inr (Or.inr rfl)) ?_
    simp only [Handler.after, tableNameField, seenType, type]
    rfl

theorem shows_text {member : Member} {m' : Mem} {n : Nat} {src value : List UInt8}
    (copy : Copied m m' member n src) (same : src.take n = value.take n)
    (there : n ≤ value.length) : member.Shows m' n value := by
  cases copy with
  | memcpy plain written =>
    have length : (src.take n).length = n := by
      rw [same, List.length_take]
      omega
    have read := readBytes_writeBytes_same m member.place (src.take n)
    rw [length, ← written, same] at read
    rcases plain with rfl | rfl | rfl <;> exact read
  | strncpy plain written =>
    have read := readBytes_writeBytes_same m member.place (strncpyBytes n src)
    rw [length_strncpyBytes, ← written, strncpyBytes_congr same] at read
    rcases plain with rfl | rfl <;> exact read

theorem beyond_text {member : Member} {m' : Mem} {n i : Nat} {src : List UInt8}
    (copy : Copied m m' member n src) (outside : member.place + n ≤ i) : m' i = m i := by
  have kept {bs : List UInt8} (short : bs.length ≤ n) : writeBytes m member.place bs i = m i :=
    if_neg (by omega)
  cases copy with
  | memcpy plain written => rw [written, kept (List.length_take_le _ _)]
  | strncpy plain written => rw [written, kept (length_strncpyBytes _ _).le]

/-- The reason code takes the first two bytes of the buffer, which is filled up with NULs. -/
theorem shows_reason (type : t.type = 1) :
    Member.termReasonCode.Shows (termField beyond m (t.seen 4096 offset))
      (min t.value.length 2) t.value := by
  have long := length_infoBuf beyond t offset 4096
  have inBuf : min t.value.length 2 ≤ 4096 := by omega
  have start := take_infoBuf beyond t offset (Nat.min_le_left _ _) inBuf
  obtain ⟨high, low, rest, buf⟩ : ∃ high low rest,
      infoBuf 4096 beyond (t.seen 4096 offset) = high :: low :: rest := by
    rcases buf : infoBuf 4096 beyond (t.seen 4096 offset) with _ | ⟨high, _ | ⟨low, rest⟩⟩
    · simp [buf] at long
    · simp [buf] at long
    · exact ⟨high, low, rest, rfl⟩
  have code : readBytes (termField beyond m (t.seen 4096 offset)) termReasonCodeAt 2 =
      [low, high] := by
    have seenType : (t.seen 4096 offset).type = 1 := type
    simp only [termField, seenType, buf, putText]
    rw [readBytes_writeBytes_before _ _ _ _ _ (by decide)]
    exact readBytes_writeBytes_same m termReasonCodeAt [low, high]
  have two : [high, low].take (min t.value.length 2) =
      (high :: low :: rest).take (min t.value.length 2) := by
    have split : high :: low :: rest = [high, low] ++ rest := rfl
    have inside : min t.value.length 2 ≤ [high, low].length := Nat.min_le_right _ _
    rw [split, List.take_append_of_le_length inside]
  show (readBytes _ termReasonCodeAt 2).reverse.take _ = _
  rw [code, ← start, buf]
  exact two

end

/-- A TLV is copied as it should be exactly if its length is one of those that the bound,
computed from the length less one, leaves in range. -/
theorem info_copy_sound_iff (h : Handler) (t : Info) (beyond : List UInt8) (m : Mem)
    (offset : Nat) :
    (∀ member, h.member t.type t.value.length = some member → Sound h member beyond m t offset) ↔
      h.Fits t.type t.value.length := by
  have empty : t.value = [] ↔ t.value.length = 0 := List.length_eq_zero_iff.symm
  constructor
  · intro sound
    cases chosen : h.member t.type t.value.length with
    | none => exact fits_of_none chosen
    | some member =>
      have right := sound member chosen
      refine (bounds_iff chosen).mp ⟨?_, right.bounded⟩
      have source := right.source
      simpa only [empty] using source
  · intro fits member chosen
    obtain ⟨source, bounded⟩ := (bounds_iff chosen).mpr fits
    refine ⟨by simpa only [empty] using source, bounded, ?_, ?_⟩
    · intro text
      exact beyond_text m (copied beyond m t offset chosen text) (by omega)
    · by_cases text : member = .termReasonCode
      · subst text
        rcases member_cases chosen with ⟨-, -, -, other⟩ | ⟨-, -, -, other⟩ | ⟨-, -, -, other⟩ |
            ⟨-, -, other⟩ | ⟨rfl, type, -⟩ | ⟨-, -, other⟩
        · cases other
        · cases other
        · cases other
        · cases other
        · exact shows_reason beyond m t offset type
        · cases other
      · have copy := copied beyond m t offset chosen text
        rw [count_of_fits chosen fits text] at copy source
        refine shows_text m copy (take_infoBuf beyond t offset (Nat.min_le_left _ _) ?_)
          (Nat.min_le_left _ _)
        split at source <;> omega

private theorem longName_type : (2 : Nat) < 65536 := by decide

private theorem longName_value : (List.replicate 256 (65 : UInt8)).length < 65536 := by
  rw [List.length_replicate]
  decide

/-- A system name of 256 bytes `A`, one more than the member. -/
private def longName : Info := ⟨2, List.replicate 256 65, longName_type, longName_value⟩

/-- The last byte of the name goes into the first byte of the description behind it. -/
theorem long_name_overflows :
    Handler.init.member longName.type longName.value.length = some .name ∧
      Member.name.count longName.value.length = 256 ∧
      Handler.init.after [] (fun _ => 0) (longName.seen 4096 0) (nameAt + 254) = 65 ∧
      Handler.init.after [] (fun _ => 0) (longName.seen 4096 0) descrAt = 65 :=
  ⟨by decide +kernel, by decide +kernel, by decide +kernel, by decide +kernel⟩

end SonicBmp.Bmp.InfoCopies
