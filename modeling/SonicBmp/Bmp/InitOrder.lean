/- module: SonicBmp/Bmp/InitOrder
   digest: The order of the TLVs of an initiation message does not matter to the router object, its hash type or its hash. -/

import SonicBmp.Bmp.InfoCopies
import Mathlib.Data.List.Nodup

set_option autoImplicit false
set_option relaxedAutoImplicit false

namespace SonicBmp.Bmp.InitOrder

open SonicBmp.Library.Memory
open SonicBmp.Library.Printing (Text snprintf)
open SonicBmp.Library.Throwing
open SonicBmp.Bgp.Common (inetNtop4)
open SonicBmp.Bus.Interface
open SonicBmp.Bus.Kafka
open SonicBmp.Bus.InfoText
open SonicBmp.Bmp.ParseBmp
open SonicBmp.Bmp.InfoWalk
open SonicBmp.Bmp.InfoCopies (strncpyBytes_congr take_infoBuf)

/-- The writes of `parseBMP::handleInitMsg` to `hash_type`. -/
def hashTypeAfter (hashType : Nat) (tlv : InfoTlv) : Nat :=
  match tlv.type with
  | 2 => if hashType < 2 then 1 else hashType
  | 65531 => if tlv.len = 4 then 2 else hashType
  | _ => hashType

/-- `hash_val` of `BMPReader::hashRouter`. -/
def hashVal (hashType : Nat) (object : Mem) : Text :=
  match hashType with
  | 2 => cStringAt object (routerSize - bgpIdAt) bgpIdAt
  | 1 => cStringAt object (routerSize - nameAt) nameAt
  | _ => cStringAt object (routerSize - ipAddrAt) ipAddrAt

/-- What `BMPReader::hashRouter` passes to MD5: the chosen text and the printed hash of the
collector. -/
def hashRouterInput (collector : HashId) (hashType : Nat) (object : Mem) : List UInt8 :=
  textBytes (hashVal hashType object) ++ textBytes (hashToStr collector)

/-- What the `TYPE_INIT_MSG` case leaves: the object, its hash type, and what the router was
hashed from, if it was. -/
structure InitOutcome where
  object : Mem
  hashType : Nat
  hashed : Option (List UInt8)

/-- The TLVs an initiation message leaves in the object and in `hash_type`. -/
def initObject (stack : List UInt8) (ip : Text) (tlvs : List InfoTlv) : Mem × Nat :=
  tlvs.foldl (fun state tlv => (initField stack state.1 tlv, hashTypeAfter state.2 tlv))
    (newRouter ip, 0)

def initMsg (patEnabled : Bool) (collector : HashId) (stack : List UInt8) (ip : Text)
    (tlvs : List InfoTlv) : InitOutcome :=
  let state := initObject stack ip tlvs
  { object := state.1
    hashType := state.2
    hashed := if patEnabled ∧ state.2 ≠ 0 then some (hashRouterInput collector state.2 state.1)
      else none }

/-- The entry that is sent to the bus; its hash is that of the session unless the router was
hashed anew. -/
def InitOutcome.entry (outcome : InitOutcome) (md5 : Md5) (routerHash : HashId) : ObjRouter :=
  readRouter (outcome.hashed.elim routerHash md5) outcome.object

/-! One TLV, wherever it stands in the message. -/

/-- One round of the loop; an empty TLV is passed over. -/
def step (stack : List UInt8) (state : Mem × Nat) (t : Info) : Mem × Nat :=
  if t.value.length = 0 then state
  else (initField stack state.1 (t.seen 4096 0), hashTypeAfter state.2 (t.seen 4096 0))

theorem foldl_visits (stack : List UInt8) (ts : List Info) (i : Nat) (state : Mem × Nat) :
    ((visits 4096 i ts).filter (fun tlv => 0 < tlv.len)).foldl
        (fun state tlv => (initField stack state.1 tlv, hashTypeAfter state.2 tlv)) state =
      ts.foldl (step stack) state := by
  induction ts generalizing i state with
  | nil => rfl
  | cons t ts ih =>
    rw [visits, List.filter_cons, List.foldl_cons, step]
    by_cases empty : t.value.length = 0
    · have skipped : ¬ (decide (0 < (t.seen 4096 i).len)) = true := by simp [Info.seen, empty]
      rw [if_neg skipped, if_pos empty]
      exact ih _ _
    · have handled : (decide (0 < (t.seen 4096 i).len)) = true :=
        decide_eq_true (Nat.pos_of_ne_zero empty)
      rw [if_pos handled, if_neg empty, List.foldl_cons]
      exact ih _ _

/-! Each type has its own stretch of the object. -/

def stretchAt (type : Nat) : Nat :=
  match type with
  | 0 => initiateDataAt
  | 1 => descrAt
  | 2 => nameAt
  | 65531 => bgpIdAt
  | _ => routerSize

def stretchLen (type : Nat) : Nat :=
  match type with
  | 0 => 254
  | 1 => 254
  | 2 => 254
  | 65531 => 16
  | _ => 0

theorem stretches_apart {type type' : Nat} (other : type ≠ type') :
    stretchAt type + stretchLen type ≤ stretchAt type' ∨
      stretchAt type' + stretchLen type' ≤ stretchAt type := by
  have places : initiateDataAt = 4949 ∧ descrAt = 273 ∧ nameAt = 18 ∧ bgpIdAt = 574 ∧
      routerSize = 9056 := ⟨rfl, rfl, rfl, rfl, rfl⟩
  unfold stretchAt stretchLen
  split <;> split <;> omega

/-- The bytes a TLV puts in the stretch of its type. -/
def stretchBytes (t : Info) : List UInt8 :=
  match t.type with
  | 0 => t.value
  | 1 => strncpyBytes t.value.length t.value
  | 2 => strncpyBytes t.value.length t.value
  | 65531 => if t.value.length = 4 then textBytes (snprintf 16 (inetNtop4 t.value)) ++ [0] else []
  | _ => []

theorem length_stretchBytes {t : Info} (short : t.value.length ≤ 254) :
    (stretchBytes t).length ≤ stretchLen t.type := by
  unfold stretchBytes stretchLen
  split
  · exact short
  · rwa [length_strncpyBytes]
  · rwa [length_strncpyBytes]
  · split
    · rw [List.length_append, textBytes, List.length_map, snprintf, List.length_take]
      simp only [List.length_cons, List.length_nil]
      omega
    · exact Nat.zero_le _
  · exact Nat.zero_le _

/-- A short TLV is copied whole, and nothing of the stack with it. -/
theorem initField_eq (stack : List UInt8) (m : Mem) {t : Info} (some_ : t.value.length ≠ 0)
    (short : t.value.length ≤ 254) :
    initField stack m (t.seen 4096 0) = writeBytes m (stretchAt t.type) (stretchBytes t) := by
  have whole : (infoBuf 4096 stack (t.seen 4096 0)).take t.value.length = t.value := by
    rw [take_infoBuf stack t 0 le_rfl (by omega), List.take_length]
  have text : strncpyBytes t.value.length (infoBuf 4096 stack (t.seen 4096 0)) =
      strncpyBytes t.value.length t.value :=
    strncpyBytes_congr (whole.trans List.take_length.symm)
  have long : copyLen 4096 t.value.length = t.value.length := if_neg (by omega)
  have name : copyLen 255 t.value.length = t.value.length := if_neg (by omega)
  have seenType : (t.seen 4096 0).type = t.type := rfl
  have seenLen : (t.seen 4096 0).len = t.value.length := rfl
  have seenInfo : (t.seen 4096 0).info = t.value := List.take_of_length_le (by omega)
  unfold initField stretchAt stretchBytes
  rw [seenType, seenLen, seenInfo, long, name, whole, text]
  generalize t.type = type
  split
  · rfl
  · rfl
  · rfl
  · split
    · rfl
    · exact (writeBytes_nil _ _).symm
  · simp only [writeBytes_nil]

theorem hashTypeAfter_eq (hashType : Nat) (t : InfoTlv) :
    hashTypeAfter hashType t =
      if t.type = 2 then if hashType < 2 then 1 else hashType
      else if t.type = 65531 ∧ t.len = 4 then 2 else hashType := by
  unfold hashTypeAfter
  split <;> simp_all

/-- A name never takes the hash type back from a BGP identifier. -/
theorem hashTypeAfter_comm (hashType : Nat) (t u : InfoTlv) :
    hashTypeAfter (hashTypeAfter hashType t) u = hashTypeAfter (hashTypeAfter hashType u) t := by
  rw [hashTypeAfter_eq, hashTypeAfter_eq, hashTypeAfter_eq, hashTypeAfter_eq]
  split_ifs <;> omega

theorem step_comm (stack : List UInt8) (state : Mem × Nat) {t u : Info} (other : t.type ≠ u.type)
    (short : t.value.length ≤ 254) (short' : u.value.length ≤ 254) :
    step stack (step stack state t) u = step stack (step stack state u) t := by
  unfold step
  by_cases empty : t.value.length = 0
  · rw [if_pos empty, if_pos empty]
  by_cases empty' : u.value.length = 0
  · rw [if_pos empty', if_pos empty']
  rw [if_neg empty, if_neg empty', if_neg empty', if_neg empty]
  have bound := length_stretchBytes short
  have bound' := length_stretchBytes short'
  have apart := stretches_apart other
  have objects : initField stack (initField stack state.1 (t.seen 4096 0)) (u.seen 4096 0) =
      initField stack (initField stack state.1 (u.seen 4096 0)) (t.seen 4096 0) := by
    rw [initField_eq stack _ empty short, initField_eq stack _ empty' short',
      initField_eq stack _ empty' short', initField_eq stack _ empty short]
    exact writeBytes_comm _ (by omega)
  exact Prod.ext objects (hashTypeAfter_comm state.2 _ _)

/-- The object and the hash type a list of short TLVs leaves, whatever was on the stack. -/
theorem foldl_perm {ts ts' : List Info} (perm : ts.Perm ts') (distinct : (ts.map Info.type).Nodup)
    (short : ∀ t ∈ ts, t.value.length ≤ 254) (stack : List UInt8) (state : Mem × Nat) :
    ts.foldl (step stack) state = ts'.foldl (step stack) state := by
  apply perm.foldl_eq'
  intro t here u there state
  by_cases same : t = u
  · rw [same]
  · have other : t.type ≠ u.type := by
      intro types
      exact same (List.inj_on_of_nodup_map distinct here there types)
    exact step_comm stack state other (short t here) (short u there)

theorem foldl_stack {ts : List Info} (short : ∀ t ∈ ts, t.value.length ≤ 254)
    (stack stack' : List UInt8) (state : Mem × Nat) :
    ts.foldl (step stack) state = ts.foldl (step stack') state := by
  induction ts generalizing state with
  | nil => rfl
  | cons t ts ih =>
    obtain ⟨here, later⟩ := List.forall_mem_cons.mp short
    have one : step stack state t = step stack' state t := by
      unfold step
      split
      · rfl
      · rename_i some_
        rw [initField_eq stack _ some_ here, initField_eq stack' _ some_ here]
    rw [List.foldl_cons, List.foldl_cons, one, ih later]

/-! The hash type. -/

def isBgpId (t : Info) : Bool := t.type = 65531 ∧ t.value.length = 4

def isName (t : Info) : Bool := t.type = 2 ∧ t.value.length ≠ 0

/-- 2 with a BGP identifier of four bytes, else 1 with a name that is not empty, else 0. -/
def hashTypeOf (ts : List Info) : Nat :=
  if ts.any isBgpId then 2 else if ts.any isName then 1 else 0

theorem hashTypeOf_cons (t : Info) (ts : List Info) :
    hashTypeOf (t :: ts) = max (hashTypeOf [t]) (hashTypeOf ts) := by
  unfold hashTypeOf
  simp only [List.any_cons, List.any_nil, Bool.or_false, Bool.or_eq_true]
  split_ifs <;> simp_all

/-- The hash type only grows. -/
theorem step_hashType (stack : List UInt8) (state : Mem × Nat) (t : Info) (known : state.2 ≤ 2) :
    (step stack state t).2 = max state.2 (hashTypeOf [t]) := by
  have seenType : (t.seen 4096 0).type = t.type := rfl
  have seenLen : (t.seen 4096 0).len = t.value.length := rfl
  simp only [step, hashTypeOf, List.any_cons, List.any_nil, Bool.or_false, isBgpId, isName,
    decide_eq_true_eq]
  by_cases empty : t.value.length = 0
  · rw [if_pos empty, if_neg (by omega), if_neg (by omega), Nat.max_zero]
  · rw [if_neg empty, hashTypeAfter_eq, seenType, seenLen]
    split_ifs <;> omega

theorem foldl_hashType (stack : List UInt8) (ts : List Info) (state : Mem × Nat)
    (known : state.2 ≤ 2) :
    (ts.foldl (step stack) state).2 = max state.2 (hashTypeOf ts) := by
  induction ts generalizing state with
  | nil => exact (Nat.max_zero _).symm
  | cons t ts ih =>
    have one := step_hashType stack state t known
    have bound : hashTypeOf [t] ≤ 2 := by
      unfold hashTypeOf
      split_ifs <;> omega
    rw [List.foldl_cons, ih _ (by omega), one, hashTypeOf_cons t ts, Nat.max_assoc]

/-! Whole messages. -/

/-- What an initiation message of short TLVs comes to. -/
theorem handleInitMsg_short {ts : List Info} (short : ∀ t ∈ ts, t.value.length ≤ 254)
    {s : Parser} (ready : AtBody (encodeInfos ts) s) (beyond : Mem) (stack : List UInt8)
    (ip : Text) :
    ∃ tlvs s', (handleInitMsg beyond).run s = .ok (tlvs, s') ∧
      initObject stack ip tlvs = ts.foldl (step stack) (newRouter ip, 0) := by
  obtain ⟨s', run⟩ := handleInitMsg_run beyond ready
  refine ⟨_, s', run, ?_⟩
  rw [(bufferedVisits_iff beyond ts).mpr (fun t here => (short t here).trans (by decide))]
  exact foldl_visits stack ts 0 _

/-- Two initiation messages with the same short TLVs of distinct types, in any order, leave
the same entry, the same hash type, which is that of the best identifier there is, and the
same input of the router hash. -/
theorem init_order_irrelevant {ts ts' : List Info} (perm : ts.Perm ts')
    (distinct : (ts.map Info.type).Nodup) (short : ∀ t ∈ ts, t.value.length ≤ 254)
    {s s' : Parser} (ready : AtBody (encodeInfos ts) s) (ready' : AtBody (encodeInfos ts') s')
    (beyond beyond' : Mem) (stack stack' : List UInt8) (ip : Text) (patEnabled : Bool)
    (collector : HashId) :
    ∃ tlvs tlvs' u u', (handleInitMsg beyond).run s = .ok (tlvs, u) ∧
      (handleInitMsg beyond').run s' = .ok (tlvs', u') ∧
      initMsg patEnabled collector stack ip tlvs = initMsg patEnabled collector stack' ip tlvs' ∧
      (∀ md5 routerHash, (initMsg patEnabled collector stack ip tlvs).entry md5 routerHash =
        (initMsg patEnabled collector stack' ip tlvs').entry md5 routerHash) ∧
      (initMsg patEnabled collector stack ip tlvs).hashType = hashTypeOf ts := by
  have short' : ∀ t ∈ ts', t.value.length ≤ 254 := fun t here => short t (perm.mem_iff.mpr here)
  obtain ⟨tlvs, u, run, left⟩ := handleInitMsg_short short ready beyond stack ip
  obtain ⟨tlvs', u', run', left'⟩ := handleInitMsg_short short' ready' beyond' stack' ip
  have same : initObject stack ip tlvs = initObject stack' ip tlvs' := by
    rw [left, left', foldl_perm perm distinct short, foldl_stack short' stack stack']
  have outcome : initMsg patEnabled collector stack ip tlvs =
      initMsg patEnabled collector stack' ip tlvs' := by simp only [initMsg, same]
  refine ⟨tlvs, tlvs', u, u', run, run', outcome, ?_, ?_⟩
  · intro md5 routerHash
    rw [outcome]
  · show (initObject stack ip tlvs).2 = _
    rw [left, foldl_hashType stack ts _ (Nat.zero_le 2), Nat.zero_max]

private theorem two_fits : (2 : Nat) < 65536 := by decide

private theorem bgpId_fits : (65531 : Nat) < 65536 := by decide

private theorem four_fits : (4 : Nat) < 65536 := by decide

/-- The name `r1` and the BGP identifier 10.0.0.1. -/
private def named : Info := ⟨2, [114, 49], two_fits, two_fits⟩

private def identified : Info := ⟨65531, [10, 0, 0, 1], bgpId_fits, four_fits⟩

private def startOf (ts : List Info) : Parser :=
  { Parser.new (encodeInfos ts) with bmpLen := (encodeInfos ts).length }

theorem init_order_named_identified :
    ∃ tlvs tlvs' u u', (handleInitMsg (fun _ => 0)).run (startOf [named, identified]) =
        .ok (tlvs, u) ∧
      (handleInitMsg (fun _ => 0)).run (startOf [identified, named]) = .ok (tlvs', u') ∧
      initMsg true HashId.zero [] [] tlvs = initMsg true HashId.zero [] [] tlvs' ∧
      (∀ md5 routerHash, (initMsg true HashId.zero [] [] tlvs).entry md5 routerHash =
        (initMsg true HashId.zero [] [] tlvs').entry md5 routerHash) ∧
      (initMsg true HashId.zero [] [] tlvs).hashType = hashTypeOf [named, identified] :=
  init_order_irrelevant (.swap _ _ _) (by decide) (by decide)
    ⟨rfl, rfl, ⟨[], (List.append_nil _).symm⟩, by decide⟩
    ⟨rfl, rfl, ⟨[], (List.append_nil _).symm⟩, by decide⟩ _ _ _ _ _ _ _

end SonicBmp.Bmp.InitOrder
