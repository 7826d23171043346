/- module: SonicBmp/Bgp/EvpnLists
   digest: Which mixes of EVPN routes parse one by one: the data pointer after a type 4 route. -/

import Mathlib.Data.List.Chain
import Mathlib.Data.List.Forall2
import SonicBmp.Bgp.EvpnCodec

set_option autoImplicit false
set_option relaxedAutoImplicit false

namespace SonicBmp.Bgp.EvpnLists

open SonicBmp.Library.Memory
open SonicBmp.Bgp.Common
open SonicBmp.Bgp.Evpn
open SonicBmp.Bgp.EvpnCodec

/-! Shapes: everything that fixes the length of a route, and the type of its segment. -/

inductive EvpnShape
  | autoDiscovery (segment : UInt8)
  | macIp (segment : UInt8) (ip : AddressKind) (second : Bool)
  | multicast (origin : AddressKind)
  | ethernetSegment (segment : UInt8) (origin : AddressKind)
  deriving DecidableEq

def shape (r : EvpnRoute) : EvpnShape :=
  match r.body with
  | .autoDiscovery segment _ _ => .autoDiscovery segment.type
  | .macIp segment _ _ ip _ second => .macIp segment.type ip.kind second.isSome
  | .multicast _ origin => .multicast origin.kind
  | .ethernetSegment segment origin => .ethernetSegment segment.type origin.kind

/-- The segment identifier, if there is one, has a type the parser knows. -/
def EvpnShape.Known : EvpnShape → Prop
  | .autoDiscovery segment => segment ≤ 5
  | .macIp segment _ _ => segment ≤ 5
  | .multicast _ => True
  | .ethernetSegment segment _ => segment ≤ 5

/-- A type 4 route with an originator address leaves the data pointer in front of it. -/
def EvpnShape.Lags : EvpnShape → Prop
  | .ethernetSegment _ origin => origin ≠ .none
  | _ => False

/-- No route but the last lags, and every segment type is known. -/
structure Orderly (ss : List EvpnShape) : Prop where
  known : ∀ s ∈ ss, s.Known
  lags : ss.IsChain fun s _ => ¬ s.Lags

theorem lag_eq_zero_iff (r : EvpnRoute) : r.body.lag = 0 ↔ ¬ (shape r).Lags := by
  obtain ⟨rd, body⟩ := r
  cases body with
  | ethernetSegment segment origin =>
    have size := origin.bits_bytes
    show origin.bytes.length = 0 ↔ ¬ origin.kind ≠ .none
    rw [not_not]
    cases kind : origin.kind with
    | none =>
      have none_left : 8 * origin.bytes.length = 0 := by rw [size, kind]; rfl
      exact ⟨fun _ => rfl, fun _ => by omega⟩
    | v4 =>
      have four : 8 * origin.bytes.length = 32 := by rw [size, kind]; rfl
      exact ⟨fun empty => by omega, nofun⟩
    | v6 =>
      have sixteen : 8 * origin.bytes.length = 128 := by rw [size, kind]; rfl
      exact ⟨fun empty => by omega, nofun⟩
  | autoDiscovery segment tag label => simp [shape, RouteBody.lag, EvpnShape.Lags]
  | macIp segment tag mac ip label second => simp [shape, RouteBody.lag, EvpnShape.Lags]
  | multicast tag origin => simp [shape, RouteBody.lag, EvpnShape.Lags]

theorem segmentType_at (s : SegmentId) : u8 (memOf s.bytes) 0 = s.type.toNat := by
  rw [u8, memOf_apply]
  rfl

theorem printed_isSome_iff (s : SegmentId) : s.printed.isSome = true ↔ s.type ≤ 5 := by
  have value (m : Mem) (type data : Nat) : (segmentValue m type data).isSome = true ↔ type ≤ 5 := by
    rcases Nat.lt_or_ge 5 type with above | upTo
    · obtain ⟨k, rfl⟩ : ∃ k, type = k + 6 := ⟨type - 6, by omega⟩
      simp [segmentValue]
    · interval_cases type <;> simp [segmentValue]
  rw [SegmentId.printed, parseEthernetSegmentIdentifier, Option.isSome_map, value,
    segmentType_at, UInt8.le_iff_toNat_le]
  rfl

theorem decoded_isSome_iff (r : EvpnRoute) : r.decoded.isSome = true ↔ (shape r).Known := by
  obtain ⟨rd, body⟩ := r
  rw [EvpnRoute.decoded, Option.isSome_map]
  cases body with
  | autoDiscovery segment tag label => exact printed_isSome_iff segment
  | macIp segment tag mac ip label second => exact printed_isSome_iff segment
  | multicast tag origin => exact ⟨fun _ => trivial, fun _ => rfl⟩
  | ethernetSegment segment origin => exact printed_isSome_iff segment

/-! The loop at a route. -/

section Loop

variable {m : Mem} {dataLen data read : Nat} {acc : List EvpnTuple}

theorem length_encode_gt (r : EvpnRoute) : 10 < r.encode.length := by
  have size := r.length_encode
  obtain ⟨rd, body⟩ := r
  cases body with
  | autoDiscovery segment tag label => rw [size, RouteBody.length_autoDiscovery]; decide
  | macIp segment tag mac ip label second => rw [size, RouteBody.length_macIp]; omega
  | multicast tag origin => rw [size, RouteBody.length_multicast]; omega
  | ethernetSegment segment origin => rw [size, RouteBody.length_ethernetSegment]; omega

theorem evpnLoop_decoded (r : EvpnRoute) {t : EvpnTuple} (decoded : r.decoded = some t)
    (held : Holds m data r.encode) (room : read + r.encode.length ≤ dataLen) :
    evpnLoop m dataLen data read acc =
      evpnLoop m dataLen (data + (r.encode.length - r.body.lag)) (read + r.encode.length)
        (acc ++ [t]) := by
  have long := length_encode_gt r
  have turn := evpnTurn_of_holds data read r held room
  rw [decoded, Option.map_some] at turn
  obtain ⟨after, turned, left⟩ := Option.map_eq_some_iff.mp turn
  obtain ⟨tuple, pointer, count⟩ : after.tuple = t ∧ _ ∧ _ := by simpa [EvpnCursor.left] using left
  rw [evpnLoop_turn (by omega) turned, tuple, pointer, count]

theorem evpnLoop_undecoded (r : EvpnRoute) (undecoded : r.decoded = none)
    (held : Holds m data r.encode) (room : read + r.encode.length ≤ dataLen) :
    evpnLoop m dataLen data read acc = none := by
  have long := length_encode_gt r
  have turn := evpnTurn_of_holds data read r held room
  rw [undecoded, Option.map_none, Option.map_eq_none_iff] at turn
  exact evpnLoop_stuck (by omega) turn

/-- What has been appended stays. -/
theorem evpnLoop_extends {tuples : List EvpnTuple}
    (result : evpnLoop m dataLen data read acc = some tuples) : acc <+: tuples := by
  fun_induction evpnLoop m dataLen data read acc with
  | case1 data read acc more stuck => cases result
  | case2 data read acc more after turn ih => exact (List.prefix_append acc _).trans (ih result)
  | case3 data read acc done =>
    cases result
    exact List.prefix_refl _

theorem lag_le (r : EvpnRoute) : r.body.lag ≤ r.encode.length := by
  have size := r.length_encode
  obtain ⟨rd, body⟩ := r
  cases body with
  | autoDiscovery segment tag label => exact Nat.zero_le _
  | macIp segment tag mac ip label second => exact Nat.zero_le _
  | multicast tag origin => exact Nat.zero_le _
  | ethernetSegment segment origin =>
    rw [size, RouteBody.length_ethernetSegment, RouteBody.lag]
    omega

/-- How far a list leaves the data pointer behind. -/
def lastLag : List EvpnRoute → Nat
  | [] => 0
  | [r] => r.body.lag
  | _ :: next :: rs => lastLag (next :: rs)

theorem lastLag_concat (rs : List EvpnRoute) (r : EvpnRoute) : lastLag (rs ++ [r]) = r.body.lag := by
  induction rs with
  | nil => rfl
  | cons first rs ih =>
    cases rs with
    | nil => rfl
    | cons next rs => exact ih

theorem lastLag_eq_zero {rs : List EvpnRoute} (straight : ∀ r ∈ rs, r.body.lag = 0) :
    lastLag rs = 0 := by
  rcases List.eq_nil_or_concat rs with rfl | ⟨front, r, rfl⟩
  · rfl
  · rw [List.concat_eq_append] at straight ⊢
    rw [lastLag_concat]
    exact straight r (by simp)

/-- The loop over a list of routes, with whatever follows them. -/
theorem evpnLoop_over (rs : List EvpnRoute) (ts : List EvpnTuple)
    (decoded : List.Forall₂ (fun r t => r.decoded = some t) rs ts)
    (lags : rs.IsChain fun r _ => r.body.lag = 0) (held : Holds m data (encodeEvpn rs))
    (room : read + (encodeEvpn rs).length ≤ dataLen) :
    ∃ data', data' + lastLag rs = data + (encodeEvpn rs).length ∧
      ∀ acc, evpnLoop m dataLen data read acc =
        evpnLoop m dataLen data' (read + (encodeEvpn rs).length) (acc ++ ts) := by
  induction decoded generalizing data read with
  | nil =>
    refine ⟨data, rfl, ?_⟩
    intro acc
    rw [List.append_nil]
    rfl
  | @cons r t rs ts first rest ih =>
    have behind := lag_le r
    have split : encodeEvpn (r :: rs) = r.encode ++ encodeEvpn rs := List.flatMap_cons
    rw [split, holds_append] at held
    rw [split, List.length_append] at room ⊢
    have step : ∀ acc, evpnLoop m dataLen data read acc =
        evpnLoop m dataLen (data + (r.encode.length - r.body.lag)) (read + r.encode.length)
          (acc ++ [t]) := fun acc => evpnLoop_decoded r first held.1 (by omega)
    cases rest with
    | nil =>
      refine ⟨_, ?_, step⟩
      rw [lastLag, encodeEvpn, List.flatMap_nil, List.length_nil]
      omega
    | @cons next t' rs ts' second rest =>
      rw [List.isChain_cons_cons] at lags
      rw [lags.1, Nat.sub_zero] at step
      obtain ⟨data', there, loop⟩ := ih lags.2 held.2 (Nat.add_assoc read _ _ ▸ room)
      refine ⟨data', by rw [lastLag, there, Nat.add_assoc], ?_⟩
      intro acc
      rw [step, loop, List.append_assoc, Nat.add_assoc]
      rfl

/-- Routes none of which lags are gone over as they lie. -/
theorem evpnLoop_through (rs : List EvpnRoute) (ts : List EvpnTuple)
    (decoded : List.Forall₂ (fun r t => r.decoded = some t) rs ts)
    (straight : ∀ r ∈ rs, r.body.lag = 0) (held : Holds m data (encodeEvpn rs))
    (room : read + (encodeEvpn rs).length ≤ dataLen) :
    evpnLoop m dataLen data read acc =
      evpnLoop m dataLen (data + (encodeEvpn rs).length) (read + (encodeEvpn rs).length)
        (acc ++ ts) := by
  have lags : rs.IsChain fun r _ => r.body.lag = 0 :=
    (List.pairwise_of_forall_mem_list fun r here _ _ => straight r here).isChain
  obtain ⟨data', there, loop⟩ := evpnLoop_over rs ts decoded lags held room
  rw [lastLag_eq_zero straight, Nat.add_zero] at there
  rw [loop, there]

theorem evpnLoop_of_holds (rs : List EvpnRoute) (ts : List EvpnTuple)
    (decoded : List.Forall₂ (fun r t => r.decoded = some t) rs ts)
    (lags : rs.IsChain fun r _ => r.body.lag = 0) (held : Holds m data (encodeEvpn rs))
    (hlen : dataLen = read + (encodeEvpn rs).length) :
    evpnLoop m dataLen data read acc = some (acc ++ ts) := by
  obtain ⟨data', -, loop⟩ := evpnLoop_over rs ts decoded lags held hlen.ge
  rw [loop, evpnLoop_done (by omega)]

end Loop

/-! Lists. -/

/-- The parser appends these tuples, wherever the routes lie in memory and whatever follows
them. -/
def Reads (rs : List EvpnRoute) (ts : List EvpnTuple) : Prop :=
  ∀ (m : Mem) (data : Nat), Holds m data (encodeEvpn rs) →
    parseNlriData m data (encodeEvpn rs).length = some ts

/-- The tuple of a route on its own. -/
def Alone (r : EvpnRoute) (t : EvpnTuple) : Prop := Reads [r] [t]

/-- One tuple for each route of `a`, one for each route of `b`, and the tuples of `a`
followed by those of `b` for the two lists put together. -/
def Composes (a b : List EvpnRoute) : Prop :=
  ∃ ta tb : List EvpnTuple, List.Forall₂ Alone a ta ∧ List.Forall₂ Alone b tb ∧
    Reads a ta ∧ Reads b tb ∧ Reads (a ++ b) (ta ++ tb)

theorem alone_iff {r : EvpnRoute} {t : EvpnTuple} : Alone r t ↔ r.decoded = some t := by
  have one : encodeEvpn [r] = r.encode := by simp [encodeEvpn]
  constructor
  · intro alone
    have read := alone (memOf (encodeEvpn [r])) 0 (holds_memOf _)
    have held : Holds (memOf (encodeEvpn [r])) 0 r.encode := by
      rw [← one]
      exact holds_memOf _
    have room : 0 + r.encode.length ≤ (encodeEvpn [r]).length := by rw [one, Nat.zero_add]
    rw [parseNlriData] at read
    cases decoded : r.decoded with
    | none =>
      rw [evpnLoop_undecoded r decoded held room] at read
      cases read
    | some t' =>
      have done : ¬ 0 + r.encode.length + 10 < (encodeEvpn [r]).length := by rw [one]; omega
      rw [evpnLoop_decoded r decoded held room, evpnLoop_done done] at read
      simpa using read
  · intro decoded m data held
    exact evpnLoop_of_holds [r] [t] (.cons decoded .nil) (.singleton r) held (Nat.zero_add _).symm

theorem reads_of_orderly {rs : List EvpnRoute} {ts : List EvpnTuple}
    (decoded : List.Forall₂ (fun r t => r.decoded = some t) rs ts)
    (lags : rs.IsChain fun r _ => r.body.lag = 0) : Reads rs ts :=
  fun _ _ held => evpnLoop_of_holds rs ts decoded lags held (Nat.zero_add _).symm

theorem composes_of_orderly {a b : List EvpnRoute} (orderly : Orderly ((a ++ b).map shape)) :
    Composes a b := by
  have lags : (a ++ b).IsChain fun r _ => r.body.lag = 0 := by
    have chain := (List.isChain_map shape).mp orderly.lags
    exact chain.imp fun r _ => (lag_eq_zero_iff r).mpr
  have decoded : ∀ rs : List EvpnRoute, (∀ r ∈ rs, r ∈ a ++ b) →
      List.Forall₂ (fun r t => r.decoded = some t) rs (rs.map fun r => r.decoded.getD freshTuple) := by
    intro rs within
    rw [List.forall₂_map_right_iff, List.forall₂_same]
    intro r here
    have known := orderly.known (shape r) (List.mem_map_of_mem (within r here))
    obtain ⟨t, some_t⟩ := Option.isSome_iff_exists.mp ((decoded_isSome_iff r).mpr known)
    rw [some_t, Option.getD_some]
  have forA := decoded a fun r here => List.mem_append_left b here
  have forB := decoded b fun r here => List.mem_append_right a here
  refine ⟨_, _, forA.imp fun _ _ => alone_iff.mpr, forB.imp fun _ _ => alone_iff.mpr,
    reads_of_orderly forA lags.left_of_append, reads_of_orderly forB lags.right_of_append, ?_⟩
  exact reads_of_orderly (List.rel_append forA forB) lags

/-! A lagging route that is followed by another. -/

/-- Every tuple the parser makes of a route shows a tag or a segment. -/
theorem decoded_not_blank {r : EvpnRoute} {t : EvpnTuple} (decoded : r.decoded = some t) :
    t.ethernetTagIdHex ≠ [] ∨ t.ethernetSegmentIdentifier ≠ [] := by
  obtain ⟨segment, printed, rfl⟩ := Option.map_eq_some_iff.mp decoded
  have tagged (tag : Vector UInt8 4) : hexText tag.toList ≠ [] := by
    intro empty
    have digits := List.flatMap_eq_nil_iff.mp empty (tag.get 0) (by simp [Vector.get])
    cases digits
  obtain ⟨rd, body⟩ := r
  cases body with
  | autoDiscovery id tag label => exact Or.inl (tagged tag)
  | macIp id tag mac ip label second => exact Or.inl (tagged tag)
  | multicast tag origin => exact Or.inl (tagged tag)
  | ethernetSegment id origin =>
    right
    obtain ⟨value, -, rfl⟩ := Option.map_eq_some_iff.mp printed
    simp

/-- A turn at an octet that is no route type takes in a header and nothing else. -/
theorem evpnTurn_unknown {m : Mem} {dataLen data read : Nat} (unknown : u8 m data ∉ [1, 2, 3, 4]) :
    evpnTurn m dataLen data read = some (routeHead m data read) := by
  rw [evpnTurn]
  generalize u8 m data = type at unknown
  unfold routeBody
  split
  · exact absurd (by decide) unknown
  · exact absurd (by decide) unknown
  · exact absurd (by decide) unknown
  · exact absurd (by decide) unknown
  · rfl

/-- Where the data pointer stays: in front of the originator address. -/
theorem origin_of_holds {m : Mem} {data : Nat} (r : EvpnRoute) (held : Holds m data r.encode)
    (lags : r.body.lag ≠ 0) :
    Holds m (data + (r.encode.length - r.body.lag)) r.body.origin.bytes ∧
      r.body.origin.bytes ≠ [] := by
  have size := r.length_encode
  obtain ⟨rd, body⟩ := r
  cases body with
  | autoDiscovery segment tag label => exact absurd rfl lags
  | macIp segment tag mac ip label second => exact absurd rfl lags
  | multicast tag origin => exact absurd rfl lags
  | ethernetSegment segment origin =>
    have lag : (RouteBody.ethernetSegment segment origin).lag = origin.bytes.length := rfl
    rw [RouteBody.length_ethernetSegment] at size
    refine ⟨?_, fun empty => lags (congrArg List.length empty)⟩
    rw [size, lag, ← Nat.add_assoc, Nat.add_sub_cancel]
    simp only [EvpnRoute.encode, RouteBody.bytes, holds_append, length_put8, Vector.length_toList,
      SegmentId.length_bytes, Nat.add_assoc, Nat.reduceAdd] at held
    exact held.2.2.2.2.2

/-- Behind a lagging route whose address is all zeros the next turn starts inside the
address, finds no route type there and shows nothing. -/
theorem blank_after_lag {m : Mem} {dataLen data read : Nat} {acc tuples : List EvpnTuple}
    (r : EvpnRoute) (zeros : ∀ byte ∈ r.body.origin.bytes, byte = 0)
    (held : Holds m data r.encode) (lags : r.body.lag ≠ 0) (more : read + 10 < dataLen)
    (result : evpnLoop m dataLen (data + (r.encode.length - r.body.lag)) read acc = some tuples) :
    ∃ t, acc ++ [t] <+: tuples ∧ t.ethernetTagIdHex = [] ∧ t.ethernetSegmentIdentifier = [] := by
  obtain ⟨address, some_byte⟩ := origin_of_holds r held lags
  obtain ⟨byte, bytes, here⟩ := List.exists_cons_of_ne_nil some_byte
  have first_zero : byte = 0 := zeros byte (by simp [here])
  have zero : u8 m (data + (r.encode.length - r.body.lag)) = 0 := by
    rw [here, holds_cons] at address
    rw [u8, address.1, first_zero]
    rfl
  rw [evpnLoop_turn more (evpnTurn_unknown (by rw [zero]; decide))] at result
  exact ⟨_, evpnLoop_extends result, rfl, rfl⟩

theorem isChain_of_loop {m : Mem} {dataLen data read : Nat} {acc : List EvpnTuple}
    (rs : List EvpnRoute) (ts : List EvpnTuple)
    (zeros : ∀ r ∈ rs, ∀ byte ∈ r.body.origin.bytes, byte = 0)
    (decoded : List.Forall₂ (fun r t => r.decoded = some t) rs ts)
    (held : Holds m data (encodeEvpn rs)) (hlen : dataLen = read + (encodeEvpn rs).length)
    (result : evpnLoop m dataLen data read acc = some (acc ++ ts)) :
    rs.IsChain fun r _ => r.body.lag = 0 := by
  induction decoded generalizing data read acc with
  | nil => exact .nil
  | @cons r t rs ts first rest ih =>
    rw [encodeEvpn, List.flatMap_cons, holds_append] at held
    rw [encodeEvpn, List.flatMap_cons, List.length_append] at hlen
    rw [evpnLoop_decoded r first held.1 (by omega)] at result
    cases rest with
    | nil => exact .singleton r
    | @cons next t' rs ts' second rest =>
      have long := length_encode_gt next
      rw [List.flatMap_cons, List.length_append] at hlen
      rw [List.isChain_cons_cons]
      by_cases lag : r.body.lag = 0
      · rw [lag, Nat.sub_zero] at result
        have rest_len : dataLen = read + r.encode.length + (encodeEvpn (next :: rs)).length := by
          rw [hlen, encodeEvpn, List.flatMap_cons, List.length_append]
          omega
        have rest_result : evpnLoop m dataLen (data + r.encode.length) (read + r.encode.length)
            (acc ++ [t]) = some ((acc ++ [t]) ++ t' :: ts') := by
          rw [result, List.append_assoc]
          rfl
        exact ⟨lag, ih (fun r here => zeros r (List.mem_cons_of_mem _ here)) held.2 rest_len
          rest_result⟩
      · exfalso
        have originZeros := zeros r List.mem_cons_self
        obtain ⟨blank, shown, noTag, noSegment⟩ :=
          blank_after_lag r originZeros held.1 lag (by omega) result
        rw [List.append_assoc, List.prefix_append_right_inj] at shown
        obtain rfl : blank = t' := by simpa using shown
        rcases decoded_not_blank second with tag | segment
        · exact tag noTag
        · exact segment noSegment

/-- The address of all zeros. -/
def zeroAddress (kind : AddressKind) : EvpnAddress :=
  ⟨kind, List.replicate (kind.bits / 8) 0, by cases kind <;> rfl⟩

/-- The route of a shape with nothing but zeros in it. -/
def EvpnShape.zero (s : EvpnShape) : EvpnRoute where
  rd := Vector.replicate 8 0
  body :=
    let id (type : UInt8) : SegmentId := ⟨type, Vector.replicate 9 0⟩
    let tag : Vector UInt8 4 := Vector.replicate 4 0
    match s with
    | .autoDiscovery segment => .autoDiscovery (id segment) tag .zero
    | .macIp segment ip second =>
      .macIp (id segment) tag (Vector.replicate 6 0) (zeroAddress ip) .zero
        (if second then some .zero else none)
    | .multicast origin => .multicast tag (zeroAddress origin)
    | .ethernetSegment segment origin => .ethernetSegment (id segment) (zeroAddress origin)

theorem shape_zero (s : EvpnShape) : shape s.zero = s := by
  cases s with
  | autoDiscovery segment => rfl
  | macIp segment ip second => cases second <;> rfl
  | multicast origin => rfl
  | ethernetSegment segment origin => rfl

theorem map_shape_zero (ss : List EvpnShape) : (ss.map EvpnShape.zero).map shape = ss := by
  rw [List.map_map]
  exact (List.map_congr_left fun s _ => shape_zero s).trans (List.map_id ss)

theorem origin_zero (s : EvpnShape) : ∀ byte ∈ s.zero.body.origin.bytes, byte = 0 := by
  cases s with
  | autoDiscovery segment => exact List.forall_mem_nil _
  | macIp segment ip second => exact List.forall_mem_nil _
  | multicast origin => exact fun byte here => List.eq_of_mem_replicate here
  | ethernetSegment segment origin => exact fun byte here => List.eq_of_mem_replicate here

theorem known_of_alone {ss : List EvpnShape} {ts : List EvpnTuple}
    (alone : List.Forall₂ Alone (ss.map EvpnShape.zero) ts) : ∀ s ∈ ss, s.Known := by
  rw [List.forall₂_map_left_iff] at alone
  induction alone with
  | nil => exact List.forall_mem_nil _
  | @cons s t ss ts tuple rest ih =>
    have known := decoded_isSome_iff s.zero
    rw [alone_iff.mp tuple, shape_zero] at known
    exact List.forall_mem_cons.mpr ⟨known.mp rfl, ih⟩

theorem orderly_of_reads {ss : List EvpnShape} {ts : List EvpnTuple}
    (alone : List.Forall₂ Alone (ss.map EvpnShape.zero) ts)
    (reads : Reads (ss.map EvpnShape.zero) ts) : Orderly ss := by
  have zeros : ∀ r ∈ ss.map EvpnShape.zero, ∀ byte ∈ r.body.origin.bytes, byte = 0 := by
    intro r here
    obtain ⟨s, -, rfl⟩ := List.mem_map.mp here
    exact origin_zero s
  refine ⟨known_of_alone alone, ?_⟩
  have chain := isChain_of_loop _ _ zeros (alone.imp fun _ _ => alone_iff.mp) (holds_memOf _)
    (Nat.zero_add _).symm (reads _ 0 (holds_memOf _))
  refine ((List.isChain_map EvpnShape.zero).mp chain).imp fun s _ lag => ?_
  rwa [lag_eq_zero_iff, shape_zero] at lag

theorem orderly_of_composes (sa sb : List EvpnShape)
    (composes : Composes (sa.map EvpnShape.zero) (sb.map EvpnShape.zero)) :
    Orderly (sa ++ sb) := by
  obtain ⟨ta, tb, forA, forB, -, -, both⟩ := composes
  have alone : List.Forall₂ Alone ((sa ++ sb).map EvpnShape.zero) (ta ++ tb) := by
    rw [List.map_append]
    exact List.rel_append forA forB
  rw [← List.map_append] at both
  exact orderly_of_reads alone both

/-- The routes of two mixes parse one by one, whatever they contain, exactly if no type 4
route with an originator address has another route behind it and every segment type is one
of those the parser knows. -/
theorem evpn_composes_iff (sa sb : List EvpnShape) :
    (∀ a b : List EvpnRoute, a.map shape = sa → b.map shape = sb → Composes a b) ↔
      Orderly (sa ++ sb) := by
  constructor
  · intro composes
    exact orderly_of_composes sa sb (composes _ _ (map_shape_zero sa) (map_shape_zero sb))
  · rintro orderly a b rfl rfl
    rw [← List.map_append] at orderly
    exact composes_of_orderly orderly

/-- A type 4 route with an IPv4 originator in front of a type 3 route. -/
theorem ethernetSegment_then_multicast_not_composed :
    ¬ Composes [(EvpnShape.ethernetSegment 0 .v4).zero] [(EvpnShape.multicast .v4).zero] := by
  intro composes
  have orderly := orderly_of_composes [.ethernetSegment 0 .v4] [.multicast .v4] composes
  exact (List.isChain_cons_cons.mp orderly.lags).1 nofun

end SonicBmp.Bgp.EvpnLists
