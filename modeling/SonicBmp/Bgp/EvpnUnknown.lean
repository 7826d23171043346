/- module: SonicBmp/Bgp/EvpnUnknown
   digest: An EVPN route of a type without a parser among other routes: which of their entries stay. -/

import SonicBmp.Bgp.EvpnLists

set_option autoImplicit false
set_option relaxedAutoImplicit false

namespace SonicBmp.Bgp.EvpnUnknown

open SonicBmp.Library.Memory
open SonicBmp.Bgp.Common
open SonicBmp.Bgp.Nlri (parseRouteDistinguisher)
open SonicBmp.Bgp.LabelCodec (Label)
open SonicBmp.Bgp.Evpn
open SonicBmp.Bgp.EvpnCodec
open SonicBmp.Bgp.EvpnLists

/-- A route of another type, delimited by its length octet. -/
structure UnknownEvpn where
  type : UInt8
  unknown : type.toNat ∉ [1, 2, 3, 4]
  value : List UInt8
  fits : value.length < 256

def UnknownEvpn.bytes (u : UnknownEvpn) : List UInt8 :=
  u.type :: UInt8.ofNat u.value.length :: u.value

theorem UnknownEvpn.length_bytes (u : UnknownEvpn) : u.bytes.length = u.value.length + 2 := rfl

/-- The routes around an unknown one keep the entries they have on their own and have
without it, in their order; the unknown route may have entries in its place. -/
def EvpnKeeps (a b : List EvpnRoute) (u : UnknownEvpn) : Prop :=
  ∃ ta tb : List EvpnTuple, List.Forall₂ Alone a ta ∧ List.Forall₂ Alone b tb ∧
    Reads (a ++ b) (ta ++ tb) ∧
    ∀ (m : Mem) (data : Nat), Holds m data (encodeEvpn a ++ (u.bytes ++ encodeEvpn b)) →
      ∃ own, parseNlriData m data (encodeEvpn a ++ (u.bytes ++ encodeEvpn b)).length =
        some (ta ++ (own ++ tb))

/-- The lengths at which it does no harm: eight, the part of an unknown route that is read,
and behind the last route whatever is too short for a segment identifier. -/
def Harmless (sa sb : List EvpnShape) (length : Nat) : Prop :=
  length = 8 ∨ sb = [] ∧ (length ≤ 18 ∨ length ≤ 28 ∧ ∀ s ∈ sa, ¬ s.Lags)

/-! Turns. -/

section Turns

variable {m : Mem} {dataLen data read : Nat} {acc : List EvpnTuple}

/-- No segment identifier is looked at, and so nothing can go wrong. -/
theorem evpnTurn_isSome (m : Mem) (data : Nat) (short : dataLen < read + 21) :
    ∃ after, evpnTurn m dataLen data read = some after := by
  have counted : (routeHead m data read).read = read + 10 := rfl
  unfold evpnTurn routeBody
  split
  · exact ⟨_, by rw [ethernetAutoDiscovery, if_neg (by omega)]⟩
  · exact ⟨_, by rw [macIpAdvertisment, if_neg (by omega)]⟩
  · exact ⟨_, rfl⟩
  · exact ⟨_, by rw [ethernetSegmentRoute, if_neg (by omega)]⟩
  · exact ⟨_, rfl⟩

theorem evpnLoop_short (m : Mem) (data : Nat) (acc : List EvpnTuple) (short : dataLen ≤ read + 20) :
    ∃ own, evpnLoop m dataLen data read acc = some (acc ++ own) := by
  by_cases more : read + 10 < dataLen
  · obtain ⟨after, turn⟩ := evpnTurn_isSome m data (Nat.lt_succ_of_le short)
    have counted := evpnTurn_read turn
    exact ⟨[after.tuple], by rw [evpnLoop_turn more turn, evpnLoop_done (by omega)]⟩
  · exact ⟨[], by rw [evpnLoop_done more, List.append_nil]⟩

/-- A turn at a type 4 route with a segment identifier of type 6 does not come back. -/
theorem evpnTurn_stuck (type : u8 m data = 4) (segment : u8 m (data + 10) = 6)
    (room : read + 21 ≤ dataLen) : evpnTurn m dataLen data read = none := by
  have counted : (routeHead m data read).read = read + 10 := rfl
  have at_ : (routeHead m data read).data = data + 10 := rfl
  rw [evpnTurn, type]
  simp only [routeBody, ethernetSegmentRoute]
  rw [if_pos (by omega), parseEthernetSegmentIdentifier, at_, segment]
  rfl

/-- A turn at a type 3 route without an originator address. -/
theorem evpnTurn_multicast (type : u8 m data = 3) (origin : u8 m (data + 14) = 0)
    (room : read + 15 ≤ dataLen) :
    ∃ after, evpnTurn m dataLen data read = some after ∧
      after.data = data + 15 ∧ after.read = read + 15 := by
  have counted : (routeHead m data read).read = read + 10 := rfl
  have at_ : (routeHead m data read).data + 4 = data + 14 := rfl
  rw [evpnTurn, type]
  simp only [routeBody, inclusiveMulticastEthernetTag, at_, origin]
  rw [if_pos (by omega), readAddress, if_neg (by omega)]
  exact ⟨_, rfl, rfl, rfl⟩

theorem evpnLoop_unknown {u : UnknownEvpn} (held : Holds m data u.bytes)
    (more : read + 10 < dataLen) :
    evpnLoop m dataLen data read acc =
      evpnLoop m dataLen (data + 10) (read + 10) (acc ++ [(routeHead m data read).tuple]) := by
  have type : u8 m data = u.type.toNat := by
    rw [UnknownEvpn.bytes, holds_cons] at held
    rw [u8, held.1]
  exact evpnLoop_turn more (evpnTurn_unknown (type ▸ u.unknown))

end Turns

/-! Entries that stay. -/

section Stays

variable {a b : List EvpnRoute} {ta tb : List EvpnTuple} {u : UnknownEvpn} {m : Mem} {data : Nat}

theorem keeps_behind (decoded : List.Forall₂ (fun r t => r.decoded = some t) a ta)
    (lags : a.IsChain fun r _ => r.body.lag = 0) (short : u.value.length ≤ 18)
    (held : Holds m data (encodeEvpn a ++ u.bytes)) :
    ∃ own, parseNlriData m data (encodeEvpn a ++ u.bytes).length = some (ta ++ own) := by
  have size := u.length_bytes
  rw [holds_append] at held
  rw [List.length_append, parseNlriData]
  obtain ⟨data', -, loop⟩ := evpnLoop_over a ta decoded lags held.1
    (show 0 + (encodeEvpn a).length ≤ (encodeEvpn a).length + u.bytes.length by omega)
  rw [loop, List.nil_append]
  exact evpnLoop_short m data' ta (by omega)

theorem keeps_behind_straight (decoded : List.Forall₂ (fun r t => r.decoded = some t) a ta)
    (straight : ∀ r ∈ a, r.body.lag = 0) (short : u.value.length ≤ 28)
    (held : Holds m data (encodeEvpn a ++ u.bytes)) :
    ∃ own, parseNlriData m data (encodeEvpn a ++ u.bytes).length = some (ta ++ own) := by
  have size := u.length_bytes
  rw [holds_append] at held
  rw [List.length_append, parseNlriData, evpnLoop_through a ta decoded straight held.1 (by omega),
    List.nil_append]
  by_cases more : 10 < u.bytes.length
  · rw [evpnLoop_unknown held.2 (by omega)]
    obtain ⟨own, loop⟩ := evpnLoop_short m (data + (encodeEvpn a).length + 10)
      (ta ++ [(routeHead m (data + (encodeEvpn a).length) (0 + (encodeEvpn a).length)).tuple])
      (show (encodeEvpn a).length + u.bytes.length ≤ 0 + (encodeEvpn a).length + 10 + 20 by omega)
    exact ⟨_, by rw [loop, List.append_assoc]⟩
  · exact ⟨[], by rw [evpnLoop_done (by omega), List.append_nil]⟩

theorem keeps_between (forA : List.Forall₂ (fun r t => r.decoded = some t) a ta)
    (forB : List.Forall₂ (fun r t => r.decoded = some t) b tb) (straight : ∀ r ∈ a, r.body.lag = 0)
    (lags : b.IsChain fun r _ => r.body.lag = 0) (some_b : b ≠ []) (eight : u.value.length = 8)
    (held : Holds m data (encodeEvpn a ++ (u.bytes ++ encodeEvpn b))) :
    ∃ own, parseNlriData m data (encodeEvpn a ++ (u.bytes ++ encodeEvpn b)).length =
      some (ta ++ (own ++ tb)) := by
  have size : u.bytes.length = 10 := by rw [u.length_bytes, eight]
  have long : 0 < (encodeEvpn b).length := by
    obtain ⟨r, rest, rfl⟩ := List.exists_cons_of_ne_nil some_b
    have := length_encode_gt r
    rw [encodeEvpn, List.flatMap_cons, List.length_append]
    omega
  rw [holds_append, holds_append, size] at held
  rw [List.length_append, List.length_append, size, parseNlriData,
    evpnLoop_through a ta forA straight held.1 (by omega), List.nil_append,
    evpnLoop_unknown held.2.1 (by omega),
    evpnLoop_of_holds b tb forB lags held.2.2 (by omega), List.append_assoc]
  exact ⟨_, rfl⟩

end Stays

theorem straight_of_shapes {a : List EvpnRoute} (straight : ∀ s ∈ a.map shape, ¬ s.Lags) :
    ∀ r ∈ a, r.body.lag = 0 :=
  fun r here => (lag_eq_zero_iff r).mpr (straight (shape r) (List.mem_map_of_mem here))

/-- No route lags that has another one behind it. -/
theorem straight_of_orderly {sa sb : List EvpnShape} (orderly : Orderly (sa ++ sb))
    (some_b : sb ≠ []) : ∀ s ∈ sa, ¬ s.Lags := by
  obtain ⟨next, rest, rfl⟩ := List.exists_cons_of_ne_nil some_b
  have lags := orderly.lags
  clear orderly
  induction sa with
  | nil => exact List.forall_mem_nil _
  | cons s sa ih =>
    cases sa with
    | nil => exact List.forall_mem_singleton.mpr (List.isChain_cons_cons.mp lags).1
    | cons s' sa =>
      rw [List.cons_append, List.cons_append, List.isChain_cons_cons] at lags
      exact List.forall_mem_cons.mpr ⟨lags.1, ih lags.2⟩

theorem keeps_of_harmless {a b : List EvpnRoute} {u : UnknownEvpn}
    (orderly : Orderly ((a ++ b).map shape))
    (harmless : Harmless (a.map shape) (b.map shape) u.value.length) : EvpnKeeps a b u := by
  obtain ⟨ta, tb, aloneA, aloneB, -, -, both⟩ := composes_of_orderly orderly
  have forA := aloneA.imp fun _ _ => alone_iff.mp
  have forB := aloneB.imp fun _ _ => alone_iff.mp
  have lags : (a ++ b).IsChain fun r _ => r.body.lag = 0 :=
    ((List.isChain_map shape).mp orderly.lags).imp fun r _ => (lag_eq_zero_iff r).mpr
  refine ⟨ta, tb, aloneA, aloneB, both, ?_⟩
  intro m data held
  by_cases last : b = []
  · subst last
    obtain rfl := List.forall₂_nil_left_iff.mp forB
    rw [List.append_nil] at lags
    simp only [encodeEvpn, List.flatMap_nil, List.append_nil] at held ⊢
    rw [← encodeEvpn] at held ⊢
    rcases harmless with eight | ⟨-, short | ⟨short, straight⟩⟩
    · exact keeps_behind forA lags (by omega) held
    · exact keeps_behind forA lags short held
    · exact keeps_behind_straight forA (straight_of_shapes straight) short held
  · have some_b : b.map shape ≠ [] := by simpa using last
    rw [List.map_append] at orderly
    have straight := straight_of_shapes (straight_of_orderly orderly some_b)
    have eight : u.value.length = 8 := harmless.resolve_right fun behind => some_b behind.1
    exact keeps_between forA forB straight lags.right_of_append last eight held

/-! Marks: a type of the distinguisher that shows which header octets a turn has read. -/

def marks (ts : List EvpnTuple) : Nat := ts.countP fun t => t.rdType = 200

theorem marks_append (ts ts' : List EvpnTuple) : marks (ts ++ ts') = marks ts + marks ts' :=
  List.countP_append

section Marks

variable {m : Mem} {dataLen data read : Nat} {acc tuples : List EvpnTuple}

theorem parseRouteDistinguisher_rdType (tuple : VpnTuple) :
    (parseRouteDistinguisher m data tuple).rdType = u8 m (data + 1) := by
  unfold parseRouteDistinguisher
  split
  · rename_i is
    exact is.symm
  · rename_i is
    exact is.symm
  · rename_i is
    exact is.symm
  · rfl

theorem routeHead_rdType : (routeHead m data read).tuple.rdType = u8 m (data + 3) :=
  parseRouteDistinguisher_rdType _

theorem evpnTurn_rdType {after : EvpnCursor} (turn : evpnTurn m dataLen data read = some after) :
    after.tuple.rdType = u8 m (data + 3) := (evpnTurn_follows turn).rdType.trans routeHead_rdType

theorem marks_singleton {t : EvpnTuple} {i : Nat} (shown : t.rdType = u8 m i) :
    marks [t] = [m i].count 200 := by
  have same : u8 m i = 200 ↔ m i = 200 := UInt8.toNat_inj (b := 200)
  simp [marks, List.countP_cons, List.count_cons, shown, same]

/-- A turn shows a mark only if it is the fourth octet it reads, and no turn reads an octet
in front of the data pointer. -/
theorem marks_le (result : evpnLoop m dataLen data read acc = some tuples) :
    marks tuples ≤ marks acc + (readBytes m (data + 3) (dataLen - (read + 3))).count 200 := by
  fun_induction evpnLoop m dataLen data read acc with
  | case1 data read acc more stuck => cases result
  | case2 data read acc more after turn ih =>
    have rest := ih result
    rw [marks_append, marks_singleton (evpnTurn_rdType turn)] at rest
    have follows := evpnTurn_follows turn
    have ahead : data + 10 ≤ after.data := follows.data
    have behind : after.data + (read + 10) ≤ data + 10 + after.read := follows.behind
    have first : readBytes m (data + 3) (dataLen - (read + 3)) =
        [m (data + 3)] ++ readBytes m (data + 3 + 1) (dataLen - (read + 3) - 1) :=
      readBytes_split m (data + 3) (show 1 ≤ dataLen - (read + 3) by omega)
    have window : (readBytes m (after.data + 3) (dataLen - (after.read + 3))).count 200 ≤
        (readBytes m (data + 3 + 1) (dataLen - (read + 3) - 1)).count 200 := by
      by_cases left : after.read + 3 ≤ dataLen
      · exact count_readBytes_le m (by omega) (by omega) 200
      · rw [Nat.sub_eq_zero_of_le (by omega)]
        exact Nat.zero_le _
    rw [first, List.count_append]
    omega
  | case3 data read acc done =>
    cases result
    exact Nat.le_add_right _ _

end Marks

def markedRd : Vector UInt8 8 := #v[0, 200, 0, 0, 0, 0, 0, 0]

/-- The route of a shape with a mark and nothing else but zeros in it. -/
def markedRoute (s : EvpnShape) : EvpnRoute := { s.zero with rd := markedRd }

theorem map_shape_marked (ss : List EvpnShape) : (ss.map markedRoute).map shape = ss := by
  rw [List.map_map]
  exact (List.map_congr_left fun s _ => shape_zero s).trans (List.map_id ss)

theorem decoded_marked {s : EvpnShape} {t : EvpnTuple} (decoded : (markedRoute s).decoded = some t) :
    t.rdType = 200 := by
  obtain ⟨segment, -, rfl⟩ := Option.map_eq_some_iff.mp decoded
  rfl

theorem marks_marked {ss : List EvpnShape} {ts : List EvpnTuple}
    (decoded : List.Forall₂ (fun r t => r.decoded = some t) (ss.map markedRoute) ts) :
    marks ts = ss.length := by
  rw [List.forall₂_map_left_iff] at decoded
  induction decoded with
  | nil => rfl
  | cons first rest ih =>
    rw [marks, List.countP_cons, if_pos (decide_eq_true (decoded_marked first)), ← marks, ih]
    rfl

/-- The octets of a marked route: the mark is the fourth. -/
theorem encode_marked {s : EvpnShape} (known : s.Known) :
    ∃ type len rest, (markedRoute s).encode = type :: len :: 0 :: 200 :: 0 :: rest ∧
      type ≠ 200 ∧ len ≠ 200 ∧ 200 ∉ rest := by
  have small {segment : UInt8} (upTo : segment ≤ 5) : 200 ≠ segment := by
    rintro rfl
    exact absurd upTo (by decide)
  refine ⟨_, _, _, rfl, ?_⟩
  cases s with
  | autoDiscovery segment =>
    simp [markedRoute, markedRd, EvpnShape.zero, RouteBody.type, RouteBody.bytes, SegmentId.bytes,
      Label.bytes, Label.zero, small known]
  | macIp segment ip second =>
    cases ip <;> cases second <;>
      simp [markedRoute, markedRd, EvpnShape.zero, RouteBody.type, RouteBody.bytes, SegmentId.bytes,
        Label.bytes, Label.zero, zeroAddress, AddressKind.bits, put8, small known]
  | multicast origin =>
    cases origin <;>
      simp [markedRoute, markedRd, EvpnShape.zero, RouteBody.type, RouteBody.bytes, zeroAddress,
        AddressKind.bits, put8]
  | ethernetSegment segment origin =>
    cases origin <;>
      simp [markedRoute, markedRd, EvpnShape.zero, RouteBody.type, RouteBody.bytes, SegmentId.bytes,
        zeroAddress, AddressKind.bits, put8, small known]

theorem count_encode_marked {ss : List EvpnShape} (known : ∀ s ∈ ss, s.Known) :
    (encodeEvpn (ss.map markedRoute)).count 200 = ss.length := by
  induction ss with
  | nil => rfl
  | cons s ss ih =>
    obtain ⟨type, len, rest, octets, typeOther, lenOther, clean⟩ :=
      encode_marked (known s List.mem_cons_self)
    have one : (markedRoute s).encode.count 200 = 1 := by
      simp [octets, typeOther, lenOther, List.count_eq_zero.mpr clean]
    rw [encodeEvpn, List.map_cons, List.flatMap_cons, List.count_append, one, ← encodeEvpn,
      ih fun s here => known s (List.mem_cons_of_mem _ here), List.length_cons, Nat.add_comm]

/-- A loop that goes on behind the first octet of marked routes misses the first mark. -/
theorem marks_missed {m : Mem} {dataLen data read k : Nat} {acc tuples : List EvpnTuple}
    {s : EvpnShape} {ss : List EvpnShape} (known : ∀ x ∈ s :: ss, x.Known) (past : 1 ≤ k)
    (held : Holds m data (encodeEvpn ((s :: ss).map markedRoute)))
    (hlen : dataLen = read + (encodeEvpn ((s :: ss).map markedRoute)).length)
    (result : evpnLoop m dataLen (data + k) (read + k) acc = some tuples) :
    marks tuples ≤ marks acc + ss.length := by
  obtain ⟨type, len, rest, octets, -, -, -⟩ := encode_marked (known s List.mem_cons_self)
  have count := count_encode_marked known
  have shown := marks_le result
  generalize bytes : encodeEvpn ((s :: ss).map markedRoute) = bs at held hlen count
  obtain ⟨tail, split⟩ : ∃ tail, bs = [type, len, 0, 200] ++ tail := by
    rw [← bytes, encodeEvpn, List.map_cons, List.flatMap_cons, octets]
    exact ⟨_, rfl⟩
  have first : 1 ≤ [type, len, 0, 200].count 200 := List.count_pos_iff.mpr (by simp)
  subst split
  rw [holds_append] at held
  rw [List.count_append, List.length_cons] at count
  rw [List.length_append] at hlen
  have window : (readBytes m (data + k + 3) (dataLen - (read + k + 3))).count 200 ≤
      tail.count 200 := by
    rw [← held.2.read]
    by_cases left : read + k + 3 ≤ dataLen
    · exact count_readBytes_le m (by simp only [List.length_cons, List.length_nil]; omega)
        (by simp only [List.length_cons, List.length_nil] at *; omega) 200
    · rw [Nat.sub_eq_zero_of_le (by omega)]
      exact Nat.zero_le _
  omega

/-! Entries that are lost. -/

/-- The mark of the first route is the fourth octet, and the first three are no marks. -/
def StartsMarked (bytes : List UInt8) : Prop :=
  ∃ type len rest, bytes = type :: len :: 0 :: 200 :: 0 :: rest ∧ type ≠ 200 ∧ len ≠ 200

theorem startsMarked_encode {s : EvpnShape} (ss : List EvpnShape) (known : s.Known) :
    StartsMarked (encodeEvpn ((s :: ss).map markedRoute)) := by
  obtain ⟨type, len, rest, octets, typeOther, lenOther, -⟩ := encode_marked known
  rw [encodeEvpn, List.map_cons, List.flatMap_cons, octets]
  exact ⟨type, len, _, rfl, typeOther, lenOther⟩

/-- Some turns, none of which shows a mark, take the loop from one place to another. -/
def Goes (m : Mem) (dataLen data read data' read' : Nat) : Prop :=
  ∀ acc, ∃ own, marks own = 0 ∧
    evpnLoop m dataLen data read acc = evpnLoop m dataLen data' read' (acc ++ own)

section Goes

variable {m : Mem} {dataLen data read data' read' data'' read'' : Nat}

theorem Goes.turn {after : EvpnCursor} (more : read + 10 < dataLen)
    (turn : evpnTurn m dataLen data read = some after) (unmarked : [m (data + 3)].count 200 = 0) :
    Goes m dataLen data read after.data after.read :=
  fun _ => ⟨[after.tuple], (marks_singleton (evpnTurn_rdType turn)).trans unmarked,
    evpnLoop_turn more turn⟩

theorem Goes.unknown (more : read + 10 < dataLen) (unknown : u8 m data ∉ [1, 2, 3, 4])
    (unmarked : [m (data + 3)].count 200 = 0) : Goes m dataLen data read (data + 10) (read + 10) :=
  .turn more (evpnTurn_unknown unknown) unmarked

theorem Goes.trans (first : Goes m dataLen data read data' read')
    (second : Goes m dataLen data' read' data'' read'') : Goes m dataLen data read data'' read'' := by
  intro acc
  obtain ⟨own, none_shown, loop⟩ := first acc
  obtain ⟨own', none_shown', loop'⟩ := second (acc ++ own)
  exact ⟨own ++ own', by rw [marks_append, none_shown, none_shown'],
    by rw [loop, loop', List.append_assoc]⟩

end Goes

/-- Behind the unknown route the loop goes on past the first octet of what follows. -/
def Misses (u : UnknownEvpn) (following : List UInt8) : Prop :=
  ∃ k, 1 ≤ k ∧ ∀ (m : Mem) (dataLen data read : Nat), Holds m data (u.bytes ++ following) →
    dataLen = read + (u.bytes.length + following.length) →
      Goes m dataLen data read (data + u.bytes.length + k) (read + u.bytes.length + k)

/-- Where the loop stands at the unknown route, and what it still has to show. -/
theorem EvpnKeeps.loop {a b : List EvpnRoute} {u : UnknownEvpn} (keeps : EvpnKeeps a b u)
    (straight : ∀ r ∈ a, r.body.lag = 0) :
    ∃ (m : Mem) (p : Nat) (ta tb own : List EvpnTuple),
      List.Forall₂ (fun r t => r.decoded = some t) b tb ∧ Holds m p (u.bytes ++ encodeEvpn b) ∧
        evpnLoop m (p + (u.bytes.length + (encodeEvpn b).length)) p p ta =
          some (ta ++ (own ++ tb)) := by
  obtain ⟨ta, tb, forA, forB, -, kept⟩ := keeps
  obtain ⟨own, result⟩ := kept _ 0 (holds_memOf _)
  have held := holds_memOf (encodeEvpn a ++ (u.bytes ++ encodeEvpn b))
  generalize memOf (encodeEvpn a ++ (u.bytes ++ encodeEvpn b)) = m at held result
  rw [holds_append] at held
  rw [List.length_append, List.length_append, parseNlriData,
    evpnLoop_through a ta (forA.imp fun _ _ => alone_iff.mp) straight held.1 (by omega),
    List.nil_append, Nat.zero_add] at result
  rw [Nat.zero_add] at held
  exact ⟨m, _, ta, tb, own, forB.imp fun _ _ => alone_iff.mp, held.2, result⟩

theorem not_keeps_of_misses {a : List EvpnRoute} {s : EvpnShape} {ss : List EvpnShape}
    {u : UnknownEvpn} (straight : ∀ r ∈ a, r.body.lag = 0) (known : ∀ x ∈ s :: ss, x.Known)
    (misses : Misses u (encodeEvpn ((s :: ss).map markedRoute))) :
    ¬ EvpnKeeps a ((s :: ss).map markedRoute) u := by
  intro keeps
  obtain ⟨m, p, ta, tb, own, forB, held, result⟩ := keeps.loop straight
  obtain ⟨k, past, goes⟩ := misses
  obtain ⟨junk, unmarked, loop⟩ := goes m _ p p held rfl ta
  rw [loop] at result
  rw [holds_append] at held
  have shown := marks_missed known past held.2 (Nat.add_assoc _ _ _).symm result
  have total := marks_marked forB
  simp only [marks_append, unmarked, total, List.length_cons] at shown
  omega

section Overshoot

variable {u : UnknownEvpn} {m : Mem} {data : Nat} {following : List UInt8}

theorem unknown_at (held : Holds m data (u.bytes ++ following)) : u8 m data ∉ [1, 2, 3, 4] := by
  rw [UnknownEvpn.bytes, List.cons_append, holds_cons] at held
  rw [u8, held.1]
  exact u.unknown

theorem octet_behind {i : Nat} (held : Holds m data (u.bytes ++ following))
    (inside : i < (u.value ++ following).length) :
    m (data + (i + 2)) = (u.value ++ following).getD i 0 := by
  have octet := held.octet (i := i + 2) (by
    rw [List.length_append, u.length_bytes]
    rw [List.length_append] at inside
    omega)
  rwa [UnknownEvpn.bytes, List.cons_append, List.cons_append, List.getD_cons_succ,
    List.getD_cons_succ] at octet

/-- Up to the mark there is no other. -/
theorem unmarked_before {i : Nat} (starts : StartsMarked following) (clean : 200 ∉ u.value)
    (before : i < u.value.length + 3) (held : Holds m data (u.bytes ++ following)) :
    [m (data + (i + 2))].count 200 = 0 := by
  obtain ⟨type, len, rest, rfl, typeOther, lenOther⟩ := starts
  have inside : i < (u.value ++ type :: len :: 0 :: 200 :: 0 :: rest).length := by
    simp only [List.length_append, List.length_cons]
    omega
  rw [List.count_eq_zero, List.mem_singleton, octet_behind held inside]
  rcases Nat.lt_or_ge i u.value.length with within_ | behind
  · rw [List.getD_append _ _ _ _ within_, List.getD_eq_getElem _ _ within_]
    exact fun is => clean (is ▸ List.getElem_mem within_)
  · rw [List.getD_append_right _ _ _ _ behind]
    obtain at_ | at_ | at_ : i - u.value.length = 0 ∨ i - u.value.length = 1 ∨
      i - u.value.length = 2 := by omega
    · rw [at_]
      exact typeOther.symm
    · rw [at_]
      exact lenOther.symm
    · rw [at_]
      exact (by decide : (200 : UInt8) ≠ 0)

theorem goes_head {dataLen read : Nat} (starts : StartsMarked following) (clean : 200 ∉ u.value)
    (held : Holds m data (u.bytes ++ following)) (more : read + 10 < dataLen) :
    Goes m dataLen data read (data + 10) (read + 10) :=
  .unknown more (unknown_at held) (unmarked_before (i := 1) starts clean (by omega) held)

/-- Ten octets are taken for each header: neither one nor two of them end where the
unknown route does. -/
theorem misses_zeros {n : Nat} (zeros : u.value = List.replicate n 0) (short : n < 18)
    (other : n ≠ 8) (starts : StartsMarked following) (long : 10 < following.length) :
    Misses u following := by
  have size : u.value.length = n := by rw [zeros, List.length_replicate]
  have total := u.length_bytes
  have clean : 200 ∉ u.value := by
    rw [zeros]
    exact fun here => absurd (List.eq_of_mem_replicate here) (by decide)
  rcases Nat.lt_or_gt_of_ne other with below | above
  · refine ⟨8 - n, by omega, ?_⟩
    intro m dataLen data read held hlen
    have first := goes_head starts clean held (show read + 10 < dataLen by omega)
    convert first using 1 <;> omega
  · refine ⟨18 - n, by omega, ?_⟩
    intro m dataLen data read held hlen
    have zero : u8 m (data + 10) = 0 := by
      have octet := octet_behind (i := 8) held (by rw [List.length_append]; omega)
      rw [List.getD_append _ _ _ _ (by omega), zeros, List.getD_replicate _ above] at octet
      rw [u8, octet]
      rfl
    have first := goes_head starts clean held (show read + 10 < dataLen by omega)
    have second : Goes m dataLen (data + 10) (read + 10) (data + 10 + 10) (read + 10 + 10) :=
      .unknown (by omega) (by rw [zero]; decide)
        (unmarked_before (i := 11) starts clean (by omega) held)
    convert first.trans second using 1 <;> omega

/-- Two headers would end where a route of 18 octets does, but the second may be one of type
3, which takes in a tag and the length of an address of what follows. -/
theorem misses_multicast (value : u.value = List.replicate 8 0 ++ 3 :: List.replicate 9 0)
    (starts : StartsMarked following) (long : 10 < following.length) : Misses u following := by
  have size : u.value.length = 18 := by rw [value]; rfl
  have total := u.length_bytes
  have clean : 200 ∉ u.value := by rw [value]; decide
  refine ⟨5, by omega, ?_⟩
  intro m dataLen data read held hlen
  have type : u8 m (data + 10) = 3 := by
    have octet := octet_behind (i := 8) held (by rw [List.length_append]; omega)
    rw [value] at octet
    rw [u8, octet]
    rfl
  have origin : u8 m (data + 10 + 14) = 0 := by
    have octet := octet_behind (i := 22) held (by rw [List.length_append]; omega)
    obtain ⟨_, _, rest, rfl, -, -⟩ := starts
    rw [value] at octet
    rw [u8, Nat.add_assoc, octet]
    rfl
  obtain ⟨after, turn, there, count⟩ := evpnTurn_multicast type origin
    (show read + 10 + 15 ≤ dataLen by omega)
  have first := goes_head starts clean held (show read + 10 < dataLen by omega)
  have second := Goes.turn (by omega) turn (unmarked_before (i := 11) starts clean (by omega) held)
  convert first.trans second using 1 <;> omega

end Overshoot

/-! Values on which the parser does not come back. -/

def trapValue (n : Nat) : List UInt8 :=
  (List.range n).map fun i => if i = 8 then 4 else if i = 4 ∨ i = 18 then 6 else 0

theorem length_trapValue (n : Nat) : (trapValue n).length = n := by simp [trapValue]

theorem trapValue_getD {n i : Nat} (inside : i < n) :
    (trapValue n).getD i 0 = if i = 8 then 4 else if i = 4 ∨ i = 18 then 6 else 0 := by
  simp [trapValue, List.getD_eq_getElem?_getD, inside]

/-- Ten octets into the unknown route there is one of type 4, with a segment identifier the
parser does not know. -/
theorem not_keeps_of_trap {a b : List EvpnRoute} {u : UnknownEvpn} {n : Nat}
    (straight : ∀ r ∈ a, r.body.lag = 0) (value : u.value = trapValue n) (long : 19 ≤ n)
    (room : 29 ≤ n + (encodeEvpn b).length) : ¬ EvpnKeeps a b u := by
  intro keeps
  obtain ⟨m, p, ta, tb, own, -, held, result⟩ := keeps.loop straight
  have size : u.bytes.length = n + 2 := by rw [u.length_bytes, value, length_trapValue]
  have octet {i : Nat} (inside : i < n) : m (p + (i + 2)) = (trapValue n).getD i 0 := by
    rw [octet_behind held (by rw [List.length_append, value, length_trapValue]; omega), value,
      List.getD_append _ _ _ _ (by rw [length_trapValue]; exact inside)]
  have type : u8 m (p + 10) = 4 := by
    rw [u8, octet (show 8 < n by omega), trapValue_getD (by omega)]
    rfl
  have segment : u8 m (p + 10 + 10) = 6 := by
    rw [u8, Nat.add_assoc, octet (show 18 < n by omega), trapValue_getD (by omega)]
    rfl
  rw [evpnLoop_unknown (holds_append .. |>.mp held).1 (by omega),
    evpnLoop_stuck (by omega) (evpnTurn_stuck type segment (by omega))] at result
  cases result

def trapAddress (kind : AddressKind) : EvpnAddress where
  kind := kind
  bytes := (List.range (kind.bits / 8)).map fun i => if i = 0 then 4 else if i = 10 then 6 else 0
  bits_bytes := by cases kind <;> rfl

/-- A type 4 route whose address looks like another one of the kind. -/
def trapRoute (segment : UInt8) (origin : AddressKind) : EvpnRoute :=
  ⟨Vector.replicate 8 0, .ethernetSegment ⟨segment, Vector.replicate 9 0⟩ (trapAddress origin)⟩

/-- Behind a lagging route the data pointer is in front of its address, and of what
follows it. -/
theorem holds_at_lag {m : Mem} {data data' : Nat} {front : List EvpnRoute} {r : EvpnRoute}
    {following : List UInt8} (held : Holds m data (encodeEvpn (front ++ [r]) ++ following))
    (lags : r.body.lag ≠ 0) (size : r.body.lag = r.body.origin.bytes.length)
    (there : data' + r.body.lag = data + (encodeEvpn (front ++ [r])).length) :
    Holds m data' (r.body.origin.bytes ++ following) := by
  have behind := lag_le r
  have split : encodeEvpn (front ++ [r]) = encodeEvpn front ++ r.encode := by simp [encodeEvpn]
  rw [holds_append, ← there, split, holds_append] at held
  rw [split, List.length_append] at there
  have place : data + (encodeEvpn front).length + (r.encode.length - r.body.lag) = data' := by omega
  have address := (origin_of_holds r held.1.2 lags).1
  rw [place] at address
  rw [holds_append, ← size]
  exact ⟨address, held.2⟩

theorem trap_octets {m : Mem} {p n : Nat} {origin : AddressKind} {u : UnknownEvpn}
    (some_origin : origin ≠ .none) (value : u.value = trapValue n) (long : 4 < n)
    (held : Holds m p ((trapAddress origin).bytes ++ u.bytes)) :
    u8 m p = 4 ∧ u8 m (p + 10) = 6 := by
  have fifth : u.value.getD 4 0 = 6 := by
    rw [value]
    exact trapValue_getD long
  have size : u.bytes.length = n + 2 := by rw [u.length_bytes, value, length_trapValue]
  have enough : 10 < ((trapAddress origin).bytes ++ u.bytes).length := by
    rw [List.length_append, size]
    cases origin with
    | none => exact absurd rfl some_origin
    | v4 => exact (show 10 < 4 + (n + 2) by omega)
    | v6 => exact (show 10 < 16 + (n + 2) by omega)
  have first := held.octet (i := 0) (by omega)
  have eleventh := held.octet enough
  rw [Nat.add_zero] at first
  rw [u8, u8, first, eleventh]
  cases origin with
  | none => exact absurd rfl some_origin
  | v4 => exact ⟨rfl, congrArg UInt8.toNat fifth⟩
  | v6 => exact ⟨rfl, rfl⟩

theorem not_keeps_of_lag {front : List EvpnRoute} {segment : UInt8} {origin : AddressKind}
    {u : UnknownEvpn} {n : Nat} (straight : ∀ r ∈ front, r.body.lag = 0)
    (some_origin : origin ≠ .none) (value : u.value = trapValue n) (long : 19 ≤ n) :
    ¬ EvpnKeeps (front ++ [trapRoute segment origin]) [] u := by
  rintro ⟨ta, tb, forA, -, -, kept⟩
  have size : u.bytes.length = n + 2 := by rw [u.length_bytes, value, length_trapValue]
  have some_lag : (trapRoute segment origin).body.lag ≠ 0 :=
    fun none_lag => (lag_eq_zero_iff _).mp none_lag some_origin
  have lags : (front ++ [trapRoute segment origin]).IsChain fun r _ => r.body.lag = 0 := by
    refine List.isChain_append.mpr ⟨?_, .singleton _, ?_⟩
    · exact (List.pairwise_of_forall_mem_list fun r here _ _ => straight r here).isChain
    · exact fun r here _ _ => straight r (List.mem_of_mem_getLast? here)
  generalize whole : encodeEvpn (front ++ [trapRoute segment origin]) ++
    (u.bytes ++ encodeEvpn []) = bytes at kept
  obtain ⟨own, result⟩ := kept _ 0 (holds_memOf _)
  have held := holds_memOf bytes
  generalize memOf bytes = m at held result
  rw [← whole, show encodeEvpn [] = [] from rfl, List.append_nil] at held result
  rw [List.length_append, parseNlriData] at result
  obtain ⟨data', there, loop⟩ := evpnLoop_over _ ta
    (forA.imp fun _ _ => alone_iff.mp) lags (holds_append .. |>.mp held).1
    (show 0 + (encodeEvpn (front ++ [trapRoute segment origin])).length ≤
      (encodeEvpn (front ++ [trapRoute segment origin])).length + u.bytes.length by omega)
  rw [lastLag_concat] at there
  obtain ⟨type, unknownSegment⟩ := trap_octets some_origin value (by omega)
    (holds_at_lag held some_lag rfl there)
  rw [loop, evpnLoop_stuck (by omega) (evpnTurn_stuck type unknownSegment (by omega))] at result
  cases result

/-! The lengths. -/

section Lengths

variable {type : UInt8} {n : Nat}

/-- Whatever the routes of these shapes and an unknown route of this type and length contain,
the entries stay. -/
def AlwaysKeeps (sa sb : List EvpnShape) (type : UInt8) (n : Nat) : Prop :=
  ∀ (a b : List EvpnRoute) (u : UnknownEvpn), a.map shape = sa → b.map shape = sb →
    u.type = type → u.value.length = n → EvpnKeeps a b u

theorem AlwaysKeeps.trapped {sa sb : List EvpnShape} (keeps : AlwaysKeeps sa sb type n)
    (unknown : type.toNat ∉ [1, 2, 3, 4]) (fits : n < 256) {a b : List EvpnRoute}
    (forA : a.map shape = sa) (forB : b.map shape = sb) :
    ∃ u : UnknownEvpn, u.value = trapValue n ∧ EvpnKeeps a b u :=
  ⟨⟨type, unknown, trapValue n, (length_trapValue n).symm ▸ fits⟩, rfl,
    keeps a b _ forA forB rfl (length_trapValue n)⟩

theorem straight_of_keeps_last {sa : List EvpnShape} (unknown : type.toNat ∉ [1, 2, 3, 4])
    (fits : n < 256) (orderly : Orderly sa) (keeps : AlwaysKeeps sa [] type n) (long : 19 ≤ n) :
    ∀ s ∈ sa, ¬ s.Lags := by
  rcases List.eq_nil_or_concat sa with rfl | ⟨front, s, rfl⟩
  · exact List.forall_mem_nil _
  rw [List.concat_eq_append] at *
  have before := straight_of_orderly orderly (List.cons_ne_nil s [])
  refine List.forall_mem_append.mpr ⟨before, List.forall_mem_singleton.mpr ?_⟩
  intro lags
  cases s with
  | autoDiscovery segment => exact lags
  | macIp segment ip second => exact lags
  | multicast origin => exact lags
  | ethernetSegment segment origin =>
    have shapes : (front.map EvpnShape.zero ++ [trapRoute segment origin]).map shape =
        front ++ [.ethernetSegment segment origin] := by
      rw [List.map_append, map_shape_zero]
      rfl
    obtain ⟨u, value, kept⟩ := keeps.trapped unknown fits shapes List.map_nil
    have straightFront := straight_of_shapes ((map_shape_zero front).symm ▸ before)
    exact not_keeps_of_lag straightFront lags value long kept

theorem length_of_keeps_last {sa : List EvpnShape} (unknown : type.toNat ∉ [1, 2, 3, 4])
    (fits : n < 256) (orderly : Orderly sa) (keeps : AlwaysKeeps sa [] type n) :
    n ≤ 18 ∨ n ≤ 28 ∧ ∀ s ∈ sa, ¬ s.Lags := by
  rcases Nat.lt_or_ge n 19 with short | long
  · exact Or.inl (by omega)
  · have straight := straight_of_keeps_last unknown fits orderly keeps long
    refine Or.inr ⟨?_, straight⟩
    by_contra longer
    have zeros := map_shape_zero sa
    obtain ⟨u, value, kept⟩ := keeps.trapped unknown fits zeros List.map_nil
    exact not_keeps_of_trap (straight_of_shapes (by rwa [zeros])) value long (by omega) kept

theorem length_of_keeps_followed {sa ss : List EvpnShape} {s : EvpnShape}
    (unknown : type.toNat ∉ [1, 2, 3, 4]) (fits : n < 256) (orderly : Orderly (sa ++ s :: ss))
    (keeps : AlwaysKeeps sa (s :: ss) type n) : n = 8 := by
  by_contra other
  have zeros := map_shape_zero sa
  have marked := map_shape_marked (s :: ss)
  have straight : ∀ r ∈ sa.map EvpnShape.zero, r.body.lag = 0 :=
    straight_of_shapes (zeros.symm ▸ straight_of_orderly orderly (List.cons_ne_nil s ss))
  have known : ∀ x ∈ s :: ss, x.Known :=
    fun x here => orderly.known x (List.mem_append_right sa here)
  have starts := startsMarked_encode ss (known s List.mem_cons_self)
  have long : 10 < (encodeEvpn ((s :: ss).map markedRoute)).length := by
    have := length_encode_gt (markedRoute s)
    rw [encodeEvpn, List.map_cons, List.flatMap_cons, List.length_append]
    omega
  rcases Nat.lt_trichotomy n 18 with below | rfl | above
  · exact not_keeps_of_misses straight known (misses_zeros rfl below other starts long)
      (keeps _ _ ⟨type, unknown, List.replicate n 0, by rwa [List.length_replicate]⟩ zeros marked
        rfl (List.length_replicate ..))
  · exact not_keeps_of_misses straight known (misses_multicast rfl starts long)
      (keeps _ _ ⟨type, unknown, List.replicate 8 0 ++ 3 :: List.replicate 9 0, by decide⟩ zeros
        marked rfl rfl)
  · obtain ⟨u, value, kept⟩ := keeps.trapped unknown fits zeros marked
    exact not_keeps_of_trap straight value above (by omega) kept

theorem alwaysKeeps_iff (sa sb : List EvpnShape) (unknown : type.toNat ∉ [1, 2, 3, 4])
    (fits : n < 256) :
    AlwaysKeeps sa sb type n ↔ Orderly (sa ++ sb) ∧ Harmless sa sb n := by
  constructor
  · intro keeps
    have orderly : Orderly (sa ++ sb) := by
      obtain ⟨ta, tb, forA, forB, reads, -⟩ :=
        keeps _ _ ⟨type, unknown, List.replicate n 0, by rwa [List.length_replicate]⟩
          (map_shape_zero sa) (map_shape_zero sb) rfl (List.length_replicate ..)
      have alone : List.Forall₂ Alone ((sa ++ sb).map EvpnShape.zero) (ta ++ tb) := by
        rw [List.map_append]
        exact List.rel_append forA forB
      rw [← List.map_append] at reads
      exact orderly_of_reads alone reads
    refine ⟨orderly, ?_⟩
    cases sb with
    | nil =>
      rw [List.append_nil] at orderly
      exact Or.inr ⟨rfl, length_of_keeps_last unknown fits orderly keeps⟩
    | cons s ss => exact Or.inl (length_of_keeps_followed unknown fits orderly keeps)
  · rintro ⟨orderly, harmless⟩ a b u rfl rfl rfl rfl
    rw [← List.map_append] at orderly
    exact keeps_of_harmless orderly harmless

end Lengths

end SonicBmp.Bgp.EvpnUnknown
