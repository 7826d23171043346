/- module: SonicBmp/Bgp/Evpn
   digest: The EVPN NLRI parser with its separate byte count and data pointer. -/

import SonicBmp.Library.Turns
import SonicBmp.Bgp.ExtCommunity

set_option autoImplicit false
set_option relaxedAutoImplicit false

namespace SonicBmp.Bgp.Evpn

open SonicBmp.Library.Memory
open SonicBmp.Library.Turns
open SonicBmp.Library.Printing (Text decimal)
open SonicBmp.Bgp.Common
open SonicBmp.Bgp.Nlri
open SonicBmp.Bgp.ExtCommunity (parseMac)
open SonicBmp.Bus.Kafka (hexByte)

/-! Fields. -/

/-- A 32-bit pattern in an `int`. -/
def asInt (word : Nat) : Int := if word < 2 ^ 31 then word else (word : Int) - 2 ^ 32

/-- An `int` in a string stream. -/
def intText (n : Int) : Text := if n < 0 then '-' :: decimal n.natAbs else decimal n.natAbs

/-- Three octets copied into a zeroed `int`, byte-swapped and shifted right by eight: the
shift keeps the sign. -/
def mplsLabel (m : Mem) (data : Nat) : Int := asInt (labelWord m data) / 256

def ethernetTagIdHex (m : Mem) (data : Nat) : Text := (readBytes m data 4).flatMap hexByte

/-- The part of the segment identifier after its type; the two numbers of types 4 and 5
are printed through `int`. -/
def segmentValue (m : Mem) (type data : Nat) : Option Text :=
  match type with
  | 0 => some ((readBytes m data 9).flatMap hexByte)
  | 1 => some (parseMac m data ++ ' ' :: decimal (u16 m (data + 6)))
  | 2 => some (parseMac m data ++ ' ' :: decimal (u16 m (data + 6)))
  -- the fourth octet of the discriminator is not initialised, and is shifted out
  | 3 => some (parseMac m data ++ ' ' :: decimal (labelWord m (data + 6) / 256))
  | 4 => some (intText (asInt (u32 m data)) ++ ' ' :: intText (asInt (u32 m (data + 4))))
  | 5 => some (intText (asInt (u32 m data)) ++ ' ' :: intText (asInt (u32 m (data + 4))))
  | _ => none

/-- `EVPN::parseEthernetSegmentIdentifier`. The warning about any other type is formatted
with `%s` but given only the type, so that the call does not come back: `none`. -/
def parseEthernetSegmentIdentifier (m : Mem) (data : Nat) : Option Text :=
  (segmentValue m (u8 m data) (data + 1)).map fun value => decimal (u8 m data) ++ ' ' :: value

/-! One turn of the loop. -/

/-- The tuple declared at the head of each turn. -/
def freshTuple : EvpnTuple where
  rdAdministratorSubfield := []
  rdAssignedNumber := []
  rdType := 0
  ethernetSegmentIdentifier := []
  ethernetTagIdHex := []
  macLen := 0
  mac := []
  ipLen := 0
  ip := []
  mplsLabel1 := 0
  mplsLabel2 := 0
  originatingRouterIpLen := 0
  originatingRouterIp := []
  pathId := 0

/-- `parseRouteDistinguisher` on the three fields of an `evpn_tuple`. -/
def withRouteDistinguisher (m : Mem) (data : Nat) (tuple : EvpnTuple) : EvpnTuple :=
  let rd := parseRouteDistinguisher m data
    ⟨⟨.unicastV4, 0, [], [], 0, true, []⟩, tuple.rdAdministratorSubfield,
      tuple.rdAssignedNumber, tuple.rdType⟩
  { tuple with
    rdType := rd.rdType
    rdAssignedNumber := rd.rdAssignedNumber
    rdAdministratorSubfield := rd.rdAdministratorSubfield }

/-- `tuple`, `data_pointer`, `data_read` and `len` in the course of a turn. -/
structure EvpnCursor where
  tuple : EvpnTuple
  data : Nat
  read : Nat
  len : Int

def EvpnCursor.step (c : EvpnCursor) (n : Nat) (tuple : EvpnTuple) : EvpnCursor :=
  ⟨tuple, c.data + n, c.read + n, c.len - n⟩

def routeHead (m : Mem) (data read : Nat) : EvpnCursor :=
  ⟨withRouteDistinguisher m (data + 2) freshTuple, data + 10, read + 10, (u8 m (data + 1) : Int) - 8⟩

/-- An address of `ipLen` bits, if the bytes are there. The type 4 route counts its bytes
but leaves the data pointer where it is. -/
def readAddress (moves : Bool) (ipLen : Nat) (store : Text → EvpnTuple) (m : Mem) (dataLen : Nat)
    (c : EvpnCursor) : EvpnCursor :=
  let n := min (ipLen / 8) 16
  if 0 < ipLen ∧ n + c.read ≤ dataLen then
    ⟨store (inetNtop (ipLen ≤ 32) (copyRaw 16 m c.data n)),
      if moves then c.data + n else c.data, c.read + n, c.len - n⟩
  else c

def ethernetAutoDiscovery (m : Mem) (dataLen : Nat) (c : EvpnCursor) : Option EvpnCursor :=
  if c.read + 17 ≤ dataLen then
    (parseEthernetSegmentIdentifier m c.data).map fun segment =>
      c.step 17 { c.tuple with
        ethernetSegmentIdentifier := segment
        ethernetTagIdHex := ethernetTagIdHex m (c.data + 10)
        mplsLabel1 := mplsLabel m (c.data + 14) }
  else some c

def macIpLabel1 (m : Mem) (dataLen : Nat) (c : EvpnCursor) : EvpnCursor :=
  if c.read + 3 ≤ dataLen then c.step 3 { c.tuple with mplsLabel1 := mplsLabel m c.data } else c

/-- The second label is read whenever three octets of the route are left, whether or not
the field goes on so far. -/
def macIpLabel2 (m : Mem) (c : EvpnCursor) : EvpnCursor :=
  if c.len = 3 then c.step 3 { c.tuple with mplsLabel2 := mplsLabel m c.data } else c

def macIpAdvertisment (m : Mem) (dataLen : Nat) (c : EvpnCursor) : Option EvpnCursor :=
  if c.read + 25 ≤ dataLen then
    (parseEthernetSegmentIdentifier m c.data).map fun segment =>
      let tuple := { c.tuple with
        ethernetSegmentIdentifier := segment
        ethernetTagIdHex := ethernetTagIdHex m (c.data + 10)
        macLen := u8 m (c.data + 14)
        mac := parseMac m (c.data + 15)
        ipLen := u8 m (c.data + 21) }
      macIpLabel2 m (macIpLabel1 m dataLen
        (readAddress true tuple.ipLen (fun ip => { tuple with ip := ip }) m dataLen
          (c.step 22 tuple)))
  else some c

def inclusiveMulticastEthernetTag (m : Mem) (dataLen : Nat) (c : EvpnCursor) : EvpnCursor :=
  if c.read + 5 ≤ dataLen then
    let tuple := { c.tuple with
      ethernetTagIdHex := ethernetTagIdHex m c.data
      originatingRouterIpLen := u8 m (c.data + 4) }
    readAddress true tuple.originatingRouterIpLen
      (fun ip => { tuple with originatingRouterIp := ip }) m dataLen (c.step 5 tuple)
  else c

def ethernetSegmentRoute (m : Mem) (dataLen : Nat) (c : EvpnCursor) : Option EvpnCursor :=
  if c.read + 11 ≤ dataLen then
    (parseEthernetSegmentIdentifier m c.data).map fun segment =>
      let tuple := { c.tuple with
        ethernetSegmentIdentifier := segment
        originatingRouterIpLen := u8 m (c.data + 10) }
      readAddress false tuple.originatingRouterIpLen
        (fun ip => { tuple with originatingRouterIp := ip }) m dataLen (c.step 11 tuple)
  else some c

/-- The `switch` over the route type. A route of any other type is not skipped: only its
header has been read. -/
def routeBody (m : Mem) (dataLen routeType : Nat) (c : EvpnCursor) : Option EvpnCursor :=
  match routeType with
  | 1 => ethernetAutoDiscovery m dataLen c
  | 2 => macIpAdvertisment m dataLen c
  | 3 => some (inclusiveMulticastEthernetTag m dataLen c)
  | 4 => ethernetSegmentRoute m dataLen c
  | _ => some c

def evpnTurn (m : Mem) (dataLen data read : Nat) : Option EvpnCursor :=
  routeBody m dataLen (u8 m data) (routeHead m data read)

/-- How the cursor moves in a turn: the data pointer does not go back, it does not go on by
more than is counted, and the type of the distinguisher stays. -/
structure EvpnCursor.Follows (after c : EvpnCursor) : Prop where
  data : c.data ≤ after.data
  behind : after.data + c.read ≤ c.data + after.read
  rdType : after.tuple.rdType = c.tuple.rdType

section Progress

variable {m : Mem} {dataLen : Nat} {c after : EvpnCursor}

theorem EvpnCursor.Follows.refl (c : EvpnCursor) : c.Follows c := ⟨le_rfl, le_rfl, rfl⟩

theorem EvpnCursor.Follows.trans {next : EvpnCursor} (second : next.Follows after)
    (first : after.Follows c) : next.Follows c := by
  have := first.behind
  have := second.behind
  exact ⟨first.data.trans second.data, by omega, second.rdType.trans first.rdType⟩

theorem EvpnCursor.Follows.read (follows : after.Follows c) : c.read ≤ after.read := by
  have := follows.data
  have := follows.behind
  omega

theorem step_follows (n : Nat) {tuple : EvpnTuple} (rd : tuple.rdType = c.tuple.rdType) :
    (c.step n tuple).Follows c :=
  ⟨Nat.le_add_right _ _, by simp only [EvpnCursor.step]; omega, rd⟩

theorem readAddress_follows (moves : Bool) (ipLen : Nat) {store : Text → EvpnTuple}
    (rd : ∀ ip, (store ip).rdType = c.tuple.rdType) :
    (readAddress moves ipLen store m dataLen c).Follows c := by
  rw [readAddress]
  split
  · cases moves with
    | false => exact ⟨le_rfl, by simp only [Bool.false_eq_true, if_false]; omega, rd _⟩
    | true => exact ⟨Nat.le_add_right _ _, by simp only [if_true]; omega, rd _⟩
  · exact .refl c

theorem macIpLabel1_follows : (macIpLabel1 m dataLen c).Follows c := by
  rw [macIpLabel1]
  split
  · exact step_follows 3 rfl
  · exact .refl c

theorem macIpLabel2_follows : (macIpLabel2 m c).Follows c := by
  rw [macIpLabel2]
  split
  · exact step_follows 3 rfl
  · exact .refl c

/-- The route types with a segment identifier go on only behind it. -/
theorem follows_of_segment {room : Prop} [Decidable room] {body : Text → EvpnCursor}
    (follows : ∀ segment, (body segment).Follows c)
    (turn : (if room then (parseEthernetSegmentIdentifier m c.data).map body else some c) =
      some after) :
    after.Follows c := by
  split at turn
  · obtain ⟨segment, -, rfl⟩ := Option.map_eq_some_iff.mp turn
    exact follows segment
  · cases turn
    exact .refl c

theorem routeBody_follows {routeType : Nat} (turn : routeBody m dataLen routeType c = some after) :
    after.Follows c := by
  unfold routeBody at turn
  split at turn
  · refine follows_of_segment (fun segment => ?_) turn
    exact step_follows 17 rfl
  · refine follows_of_segment (fun segment => ?_) turn
    refine macIpLabel2_follows.trans (macIpLabel1_follows.trans ?_)
    refine (readAddress_follows _ _ ?_).trans (step_follows 22 ?_)
    · intro ip
      rfl
    · rfl
  · cases turn
    unfold inclusiveMulticastEthernetTag
    split
    · refine (readAddress_follows _ _ ?_).trans (step_follows 5 ?_)
      · intro ip
        rfl
      · rfl
    · exact .refl c
  · refine follows_of_segment (fun segment => ?_) turn
    refine (readAddress_follows _ _ ?_).trans (step_follows 11 ?_)
    · intro ip
      rfl
    · rfl
  · cases turn
    exact .refl c

theorem evpnTurn_follows {data read : Nat} (turn : evpnTurn m dataLen data read = some after) :
    after.Follows (routeHead m data read) := routeBody_follows turn

/-- Every turn counts at least the ten octets of a route header. -/
theorem evpnTurn_read {data read : Nat} (turn : evpnTurn m dataLen data read = some after) :
    read + 10 ≤ after.read := (evpnTurn_follows turn).read

end Progress

/-! The loop. -/

def evpnLoop (m : Mem) (dataLen data read : Nat) (tuples : List EvpnTuple) :
    Option (List EvpnTuple) :=
  if read + 10 < dataLen then
    match _ : evpnTurn m dataLen data read with
    | none => none
    | some after => evpnLoop m dataLen after.data after.read (tuples ++ [after.tuple])
  else some tuples
termination_by dataLen - read
decreasing_by
  have := evpnTurn_read ‹_›
  omega

/-- `EVPN::parseNlriData`: the tuples it appends to the announced or withdrawn list, or
`none` if it does not come back. -/
def parseNlriData (m : Mem) (data dataLen : Nat) : Option (List EvpnTuple) :=
  evpnLoop m dataLen data 0 []

section Loop

variable {m : Mem} {dataLen data read : Nat} {tuples : List EvpnTuple}

theorem evpnLoop_done (done : ¬ read + 10 < dataLen) :
    evpnLoop m dataLen data read tuples = some tuples := by
  rw [evpnLoop, if_neg done]

theorem evpnLoop_stuck (more : read + 10 < dataLen) (stuck : evpnTurn m dataLen data read = none) :
    evpnLoop m dataLen data read tuples = none := by
  rw [evpnLoop, if_pos more]
  split
  · rfl
  · rename_i after turn
    rw [stuck] at turn
    cases turn

theorem evpnLoop_turn {after : EvpnCursor} (more : read + 10 < dataLen)
    (turn : evpnTurn m dataLen data read = some after) :
    evpnLoop m dataLen data read tuples =
      evpnLoop m dataLen after.data after.read (tuples ++ [after.tuple]) := by
  rw [evpnLoop, if_pos more]
  split
  · rename_i stuck
    rw [turn] at stuck
    cases stuck
  · rename_i after' turn'
    rw [turn] at turn'
    cases turn'
    rfl

variable (m dataLen)

/-- The loop over its data pointer and its count. -/
def evpnWalk : CountingLoop (Nat × Nat) where
  bound := dataLen - 10
  count at_ := at_.2
  next at_ := (evpnTurn m dataLen at_.1 at_.2).map fun after => (after.data, after.read)
  advances := by
    intro here next _ goes
    obtain ⟨after, turn, rfl⟩ := Option.map_eq_some_iff.mp goes
    have := evpnTurn_read turn
    dsimp only
    omega

end Loop

end SonicBmp.Bgp.Evpn
