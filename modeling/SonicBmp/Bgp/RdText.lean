/- module: SonicBmp/Bgp/RdText
   digest: The text of a route distinguisher in L3VPN and EVPN records against its registered form. -/

import SonicBmp.Bgp.LabelLists
import SonicBmp.Bgp.EvpnLists
import SonicBmp.Bgp.KafkaDb
import SonicBmp.Bus.KafkaText

set_option autoImplicit false
set_option relaxedAutoImplicit false

namespace SonicBmp.Bgp.RdText

open SonicBmp.Library.Memory
open SonicBmp.Library.Printing (Text decimal)
open SonicBmp.Bgp.Common
open SonicBmp.Bgp.Nlri
open SonicBmp.Bgp.LabelCodec
open SonicBmp.Bgp.LabelLists
open SonicBmp.Bgp.Evpn
open SonicBmp.Bgp.EvpnCodec
open SonicBmp.Bgp.EvpnLists (Alone alone_iff)
open SonicBmp.Bgp.KafkaDb (vpnEntry)
open SonicBmp.Bus.Kafka
open SonicBmp.Bus.KafkaText (evpnColumns)

/-- The administrator of RFC 4364: a number, or an address in type 1. -/
def administrator : RouteDistinguisher → Text
  | .asn2 asn _ => decimal asn.toNat
  | .ipv4 ip _ => inetNtop4 (put32 ip.toNat)
  | .asn4 asn _ => decimal asn.toNat

def rfcText (rd : RouteDistinguisher) : Text := administrator rd ++ ':' :: rd.assignedText

/-- The three fields of a tuple once a distinguisher has been read into it. -/
structure Parsed (rd : RouteDistinguisher) (t : VpnTuple) : Prop where
  type : t.rdType = rd.type
  administrator : t.rdAdministratorSubfield = administrator rd
  assigned : t.rdAssignedNumber = rd.assignedText

/-- Both record types show the distinguisher in its registered form. -/
structure InForm (rd : RouteDistinguisher) : Prop where
  parsed : ∀ (m : Mem) (data : Nat) (tuple : VpnTuple), Holds m data rd.bytes →
    Parsed rd (parseRouteDistinguisher m data tuple)
  vpn : ∀ (isIPv4 : Bool) (es : List (LabelRoute isIPv4 true)) (stack : VpnTuple)
    (info : PeerInfo) (m : Mem) (data : Nat),
    Holds m data (encodeLabelRoutes (addPathLabel info isIPv4 true) es) →
    List.Forall₂ (fun e t => e.rd = some rd → ∀ (md5 : Md5) (ctx : RowContext) (seq : Nat),
        ∃ columns, (vpnRow md5 ctx seq (vpnEntry t)).text = tsvRow columns ∧
          columns[31]? = some (rfcText rd))
      es (parseNlriDataLabelIPv4IPv6 isIPv4 true stack info m data
        (encodeLabelRoutes (addPathLabel info isIPv4 true) es).length)
  evpn : ∀ (r : EvpnRoute) (t : EvpnTuple), r.rd.toList = rd.bytes → Alone r t →
    ∀ (md5 : Md5) (ctx : RowContext) (seq : Nat),
      (evpnColumns md5 ctx seq t)[27]? = some (rfcText rd)

/-! The columns of the distinguisher. -/

theorem vpnRow_column (md5 : Md5) (ctx : RowContext) (seq : Nat) (vpn : ObjVpn) :
    ∃ columns, (vpnRow md5 ctx seq vpn).text = tsvRow columns ∧
      columns[31]? = some (vpn.rdAdministratorSubfield ++ ':' :: vpn.rdAssignedNumber) := by
  refine ⟨_, rfl, ?_⟩
  cases ctx.printed.map KafkaAttr.attr with
  | none => rfl
  | some attr => rfl

theorem evpnColumns_column (md5 : Md5) (ctx : RowContext) (seq : Nat) (evpn : EvpnTuple) :
    (evpnColumns md5 ctx seq evpn)[27]? =
      some (evpn.rdAdministratorSubfield ++ ':' :: evpn.rdAssignedNumber) := by
  unfold evpnColumns
  cases ctx.printed.map KafkaAttr.attr with
  | none => rfl
  | some attr => rfl

/-- The stream keeps the assigned number in front of the administrator of types 0 and 2. -/
theorem administratorText_eq_iff (rd : RouteDistinguisher) :
    rd.administratorText = administrator rd ↔ rd.type = 1 := by
  cases rd with
  | asn2 asn assigned =>
    simp [RouteDistinguisher.administratorText, administrator, RouteDistinguisher.type,
      decimal_ne_nil]
  | ipv4 ip assigned => exact ⟨fun _ => rfl, fun _ => rfl⟩
  | asn4 asn assigned =>
    simp [RouteDistinguisher.administratorText, administrator, RouteDistinguisher.type,
      decimal_ne_nil]

theorem type_of_inForm {rd : RouteDistinguisher} (form : InForm rd) : rd.type = 1 := by
  have parsed := form.parsed (memOf rd.bytes) 0 Decoders.silent.stackTuple (holds_memOf _)
  rw [parseRouteDistinguisher_of_holds rd _ (holds_memOf _)] at parsed
  exact (administratorText_eq_iff rd).mp parsed.administrator

/-- A distinguisher is parsed and published in its registered form exactly if it is of
type 1. -/
theorem rd_inForm_iff (rd : RouteDistinguisher) : InForm rd ↔ rd.type = 1 := by
  constructor
  · exact type_of_inForm
  · intro type
    have same := (administratorText_eq_iff rd).mpr type
    have parsed (m : Mem) (data : Nat) (tuple : VpnTuple) (held : Holds m data rd.bytes) :
        Parsed rd (parseRouteDistinguisher m data tuple) := by
      rw [parseRouteDistinguisher_of_holds rd tuple held]
      exact ⟨rfl, same, rfl⟩
    refine ⟨parsed, ?_, ?_⟩
    · intro isIPv4 es stack info m data held
      rw [parseNlriDataLabelIPv4IPv6_of_holds stack info m data es held]
      refine (forall₂_writeAll _ es _).imp fun e t shows found md5 ctx seq => ?_
      obtain ⟨-, assigned, admin⟩ := shows.rd rd found stack
      have here := parsed _ 0 stack (holds_memOf rd.bytes)
      have column := vpnRow_column md5 ctx seq (vpnEntry t)
      rwa [show (vpnEntry t).rdAdministratorSubfield = administrator rd from
          admin.trans here.administrator,
        show (vpnEntry t).rdAssignedNumber = rd.assignedText from
          assigned.trans here.assigned] at column
    · intro r t bytes alone md5 ctx seq
      obtain ⟨segment, -, rfl⟩ := Option.map_eq_some_iff.mp (alone_iff.mp alone)
      have here := parsed (memOf r.rd.toList) 0
        ⟨⟨.unicastV4, 0, [], [], 0, true, []⟩, [], [], 0⟩ (bytes ▸ holds_memOf _)
      rw [evpnColumns_column]
      show some ((headTuple r.rd).rdAdministratorSubfield ++ ':' ::
        (headTuple r.rd).rdAssignedNumber) = _
      rw [show (headTuple r.rd).rdAdministratorSubfield = administrator rd from here.administrator,
        show (headTuple r.rd).rdAssignedNumber = rd.assignedText from here.assigned, rfcText]

/-- 65000:100 comes out as 10065000:100. -/
theorem asn2_not_inForm : ¬ InForm (.asn2 65000 100) :=
  fun form => absurd (type_of_inForm form) (by decide)

end SonicBmp.Bgp.RdText
