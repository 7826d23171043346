/- module: SonicBmp/Bgp/HashFields
   digest: The fields a hash stands for, and the records whose hashed bytes do not tell them apart. -/

import SonicBmp.Library.Concat
import SonicBmp.Bgp.RouteHash

set_option autoImplicit false
set_option relaxedAutoImplicit false

namespace SonicBmp.Bgp.HashFields

open SonicBmp.Library.Memory
open SonicBmp.Library.Printing (Text)
open SonicBmp.Library.Concat
open SonicBmp.Bgp.Common
open SonicBmp.Bgp.Update
open SonicBmp.Bgp.UpdateDb
open SonicBmp.Bgp.KafkaDb
open SonicBmp.Bgp.RouteHash
open SonicBmp.Bus.Interface
open SonicBmp.Bus.Kafka

/-! Base attributes. -/

/-- Agreement on the documented fields; texts are compared as the bytes they are held in. -/
def SameAttrFields (a b : ObjPathAttr) : Prop :=
  textBytes a.asPath = textBytes b.asPath ∧ textBytes a.nextHop = textBytes b.nextHop ∧
    textBytes a.aggregator = textBytes b.aggregator ∧ textBytes a.origin = textBytes b.origin ∧
    a.med = b.med ∧ a.localPref = b.localPref ∧
    textBytes a.communityList = textBytes b.communityList ∧
    textBytes a.extCommunityList = textBytes b.extCommunityList

instance (a b : ObjPathAttr) : Decidable (SameAttrFields a b) :=
  inferInstanceAs (Decidable (_ ∧ _))

def attrSegments (pHashStr : Text) (attr : ObjPathAttr) : List (List UInt8) :=
  [textBytes attr.asPath, textBytes attr.nextHop, textBytes attr.aggregator,
    textBytes attr.origin, wordBytes attr.med.toNat, wordBytes attr.localPref.toNat,
    textBytes attr.communityList, textBytes attr.extCommunityList, textBytes pHashStr]

theorem attrHashInput_eq_flatten (pHashStr : Text) (attr : ObjPathAttr) :
    attrHashInput pHashStr attr = (attrSegments pHashStr attr).flatten := by
  simp [attrHashInput, attrSegments]

theorem wordBytes_injective {n n' : UInt32} (same : wordBytes n.toNat = wordBytes n'.toNat) :
    n = n' := by
  simp only [wordBytes, List.cons.injEq, and_true, UInt8.ofNat_eq_iff_mod_eq_toNat,
    UInt8.toNat_ofNat'] at same
  have low := n.toNat_lt
  have low' := n'.toNat_lt
  exact UInt32.toNat_inj.mp (by omega)

theorem attrSegments_eq_iff (pHashStr : Text) (a b : ObjPathAttr) :
    attrSegments pHashStr a = attrSegments pHashStr b ↔ SameAttrFields a b := by
  have word {n n' : UInt32} : wordBytes n.toNat = wordBytes n'.toNat ↔ n = n' :=
    ⟨wordBytes_injective, fun same => by rw [same]⟩
  simp only [attrSegments, SameAttrFields, List.cons.injEq, word, and_true]

def AttrHashInjective (pHashStr : Text) (a b : ObjPathAttr) : Prop :=
  attrHashInput pHashStr a = attrHashInput pHashStr b → SameAttrFields a b

instance (pHashStr : Text) (a b : ObjPathAttr) : Decidable (AttrHashInjective pHashStr a b) :=
  inferInstanceAs (Decidable (_ → _))

/-! L3VPN prefixes. -/

def SameVpnFields (v w : ObjVpn) : Prop :=
  textBytes v.prefixText = textBytes w.prefixText ∧
    UInt8.ofNat v.prefixLen = UInt8.ofNat w.prefixLen ∧
    textBytes v.rdAdministratorSubfield = textBytes w.rdAdministratorSubfield ∧
    textBytes v.rdAssignedNumber = textBytes w.rdAssignedNumber

instance (v w : ObjVpn) : Decidable (SameVpnFields v w) := inferInstanceAs (Decidable (_ ∧ _))

def vpnSegments (pHashStr : Text) (vpn : ObjVpn) : List (List UInt8) :=
  [textBytes vpn.prefixText, [UInt8.ofNat vpn.prefixLen], textBytes vpn.rdAdministratorSubfield,
    textBytes vpn.rdAssignedNumber, textBytes pHashStr ++ hashTail vpn.toObjRib]

theorem vpnHashInput_eq_flatten (pHashStr : Text) (vpn : ObjVpn) :
    vpnHashInput pHashStr vpn = (vpnSegments pHashStr vpn).flatten := by
  simp [vpnHashInput, vpnSegments]

def VpnHashInjective (pHashStr : Text) (v w : ObjVpn) : Prop :=
  vpnHashInput pHashStr v = vpnHashInput pHashStr w → SameVpnFields v w

instance (pHashStr : Text) (v w : ObjVpn) : Decidable (VpnHashInjective pHashStr v w) :=
  inferInstanceAs (Decidable (_ → _))

/-- With equal bytes, the end of the rows is equal once the four fields are. -/
theorem vpnSegments_eq_iff {pHashStr : Text} {v w : ObjVpn}
    (same : vpnHashInput pHashStr v = vpnHashInput pHashStr w) :
    vpnSegments pHashStr v = vpnSegments pHashStr w ↔ SameVpnFields v w := by
  constructor
  · intro segments
    simp only [vpnSegments, List.cons.injEq, and_true] at segments
    exact ⟨segments.1, segments.2.1, segments.2.2.1, segments.2.2.2.1⟩
  · rintro ⟨text, len, admin, number⟩
    simp only [vpnHashInput, text, len, admin, number, List.append_cancel_left_eq,
      List.cons.injEq, true_and] at same
    simp only [vpnSegments, text, len, admin, number, same]

private def callsOf (bytes : List UInt8) : List KafkaCall :=
  (handleUpdate Decoders.silent (updateDBKafka plainPublisher) PeerInfo.fresh (memOf bytes) 0
    bytes.length).calls

private def attrsOf (bytes : List UInt8) : List ObjPathAttr :=
  (callsOf bytes).filterMap fun call =>
    match call with
    | .updateBaseAttribute _ attr => some attr
    | _ => none

private def vpnsOf (bytes : List UInt8) : List ObjVpn :=
  (callsOf bytes).flatMap fun call =>
    match call with
    | .updateL3Vpn _ vpn _ _ => vpn
    | _ => []

/-- ORIGIN, an AS_PATH of one AS and a NEXT_HOP, for `10.0.0.0/8`. -/
private def pathUpdate (asn : UInt8) (nextHop : List UInt8) : List UInt8 :=
  bgpUpdate [] ([0x40, 1, 1, 0] ++ [0x40, 2, 6, 2, 1, 0, 0, 0, asn] ++ [0x40, 3, 4] ++ nextHop)
    [8, 10]

/-- An MP_REACH with `10.0.0.0/8` under a route distinguisher of type 0. -/
private def vpnUpdate (asn assigned : UInt8) : List UInt8 :=
  bgpUpdate [] ([0x80, 14, 30, 0, 1, 128, 12] ++ List.replicate 8 0 ++ [10, 0, 0, 1] ++
    [0, 96, 0, 6, 0x41] ++ [0, 0, 0, asn, 0, 0, 0, assigned] ++ [10]) []

end SonicBmp.Bgp.HashFields
