/- module: SonicBmp/Bgp/UnknownNlri
   digest: NLRI of types without a parser in EVPN and link-state lists: when the others keep their entries. -/

import SonicBmp.Bgp.EvpnUnknown
import SonicBmp.Bgp.LinkStateCodec

set_option autoImplicit false
set_option relaxedAutoImplicit false

namespace SonicBmp.Bgp.UnknownNlri

open SonicBmp.Library.Memory
open SonicBmp.Bus.Kafka (Md5 HashId)
open SonicBmp.Bgp.EvpnCodec
open SonicBmp.Bgp.EvpnLists
open SonicBmp.Bgp.EvpnUnknown
open SonicBmp.Bgp.LinkState
open SonicBmp.Bgp.LinkStateCodec

/-- A link-state NLRI of another type. -/
structure UnknownLs where
  type : UInt16
  unknown : type.toNat ∉ [1, 2, 3, 4]
  value : List UInt8
  fits : value.length < 65536

def UnknownLs.bytes (u : UnknownLs) : List UInt8 := nlriBytes u.type.toNat u.value

theorem nlriTurn_unknown {md5 : Md5} {m : Mem} {len data : Nat} {ls : LsData} {u : UnknownLs}
    (held : Holds m data u.bytes) : nlriTurn md5 m len data ls = none := by
  rw [UnknownLs.bytes, nlriBytes, holds_append] at held
  rw [nlriTurn]
  dsimp only
  split
  · rfl
  · rw [held.1.u16 u.type.toNat_lt, nlriBody_unknown md5 u.unknown]
    rfl

/-! How many entries there are. -/

def entries (ls : LsData) : Nat := ls.nodes.length + ls.links.length + ls.prefixes.length

section Entries

variable (md5 : Md5)

theorem entries_addTo (ls : LsData) (n : LsNlri) : entries (n.addTo md5 ls) = entries ls + 1 := by
  obtain ⟨protoId, id, body⟩ := n
  cases body with
  | node localNode => simp [LsNlri.addTo, LsData.addNode, entries]; omega
  | link localNode remoteNode descr => simp [LsNlri.addTo, LsData.addLink, entries]; omega
  | pre isIPv4 localNode descr legal => simp [LsNlri.addTo, LsData.addPrefix, entries]; omega

theorem entries_foldl (ns : List LsNlri) :
    ∀ ls, entries (ns.foldl (LsNlri.addTo md5) ls) = entries ls + ns.length := by
  induction ns with
  | nil =>
    intro ls
    rfl
  | cons n ns ih =>
    intro ls
    rw [List.foldl_cons, ih, entries_addTo, List.length_cons, Nat.add_assoc, Nat.add_comm 1]

variable {m : Mem} {data : Nat}

/-- With an unknown NLRI in it only the part in front of that is. -/
theorem parsesLinkState_unknown {a : List LsNlri} {u : UnknownLs} {following : List UInt8}
    (small : (encodeLs a ++ (u.bytes ++ following)).length < 65536)
    (held : Holds m data (encodeLs a ++ (u.bytes ++ following))) (ls : LsData) :
    ParsesLinkState md5 m data (encodeLs a ++ (u.bytes ++ following)).length ls
      (a.foldl (LsNlri.addTo md5) ls) := by
  have some_octets : 0 < u.bytes.length := by simp [UnknownLs.bytes, nlriBytes]
  have total : (encodeLs a ++ (u.bytes ++ following)).length =
      (encodeLs a).length + (u.bytes.length + following.length) := by
    rw [List.length_append, List.length_append]
  rw [holds_append, holds_append] at held
  refine ⟨a.length + 1, ?_⟩
  rw [nlriLoop_through md5 a small 1 data 0 ls held.1 (by omega), nlriLoop, if_pos (by omega),
    nlriTurn_unknown held.2.1]

end Entries

/-- The NLRI around an unknown one have the entries they have without it. -/
def LsKeeps (md5 : Md5) (ls : LsData) (a b : List LsNlri) (u : UnknownLs) : Prop :=
  ∃ ls', (∀ (m : Mem) (data : Nat), Holds m data (encodeLs (a ++ b)) →
      ParsesLinkState md5 m data (encodeLs (a ++ b)).length ls ls') ∧
    ∀ (m : Mem) (data : Nat), Holds m data (encodeLs a ++ (u.bytes ++ encodeLs b)) →
      ParsesLinkState md5 m data (encodeLs a ++ (u.bytes ++ encodeLs b)).length ls ls'

theorem lsKeeps_iff {md5 : Md5} {ls : LsData} {a b : List LsNlri} {u : UnknownLs}
    (small : (encodeLs a ++ (u.bytes ++ encodeLs b)).length < 65536) :
    LsKeeps md5 ls a b u ↔ b = [] := by
  have split : encodeLs (a ++ b) = encodeLs a ++ encodeLs b := List.flatMap_append
  have smaller : (encodeLs (a ++ b)).length < 65536 := by
    rw [split]
    simp only [List.length_append] at small ⊢
    omega
  constructor
  · rintro ⟨ls', without, inserted⟩
    have one := parsesLinkState_of_holds md5 smaller (holds_memOf _) ls
    have two := parsesLinkState_unknown md5 small (holds_memOf _) ls
    have all_ := one.unique (without _ 0 (holds_memOf _))
    have front := two.unique (inserted _ 0 (holds_memOf _))
    have same := congrArg entries (all_.trans front.symm)
    rw [entries_foldl, entries_foldl, List.length_append] at same
    exact List.length_eq_zero_iff.mp (by omega)
  · rintro rfl
    refine ⟨a.foldl (LsNlri.addTo md5) ls, ?_, fun m data held =>
      parsesLinkState_unknown md5 small held ls⟩
    intro m data held
    rw [List.append_nil] at held smaller ⊢
    exact parsesLinkState_of_holds md5 smaller held ls

/-- An EVPN route of another type leaves the entries of the routes around it as they are,
whatever they and it contain, exactly if they are right without it and either it has eight
octets behind its length, or nothing follows it and it is too short for what is read behind
its header to contain a segment identifier. A link-state NLRI of another type does so exactly
if nothing follows it. -/
theorem unknown_nlri_iff (sa sb : List EvpnShape) (type : UInt8)
    (unknown : type.toNat ∉ [1, 2, 3, 4]) (n : Nat) (fits : n < 256) (md5 : Md5) (ls : LsData)
    (before behind : List LsNlri) (v : UnknownLs)
    (small : (encodeLs before ++ (v.bytes ++ encodeLs behind)).length < 65536) :
    (AlwaysKeeps sa sb type n ↔ Orderly (sa ++ sb) ∧ Harmless sa sb n) ∧
    (LsKeeps md5 ls before behind v ↔ behind = []) :=
  ⟨alwaysKeeps_iff sa sb unknown fits, lsKeeps_iff small⟩

private theorem five_unknown : (5 : UInt8).toNat ∉ [1, 2, 3, 4] := by decide

private theorem six_unknown : (6 : UInt16).toNat ∉ [1, 2, 3, 4] := by decide

private def bareLs : UnknownLs := ⟨6, six_unknown, [], Nat.zero_lt_succ _⟩

/-- Eight octets between two type 3 routes, and a link-state NLRI on its own. -/
theorem unknown_nlri_eight :
    AlwaysKeeps [.multicast .v4] [.multicast .v4] 5 8 ∧
    LsKeeps (fun _ => HashId.zero) LsData.none [] [] bareLs := by
  have both := unknown_nlri_iff [.multicast .v4] [.multicast .v4] 5 five_unknown 8 (by decide)
    (fun _ => HashId.zero) LsData.none [] [] bareLs (by decide)
  refine ⟨both.1.mpr ⟨⟨?_, ?_⟩, Or.inl rfl⟩, both.2.mpr rfl⟩
  · simp [EvpnShape.Known]
  · simp [EvpnShape.Lags]

/-- An IP prefix route of 34 octets. -/
private def ipPrefixRoute : UnknownEvpn := ⟨5, five_unknown, List.replicate 34 0, by decide⟩

private def bareNode : LsNlri := ⟨1, Vector.replicate 8 0, .node []⟩

private theorem all_blank :
    (Evpn.parseNlriData (memOf (ipPrefixRoute.bytes ++ encodeEvpn [(EvpnShape.multicast .v4).zero])) 0
      (ipPrefixRoute.bytes ++ encodeEvpn [(EvpnShape.multicast .v4).zero]).length).map
        (fun ts => ts.all fun t => t.ethernetTagIdHex = [] ∧ t.ethernetSegmentIdentifier = []) =
      some true := by
  decide +kernel

/-- A type 3 route behind a type 5 route, and a node behind a link-state NLRI of type 6. -/
theorem following_nlri_lost :
    ¬ EvpnKeeps [] [(EvpnShape.multicast .v4).zero] ipPrefixRoute ∧
    ¬ LsKeeps (fun _ => HashId.zero) LsData.none [] [bareNode] bareLs := by
  constructor
  · rintro ⟨ta, tb, -, forB, -, kept⟩
    obtain ⟨own, result⟩ := kept _ 0 (holds_memOf _)
    obtain ⟨t, rest, alone, -, rfl⟩ := List.forall₂_cons_left_iff.mp forB
    have blank := all_blank
    rw [show encodeEvpn [] = [] from rfl, List.nil_append] at result
    rw [result, Option.map_some, Option.some.injEq, List.all_eq_true] at blank
    have shown := of_decide_eq_true (blank t (by simp))
    rcases decoded_not_blank (alone_iff.mp alone) with tag | segment
    · exact tag shown.1
    · exact segment shown.2
  · intro kept
    have small : (encodeLs [] ++ (bareLs.bytes ++ encodeLs [bareNode])).length < 65536 := by decide
    cases (lsKeeps_iff small).mp kept

end SonicBmp.Bgp.UnknownNlri
