/- module: SonicBmp/Bgp/UpdateDb
   digest: Publishing of a parsed UPDATE in the Redis build, and the attributes of its RIB rows. -/

import SonicBmp.Bgp.Update
import SonicBmp.Bus.Redis

set_option autoImplicit false
set_option relaxedAutoImplicit false

namespace SonicBmp.Bgp.UpdateDb

open SonicBmp.Library.Printing
open SonicBmp.Library.Memory
open SonicBmp.Bgp.Common
open SonicBmp.Bgp.Nlri
open SonicBmp.Bgp.MpCodec
open SonicBmp.Bgp.Update
open SonicBmp.Bus.Interface
open SonicBmp.Bus.Redis

/-- The record both prefix publishers fill from a tuple. -/
def ribEntry (tuple : PrefixTuple) : ObjRib where
  isIPv4 := tuple.isIPv4
  prefixText := strncpy 46 tuple.prefixText
  prefixLen := tuple.len
  prefixBin := tuple.prefixBin
  pathId := tuple.pathId
  labels := snprintf 255 tuple.labels

/-- `parseBGP::UpdateDBAdvPrefixes`: the advertised prefixes go out with `base_attr`. -/
def updateDBAdvPrefixes (peer : ObjBgpPeer) (baseAttr : ObjPathAttr)
    (advPrefixes : List PrefixTuple) : List BusCall :=
  let ribList := advPrefixes.map ribEntry
  if 0 < ribList.length then [.updateUnicastPrefix peer ribList (some baseAttr) .add] else []

/-- `parseBGP::UpdateDBWdrawnPrefixes`: withdrawn prefixes go out without attributes. -/
def updateDBWdrawnPrefixes (peer : ObjBgpPeer) (wdrawnPrefixes : List PrefixTuple) : List BusCall :=
  let ribList := wdrawnPrefixes.map ribEntry
  if 0 < ribList.length then [.updateUnicastPrefix peer ribList none .del] else []

/-- `parseBGP::UpdateDB` as compiled for Redis: the attributes are not stored into
`base_attr`, and link-state, VPN and EVPN data are dropped. -/
def updateDB {D : Decoders} (peer : ObjBgpPeer) (baseAttr : ObjPathAttr)
    (parsed : ParsedUpdateData D) : List BusCall :=
  updateDBAdvPrefixes peer baseAttr parsed.advertised ++
    updateDBWdrawnPrefixes peer parsed.withdrawn

/-- The `base_attr` of a new `parseBGP` object: its strings are constructed empty,
every other member keeps what was in memory. -/
def freshAttr (memory : ObjPathAttr) : ObjPathAttr :=
  { memory with
    asPath := []
    communityList := []
    extCommunityList := []
    largeCommunityList := []
    clusterList := [] }

/-- `std::stoul` and `std::stoi` on printed digits. -/
def stoul (text : Text) : Nat := Nat.ofDigitChars 10 (text.takeWhile Char.isDigit) 0

def numericAttr (attrs : ParsedAttrsMap) (key : UpdateAttrType) : Nat :=
  if 0 < (attrs.at key).length then stoul (attrs.at key) else 0

/-- The record `parseBGP::UpdateDBAttrs` stores into `base_attr`. -/
def updateDBAttrs (attrs : ParsedAttrsMap) : ObjPathAttr where
  origin := strncpy 16 (attrs.at .origin)
  asPath := attrs.at .asPath
  asPathCount := UInt16.ofNat (numericAttr attrs .internalAsCount)
  originAs := UInt32.ofNat (numericAttr attrs .internalAsOrigin)
  nexthopIsIPv4 := decide (':' ∉ attrs.at .nextHop)
  nextHop := strncpy 40 (attrs.at .nextHop)
  aggregator := strncpy 40 (attrs.at .aggregator)
  atomicAgg := decide (attrs.at .atomicAggregate = "1".toList)
  med := UInt32.ofNat (numericAttr attrs .med)
  localPref := UInt32.ofNat (numericAttr attrs .localPref)
  communityList := attrs.at .communities
  extCommunityList := attrs.at .extCommunity
  largeCommunityList := attrs.at .largeCommunity
  clusterList := attrs.at .clusterList
  originatorId := strncpy 16 (attrs.at .originatorId)

section

variable {D : Decoders}

/-- The calls are those `UpdateDB` makes for the data that is passed on, and what is
passed on does not depend on them. -/
theorem handleUpdate_publishes {B C : Type} (db : ParsedUpdateData D → List B)
    (db' : ParsedUpdateData D → List C) (info : PeerInfo) (m : Mem) (data size : Nat) :
    (handleUpdate D db info m data size).passed = (handleUpdate D db' info m data size).passed ∧
      (handleUpdate D db info m data size).calls =
        (handleUpdate D db' info m data size).passed.elim [] db := by
  simp only [handleUpdate]
  split
  · split <;> exact ⟨rfl, rfl⟩
  · exact ⟨rfl, rfl⟩

/-- Withdrawals reach the Redis bus without attributes, so they do nothing there. -/
theorem commands_updateDB (redisMgr : RedisManager) (peer : ObjBgpPeer) (baseAttr : ObjPathAttr)
    (parsed : ParsedUpdateData D) :
    (updateDB peer baseAttr parsed).flatMap (commands redisMgr) =
      parsed.advertised.flatMap (fun tuple => redisMgr.writeBMPTable (ribTable peer)
        [prefixKey (ribEntry tuple), peer.peerAddr] (addFieldValues baseAttr)) := by
  have withdrawals : (updateDBWdrawnPrefixes peer parsed.withdrawn).flatMap (commands redisMgr) =
      [] := by
    unfold updateDBWdrawnPrefixes
    simp only
    split <;> rfl
  rw [updateDB, List.flatMap_append, withdrawals, List.append_nil, updateDBAdvPrefixes]
  cases parsed.advertised with
  | nil => rfl
  | cons tuple rest => simp [commands, updateUnicastPrefix, List.flatMap_map]

/-- Every RIB row an UPDATE of a session leads to, for the contents `memory` that the
new parser object was created over. -/
def ribRows (D : Decoders) (redisMgr : RedisManager) (peer : ObjBgpPeer) (memory : ObjPathAttr)
    (info : PeerInfo) (m : Mem) (data size : Nat) : List RedisCommand :=
  (handleUpdate D (updateDB peer (freshAttr memory)) info m data size).calls.flatMap
    (commands redisMgr)

/-- The row carries the attributes that were decoded from its own UPDATE. -/
def CarriesDecoded (parsed : Option (ParsedUpdateData D)) : RedisCommand → Prop
  | .set _ _ fieldValues =>
    ∃ data, parsed = some data ∧ fieldValues = addFieldValues (updateDBAttrs data.attrs)
  | .del _ => True

private theorem addFieldValues_localPref {attr attr' : ObjPathAttr}
    (same : addFieldValues attr = addFieldValues attr') : attr.localPref = attr'.localPref := by
  simp only [addFieldValues, List.cons.injEq, Prod.mk.injEq, true_and] at same
  exact UInt32.toNat_inj.mp (decimal_injective same.2.2.2.2.2.1)

/-- The rows of an encoded UPDATE: one for every route it advertises, with what was in
memory for attributes. -/
theorem ribRows_message (redisMgr : RedisManager) (peer : ObjBgpPeer) (info : PeerInfo)
    (u : UpdateMessage info.addPathUnicast) (m : Mem) (data : Nat) (h : Holds m data u.bytes) :
    ∃ parsed : ParsedUpdateData D, ∀ memory,
      (handleUpdate D (updateDB peer (freshAttr memory)) info m data u.bytes.length).passed =
          some parsed ∧
        ribRows D redisMgr peer memory info m data u.bytes.length =
          u.advertises.flatMap (fun tuple => redisMgr.writeBMPTable (ribTable peer)
            [prefixKey (ribEntry tuple), peer.peerAddr] (addFieldValues (freshAttr memory))) := by
  obtain ⟨parsed, info', outcome, -, adv, -⟩ :=
    handleUpdate_message (D := D) (fun parsed => [parsed]) info rfl u h
  refine ⟨parsed, fun memory => ⟨?_, ?_⟩⟩
  · rw [(handleUpdate_publishes _ (fun parsed => [parsed]) info m data _).1, outcome]
  · rw [ribRows, (handleUpdate_publishes _ (fun parsed => [parsed]) info m data _).2, outcome, ← adv]
    exact commands_updateDB redisMgr peer (freshAttr memory) parsed

/-- The RIB rows of an UPDATE carry its attributes whatever was in memory only when no
row is written at all. -/
theorem ribRows_decoded_iff (redisMgr : RedisManager) (peer : ObjBgpPeer) (info : PeerInfo)
    (u : UpdateMessage info.addPathUnicast) (some_route : u.advertises ≠ []) (m : Mem) (data : Nat)
    (h : Holds m data u.bytes) :
    (∀ memory, ∀ row ∈ ribRows D redisMgr peer memory info m data u.bytes.length,
      CarriesDecoded
        (handleUpdate D (updateDB peer (freshAttr memory)) info m data u.bytes.length).passed row) ↔
      redisMgr.enabledTables (ribTable peer) = false := by
  obtain ⟨parsed, spec⟩ := ribRows_message (D := D) redisMgr peer info u m data h
  constructor
  · intro right
    by_contra enabled
    rw [Bool.not_eq_false] at enabled
    obtain ⟨tuple, here⟩ := List.exists_mem_of_ne_nil _ some_route
    -- memory whose local preference is off by one from the decoded one
    let decoded := updateDBAttrs parsed.attrs
    let memory := { decoded with localPref := decoded.localPref + 1 }
    have row : RedisCommand.set (ribTable peer)
        ([prefixKey (ribEntry tuple), peer.peerAddr].flatMap (· ++ redisMgr.separator)).dropLast
        (addFieldValues (freshAttr memory)) ∈
          ribRows D redisMgr peer memory info m data u.bytes.length := by
      rw [(spec memory).2, List.mem_flatMap]
      exact ⟨tuple, here, by rw [RedisManager.writeBMPTable, if_pos enabled]; exact List.mem_cons_self⟩
    obtain ⟨data', found, fields⟩ := right memory _ row
    rw [(spec memory).1, Option.some.injEq] at found
    subst found
    have same : decoded.localPref + 1 = decoded.localPref := addFieldValues_localPref fields
    simp at same
  · intro disabled memory row here
    rw [(spec memory).2, List.mem_flatMap] at here
    obtain ⟨tuple, -, here⟩ := here
    simp [RedisManager.writeBMPTable, disabled] at here

end

private def tenLocalPref : UpdateMessage PeerInfo.fresh.addPathUnicast where
  withdrawn := []
  attrs := [⟨0x40, .other 5 (put32 100) (by decide), by decide⟩]
  nlri := [tenSlashEight]
  fits := by decide

private def staleSeven : ObjPathAttr :=
  ⟨[], [], 0, 0, false, [], [], false, 0, 7, [], [], [], [], []⟩

private def barManager : RedisManager := ⟨['|'], fun _ => true⟩

/-- The row of `10.0.0.0/8` shows the seven from memory, not the 100 of its UPDATE. -/
theorem ribRow_shows_memory :
    ribRows Decoders.silent barManager ObjBgpPeer.zero staleSeven PeerInfo.fresh
        (memOf tenLocalPref.bytes) 0 tenLocalPref.bytes.length =
      [.set .ribOut "10.0.0.0/8|".toList (addFieldValues staleSeven)] ∧
    ("local_pref".toList, "7".toList) ∈ addFieldValues staleSeven ∧
    (handleUpdate Decoders.silent (updateDB ObjBgpPeer.zero staleSeven) PeerInfo.fresh
        (memOf tenLocalPref.bytes) 0 tenLocalPref.bytes.length).passed.map
      (fun parsed => (updateDBAttrs parsed.attrs).localPref) = some 100 := by
  decide +kernel

theorem ribRows_decoded_ten :
    ¬ ∀ memory, ∀ row ∈ ribRows Decoders.silent barManager ObjBgpPeer.zero memory PeerInfo.fresh
        (memOf tenLocalPref.bytes) 0 tenLocalPref.bytes.length,
      CarriesDecoded (handleUpdate Decoders.silent (updateDB ObjBgpPeer.zero (freshAttr memory))
        PeerInfo.fresh (memOf tenLocalPref.bytes) 0 tenLocalPref.bytes.length).passed row := by
  rw [ribRows_decoded_iff barManager ObjBgpPeer.zero PeerInfo.fresh tenLocalPref (by decide)
    (memOf tenLocalPref.bytes) 0 (holds_memOf _)]
  decide

end SonicBmp.Bgp.UpdateDb
