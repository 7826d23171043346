/- module: SonicBmp/Bus/Redis
   digest: The Redis message bus: table writes, key deletion, and the keys they address. -/

import SonicBmp.Bus.Interface

set_option autoImplicit false
set_option relaxedAutoImplicit false

namespace SonicBmp.Bus.Redis

open SonicBmp.Library.Printing
open SonicBmp.Bgp.Common (AddressChar)
open SonicBmp.Bus.Interface

inductive BmpTable
  | nei | ribIn | ribOut
  deriving DecidableEq

def BmpTable.name : BmpTable → Text
  | .nei => "BGP_NEIGHBOR_TABLE".toList
  | .ribIn => "BGP_RIB_IN_TABLE".toList
  | .ribOut => "BGP_RIB_OUT_TABLE".toList

abbrev FieldValue := Text × Text

/-- What is sent to the database: `swss::Table::set` and `swss::DBConnector::del`. -/
inductive RedisCommand
  | set (table : BmpTable) (key : Text) (fieldValues : List FieldValue)
  | del (keys : List Text)
  deriving DecidableEq

/-- `RedisManager`: the key separator and the enabled tables. -/
structure RedisManager where
  separator : Text
  enabledTables : BmpTable → Bool

/-- Every key is followed by the separator, and one character is popped at the end. -/
def RedisManager.writeBMPTable (redisMgr : RedisManager) (table : BmpTable) (keys : List Text)
    (fieldValues : List FieldValue) : List RedisCommand :=
  if redisMgr.enabledTables table then
    [.set table (keys.flatMap (· ++ redisMgr.separator)).dropLast fieldValues]
  else []

def RedisManager.removeEntityFromBMPTable (keys : List Text) : List RedisCommand := [.del keys]

def updatePeer (redisMgr : RedisManager) (peer : ObjBgpPeer) (up : Option ObjPeerUpEvent)
    (down : Option ObjPeerDownEvent) (code : PeerActionCode) : List RedisCommand :=
  let always := [("peer_addr".toList, peer.peerAddr), ("peer_asn".toList, decimal peer.peerAs),
    ("peer_rd".toList, peer.peerRd)]
  let whenUp := match up with
    | none => []
    | some up =>
      [("remote_port".toList, decimal up.remotePort), ("local_asn".toList, decimal up.localAsn),
        ("local_ip".toList, up.localIp), ("local_port".toList, decimal up.localPort),
        ("sent_cap".toList, up.sentCap), ("recv_cap".toList, up.recvCap)]
  let whenDown := match code, down with
    | .down, some down =>
      [("bgp_err_code".toList, decimal down.bgpErrCode),
        ("bgp_err_subcode".toList, decimal down.bgpErrSubcode),
        ("error_text".toList, down.errorText)]
    | _, _ => []
  redisMgr.writeBMPTable .nei [peer.peerAddr] (always ++ whenUp ++ whenDown)

def ribTable (peer : ObjBgpPeer) : BmpTable := if peer.isAdjIn then .ribIn else .ribOut

def prefixKey (rib : ObjRib) : Text := rib.prefixText ++ '/' :: decimal rib.prefixLen

def addFieldValues (attr : ObjPathAttr) : List FieldValue :=
  [("origin".toList, attr.origin),
    ("as_path".toList, attr.asPath),
    ("as_path_count".toList, decimal attr.asPathCount.toNat),
    ("origin_as".toList, decimal attr.originAs.toNat),
    ("next_hop".toList, attr.nextHop),
    ("local_pref".toList, decimal attr.localPref.toNat),
    ("community_list".toList, attr.communityList),
    ("ext_community_list".toList, attr.extCommunityList),
    ("large_community_list".toList, attr.largeCommunityList),
    ("originator_id".toList, attr.originatorId)]

/-- `MsgBusImpl_redis::update_unicastPrefix`: nothing is done without attributes. -/
def updateUnicastPrefix (redisMgr : RedisManager) (peer : ObjBgpPeer) (rib : List ObjRib)
    (attr : Option ObjPathAttr) (code : UnicastPrefixActionCode) : List RedisCommand :=
  match attr with
  | none => []
  | some attr =>
    match code with
    | .add => rib.flatMap (fun r => redisMgr.writeBMPTable (ribTable peer)
        [prefixKey r, peer.peerAddr] (addFieldValues attr))
    | .del =>
      let delKeys := rib.map (fun r => (ribTable peer).name ++ redisMgr.separator ++ prefixKey r ++
        redisMgr.separator ++ peer.peerAddr)
      if delKeys ≠ [] then RedisManager.removeEntityFromBMPTable delKeys else []

/-- `MsgBusImpl_redis`: the methods for routers, statistics and raw packets do nothing. -/
def commands (redisMgr : RedisManager) : BusCall → List RedisCommand
  | .updatePeer peer up down code => updatePeer redisMgr peer up down code
  | .updateUnicastPrefix peer rib attr code => updateUnicastPrefix redisMgr peer rib attr code
  | .updateRouter _ _ | .addStatReport _ _ | .sendBmpRaw _ _ => []

abbrev Store := Text → Bool

/-- `set` stores at table, separator, key; `del` removes exactly the listed keys. -/
def Store.apply (separator : Text) (store : Store) : RedisCommand → Store
  | .set table key _ => Function.update store (table.name ++ separator ++ key) true
  | .del keys => fun key => store key && decide (key ∉ keys)

def Store.after (redisMgr : RedisManager) (store : Store) (calls : List BusCall) : Store :=
  (calls.flatMap (commands redisMgr)).foldl (Store.apply redisMgr.separator) store

/-! The keys of the RIB tables. -/

/-- The key of a RIB row: `table|prefix/len|peer`, with the separator for the bar. -/
def ribKey (separator : Char) (table : BmpTable) (prefixText : Text) (prefixLen : Nat)
    (peerAddr : Text) : Text :=
  table.name ++ separator :: (prefixText ++ '/' :: (decimal prefixLen ++ separator :: peerAddr))

/-- A route as the RIB tables identify it: one of the two tables, a printed prefix with
its length, and a peer. -/
structure RibRoute where
  table : BmpTable
  prefixText : Text
  prefixLen : Nat
  peerAddr : Text
  inRib : table ≠ .nei
  printed : ∀ c ∈ prefixText, AddressChar c

def RibRoute.key (separator : Char) (route : RibRoute) : Text :=
  ribKey separator route.table route.prefixText route.prefixLen route.peerAddr

def RibRoute.Is (route : RibRoute) (peer : ObjBgpPeer) (prefixText : Text) (prefixLen : Nat) :
    Prop :=
  route.table = ribTable peer ∧ route.prefixText = prefixText ∧ route.prefixLen = prefixLen ∧
    route.peerAddr = peer.peerAddr

theorem BmpTable.name_append_inj {table table' : BmpTable} {rest rest' : Text}
    (same : table.name ++ rest = table'.name ++ rest') : table = table' ∧ rest = rest' := by
  have long (t : BmpTable) : 9 ≤ t.name.length := by cases t <;> decide
  have heads : table.name.take 9 = table'.name.take 9 := by
    have cut := congrArg (List.take 9) same
    rwa [List.take_append_of_le_length (long table),
      List.take_append_of_le_length (long table')] at cut
  have tables : table = table' := by
    revert heads
    cases table <;> cases table' <;> decide
  subst tables
  exact ⟨rfl, List.append_cancel_left same⟩

/-- Under a separator that is no digit, a RIB key determines its parts. -/
theorem ribKey_injective {separator : Char} (stop : separator.isDigit = false)
    {table table' : BmpTable} {prefixText prefixText' : Text} {prefixLen prefixLen' : Nat}
    {peerAddr peerAddr' : Text} (printed : ∀ c ∈ prefixText, AddressChar c)
    (printed' : ∀ c ∈ prefixText', AddressChar c)
    (same : ribKey separator table prefixText prefixLen peerAddr =
      ribKey separator table' prefixText' prefixLen' peerAddr') :
    table = table' ∧ prefixText = prefixText' ∧ prefixLen = prefixLen' ∧ peerAddr = peerAddr' := by
  have slash : ¬ AddressChar '/' := by unfold AddressChar; decide
  obtain ⟨tables, rest⟩ := BmpTable.name_append_inj same
  obtain ⟨prefixes, -, rest⟩ := run_split AddressChar printed printed' slash slash
    (List.cons.inj rest).2
  obtain ⟨lengths, -, peers⟩ := decimal_split stop stop rest
  exact ⟨tables, prefixes, lengths, peers⟩

/-! What the bus calls do to the RIB keys. -/

theorem Store.after_append (redisMgr : RedisManager) (store : Store) (calls calls' : List BusCall) :
    store.after redisMgr (calls ++ calls') = (store.after redisMgr calls).after redisMgr calls' := by
  simp [Store.after]

section OneCharacterSeparator

variable {redisMgr : RedisManager} {separator : Char}

private theorem writeBMPTable_pair (one : redisMgr.separator = [separator]) (table : BmpTable)
    (enabled : redisMgr.enabledTables table = true) (first second : Text)
    (fieldValues : List FieldValue) :
    redisMgr.writeBMPTable table [first, second] fieldValues =
      [.set table (first ++ separator :: second) fieldValues] := by
  rw [RedisManager.writeBMPTable, if_pos enabled, one]
  have keys : [first, second].flatMap (· ++ [separator]) =
      (first ++ separator :: second) ++ [separator] := by simp
  rw [keys, List.dropLast_concat]

/-- A neighbour row never lands on a RIB key. -/
theorem Store.after_updatePeer (one : redisMgr.separator = [separator]) (store : Store)
    (peer : ObjBgpPeer) (up : Option ObjPeerUpEvent) (down : Option ObjPeerDownEvent)
    (code : PeerActionCode) (route : RibRoute) :
    store.after redisMgr [.updatePeer peer up down code] (route.key separator) =
      store (route.key separator) := by
  simp only [Store.after, List.flatMap_cons, List.flatMap_nil, List.append_nil, commands,
    updatePeer, RedisManager.writeBMPTable]
  split
  · refine Function.update_of_ne (fun same => route.inRib ?_) true store
    simp only [RibRoute.key, ribKey, one, List.append_assoc] at same
    exact (BmpTable.name_append_inj same).1
  · rfl

/-- An ADD call adds exactly the keys of its entries. -/
theorem Store.after_add (one : redisMgr.separator = [separator])
    (stop : separator.isDigit = false) (store : Store) (peer : ObjBgpPeer)
    (enabled : redisMgr.enabledTables (ribTable peer) = true) (rib : List ObjRib)
    (printed : ∀ r ∈ rib, ∀ c ∈ r.prefixText, AddressChar c) (attr : ObjPathAttr)
    (route : RibRoute) :
    store.after redisMgr [.updateUnicastPrefix peer rib (some attr) .add] (route.key separator) =
        true ↔ store (route.key separator) = true ∨
          ∃ r ∈ rib, route.Is peer r.prefixText r.prefixLen := by
  induction rib generalizing store with
  | nil => simp [Store.after, commands, updateUnicastPrefix]
  | cons r rib ih =>
    let key := ribKey separator (ribTable peer) r.prefixText r.prefixLen peer.peerAddr
    have row : (ribTable peer).name ++ [separator] ++ (prefixKey r ++ separator :: peer.peerAddr) =
        key := by
      simp [key, ribKey, prefixKey]
    have first : store.after redisMgr [.updateUnicastPrefix peer (r :: rib) (some attr) .add] =
        Store.after redisMgr (Function.update store key true)
          [.updateUnicastPrefix peer rib (some attr) .add] := by
      simp only [Store.after, List.flatMap_cons, List.flatMap_nil, List.append_nil, commands,
        updateUnicastPrefix, writeBMPTable_pair one _ enabled, List.cons_append, List.nil_append,
        List.foldl_cons, Store.apply, one, row]
    rw [first, ih _ (fun x hx => printed x (List.mem_cons_of_mem _ hx))]
    simp only [List.mem_cons, exists_eq_or_imp]
    by_cases same : route.key separator = key
    · have parts := ribKey_injective stop route.printed (printed r List.mem_cons_self) same
      have here : route.Is peer r.prefixText r.prefixLen := parts
      simp [same, here]
    · have elsewhere : ¬ route.Is peer r.prefixText r.prefixLen := by
        rintro ⟨tables, prefixes, lengths, peers⟩
        exact same (by simp only [RibRoute.key, tables, prefixes, lengths, peers, key])
      simp [Function.update_of_ne same, elsewhere]

/-! The two key builders of `update_unicastPrefix`: the one of an ADD joins its parts and
drops the last character, the one of a DEL writes the whole key out. -/

/-- Where `swss::Table::set` stores. -/
def RedisCommand.storedKeys (separator : Text) : RedisCommand → List Text
  | .set table key _ => [table.name ++ separator ++ key]
  | .del _ => []

def RedisCommand.deletedKeys : RedisCommand → List Text
  | .set _ _ _ => []
  | .del keys => keys

/-- The keys an ADD call stores at. -/
def addKeys (redisMgr : RedisManager) (peer : ObjBgpPeer) (rib : List ObjRib)
    (attr : ObjPathAttr) : List Text :=
  (updateUnicastPrefix redisMgr peer rib (some attr) .add).flatMap
    (RedisCommand.storedKeys redisMgr.separator)

/-- The keys a DEL call deletes. -/
def delKeys (redisMgr : RedisManager) (peer : ObjBgpPeer) (rib : List ObjRib)
    (attr : ObjPathAttr) : List Text :=
  (updateUnicastPrefix redisMgr peer rib (some attr) .del).flatMap RedisCommand.deletedKeys

def entryKey (separator : Char) (peer : ObjBgpPeer) (r : ObjRib) : Text :=
  ribKey separator (ribTable peer) r.prefixText r.prefixLen peer.peerAddr

private theorem addKeys_eq (one : redisMgr.separator = [separator]) (peer : ObjBgpPeer)
    (rib : List ObjRib) (attr : ObjPathAttr) :
    addKeys redisMgr peer rib attr =
      if redisMgr.enabledTables (ribTable peer) then rib.map (entryKey separator peer) else [] := by
  by_cases enabled : redisMgr.enabledTables (ribTable peer) = true
  · rw [if_pos enabled]
    induction rib with
    | nil => rfl
    | cons r rib ih =>
      rw [List.map_cons, ← ih]
      simp [addKeys, updateUnicastPrefix, writeBMPTable_pair one _ enabled,
        RedisCommand.storedKeys, entryKey, ribKey, prefixKey, one]
  · rw [if_neg enabled]
    simp [addKeys, updateUnicastPrefix, RedisManager.writeBMPTable, enabled]

private theorem delKeys_eq (one : redisMgr.separator = [separator]) (peer : ObjBgpPeer)
    (rib : List ObjRib) (attr : ObjPathAttr) :
    delKeys redisMgr peer rib attr = rib.map (entryKey separator peer) := by
  simp only [delKeys, updateUnicastPrefix, one]
  split
  · simp [RedisManager.removeEntityFromBMPTable, RedisCommand.deletedKeys, entryKey, ribKey,
      prefixKey]
  · rename_i none_left
    have empty : rib = [] := by simpa using none_left
    simp [empty]

/-- A DEL of the same prefixes for the same peer and direction deletes the keys at which
the ADD stored, one for each prefix, and a stored key determines the table, the printed
prefix, its length and the peer. -/
theorem unicastPrefix_keys_agree (one : redisMgr.separator = [separator])
    (stop : separator.isDigit = false) :
    (∀ (peer peer' : ObjBgpPeer) (rib rib' : List ObjRib) (attr attr' : ObjPathAttr),
      redisMgr.enabledTables (ribTable peer) = true → peer'.peerAddr = peer.peerAddr →
      peer'.isAdjIn = peer.isAdjIn →
      rib'.map (fun r => (r.prefixText, r.prefixLen)) =
        rib.map (fun r => (r.prefixText, r.prefixLen)) →
      delKeys redisMgr peer' rib' attr' = addKeys redisMgr peer rib attr ∧
        (addKeys redisMgr peer rib attr).length = rib.length) ∧
    (∀ (peer peer' : ObjBgpPeer) (r r' : ObjRib) (attr attr' : ObjPathAttr) (key : Text),
      (∀ c ∈ r.prefixText, AddressChar c) → (∀ c ∈ r'.prefixText, AddressChar c) →
      key ∈ addKeys redisMgr peer [r] attr → key ∈ addKeys redisMgr peer' [r'] attr' →
      ribTable peer = ribTable peer' ∧ r.prefixText = r'.prefixText ∧
        r.prefixLen = r'.prefixLen ∧ peer.peerAddr = peer'.peerAddr) := by
  constructor
  · intro peer peer' rib rib' attr attr' enabled addrs directions prefixes
    have tables : ribTable peer' = ribTable peer := by simp only [ribTable, directions]
    let key := fun (parts : Text × Nat) =>
      ribKey separator (ribTable peer) parts.1 parts.2 peer.peerAddr
    have same : entryKey separator peer' = entryKey separator peer := by
      funext r
      simp only [entryKey, tables, addrs]
    rw [addKeys_eq one, if_pos enabled, delKeys_eq one, List.length_map, same]
    refine ⟨?_, rfl⟩
    have joined (entries : List ObjRib) : entries.map (entryKey separator peer) =
        (entries.map (fun r => (r.prefixText, r.prefixLen))).map key := by
      rw [List.map_map]
      rfl
    rw [joined rib', prefixes, ← joined]
  · intro peer peer' r r' attr attr' key printed printed' stored stored'
    rw [addKeys_eq one] at stored stored'
    have key_of {p : ObjBgpPeer} {q : ObjRib} (h : key ∈ if redisMgr.enabledTables (ribTable p)
        then [q].map (entryKey separator p) else []) : key = entryKey separator p q := by
      split at h
      · simpa using h
      · simp at h
    exact ribKey_injective stop printed printed' ((key_of stored).symm.trans (key_of stored'))

end OneCharacterSeparator

private def slashManager : RedisManager := ⟨['/'], fun _ => true⟩

private def tenRib : ObjRib := ⟨true, "10.0.0.0".toList, 8, [], 0, []⟩

private def noAttr : ObjPathAttr := ⟨[], [], 0, 0, false, [], [], false, 0, 0, [], [], [], [], []⟩

theorem unicastPrefix_keys_agree_ten :
    delKeys slashManager ObjBgpPeer.zero [tenRib] noAttr =
        addKeys slashManager ObjBgpPeer.zero [tenRib] noAttr ∧
      addKeys slashManager ObjBgpPeer.zero [tenRib] noAttr =
        ["BGP_RIB_OUT_TABLE/10.0.0.0/8/".toList] :=
  ⟨((@unicastPrefix_keys_agree slashManager '/' rfl (by decide)).1
    ObjBgpPeer.zero ObjBgpPeer.zero [tenRib] [tenRib] noAttr noAttr rfl rfl rfl rfl).1, by decide⟩

end SonicBmp.Bus.Redis
