/- module: SonicBmp/Bus/Kafka
   digest: The Kafka message bus: its caches, the rows it prints, and the records it produces. -/

import SonicBmp.Bus.Interface

set_option autoImplicit false
set_option relaxedAutoImplicit false

namespace SonicBmp.Bus.Kafka

open SonicBmp.Library.Printing
open SonicBmp.Bgp.Common (EvpnTuple)
open SonicBmp.Bus.Interface

/-! Hashes. -/

abbrev HashId := Vector UInt8 16

def HashId.zero : HashId := Vector.replicate 16 0

/-- `%02x`. -/
def hexByte (b : UInt8) : Text := [(b.toNat / 16).digitChar, (b.toNat % 16).digitChar]

/-- `MsgBusInterface::hash_toStr`. -/
def hashToStr (hash : HashId) : Text := hash.toList.flatMap hexByte

/-- The bytes of a text as they are handed to MD5. -/
def textBytes (text : Text) : List UInt8 := text.map (fun c => UInt8.ofNat c.toNat)

@[simp] theorem length_textBytes (text : Text) : (textBytes text).length = text.length :=
  List.length_map _

theorem textBytes_inj {text text' : Text} (octets : ∀ c ∈ text, c.toNat < 256)
    (octets' : ∀ c ∈ text', c.toNat < 256) (same : textBytes text = textBytes text') :
    text = text' := by
  have back (text : Text) (octets : ∀ c ∈ text, c.toNat < 256) :
      (textBytes text).map (fun b => Char.ofNat b.toNat) = text := by
    rw [textBytes, List.map_map]
    refine (List.map_congr_left fun c here => ?_).trans (List.map_id text)
    simp [Nat.mod_eq_of_lt (octets c here)]
  rw [← back text octets, ← back text' octets', same]

/-- A `uint32_t` in memory. -/
def wordBytes (n : Nat) : List UInt8 :=
  [UInt8.ofNat n, UInt8.ofNat (n / 256), UInt8.ofNat (n / 65536), UInt8.ofNat (n / 16777216)]

/-- The digest; results hold for every function in its place. -/
abbrev Md5 := List UInt8 → HashId

/-! Objects. -/

/-- `obj_router`, as far as the bus reads it. -/
structure ObjRouter where
  hashId : HashId
  name : Text
  descr : Text
  ipAddr : Text
  bgpId : Text
  termReasonCode : Nat
  termReasonText : Text
  termData : Text
  initiateData : Text
  timestampSecs : Nat
  timestampUs : Nat
  deriving DecidableEq

/-- `obj_bgp_peer` with its hashes and its printed timestamp. -/
structure KafkaPeer where
  peer : ObjBgpPeer
  routerHashId : HashId
  hashId : HashId
  timestamp : Text
  deriving DecidableEq

structure KafkaAttr where
  attr : ObjPathAttr
  hashId : HashId
  deriving DecidableEq

/-- `obj_vpn`: a route with the texts of its distinguisher. -/
structure ObjVpn extends ObjRib where
  rdAdministratorSubfield : Text
  rdAssignedNumber : Text
  rdType : Nat
  deriving DecidableEq

inductive LsObject
  | node | link | pfx
  deriving DecidableEq

/-- What `update_Peer` hashes: the two texts stand side by side. -/
def peerHashInput (peer : ObjBgpPeer) (routerHashId : HashId) : List UInt8 :=
  textBytes peer.peerAddr ++ (textBytes peer.peerRd ++ textBytes (hashToStr routerHashId))

/-- Path identifier and label mark at the end of a route's hashed bytes. -/
def hashTail (rib : ObjRib) : List UInt8 :=
  (if 0 < rib.pathId then wordBytes rib.pathId else []) ++ (if rib.labels ≠ [] then [1] else [])

def ribHashInput (pHashStr : Text) (rib : ObjRib) : List UInt8 :=
  textBytes rib.prefixText ++ (UInt8.ofNat rib.prefixLen :: (textBytes pHashStr ++ hashTail rib))

def vpnHashInput (pHashStr : Text) (vpn : ObjVpn) : List UInt8 :=
  textBytes vpn.prefixText ++ (UInt8.ofNat vpn.prefixLen ::
    (textBytes vpn.rdAdministratorSubfield ++ (textBytes vpn.rdAssignedNumber ++
      (textBytes pHashStr ++ hashTail vpn.toObjRib))))

def attrHashInput (pHashStr : Text) (attr : ObjPathAttr) : List UInt8 :=
  textBytes attr.asPath ++ (textBytes attr.nextHop ++ (textBytes attr.aggregator ++
    (textBytes attr.origin ++ (wordBytes attr.med.toNat ++ (wordBytes attr.localPref.toNat ++
      (textBytes attr.communityList ++ (textBytes attr.extCommunityList ++
        textBytes pHashStr)))))))

/-! Rows of the prefix topics. -/

def bit (b : Bool) : Text := if b then ['1'] else ['0']

def tsvRow (fields : List Text) : Text := List.intercalate ['\t'] fields ++ ['\n']

def actionText : UnicastPrefixActionCode → Text
  | .add => "add".toList
  | .del => "del".toList

/-- The fourteen attribute columns; a DEL row leaves them empty. Extended communities can
hold any byte. -/
def attrColumns : Option ObjPathAttr → List Text
  | none => List.replicate 14 []
  | some attr =>
    [attr.origin, attr.asPath, decimal attr.asPathCount.toNat, decimal attr.originAs.toNat,
      attr.nextHop, decimal attr.med.toNat, decimal attr.localPref.toNat, attr.aggregator,
      attr.communityList, cString attr.extCommunityList, attr.clusterList, bit attr.atomicAgg,
      bit attr.nexthopIsIPv4, attr.originatorId]

/-- What all rows of one call have in common. -/
structure RowContext where
  routerIp : Text
  peer : KafkaPeer
  attr : Option KafkaAttr
  code : UnicastPrefixActionCode

/-- The attributes an ADD prints; a DEL prints none. -/
def RowContext.printed (ctx : RowContext) : Option KafkaAttr :=
  match ctx.code with
  | .add => ctx.attr
  | .del => none

/-- A row of `update_unicastPrefix` or `update_L3Vpn`: the route, the bytes hashed for
it, and the text printed with `columns` before the last one. -/
structure RouteRow where
  code : UnicastPrefixActionCode
  seq : Nat
  rib : ObjRib
  hashInput : List UInt8
  text : Text
  deriving DecidableEq

def routeRow (md5 : Md5) (ctx : RowContext) (seq : Nat) (rib : ObjRib) (hashInput : List UInt8)
    (columns : List Text) : RouteRow where
  code := ctx.code
  seq := seq
  rib := rib
  hashInput := hashInput
  text := tsvRow (
    [actionText ctx.code, decimal seq, hashToStr (md5 hashInput),
      hashToStr ctx.peer.routerHashId, ctx.routerIp,
      ctx.printed.elim [] (fun attr => hashToStr attr.hashId), hashToStr ctx.peer.hashId,
      ctx.peer.peer.peerAddr, decimal ctx.peer.peer.peerAs, ctx.peer.timestamp, rib.prefixText,
      decimal rib.prefixLen, bit rib.isIPv4] ++
    attrColumns (ctx.printed.map KafkaAttr.attr) ++
    [decimal rib.pathId, rib.labels, bit ctx.peer.peer.isPrePolicy, bit ctx.peer.peer.isAdjIn] ++
    columns ++ [ctx.printed.elim [] (fun attr => attr.attr.largeCommunityList)])

def unicastRow (md5 : Md5) (ctx : RowContext) (seq : Nat) (rib : ObjRib) : RouteRow :=
  routeRow md5 ctx seq rib (ribHashInput (hashToStr ctx.peer.hashId) rib) []

def vpnRow (md5 : Md5) (ctx : RowContext) (seq : Nat) (vpn : ObjVpn) : RouteRow :=
  routeRow md5 ctx seq vpn.toObjRib (vpnHashInput (hashToStr ctx.peer.hashId) vpn)
    [vpn.rdAdministratorSubfield ++ ':' :: vpn.rdAssignedNumber, decimal vpn.rdType]

/-- One row for every entry, with consecutive sequence numbers. -/
def rowsFrom {α : Type} (row : Nat → α → RouteRow) : Nat → List α → List RouteRow
  | _, [] => []
  | seq, x :: xs => row seq x :: rowsFrom row (seq + 1) xs

def msgbusWorkingBufSize : Nat := 1800000

/-- `sizeof(buf2)`. -/
def rowBufSize : Nat := 80000

/-- What the row loop appends to `prep_buf` after `bufLen` printed characters: rows are
counted in full, cut to `buf2`, and left out once the count reaches the buffer size. -/
def prepBuf : Nat → List RouteRow → Text
  | _, [] => []
  | bufLen, row :: rows =>
    let bufLen := bufLen + row.text.length
    (if bufLen < msgbusWorkingBufSize then snprintf rowBufSize row.text else []) ++
      prepBuf bufLen rows

/-- The rows that stand in the message as records of their own: appended, not cut, and
not run together with a row that was cut before its line feed. -/
def wholeRows : Nat → Bool → List RouteRow → List RouteRow
  | _, _, [] => []
  | bufLen, cut, row :: rows =>
    let bufLen := bufLen + row.text.length
    if bufLen < msgbusWorkingBufSize then
      (if row.text.length < rowBufSize ∧ cut = false then [row] else []) ++
        wholeRows bufLen (decide (rowBufSize ≤ row.text.length)) rows
    else wholeRows bufLen cut rows

/-! The bus. -/

/-- A record handed to `produce`. Only the rows of the prefix topics are printed out. -/
inductive KafkaRecord
  | router (action : RouterActionCode) (seq : Nat) (router : ObjRouter)
  | peer (action : PeerActionCode) (seq : Nat) (hash : Text) (peer : KafkaPeer)
      (up : Option ObjPeerUpEvent) (down : Option ObjPeerDownEvent)
  | baseAttribute (seq : Nat) (hash : Text) (peer : KafkaPeer) (attr : ObjPathAttr)
  | unicastPrefix (message : Text) (rows : List RouteRow)
  | l3vpn (message : Text) (rows : List RouteRow)
  | evpn (seq : Nat) (peer : KafkaPeer) (entries : List EvpnTuple) (code : UnicastPrefixActionCode)
  | linkState (object : LsObject) (peer : KafkaPeer) (rows : Nat) (code : UnicastPrefixActionCode)
  | bmpStat (seq : Nat) (peer : KafkaPeer) (stats : ObjStatsReport)
  | bmpRaw (peer : KafkaPeer) (data : List UInt8)
  deriving DecidableEq

/-- `msgBus_kafka`: the cached router hash, the keys of `peer_list`, whether a topic
selector exists, and the sequence numbers. -/
structure MsgBusKafka where
  routerHash : HashId
  routerIp : Text
  peerList : Text → Bool
  topicSel : Bool
  routerSeq : Nat
  peerSeq : Nat
  baseAttrSeq : Nat
  unicastPrefixSeq : Nat
  l3vpnSeq : Nat
  evpnSeq : Nat
  bmpStatSeq : Nat

/-- A new bus; whether its first attempt to connect gave it a topic selector is open. -/
def MsgBusKafka.new (topicSel : Bool) : MsgBusKafka :=
  ⟨HashId.zero, [], fun _ => false, topicSel, 0, 0, 0, 0, 0, 0, 0⟩

/-- `produce` waits until the bus is connected and has a topic selector. -/
def MsgBusKafka.produce (bus : MsgBusKafka) : MsgBusKafka := { bus with topicSel := true }

/-- `peer_list[hash]` creates a missing entry. -/
def MsgBusKafka.lookup (bus : MsgBusKafka) (hash : Text) : MsgBusKafka :=
  { bus with peerList := Function.update bus.peerList hash true }

def MsgBusKafka.erase (bus : MsgBusKafka) (hash : Text) : MsgBusKafka :=
  { bus with peerList := Function.update bus.peerList hash false }

/-- `produce(..., &peer_list[p_hash_str], ...)`. -/
def MsgBusKafka.producePeer (bus : MsgBusKafka) (hash : Text) : MsgBusKafka :=
  (bus.lookup hash).produce

def MsgBusKafka.updateRouter (bus : MsgBusKafka) (router : ObjRouter) (code : RouterActionCode) :
    MsgBusKafka × List KafkaRecord :=
  let bus := if code = .term then { bus with routerHash := HashId.zero } else bus
  if code = .first ∧ bus.routerHash ≠ HashId.zero then (bus, [])
  else
    let bus := if code ≠ .term then { bus with routerHash := router.hashId } else bus
    ({ bus with routerIp := router.ipAddr, routerSeq := bus.routerSeq + 1 }.produce,
      [.router code bus.routerSeq router])

/-- `msgBus_kafka::~msgBus_kafka`: a router that is still defined is terminated. -/
def MsgBusKafka.destroy (bus : MsgBusKafka) : List KafkaRecord :=
  if bus.routerHash ≠ HashId.zero then
    (bus.updateRouter ⟨bus.routerHash, [], [], snprintf 46 bus.routerIp, [], 65533,
      "Connection closed".toList, [], [], 0, 0⟩ .term).2
  else []

def peerHash (md5 : Md5) (peer : KafkaPeer) : Text :=
  hashToStr (md5 (peerHashInput peer.peer peer.routerHashId))

/-- `msgBus_kafka::update_Peer`. A missing event ends an UP or DOWN before anything is
produced, with the cache already changed. -/
def MsgBusKafka.updatePeer (md5 : Md5) (bus : MsgBusKafka) (peer : KafkaPeer)
    (up : Option ObjPeerUpEvent) (down : Option ObjPeerDownEvent) (code : PeerActionCode) :
    MsgBusKafka × List KafkaRecord :=
  let hash := peerHash md5 peer
  let produced (bus : MsgBusKafka) : MsgBusKafka × List KafkaRecord :=
    ({ bus.producePeer hash with peerSeq := bus.peerSeq + 1 },
      [.peer code bus.peerSeq hash peer up down])
  -- the group lookup creates the entry of a peer that comes up
  let cached (bus : MsgBusKafka) := if bus.topicSel then bus.lookup hash else bus
  match code with
  | .first => if bus.peerList hash then (bus, []) else produced (cached bus)
  | .up => if up.isSome then produced (cached bus) else (cached bus, [])
  | .down => if down.isSome then produced ((bus.erase hash).erase hash) else (bus.erase hash, [])

def MsgBusKafka.updateBaseAttribute (md5 : Md5) (bus : MsgBusKafka) (peer : KafkaPeer)
    (attr : ObjPathAttr) : MsgBusKafka × List KafkaRecord :=
  let hash := hashToStr peer.hashId
  ({ bus.producePeer hash with baseAttrSeq := bus.baseAttrSeq + 1 },
    [.baseAttribute bus.baseAttrSeq (hashToStr (md5 (attrHashInput hash attr))) peer attr])

/-- An ADD without attributes returns at its first entry. -/
def abandoned {α : Type} (entries : List α) (attr : Option KafkaAttr)
    (code : UnicastPrefixActionCode) : Bool :=
  decide (code = .add) && attr.isNone && decide (0 < entries.length)

def MsgBusKafka.updateUnicastPrefix (md5 : Md5) (bus : MsgBusKafka) (peer : KafkaPeer)
    (rib : List ObjRib) (attr : Option KafkaAttr) (code : UnicastPrefixActionCode) :
    MsgBusKafka × List KafkaRecord :=
  if abandoned rib attr code then (bus, [])
  else
    let rows := rowsFrom (unicastRow md5 ⟨bus.routerIp, peer, attr, code⟩) bus.unicastPrefixSeq rib
    ({ bus.producePeer (hashToStr peer.hashId) with
        unicastPrefixSeq := bus.unicastPrefixSeq + rib.length },
      [.unicastPrefix (prepBuf 0 rows) rows])

def MsgBusKafka.updateL3Vpn (md5 : Md5) (bus : MsgBusKafka) (peer : KafkaPeer)
    (vpn : List ObjVpn) (attr : Option KafkaAttr) (code : UnicastPrefixActionCode) :
    MsgBusKafka × List KafkaRecord :=
  if abandoned vpn attr code then (bus, [])
  else
    let rows := rowsFrom (vpnRow md5 ⟨bus.routerIp, peer, attr, code⟩) bus.l3vpnSeq vpn
    ({ bus.producePeer (hashToStr peer.hashId) with l3vpnSeq := bus.l3vpnSeq + vpn.length },
      [.l3vpn (prepBuf 0 rows) rows])

def MsgBusKafka.updateEVPN (bus : MsgBusKafka) (peer : KafkaPeer) (vpn : List EvpnTuple)
    (attr : Option KafkaAttr) (code : UnicastPrefixActionCode) : MsgBusKafka × List KafkaRecord :=
  if abandoned vpn attr code then (bus, [])
  else
    ({ bus.producePeer (hashToStr peer.hashId) with evpnSeq := bus.evpnSeq + vpn.length },
      [.evpn bus.evpnSeq peer vpn code])

/-- `update_LsNode`, `update_LsLink` and `update_LsPrefix`, of which only the number of
entries is kept. -/
def MsgBusKafka.updateLs (bus : MsgBusKafka) (object : LsObject) (peer : KafkaPeer) (rows : Nat)
    (code : UnicastPrefixActionCode) : MsgBusKafka × List KafkaRecord :=
  (bus.producePeer (hashToStr peer.hashId), [.linkState object peer rows code])

def MsgBusKafka.addStatReport (bus : MsgBusKafka) (peer : KafkaPeer) (stats : ObjStatsReport) :
    MsgBusKafka × List KafkaRecord :=
  ({ bus.producePeer (hashToStr peer.hashId) with bmpStatSeq := bus.bmpStatSeq + 1 },
    [.bmpStat bus.bmpStatSeq peer stats])

def MsgBusKafka.sendBmpRaw (bus : MsgBusKafka) (peer : KafkaPeer) (data : List UInt8) :
    MsgBusKafka × List KafkaRecord :=
  if data.length = 0 then (bus, [])
  else (bus.producePeer (hashToStr peer.hashId), [.bmpRaw peer data])

/-- A call on the bus of the Kafka build. -/
inductive KafkaCall
  | updateRouter (router : ObjRouter) (code : RouterActionCode)
  | updatePeer (peer : KafkaPeer) (up : Option ObjPeerUpEvent) (down : Option ObjPeerDownEvent)
      (code : PeerActionCode)
  | updateBaseAttribute (peer : KafkaPeer) (attr : ObjPathAttr)
  | updateUnicastPrefix (peer : KafkaPeer) (rib : List ObjRib) (attr : Option KafkaAttr)
      (code : UnicastPrefixActionCode)
  | updateL3Vpn (peer : KafkaPeer) (vpn : List ObjVpn) (attr : Option KafkaAttr)
      (code : UnicastPrefixActionCode)
  | updateEVPN (peer : KafkaPeer) (vpn : List EvpnTuple) (attr : Option KafkaAttr)
      (code : UnicastPrefixActionCode)
  | updateLs (object : LsObject) (peer : KafkaPeer) (rows : Nat) (code : UnicastPrefixActionCode)
  | addStatReport (peer : KafkaPeer) (stats : ObjStatsReport)
  | sendBmpRaw (peer : KafkaPeer) (data : List UInt8)

def MsgBusKafka.step (md5 : Md5) (bus : MsgBusKafka) : KafkaCall → MsgBusKafka × List KafkaRecord
  | .updateRouter router code => bus.updateRouter router code
  | .updatePeer peer up down code => bus.updatePeer md5 peer up down code
  | .updateBaseAttribute peer attr => bus.updateBaseAttribute md5 peer attr
  | .updateUnicastPrefix peer rib attr code => bus.updateUnicastPrefix md5 peer rib attr code
  | .updateL3Vpn peer vpn attr code => bus.updateL3Vpn md5 peer vpn attr code
  | .updateEVPN peer vpn attr code => bus.updateEVPN peer vpn attr code
  | .updateLs object peer rows code => bus.updateLs object peer rows code
  | .addStatReport peer stats => bus.addStatReport peer stats
  | .sendBmpRaw peer data => bus.sendBmpRaw peer data

/-- A sequence of calls: the bus it leaves and the records it produced, in order. -/
def MsgBusKafka.run (md5 : Md5) : MsgBusKafka → List KafkaCall → MsgBusKafka × List KafkaRecord
  | bus, [] => (bus, [])
  | bus, call :: calls =>
    let now := bus.step md5 call
    let later := now.1.run md5 calls
    (later.1, now.2 ++ later.2)

theorem MsgBusKafka.run_append (md5 : Md5) (bus : MsgBusKafka) (calls calls' : List KafkaCall) :
    bus.run md5 (calls ++ calls') =
      (((bus.run md5 calls).1.run md5 calls').1,
        (bus.run md5 calls).2 ++ ((bus.run md5 calls).1.run md5 calls').2) := by
  induction calls generalizing bus with
  | nil => rfl
  | cons call calls ih => simp only [List.cons_append, MsgBusKafka.run, ih, List.append_assoc]

/-- Every row of a message that fits its buffers is published whole. -/
theorem wholeRows_of_fits (rows : List RouteRow) (bufLen : Nat)
    (short : ∀ row ∈ rows, row.text.length < rowBufSize)
    (fits : bufLen + (rows.map (fun row => row.text.length)).sum < msgbusWorkingBufSize) :
    wholeRows bufLen false rows = rows ∧ prepBuf bufLen rows = rows.flatMap RouteRow.text := by
  induction rows generalizing bufLen with
  | nil => exact ⟨rfl, rfl⟩
  | cons row rows ih =>
    have first := short row List.mem_cons_self
    rw [List.map_cons, List.sum_cons] at fits
    obtain ⟨whole, message⟩ := ih (bufLen + row.text.length)
      (fun r hr => short r (List.mem_cons_of_mem _ hr)) (by omega)
    have uncut : decide (rowBufSize ≤ row.text.length) = false := by
      simpa using first
    have printed : snprintf rowBufSize row.text = row.text := by
      apply List.take_of_length_le
      omega
    constructor
    · simp only [wholeRows, if_pos (show bufLen + row.text.length < msgbusWorkingBufSize by omega),
        if_pos (⟨first, trivial⟩ : row.text.length < rowBufSize ∧ True), uncut, whole,
        List.cons_append, List.nil_append]
    · simp only [prepBuf, if_pos (show bufLen + row.text.length < msgbusWorkingBufSize by omega),
        printed, message, List.flatMap_cons]

/-- A row published whole is a line of the message: it follows the start or a line feed. -/
theorem wholeRows_line (rows : List RouteRow) (bufLen : Nat) (cut : Bool) (row : RouteRow)
    (ends : ∀ r ∈ rows, ∃ line, r.text = line ++ ['\n']) (whole : row ∈ wholeRows bufLen cut rows) :
    ∃ before after, prepBuf bufLen rows = before ++ row.text ++ after ∧
      ((before = [] ∧ cut = false) ∨ ∃ line, before = line ++ ['\n']) := by
  induction rows generalizing bufLen cut with
  | nil => simp [wholeRows] at whole
  | cons r rows ih =>
    have ends' : ∀ q ∈ rows, ∃ line, q.text = line ++ ['\n'] :=
      fun q hq => ends q (List.mem_cons_of_mem _ hq)
    simp only [wholeRows] at whole
    simp only [prepBuf]
    split at whole
    · rename_i room
      rw [if_pos room]
      rcases List.mem_append.mp whole with here | later
      · split at here
        · rename_i own
          rw [List.mem_singleton] at here
          have printed : snprintf rowBufSize r.text = r.text := by
            apply List.take_of_length_le
            have := own.1
            omega
          exact ⟨[], _, by rw [printed, here, List.nil_append], Or.inl ⟨rfl, own.2⟩⟩
        · simp at here
      · obtain ⟨before, after, message, start⟩ := ih _ _ ends' later
        refine ⟨snprintf rowBufSize r.text ++ before, after, by simp [message], Or.inr ?_⟩
        rcases start with ⟨rfl, uncut⟩ | ⟨line, rfl⟩
        · -- the next row starts here, so this one was printed with its line feed
          obtain ⟨line, text⟩ := ends r List.mem_cons_self
          have printed : snprintf rowBufSize r.text = r.text := by
            apply List.take_of_length_le
            simp only [decide_eq_false_iff_not, not_le] at uncut
            omega
          exact ⟨line, by rw [printed, text, List.append_nil]⟩
        · exact ⟨snprintf rowBufSize r.text ++ line, by simp⟩
    · rename_i full
      obtain ⟨before, after, message, start⟩ := ih _ _ ends' whole
      exact ⟨before, after, by rw [if_neg full, List.nil_append, message], start⟩

end SonicBmp.Bus.Kafka
