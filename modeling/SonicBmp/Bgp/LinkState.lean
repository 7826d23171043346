/- module: SonicBmp/Bgp/LinkState
   digest: The link-state NLRI parser: nodes, links, prefixes and their descriptors. -/

import SonicBmp.Bus.Kafka
import SonicBmp.Library.Memory

set_option autoImplicit false
set_option relaxedAutoImplicit false

namespace SonicBmp.Bgp.LinkState

open SonicBmp.Library.Memory
open SonicBmp.Library.Printing (Text snprintf)
open SonicBmp.Bus.Kafka (HashId Md5)

/-! Descriptors. -/

section Descr

variable {δ : Type}

/-- A parser for one sub-TLV at `data`, with `dataLen` octets left: the octets counted and
the descriptor. It always counts some. -/
structure DescrParser (δ : Type) where
  parse (data dataLen : Nat) (info : δ) : Nat × δ
  advances : ∀ data dataLen info, 0 < dataLen → 0 < (parse data dataLen info).1

/-- What the three descriptor parsers share: the header of the sub-TLV. `value` gets the
octets left, the type, the length and the place of the value, and says how many octets it
counts behind the header. -/
def parseDescr (m : Mem) (value : Nat → Nat → Nat → Nat → δ → Nat × δ) : DescrParser δ where
  parse data dataLen info :=
    if dataLen < 4 then (dataLen, info)
    else
      let len := u16 m (data + 2)
      if dataLen - 4 < len then (dataLen, info)
      else
        let read := value dataLen (u16 m data) len (data + 4) info
        (4 + read.1, read.2)
  advances := by
    intro data dataLen info more
    split
    · exact more
    · dsimp only
      split
      · exact more
      · exact Nat.lt_of_lt_of_le (by decide) (Nat.le_add_right 4 _)

/-- `while (left > 0)` over the sub-TLVs: the octets counted and the descriptor. A prefix
descriptor may count one octet more than is left; its remaining length is then negative and
ends the loop as zero does. -/
def descrLoop (p : DescrParser δ) (data left : Nat) (info : δ) : Nat × δ :=
  if _ : 0 < left then
    let read := p.parse data left info
    let rest := descrLoop p (data + read.1) (left - read.1) read.2
    (read.1 + rest.1, rest.2)
  else (0, info)
termination_by left
decreasing_by
  have := p.advances data left info ‹_›
  omega

theorem descrLoop_done (p : DescrParser δ) (data : Nat) (info : δ) :
    descrLoop p data 0 info = (0, info) := by
  rw [descrLoop, dif_neg (Nat.lt_irrefl 0)]

theorem descrLoop_step (p : DescrParser δ) {data left : Nat} (info : δ) (more : 0 < left) :
    descrLoop p data left info =
      let read := p.parse data left info
      let rest := descrLoop p (data + read.1) (left - read.1) read.2
      (read.1 + rest.1, rest.2) := by
  rw [descrLoop, dif_pos more]

end Descr

/-- `node_descriptor`; the BGP router identifier is kept as the octets it is copied from. -/
structure NodeDescriptor where
  asn : Nat
  bgpLsId : Nat
  igpRouterId : List UInt8
  ospfAreaId : List UInt8
  bgpRouterId : List UInt8
  hashBin : HashId
  deriving DecidableEq

def NodeDescriptor.zero : NodeDescriptor :=
  ⟨0, 0, List.replicate 8 0, List.replicate 4 0, List.replicate 4 0, HashId.zero⟩

/-- The cases of `parseDescrLocalRemoteNode`. -/
def nodeDescr (m : Mem) (dataLen type len data : Nat) (info : NodeDescriptor) :
    Nat × NodeDescriptor :=
  match type with
  | 512 => if len ≠ 4 then (len, info) else (4, { info with asn := u32 m data })
  | 513 => if len ≠ 4 then (len, info) else (4, { info with bgpLsId := u32 m data })
  | 514 =>
    if len ≠ 4 then (if len ≤ dataLen then len else dataLen, info)
    else (4, { info with ospfAreaId := readBytes m data 4 })
  | 515 =>
    if dataLen < len ∨ 8 < len then (len, info)
    else (len, { info with igpRouterId := readBytes m data len ++ List.replicate (8 - len) 0 })
  | 516 =>
    if len ≠ 4 then (if len ≤ dataLen then len else dataLen, info)
    else (4, { info with bgpRouterId := readBytes m data 4 })
  | _ => (len, info)

/-- `MPLinkState::parseDescrLocalRemoteNode`. -/
def parseDescrLocalRemoteNode (m : Mem) : DescrParser NodeDescriptor := parseDescr m (nodeDescr m)

/-- The octets the node hash is made of; the two numbers as they lie in memory. -/
def nodeHashInput (info : NodeDescriptor) : List UInt8 :=
  info.igpRouterId ++ (leBytes 4 info.bgpLsId ++ (leBytes 4 info.asn ++ info.ospfAreaId))

/-- `MPLinkState::genNodeHashId`. -/
def genNodeHashId (md5 : Md5) (info : NodeDescriptor) : NodeDescriptor :=
  { info with hashBin := md5 (nodeHashInput info) }

structure LinkDescriptor where
  localId : Nat
  remoteId : Nat
  intfAddr : List UInt8
  neiAddr : List UInt8
  mtId : Nat
  isIPv4 : Bool
  deriving DecidableEq

def LinkDescriptor.zero : LinkDescriptor :=
  ⟨0, 0, List.replicate 16 0, List.replicate 16 0, 0, false⟩

/-- The new first octets of a field of 16. -/
def overwrite (field bytes : List UInt8) : List UInt8 := bytes ++ field.drop bytes.length

/-- An address of `size` octets for a family: the family is noted even where the length is
wrong. -/
def linkAddr (m : Mem) (dataLen size len data : Nat) (noted : LinkDescriptor)
    (store : List UInt8 → LinkDescriptor) : Nat × LinkDescriptor :=
  if len ≠ size then (if len ≤ dataLen then len else dataLen, noted)
  else (size, store (readBytes m data size))

/-- A multi-topology identifier: of the 32-bit number the upper half is kept, which are the
first two octets; a longer one counts as zero, a shorter one is skipped. -/
def mtIdOf (m : Mem) (len data mtId : Nat) : Nat :=
  if len < 2 then mtId else if 4 < len then 0 else u16 m data

/-- The cases of `parseDescrLink`. -/
def linkDescr (m : Mem) (dataLen type len data : Nat) (info : LinkDescriptor) :
    Nat × LinkDescriptor :=
  match type with
  | 258 =>
    if len ≠ 8 then (len, info)
    else (8, { info with localId := u32 m data, remoteId := u32 m (data + 4) })
  | 259 =>
    let info := { info with isIPv4 := true }
    linkAddr m dataLen 4 len data info
      (fun addr => { info with intfAddr := overwrite info.intfAddr addr })
  | 260 =>
    let info := { info with isIPv4 := true }
    linkAddr m dataLen 4 len data info
      (fun addr => { info with neiAddr := overwrite info.neiAddr addr })
  | 261 =>
    let info := { info with isIPv4 := false }
    linkAddr m dataLen 16 len data info
      (fun addr => { info with intfAddr := overwrite info.intfAddr addr })
  | 262 =>
    let info := { info with isIPv4 := false }
    linkAddr m dataLen 16 len data info
      (fun addr => { info with neiAddr := overwrite info.neiAddr addr })
  | 263 => (len, { info with mtId := mtIdOf m len data info.mtId })
  | _ => (len, info)

/-- `MPLinkState::parseDescrLink`. -/
def parseDescrLink (m : Mem) : DescrParser LinkDescriptor := parseDescr m (linkDescr m)

structure PrefixDescriptor where
  ospfRouteType : Text
  mtId : Nat
  pre : List UInt8
  preBcast : List UInt8
  prefixLen : Nat
  deriving DecidableEq

def PrefixDescriptor.zero : PrefixDescriptor :=
  ⟨[], 0, List.replicate 16 0, List.replicate 16 0, 0⟩

/-- A number as `n` octets, most significant first. -/
def beBytes (n value : Nat) : List UInt8 := (leBytes n value).reverse

def endingV4 (prefixLen : Nat) (pre preBcast : List UInt8) : List UInt8 :=
  if prefixLen < 32 then
    overwrite preBcast (beBytes 4 (bigEndian (pre.take 4) ||| 0xFFFFFFFF >>> prefixLen))
  else pre

def endingV6 (prefixLen : Nat) (pre : List UInt8) : List UInt8 :=
  if prefixLen < 128 then
    if 64 ≤ prefixLen then
      pre.take 8 ++
        beBytes 8 (bigEndian (pre.drop 8) ||| 0xFFFFFFFFFFFFFFFF >>> (prefixLen - 64))
    else
      beBytes 8 (bigEndian (pre.take 8) ||| 0xFFFFFFFFFFFFFFFF >>> prefixLen) ++
        beBytes 8 0xFFFFFFFFFFFFFFFF
  else pre

/-- `prefix`, `prefix_bcast` and `prefix_len` lie behind one another: what is copied beyond
the 16 octets of the prefix falls on the other two. Behind them the copy leaves the
descriptor. -/
def copyPrefix (bytes : List UInt8) (info : PrefixDescriptor) : PrefixDescriptor :=
  let region := overwrite
    (List.replicate 16 0 ++ (info.preBcast ++ [UInt8.ofNat info.prefixLen])) (bytes.take 33)
  { info with
    pre := region.take 16
    preBcast := (region.drop 16).take 16
    prefixLen := (region.getD 32 0).toNat }

/-- IP reachability: the prefix, and the last address it covers. -/
def ipReach (m : Mem) (isIPv4 : Bool) (len data : Nat) (info : PrefixDescriptor) :
    PrefixDescriptor :=
  let info := copyPrefix (readBytes m (data + 1) (len - 1)) { info with prefixLen := u8 m data }
  { info with
    preBcast := if isIPv4 then endingV4 info.prefixLen info.pre info.preBcast
      else endingV6 info.prefixLen info.pre }

def ospfRouteType (code : Nat) : Text :=
  match code with
  | 2 => "Inter".toList
  | 3 => "Ext-1".toList
  | 4 => "Ext-2".toList
  | 5 => "NSSA-1".toList
  | 6 => "NSSA-2".toList
  | _ => "Intra".toList

/-- The cases of `parseDescrPrefix`. The OSPF route type counts one octet whatever its
length. -/
def prefixDescr (m : Mem) (isIPv4 : Bool) (_dataLen type len data : Nat) (info : PrefixDescriptor) :
    Nat × PrefixDescriptor :=
  match type with
  | 263 => (len, { info with mtId := mtIdOf m len data info.mtId })
  | 264 => (1, { info with ospfRouteType := ospfRouteType (u8 m data) })
  | 265 => if len < 1 then (len, info) else (len, ipReach m isIPv4 len data info)
  | _ => (len, info)

/-- `MPLinkState::parseDescrPrefix`. -/
def parseDescrPrefix (m : Mem) (isIPv4 : Bool) : DescrParser PrefixDescriptor :=
  parseDescr m (prefixDescr m isIPv4)

/-! NLRI. -/

/-- The text of `MPLinkState::decodeNlriProtocolId`. -/
def decodeNlriProtocolId (protoId : Nat) : Text :=
  match protoId with
  | 1 => "IS-IS_L1".toList
  | 2 => "IS-IS_L2".toList
  | 3 => "OSPFv2".toList
  | 4 => "Direct".toList
  | 5 => "Static".toList
  | 6 => "OSPFv3".toList
  | 7 => "EPE".toList
  | _ => []

/-- The members of `obj_ls_node` the NLRI parser fills. -/
structure LsNode where
  hashId : HashId
  id : Nat
  isIPv4 : Bool
  asn : Nat
  bgpLsId : Nat
  igpRouterId : List UInt8
  ospfAreaId : List UInt8
  protocol : Text
  deriving DecidableEq

structure LsLink where
  id : Nat
  mtId : Nat
  bgpLsId : Nat
  igpRouterId : List UInt8
  remoteIgpRouterId : List UInt8
  ospfAreaId : List UInt8
  localNodeAsn : Nat
  remoteNodeAsn : Nat
  localBgpRouterId : List UInt8
  remoteBgpRouterId : List UInt8
  protocol : Text
  intfAddr : List UInt8
  neiAddr : List UInt8
  localLinkId : Nat
  remoteLinkId : Nat
  isIPv4 : Bool
  localNodeHashId : HashId
  remoteNodeHashId : HashId
  deriving DecidableEq

structure LsPrefix where
  id : Nat
  protocol : Text
  bgpLsId : Nat
  igpRouterId : List UInt8
  ospfAreaId : List UInt8
  localNodeHashId : HashId
  mtId : Nat
  isIPv4 : Bool
  prefixLen : Nat
  ospfRouteType : Text
  prefixBin : List UInt8
  prefixBcastBin : List UInt8
  deriving DecidableEq

/-- A link before its descriptors are read. -/
def LsLink.fresh (id protoId : Nat) : LsLink where
  id := id
  mtId := 0
  bgpLsId := 0
  igpRouterId := List.replicate 8 0
  remoteIgpRouterId := List.replicate 8 0
  ospfAreaId := List.replicate 4 0
  localNodeAsn := 0
  remoteNodeAsn := 0
  localBgpRouterId := List.replicate 4 0
  remoteBgpRouterId := List.replicate 4 0
  protocol := snprintf 32 (decodeNlriProtocolId protoId)
  intfAddr := List.replicate 16 0
  neiAddr := List.replicate 16 0
  localLinkId := 0
  remoteLinkId := 0
  isIPv4 := false
  localNodeHashId := HashId.zero
  remoteNodeHashId := HashId.zero

/-- A node descriptor of a link goes where its type says, one of another type nowhere. -/
def LsLink.withNode (link : LsLink) (type : Nat) (info : NodeDescriptor) : LsLink :=
  match type with
  | 256 => { link with
      localNodeHashId := info.hashBin
      ospfAreaId := info.ospfAreaId
      bgpLsId := info.bgpLsId
      localNodeAsn := info.asn
      igpRouterId := info.igpRouterId
      localBgpRouterId := info.bgpRouterId }
  | 257 => { link with
      remoteNodeHashId := info.hashBin
      remoteIgpRouterId := info.igpRouterId
      remoteNodeAsn := info.asn
      remoteBgpRouterId := info.bgpRouterId }
  | _ => link

def LsLink.withLink (link : LsLink) (info : LinkDescriptor) : LsLink :=
  { link with
    isIPv4 := info.isIPv4
    mtId := info.mtId
    localLinkId := info.localId
    remoteLinkId := info.remoteId
    intfAddr := info.intfAddr
    neiAddr := info.neiAddr }

section Nlri

variable (md5 : Md5) (m : Mem)

/-- A node descriptor with its header, of `dataLen` octets left: its type, the octets
counted and what it says; `none` where its length goes beyond them. -/
def nodeBlock (data dataLen : Nat) : Option (Nat × Nat × NodeDescriptor) :=
  let len := u16 m (data + 2)
  if dataLen < 4 + len then none
  else
    let read := descrLoop (parseDescrLocalRemoteNode m) (data + 4) len NodeDescriptor.zero
    some (u16 m data, 4 + read.1, genNodeHashId md5 read.2)

def LsNode.of (id protoId : Nat) (info : NodeDescriptor) : LsNode where
  hashId := info.hashBin
  id := id
  isIPv4 := true
  asn := info.asn
  bgpLsId := info.bgpLsId
  igpRouterId := info.igpRouterId
  ospfAreaId := info.ospfAreaId
  protocol := snprintf 32 (decodeNlriProtocolId protoId)

def LsPrefix.of (id protoId : Nat) (isIPv4 : Bool) (localNode : NodeDescriptor)
    (info : PrefixDescriptor) : LsPrefix where
  id := id
  protocol := snprintf 32 (decodeNlriProtocolId protoId)
  bgpLsId := localNode.bgpLsId
  igpRouterId := localNode.igpRouterId
  ospfAreaId := localNode.ospfAreaId
  localNodeHashId := localNode.hashBin
  mtId := info.mtId
  isIPv4 := isIPv4
  prefixLen := info.prefixLen
  ospfRouteType := info.ospfRouteType
  prefixBin := info.pre
  prefixBcastBin := info.preBcast

/-- `MPLinkState::parseNlriNode`. -/
def parseNlriNode (data dataLen id protoId : Nat) : Option LsNode :=
  if dataLen < 4 then none
  else do
    let (type, _, info) ← nodeBlock md5 m data dataLen
    if type ≠ 256 then none else some (LsNode.of id protoId info)

/-- `MPLinkState::parseNlriLink`. The second descriptor is read even where no header of one
is left. -/
def parseNlriLink (data dataLen id protoId : Nat) : Option LsLink :=
  if dataLen < 4 then none
  else do
    let (type, read, info) ← nodeBlock md5 m data dataLen
    let link := (LsLink.fresh id protoId).withNode type info
    let (type', read', info') ← nodeBlock md5 m (data + read) (dataLen - read)
    let link := link.withNode type' info'
    let descr := descrLoop (parseDescrLink m) (data + read + read') (dataLen - read - read')
      LinkDescriptor.zero
    some (link.withLink descr.2)

/-- `MPLinkState::parseNlriPrefix`. -/
def parseNlriPrefix (data dataLen id protoId : Nat) (isIPv4 : Bool) : Option LsPrefix :=
  if dataLen < 4 then none
  else do
    let (type, read, localNode) ← nodeBlock md5 m data dataLen
    if type ≠ 256 then none
    else
      let descr := descrLoop (parseDescrPrefix m isIPv4) (data + read) (dataLen - read)
        PrefixDescriptor.zero
      some (LsPrefix.of id protoId isIPv4 localNode descr.2)

/-- `parsed_data_ls`. -/
structure LsData where
  nodes : List LsNode
  links : List LsLink
  prefixes : List LsPrefix
  deriving DecidableEq

def LsData.none : LsData := ⟨[], [], []⟩

def LsData.addNode (ls : LsData) (node : Option LsNode) : LsData :=
  { ls with nodes := ls.nodes ++ node.toList }

def LsData.addLink (ls : LsData) (link : Option LsLink) : LsData :=
  { ls with links := ls.links ++ link.toList }

def LsData.addPrefix (ls : LsData) (entry : Option LsPrefix) : LsData :=
  { ls with prefixes := ls.prefixes ++ entry.toList }

/-- The `switch` over the NLRI type; a type that is not implemented leaves the loop. -/
def nlriBody (type data dataLen id protoId : Nat) (ls : LsData) : Option LsData :=
  match type with
  | 1 => some (ls.addNode (parseNlriNode md5 m data dataLen id protoId))
  | 2 => some (ls.addLink (parseNlriLink md5 m data dataLen id protoId))
  | 3 => some (ls.addPrefix (parseNlriPrefix md5 m data dataLen id protoId true))
  | 4 => some (ls.addPrefix (parseNlriPrefix md5 m data dataLen id protoId false))
  | _ => none

/-- One turn at `data`: the octets it goes on by and the data with the entry, or `none`
where the loop is left. The length behind the identifier is a 16-bit number. -/
def nlriTurn (len data : Nat) (ls : LsData) : Option (Nat × LsData) :=
  let nlriLen := u16 m (data + 2)
  if len < nlriLen then none
  else
    let left := (nlriLen + 2 ^ 16 - 9) % 2 ^ 16
    (nlriBody md5 m (u16 m data) (data + 13) left (bigEndian (readBytes m (data + 5) 8))
      (u8 m (data + 4)) ls).map fun ls => (13 + left, ls)

/-- `while (nlri_len_read < len)`, the count being a 16-bit number that may wrap around:
`none` if the loop has not ended after `fuel` turns. -/
def nlriLoop (len : Nat) : Nat → Nat → Nat → LsData → Option LsData
  | 0, _, _, _ => none
  | fuel + 1, data, read, ls =>
    if read < len then
      match nlriTurn md5 m len data ls with
      | none => some ls
      | some (n, ls) => nlriLoop len fuel (data + n) ((read + n) % 2 ^ 16) ls
    else some ls

/-- `MPLinkState::parseLinkStateNlriData` comes back with these data. -/
def ParsesLinkState (data len : Nat) (ls ls' : LsData) : Prop :=
  ∃ fuel, nlriLoop md5 m len fuel data 0 ls = some ls'

section Fuel

variable {md5 m} {len : Nat}

theorem nlriLoop_more {ls' : LsData} (fuel : Nat) : ∀ (more data read : Nat) (ls : LsData),
    nlriLoop md5 m len fuel data read ls = some ls' →
      nlriLoop md5 m len (fuel + more) data read ls = some ls' := by
  induction fuel with
  | zero =>
    intro more data read ls ends
    cases ends
  | succ fuel ih =>
    intro more data read ls ends
    rw [Nat.add_right_comm, nlriLoop]
    rw [nlriLoop] at ends
    split
    · rename_i inside
      rw [if_pos inside] at ends
      cases turn : nlriTurn md5 m len data ls with
      | none =>
        rw [turn] at ends
        exact ends
      | some next =>
        rw [turn] at ends
        exact ih more _ _ _ ends
    · rename_i done
      rwa [if_neg done] at ends

/-- The data do not depend on the fuel. -/
theorem ParsesLinkState.unique {data : Nat} {ls out out' : LsData}
    (one : ParsesLinkState md5 m data len ls out) (two : ParsesLinkState md5 m data len ls out') :
    out = out' := by
  obtain ⟨fuel, ends⟩ := one
  obtain ⟨fuel', ends'⟩ := two
  have enough := nlriLoop_more fuel fuel' _ _ _ ends
  have enough' := nlriLoop_more fuel' fuel _ _ _ ends'
  rw [Nat.add_comm, enough] at enough'
  exact Option.some.inj enough'

end Fuel

end Nlri

end SonicBmp.Bgp.LinkState
