/- module: SonicBmp/Configuration
   digest: The configuration: its defaults, the command line and the YAML file. -/

import SonicBmp.Library.OrderedMap
import SonicBmp.Library.Throwing
import SonicBmp.Bus.GroupLookup
import SonicBmp.Bus.TopicSelector

set_option autoImplicit false
set_option relaxedAutoImplicit false

namespace SonicBmp.Configuration

open SonicBmp.Library.Printing
open SonicBmp.Library.Throwing
open SonicBmp.Library.OrderedMap
open SonicBmp.Bus.PrefixRanges
open SonicBmp.Bus.GroupLookup (GroupConfig)
open SonicBmp.Bus.TopicSelector (TopicVar replaceAll)

/-- `Config` without the collector hash and the baseline times, which are not configured. Compiled
expressions have the type `ρ`. -/
structure Config (ρ : Type) where
  adminId : Text
  kafkaBrokers : Text
  bmpPort : UInt16
  bindIpv4 : Text
  bindIpv6 : Text
  bmpBufferSize : Int
  svrIpv4 : Bool
  svrIpv6 : Bool
  debugGeneral : Bool
  debugBgp : Bool
  debugBmp : Bool
  debugMsgbus : Bool
  heartbeatInterval : Int
  txMaxBytes : Int
  rxMaxBytes : Int
  sessionTimeout : Int
  socketTimeout : Int
  qBufMaxMsgs : Int
  qBufMaxKbytes : Int
  qBufMaxMs : Int
  msgSendMaxRetry : Int
  retryBackoffMs : Int
  compression : Text
  maxConcurrentRouters : Int
  initialRouterTime : Int
  calculateBaseline : Bool
  patEnabled : Bool
  groups : GroupConfig ρ
  topicVars : SortedMap Text Text
  topicNames : TopicVar → Text

def maxThreads : Int := 200

/-- `MSGBUS_TOPIC_*`. -/
def defaultTopic : TopicVar → String
  | .collector => "openbmp.parsed.collector"
  | .router => "openbmp.parsed.router"
  | .peer => "openbmp.parsed.peer"
  | .baseAttribute => "openbmp.parsed.base_attribute"
  | .unicastPrefix => "openbmp.parsed.unicast_prefix"
  | .l3vpn => "openbmp.parsed.l3vpn"
  | .evpn => "openbmp.parsed.evpn"
  | .lsNode => "openbmp.parsed.ls_node"
  | .lsLink => "openbmp.parsed.ls_link"
  | .lsPrefix => "openbmp.parsed.ls_prefix"
  | .bmpStat => "openbmp.parsed.bmp_stat"
  | .bmpRaw => "openbmp.bmp_raw"

/-- `Config::Config` of the Kafka build. -/
def Config.default (ρ : Type) : Config ρ where
  adminId := []
  kafkaBrokers := "localhost:9092".toList
  bmpPort := 5000
  bindIpv4 := []
  bindIpv6 := []
  bmpBufferSize := 15 * 1024 * 1024
  svrIpv4 := true
  svrIpv6 := false
  debugGeneral := false
  debugBgp := false
  debugBmp := false
  debugMsgbus := false
  heartbeatInterval := 60 * 5
  txMaxBytes := 1000000
  rxMaxBytes := 100000000
  sessionTimeout := 30000
  socketTimeout := 60000
  qBufMaxMsgs := 100000
  qBufMaxKbytes := 1048576
  qBufMaxMs := 1000
  msgSendMaxRetry := 2
  retryBackoffMs := 100
  compression := "snappy".toList
  maxConcurrentRouters := 2
  initialRouterTime := 60
  calculateBaseline := true
  patEnabled := false
  groups := ⟨.empty, .empty, .empty, .empty, .empty⟩
  topicVars := .empty
  topicNames := fun v => (defaultTopic v).toList

/-! YAML nodes. -/

inductive Yaml
  | null
  | scalar (text : Text)
  | sequence (items : List Yaml)
  | map (entries : List (Yaml × Yaml))

def Yaml.isScalar : Yaml → Bool
  | .scalar _ => true
  | _ => false

/-- `Scalar()`, which is empty for every other node. -/
def Yaml.text : Yaml → Text
  | .scalar text => text
  | _ => []

/-- `node[key]` of a map; only scalars are keys that can be asked for. -/
def find (entries : List (Yaml × Yaml)) (key : String) : Option Yaml :=
  (entries.find? fun entry => entry.1.isScalar && decide (entry.1.text = key.toList)).map Prod.snd

/-- What keeps a configuration from being loaded: a text that `main` prints, an invalid node,
whose text `load` passes on, or an exception of the library that is not caught. -/
inductive Failure
  | text (message : String)
  | invalidNode
  | badConversion
  | badSubscript

/-- The conversions of the YAML library and the other things that are asked for: the text that a
null node converts to, if it does, the name of the host, and whether `map[key] = value` makes
the entry before it converts the value. -/
structure YamlEnv (ρ : Type) where
  int : Text → Option Int
  uint16 : Text → Option UInt16
  uint32 : Text → Option UInt32
  bool : Text → Option Bool
  nullString : Option Text
  hostname : Text
  compile : Text → Option ρ
  inetPton : InetPton
  entryFirst : Bool

/-- `as<T>()` for a type that only scalars convert to. -/
def scalarAs {α : Type} (convert : Text → Option α) : Yaml → Option α
  | .scalar text => convert text
  | _ => none

variable {ρ : Type} (env : YamlEnv ρ)

/-- `as<std::string>()`. -/
def YamlEnv.string : Yaml → Option Text
  | .scalar text => some text
  | .null => env.nullString
  | _ => none

/-! Loading. -/

/-- The configuration so far, and the warnings with the nodes they are about. -/
structure Loading (ρ : Type) where
  cfg : Config ρ
  warnings : List (String × Yaml)

abbrev Load (ρ : Type) := Throws Failure (Loading ρ)

def store (change : Config ρ → Config ρ) : Load ρ Unit := modify fun s => { s with cfg := change s.cfg }

def printWarning (message : String) (node : Yaml) : Load ρ Unit :=
  modify fun s => { s with warnings := s.warnings ++ [(message, node)] }

/-- `if (node)`. -/
def given (node : Option Yaml) (p : Yaml → Load ρ Unit) : Load ρ Unit :=
  match node with
  | some node => p node
  | none => pure ()

/-- A conversion that fails leaves a warning. -/
def converted {α : Type} (convert : Yaml → Option α) (warning : String) (node : Yaml)
    (p : α → Load ρ Unit) : Load ρ Unit :=
  match convert node with
  | some value => p value
  | none => printWarning warning node

/-- A conversion that fails ends the program. -/
def convertedOrBad {α : Type} (convert : Yaml → Option α) (node : Yaml) (p : α → Load ρ Unit) : Load ρ Unit :=
  match convert node with
  | some value => p value
  | none => throw .badConversion

/-- `node[section][key]`: a scalar has no keys. -/
def givenIn (node : Option Yaml) (key : String) (p : Yaml → Load ρ Unit) : Load ρ Unit :=
  given node fun inner => match inner with
    | .map entries => given (find entries key) p
    | .scalar _ => throw .badSubscript
    | _ => pure ()

/-- A number that has to be in a range. -/
def ranged (low high : Int) (error : String) (set : Int → Config ρ → Config ρ) (n : Int) : Load ρ Unit :=
  if n < low ∨ high < n then throw (.text error) else store (set n)

def parseBase (entries : List (Yaml × Yaml)) : Load ρ Unit := do
  given (find entries "admin_id") fun node =>
    converted env.string "admin_id is not of type string" node fun value =>
      store fun cfg => { cfg with
        adminId := strncpy 64 (if value = "hostname".toList then env.hostname else cString value) }
  given (find entries "listen_port") fun node =>
    converted (scalarAs env.uint16) "bmp_port is not of type unsigned 16 bit" node fun port =>
      if port < 25 then throw (.text "invalid listen_port, not within range of 25 - 65535)")
      else store fun cfg => { cfg with bmpPort := port }
  given (find entries "listen_ipv4") fun node =>
    convertedOrBad env.string node fun value => store fun cfg => { cfg with bindIpv4 := value }
  given (find entries "listen_ipv6") fun node =>
    convertedOrBad env.string node fun value => store fun cfg => { cfg with bindIpv6 := value }
  given (find entries "listen_mode") fun node =>
    converted env.string "listen_mode is not of type string" node fun value =>
      store fun cfg =>
        if value = "v4".toList then { cfg with svrIpv4 := true }
        else if value = "v6".toList then { cfg with svrIpv6 := true, svrIpv4 := false }
        else { cfg with svrIpv6 := true, svrIpv4 := true }
  givenIn (find entries "buffers") "router" fun node =>
    converted (scalarAs env.int) "buffers.router is not of type int" node
      (ranged 2 384 "invalid router buffer size, not within range of 2 - 384)"
        fun n cfg => { cfg with bmpBufferSize := n * (1024 * 1024) })
  givenIn (find entries "heartbeat") "interval" fun node =>
    converted (scalarAs env.int) "heartbeat.router is not of type int" node
      (ranged 1 1440 "invalid heartbeat interval not within range of 1 - 1440)"
        fun n cfg => { cfg with heartbeatInterval := n * 60 })
  givenIn (find entries "startup") "max_concurrent_routers" fun node =>
    converted (scalarAs env.int) "max_concurrent_routers is not of type int" node fun n =>
      if n = 0 then store fun cfg => { cfg with maxConcurrentRouters := maxThreads }
      else if n < 0 then throw (.text "invalid maximum concurrent routers not greater than 0)")
      else store fun cfg => { cfg with maxConcurrentRouters := n }
  givenIn (find entries "startup") "initial_router_time" fun node =>
    converted (scalarAs env.int) "initial_router_time is not of type int" node
      (ranged 5 1800 "invalid initial router time not within range of 5-1800 seconds)"
        fun n cfg => { cfg with initialRouterTime := n })
  givenIn (find entries "startup") "calculate_baseline" fun node =>
    converted (scalarAs env.bool) "calculate_baseline is not of type bool" node fun value =>
      store fun cfg => { cfg with calculateBaseline := value }
  givenIn (find entries "startup") "pat_enabled" fun node =>
    converted (scalarAs env.bool) "pat_enabled is not of type bool" node fun value =>
      store fun cfg => { cfg with patEnabled := value }

/-- A switch of the debug section, which is not read again once it is on. -/
def debugSwitch (entries : List (Yaml × Yaml)) (key warning : String) (isOn : Config ρ → Bool)
    (set : Bool → Config ρ → Config ρ) : Load ρ Unit := do
  let s ← get
  if isOn s.cfg then pure ()
  else given (find entries key) fun node =>
    converted (scalarAs env.bool) warning node fun value => store (set value)

def parseDebug (entries : List (Yaml × Yaml)) : Load ρ Unit := do
  debugSwitch env entries "general" "debug.general is not of type boolean" Config.debugGeneral
    fun value cfg => { cfg with debugGeneral := value }
  debugSwitch env entries "bmp" "debug.bmp is not of type boolean" Config.debugBmp
    fun value cfg => { cfg with debugBmp := value }
  debugSwitch env entries "bgp" "debug.bgp is not of type boolean" Config.debugBgp
    fun value cfg => { cfg with debugBgp := value }
  debugSwitch env entries "msgbus" "debug.msgbus is not of type boolean" Config.debugMsgbus
    fun value cfg => { cfg with debugMsgbus := value }

/-- A list of brokers is joined with commas; empty entries are left out. -/
def joinBrokers (items : List Yaml) : Text :=
  items.foldl (fun brokers item =>
    if item.text = [] then brokers
    else if brokers = [] then item.text else brokers ++ ',' :: item.text) []

/-- A setting of the producer, which is only read where it is a scalar. -/
def producerInt (entries : List (Yaml × Yaml)) (key warning : String) (low high : Int)
    (error : String) (set : Int → Config ρ → Config ρ) : Load ρ Unit :=
  given (find entries key) fun node =>
    if node.isScalar then converted (scalarAs env.int) warning node (ranged low high error set)
    else pure ()

/-! Topics. -/

/-- A variable of the topics. The application's own names are not taken, except for that of the
peer's ASN. -/
def readVariable (entry : Yaml × Yaml) : Load ρ Unit :=
  let warning := "kafka.topics.variables error in map.  Make sure to define var: <string value>"
  match env.string entry.1 with
  | none => printWarning warning entry.2
  | some var =>
    if var = "router_group".toList ∨ var = "peer_group".toList then pure ()
    else match env.string entry.2 with
      | some value => store fun cfg => { cfg with topicVars := cfg.topicVars.assign var value }
      | none => do
        -- an entry that exists keeps its value
        if env.entryFirst then
          store fun cfg => { cfg with
            topicVars :=
              if (cfg.topicVars.entries.lookup var).isSome then cfg.topicVars
              else cfg.topicVars.assign var [] }
        printWarning warning entry.2

def topicVarOf (name : Text) : Option TopicVar :=
  [TopicVar.collector, .router, .peer, .baseAttribute, .unicastPrefix, .l3vpn, .evpn, .lsNode,
    .lsLink, .lsPrefix, .bmpStat, .bmpRaw].find? fun v => v.text = name

/-- A name of a topic; null disables the topic, and unknown topics are passed over. -/
def readName (entry : Yaml × Yaml) : Load ρ Unit :=
  let warning := "kafka.topics.names error in map.  Make sure to define var: <string value>"
  match env.string entry.1 with
  | none => printWarning warning entry.2
  | some name =>
    match topicVarOf name with
    | none => pure ()
    | some v =>
      match entry.2 with
      | .null => store fun cfg => { cfg with topicNames := Function.update cfg.topicNames v [] }
      | value => converted env.string warning value fun text =>
          store fun cfg => { cfg with topicNames := Function.update cfg.topicNames v text }

/-- How a variable is written in a name. -/
def topicMark (var : Text) : Text := '\x7b' :: (var ++ ['\x7d'])

def topicSubstitutions (cfg : Config ρ) : Config ρ :=
  { cfg with
    topicNames := fun v =>
      cfg.topicVars.entries.foldl (fun name var => replaceAll (topicMark var.1) var.2 name)
        (cfg.topicNames v) }

def parseTopics (entries : List (Yaml × Yaml)) : Load ρ Unit := do
  given (find entries "variables") fun node => match node with
    | .map vars => vars.forM (readVariable env)
    | _ => pure ()
  given (find entries "names") fun node => match node with
    | .map names => names.forM (readName env)
    | _ => pure ()
  store topicSubstitutions

def parseKafka (entries : List (Yaml × Yaml)) : Load ρ Unit := do
  given (find entries "brokers") fun node => match node with
    | .sequence items => store fun cfg => { cfg with kafkaBrokers := joinBrokers items }
    | _ => pure ()
  producerInt env entries "message.max.bytes" "message.max.bytes is not of type int"
    1000 1000000000 "invalid transmit max bytes , should be in range 1000 - 1000000000"
    fun n cfg => { cfg with txMaxBytes := if n = 200000000 then 1000000 else n }
  producerInt env entries "receive.message.max.bytes" "receive.message.max.bytes is not of type int"
    1000 1000000000 "invalid receive max bytes , should be in range 1000 - 1000000000"
    fun n cfg => { cfg with rxMaxBytes := n }
  producerInt env entries "session.timeout.ms" "session_timeout is not of type int"
    1 3600000 "invalid receive max bytes , should be in range 1 - 3600000"
    fun n cfg => { cfg with sessionTimeout := n }
  producerInt env entries "socket.timeout.ms" "socket_timeout is not of type int"
    10 300000 "invalid receive max bytes , should be in range 10 - 300000"
    fun n cfg => { cfg with socketTimeout := n }
  producerInt env entries "queue.buffering.max.messages" "q_buf_max_msgs is not of type int"
    1 10000000 "invalid receive max bytes , should be in range 1 - 10000000"
    fun n cfg => { cfg with qBufMaxMsgs := n }
  producerInt env entries "queue.buffering.max.kbytes" "q_buf_max_kbytes is not of type int"
    1 2097151 "invalid receive max bytes , should be in range 1 - 2097151"
    fun n cfg => { cfg with qBufMaxKbytes := n }
  producerInt env entries "queue.buffering.max.ms" "q_buf_max_ms is not of type int"
    1 900000 "invalid receive max bytes , should be in range 1 - 900000"
    fun n cfg => { cfg with qBufMaxMs := n }
  producerInt env entries "message.send.max.retries" "msg_send_max_retry is not of type int"
    0 10000000 "invalid receive max bytes , should be in range 1 - 10000000"
    fun n cfg => { cfg with msgSendMaxRetry := n }
  producerInt env entries "retry.backoff.ms" "retry_backoff_ms is not of type int"
    1 300000 "invalid receive max bytes , should be in range 1 - 300000"
    fun n cfg => { cfg with retryBackoffMs := n }
  given (find entries "compression.codec") fun node =>
    if node.isScalar then
      converted env.string "Compression is not of type string" node fun value =>
        if value = "none".toList ∨ value = "snappy".toList ∨ value = "gzip".toList ∨
            value = "lz4".toList then
          store fun cfg => { cfg with compression := value }
        else throw (.text
          "invalid value for compression, should be one of none, gzip, snappy, or lz4")
    else pure ()
  given (find entries "topics") fun node => match node with
    | .map topics => parseTopics env topics
    | _ => pure ()

/-! Groups. -/

def parseRegexpList (name : Text) (items : List Yaml)
    (push : Text → ρ → GroupConfig ρ → GroupConfig ρ) : Load ρ Unit :=
  items.forM fun item => match item with
    | .scalar text => match env.compile text with
      | some regexp => store fun cfg => { cfg with groups := push name regexp cfg.groups }
      | none => throw (.text "Invalid regular expression pattern")
    | _ => pure ()

/-- The scalars of a list. -/
def scalars (items : List Yaml) : List (Option Text) :=
  items.map fun item => if item.isScalar then some item.text else none

def parsePrefixes (name : Text) (items : List Yaml) (map : GroupConfig ρ → GroupMap MatchTypeIp)
    (set : GroupMap MatchTypeIp → GroupConfig ρ → GroupConfig ρ) : Load ρ Unit := do
  let s ← get
  match parsePrefixList env.inetPton name (scalars items) (map s.cfg.groups) with
  | .ok ranges => store fun cfg => { cfg with groups := set ranges cfg.groups }
  | .error message => throw (.text message)

/-- A list of a group; another node in its place is an error. -/
def listed (entries : List (Yaml × Yaml)) (key error : String) (p : List Yaml → Load ρ Unit) : Load ρ Unit :=
  given (find entries key) fun node => match node with
    | .sequence items => p items
    | _ => throw (.text error)

/-- `cur_node["name"].as<std::string>()`. -/
def groupName (entries : List (Yaml × Yaml)) (p : Text → Load ρ Unit) : Load ρ Unit :=
  match find entries "name" with
  | some node => convertedOrBad env.string node p
  | none => throw .invalidNode

def parseRouterGroup (entries : List (Yaml × Yaml)) : Load ρ Unit :=
  groupName env entries fun name => do
    listed entries "regexp_hostname"
      "Invalid mapping.groups.router_group.regexp_hostname, should be of type list/sequence"
      fun items => parseRegexpList env name items fun name regexp groups =>
        { groups with routerByName := groups.routerByName.pushBack name regexp }
    listed entries "prefix_range"
      "Invalid mapping.groups.router_group.prefix_range, should be of type list/sequence"
      fun items => parsePrefixes env name items GroupConfig.routerByIp fun ranges groups =>
        { groups with routerByIp := ranges }

/-- An ASN that does not convert is not caught: the handler is for texts. -/
def readAsn (name : Text) (item : Yaml) : Load ρ Unit :=
  match item with
  | .scalar text => match env.uint32 text with
    | some asn => store fun cfg => { cfg with
        groups := { cfg.groups with peerByAsn := cfg.groups.peerByAsn.pushBack name asn } }
    | none => throw .badConversion
  | _ => pure ()

def parsePeerGroup (entries : List (Yaml × Yaml)) : Load ρ Unit :=
  groupName env entries fun name => do
    listed entries "regexp_hostname"
      "Invalid mapping.groups.peer_group.regexp_hostname, should be of type list/sequence"
      fun items => parseRegexpList env name items fun name regexp groups =>
        { groups with peerByName := groups.peerByName.pushBack name regexp }
    listed entries "prefix_range"
      "Invalid mapping.groups.peer_group.prefix_range, should be of type list/sequence"
      fun items => parsePrefixes env name items GroupConfig.peerByIp fun ranges groups =>
        { groups with peerByIp := ranges }
    listed entries "asn" "Invalid mapping.groups.peer_group.asn, should be of type list/sequence"
      fun items => items.forM (readAsn env name)

/-- The groups of one kind; entries that are no maps are passed over. -/
def eachGroup (groups : List (Yaml × Yaml)) (kind : String)
    (parse : List (Yaml × Yaml) → Load ρ Unit) : Load ρ Unit :=
  given (find groups kind) fun node => match node with
    | .sequence items => items.forM fun item => match item with
      | .map entries => parse entries
      | _ => pure ()
    | _ => pure ()

def parseMapping (entries : List (Yaml × Yaml)) : Load ρ Unit :=
  given (find entries "groups") fun node => match node with
    | .map groups => do
      eachGroup groups "router_group" (parseRouterGroup env)
      eachGroup groups "peer_group" (parsePeerGroup env)
    | _ => pure ()

/-! The file. -/

def rootWarning : String := "configuration should only have maps at the root/base level found"

def parseSection (entry : Yaml × Yaml) : Load ρ Unit :=
  match entry.2 with
  | .map entries =>
    if entry.1.text = "base".toList then parseBase env entries
    else if entry.1.text = "debug".toList then parseDebug env entries
    else if entry.1.text = "kafka".toList then parseKafka env entries
    else if entry.1.text = "mapping".toList then parseMapping env entries
    else pure ()
  | node => printWarning rootWarning node

/-- `Config::load` of a file that the YAML library has read. -/
def load (root : Yaml) : Load ρ Unit :=
  match root with
  | .map entries => entries.forM (parseSection env)
  | node => printWarning rootWarning node

/-! The command line. -/

/-- What the command line sets besides the configuration. -/
structure Options where
  cfgFilename : Option Text
  logFilename : Option Text
  debugFilename : Option Text
  pidFilename : Option Text
  runForeground : Bool

def Options.none : Options := ⟨.none, .none, .none, .none, false⟩

/-- `exit(0)`, an error with its message, or the configuration and the options. -/
inductive CmdArgs (ρ : Type)
  | exit
  | invalid (message : Text)
  | read (cfg : Config ρ) (options : Options)

/-- The value of an `int`. -/
def toInt (n : Int) : Int := Int.bmod n (2 ^ 32)

/-- `%d` of an `int`. -/
def shownInt (n : Int) : Text := if n < 0 then '-' :: decimal (-n).toNat else decimal n.toNat

/-- `!strcasecmp(arg, text)`. -/
def sameText (arg text : Text) : Bool := arg.map Char.toLower = text.map Char.toLower

def outOfRange (what shown range : Text) : Text :=
  "INVALID ARG: ".toList ++ what ++ " '".toList ++ shown ++
    "' is out of range, expected range is ".toList ++ range

/-- An option with a value: its name, the message when the value is missing, and what the value
does. -/
structure ValueOption (ρ : Type) where
  name : String
  missing : String
  apply : Text → Config ρ × Options → Except Text (Config ρ × Options)

def valueOptions (ρ : Type) : List (ValueOption ρ) :=
  [⟨"-p", "INVALID ARG: -p expects a port number", fun value (cfg, options) =>
      let port := UInt16.ofNat (atoi value % 2 ^ 16).toNat
      if port < 25 then
        .error (outOfRange "port".toList (decimal port.toNat) "100-65535".toList)
      else .ok ({ cfg with bmpPort := port }, options)⟩,
    ⟨"-hi", "INVALID ARG: -hi expects minutes", fun value (cfg, options) =>
      let seconds := toInt (toInt (atoi value) * 60)
      if seconds < 60 ∨ 86400 < seconds then
        .error (outOfRange "heartbeat interval".toList (shownInt seconds) "1 - 1440".toList)
      else .ok ({ cfg with heartbeatInterval := seconds }, options)⟩,
    ⟨"-m", "INVALID ARG: -m expects mode value", fun value (cfg, options) =>
      if sameText value "v4".toList then .ok ({ cfg with svrIpv4 := true }, options)
      else if sameText value "v6".toList then
        .ok ({ cfg with svrIpv6 := true, svrIpv4 := false }, options)
      else if sameText value "v4v6".toList then
        .ok ({ cfg with svrIpv6 := true, svrIpv4 := true }, options)
      else .error ("INVALID ARG: mode '".toList ++ value ++
        "' is invalid. Expected v4, v6, or v4v6".toList)⟩,
    ⟨"-k", "INVALID ARG: -k expects the kafka broker list host:port[,...]",
      fun value (cfg, options) => .ok ({ cfg with kafkaBrokers := value }, options)⟩,
    ⟨"-a", "INVALID ARG: -a expects admin ID string",
      fun value (cfg, options) => .ok ({ cfg with adminId := snprintf 64 value }, options)⟩,
    ⟨"-b", "INVALID ARG: -b expects a value between 2 and 15", fun value (cfg, options) =>
      let size := toInt (atoi value)
      if size < 2 ∨ 384 < size then
        .error (outOfRange "port".toList (shownInt size) "2 - 384".toList)
      else .ok ({ cfg with bmpBufferSize := size * 1024 * 1024 }, options)⟩,
    ⟨"-c", "INVALID ARG: -c expects the filename to be specified",
      fun value (cfg, options) => .ok (cfg, { options with cfgFilename := some value })⟩,
    ⟨"-l", "INVALID ARG: -l expects the filename to be specified",
      fun value (cfg, options) => .ok (cfg, { options with logFilename := some value })⟩,
    ⟨"-d", "INVALID ARG: -d expects the filename to be specified",
      fun value (cfg, options) => .ok (cfg, { options with debugFilename := some value })⟩,
    ⟨"-pid", "INVALID ARG: -p expects the filename to be specified",
      fun value (cfg, options) => .ok (cfg, { options with pidFilename := some value })⟩]

/-- An option without a value; other arguments are passed over. -/
def plainOption (arg : Text) (cfg : Config ρ) (options : Options) : Config ρ × Options :=
  if arg = "-debug".toList then ({ cfg with debugGeneral := true }, options)
  else if arg = "-dbgp".toList then ({ cfg with debugBgp := true }, options)
  else if arg = "-dbmp".toList then ({ cfg with debugBmp := true }, options)
  else if arg = "-dmsgbus".toList then ({ cfg with debugMsgbus := true }, options)
  else if arg = "-f".toList then (cfg, { options with runForeground := true })
  else (cfg, options)

def isOption (arg : Text) (option : ValueOption ρ) : Bool := decide (arg = option.name.toList)

/-- The loop over the arguments behind the program's name. -/
def cmdArgsLoop : List Text → Config ρ × Options → CmdArgs ρ
  | [], state => .read state.1 state.2
  | arg :: rest, state =>
    if arg = "-h".toList then .exit
    else
      match (valueOptions ρ).find? (isOption arg), rest with
      | none, rest => cmdArgsLoop rest (plainOption arg state.1 state.2)
      | some option, [] => .invalid option.missing.toList
      | some option, value :: rest =>
        match option.apply value state with
        | .error message => .invalid message
        | .ok state => cmdArgsLoop rest state

/-- `ReadCmdArgs`. -/
def readCmdArgs (args : List Text) (cfg : Config ρ) : CmdArgs ρ :=
  if args.head? = some "-v".toList then .exit else cmdArgsLoop args (cfg, Options.none)

/-! The program up to the server. -/

/-- The exit code, an exception that is not caught, or the configuration of the server. -/
inductive Started (ρ : Type)
  | exit (code : Nat)
  | uncaught
  | server (cfg : Config ρ)

/-- `main`; a file that cannot be read gives no YAML. -/
def main (args : List Text) (readFile : Text → Option Yaml) : Started ρ :=
  let named (cfg : Config ρ) : Started ρ := if cfg.adminId = [] then .exit 2 else .server cfg
  match readCmdArgs args (Config.default ρ) with
  | .exit => .exit 0
  | .invalid _ => .exit 1
  | .read cfg options =>
    match options.cfgFilename with
    | none => named cfg
    | some filename =>
      match readFile filename with
      | none => .exit 2
      | some root =>
        match (load env root).run ⟨cfg, []⟩ with
        | .ok (_, s) => named s.cfg
        | .error (.text _) | .error .invalidNode => .exit 2
        | .error .badConversion | .error .badSubscript => .uncaught

end SonicBmp.Configuration
