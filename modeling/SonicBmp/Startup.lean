/- module: SonicBmp/Startup
   digest: Every configuration that a server is started with is in range. -/

import SonicBmp.Configuration
import SonicBmp.RunServer

set_option autoImplicit false
set_option relaxedAutoImplicit false

namespace SonicBmp.Startup

open SonicBmp.Library.Printing
open SonicBmp.Library.Throwing
open SonicBmp.Library.OrderedMap
open SonicBmp.Bus.PrefixRanges
open SonicBmp.Bus.GroupLookup (GroupConfig)
open SonicBmp.Configuration

def Between (low high n : Int) : Prop := low ≤ n ∧ n ≤ high

/-- The ranges of the numbers and texts of a configuration. -/
structure InRange {ρ : Type} (cfg : Config ρ) : Prop where
  adminId : cfg.adminId.length ≤ 64
  bmpPort : 25 ≤ cfg.bmpPort
  bmpBufferSize : Between (2 * 1024 * 1024) (384 * 1024 * 1024) cfg.bmpBufferSize
  heartbeatInterval : Between 60 86400 cfg.heartbeatInterval
  txMaxBytes : Between 1000 1000000000 cfg.txMaxBytes
  rxMaxBytes : Between 1000 1000000000 cfg.rxMaxBytes
  sessionTimeout : Between 1 3600000 cfg.sessionTimeout
  socketTimeout : Between 10 300000 cfg.socketTimeout
  qBufMaxMsgs : Between 1 10000000 cfg.qBufMaxMsgs
  qBufMaxKbytes : Between 1 2097151 cfg.qBufMaxKbytes
  qBufMaxMs : Between 1 900000 cfg.qBufMaxMs
  msgSendMaxRetry : Between 0 10000000 cfg.msgSendMaxRetry
  retryBackoffMs : Between 1 300000 cfg.retryBackoffMs
  compression : cfg.compression ∈ ["none".toList, "snappy".toList, "gzip".toList, "lz4".toList]
  maxConcurrentRouters : 1 ≤ cfg.maxConcurrentRouters
  initialRouterTime : Between 5 1800 cfg.initialRouterTime

theorem inRange_default (ρ : Type) : InRange (Config.default ρ) := by
  constructor <;> simp [Config.default, Between]

/-! The file. -/

section File

variable {ρ : Type} {env : YamlEnv ρ}

/-- A configuration that is being loaded. -/
abbrev Good (s : Loading ρ) : Prop := InRange s.cfg

theorem store_good {change : Config ρ → Config ρ} (good : ∀ cfg, InRange cfg → InRange (change cfg)) :
    Preserves Good (store change) := preserves_modify fun s => good s.cfg

theorem printWarning_good (message : String) (node : Yaml) :
    Preserves (Good : Loading ρ → Prop) (printWarning message node) := preserves_modify fun _ => id

theorem given_good {node : Option Yaml} {p : Yaml → Load ρ Unit} (good : ∀ node, Preserves Good (p node)) :
    Preserves Good (given node p) := by
  cases node with
  | none => exact preserves_pure _
  | some node => exact good node

theorem converted_good {α : Type} {convert : Yaml → Option α} {warning : String} {node : Yaml}
    {p : α → Load ρ Unit} (good : ∀ value, Preserves Good (p value)) :
    Preserves Good (converted convert warning node p) := by
  unfold converted
  split
  · exact good _
  · exact printWarning_good _ _

theorem convertedOrBad_good {α : Type} {convert : Yaml → Option α} {node : Yaml}
    {p : α → Load ρ Unit} (good : ∀ value, Preserves Good (p value)) :
    Preserves Good (convertedOrBad convert node p) := by
  unfold convertedOrBad
  split
  · exact good _
  · exact preserves_throw _

theorem givenIn_good {node : Option Yaml} {key : String} {p : Yaml → Load ρ Unit}
    (good : ∀ node, Preserves Good (p node)) : Preserves Good (givenIn node key p) := by
  refine given_good fun inner => ?_
  split
  · exact given_good good
  · exact preserves_throw _
  · exact preserves_pure _

theorem ranged_good {low high : Int} {error : String} {set : Int → Config ρ → Config ρ} {n : Int}
    (good : ∀ cfg, Between low high n → InRange cfg → InRange (set n cfg)) :
    Preserves Good (ranged low high error set n) := by
  refine preserves_ite (fun _ => preserves_throw _) fun inside => store_good fun cfg => good cfg ?_
  exact ⟨by omega, by omega⟩

theorem parseBase_good (entries : List (Yaml × Yaml)) : Preserves Good (parseBase env entries) := by
  refine Preserves.bind ?_ fun _ => Preserves.bind ?_ fun _ => Preserves.bind ?_ fun _ =>
    Preserves.bind ?_ fun _ => Preserves.bind ?_ fun _ => Preserves.bind ?_ fun _ =>
    Preserves.bind ?_ fun _ => Preserves.bind ?_ fun _ => Preserves.bind ?_ fun _ =>
    Preserves.bind ?_ fun _ => ?_
  · refine given_good fun node => converted_good fun value => store_good fun cfg good => ?_
    exact { good with adminId := List.length_take_le _ _ }
  · refine given_good fun node => converted_good fun port => ?_
    refine preserves_ite (fun _ => preserves_throw _) fun inside => store_good fun cfg good => ?_
    exact { good with bmpPort := UInt16.not_lt.mp inside }
  · exact given_good fun node => convertedOrBad_good fun value => store_good fun cfg good =>
      { good with }
  · exact given_good fun node => convertedOrBad_good fun value => store_good fun cfg good =>
      { good with }
  · refine given_good fun node => converted_good fun value => store_good fun cfg good => ?_
    split
    · exact { good with }
    · split <;> exact { good with }
  · refine givenIn_good fun node => converted_good fun n => ranged_good fun cfg inside good => ?_
    obtain ⟨low, high⟩ := inside
    exact { good with bmpBufferSize := ⟨by dsimp only; omega, by dsimp only; omega⟩ }
  · refine givenIn_good fun node => converted_good fun n => ranged_good fun cfg inside good => ?_
    obtain ⟨low, high⟩ := inside
    exact { good with heartbeatInterval := ⟨by dsimp only; omega, by dsimp only; omega⟩ }
  · refine givenIn_good fun node => converted_good fun n => ?_
    refine preserves_ite (fun _ => store_good fun cfg good => ?_) fun nonzero =>
      preserves_ite (fun _ => preserves_throw _) fun positive => store_good fun cfg good => ?_
    · exact { good with maxConcurrentRouters := show 1 ≤ maxThreads by decide }
    · exact { good with maxConcurrentRouters := by dsimp only; omega }
  · refine givenIn_good fun node => converted_good fun n => ranged_good fun cfg inside good => ?_
    exact { good with initialRouterTime := inside }
  · exact givenIn_good fun node => converted_good fun value => store_good fun cfg good =>
      { good with }
  · exact givenIn_good fun node => converted_good fun value => store_good fun cfg good =>
      { good with }

theorem debugSwitch_good {entries : List (Yaml × Yaml)} {key warning : String}
    {isOn : Config ρ → Bool} {set : Bool → Config ρ → Config ρ}
    (good : ∀ value cfg, InRange cfg → InRange (set value cfg)) :
    Preserves Good (debugSwitch env entries key warning isOn set) := by
  intro s holds
  apply returns_get_bind
  split
  · exact returns_pure holds
  · exact given_good (fun node => converted_good fun value => store_good (good value)) s holds

theorem parseDebug_good (entries : List (Yaml × Yaml)) : Preserves Good (parseDebug env entries) := by
  refine Preserves.bind ?_ fun _ => Preserves.bind ?_ fun _ => Preserves.bind ?_ fun _ => ?_ <;>
    exact debugSwitch_good fun value cfg good => { good with }

theorem producerInt_good {entries : List (Yaml × Yaml)} {key warning error : String} {low high : Int}
    {set : Int → Config ρ → Config ρ}
    (good : ∀ n cfg, Between low high n → InRange cfg → InRange (set n cfg)) :
    Preserves Good (producerInt env entries key warning low high error set) :=
  given_good fun _ => preserves_ite
    (fun _ => converted_good fun n => ranged_good fun cfg => good n cfg) fun _ => preserves_pure _

theorem readVariable_good (entry : Yaml × Yaml) : Preserves Good (readVariable env entry) := by
  unfold readVariable
  dsimp only
  split
  · exact printWarning_good _ _
  · refine preserves_ite (fun _ => preserves_pure _) fun _ => ?_
    split
    · exact store_good fun cfg good => { good with }
    · refine preserves_ite (fun _ => Preserves.bind ?_ fun _ => printWarning_good _ _) fun _ =>
        printWarning_good _ _
      exact store_good fun cfg good => { good with }

theorem readName_good (entry : Yaml × Yaml) : Preserves Good (readName env entry) := by
  unfold readName
  dsimp only
  split
  · exact printWarning_good _ _
  · split
    · exact preserves_pure _
    · split
      · exact store_good fun cfg good => { good with }
      · exact converted_good fun text => store_good fun cfg good => { good with }

theorem parseTopics_good (entries : List (Yaml × Yaml)) : Preserves Good (parseTopics env entries) := by
  refine (given_good fun node => ?_).bind fun _ => ?_
  · split
    · exact preserves_forM readVariable_good _
    · exact preserves_pure _
  refine (given_good fun node => ?_).bind fun _ => ?_
  · split
    · exact preserves_forM readName_good _
    · exact preserves_pure _
  exact store_good fun cfg good => { good with }

theorem parseKafka_good (entries : List (Yaml × Yaml)) : Preserves Good (parseKafka env entries) := by
  refine Preserves.bind ?_ fun _ => Preserves.bind ?_ fun _ => Preserves.bind ?_ fun _ =>
    Preserves.bind ?_ fun _ => Preserves.bind ?_ fun _ => Preserves.bind ?_ fun _ =>
    Preserves.bind ?_ fun _ => Preserves.bind ?_ fun _ => Preserves.bind ?_ fun _ =>
    Preserves.bind ?_ fun _ => Preserves.bind ?_ fun _ => ?_
  · refine given_good fun node => ?_
    split
    · exact store_good fun cfg good => { good with }
    · exact preserves_pure _
  · refine producerInt_good fun n cfg inside good => { good with txMaxBytes := ?_ }
    dsimp only
    split
    · exact ⟨by decide, by decide⟩
    · exact inside
  · exact producerInt_good fun n cfg inside good => { good with rxMaxBytes := inside }
  · exact producerInt_good fun n cfg inside good => { good with sessionTimeout := inside }
  · exact producerInt_good fun n cfg inside good => { good with socketTimeout := inside }
  · exact producerInt_good fun n cfg inside good => { good with qBufMaxMsgs := inside }
  · exact producerInt_good fun n cfg inside good => { good with qBufMaxKbytes := inside }
  · exact producerInt_good fun n cfg inside good => { good with qBufMaxMs := inside }
  · exact producerInt_good fun n cfg inside good => { good with msgSendMaxRetry := inside }
  · exact producerInt_good fun n cfg inside good => { good with retryBackoffMs := inside }
  · refine given_good fun node => preserves_ite (fun _ => converted_good fun value => ?_) fun _ =>
      preserves_pure _
    refine preserves_ite (fun known => store_good fun cfg good => ?_) fun _ => preserves_throw _
    exact { good with compression := by simpa using known }
  · refine given_good fun node => ?_
    split
    · exact parseTopics_good _
    · exact preserves_pure _

theorem parseRegexpList_good (name : Text) (items : List Yaml)
    (push : Text → ρ → GroupConfig ρ → GroupConfig ρ) :
    Preserves Good (parseRegexpList env name items push) := by
  refine preserves_forM (fun item => ?_) items
  split
  · split
    · exact store_good fun cfg good => { good with }
    · exact preserves_throw _
  · exact preserves_pure _

theorem parsePrefixes_good (name : Text) (items : List Yaml)
    (map : GroupConfig ρ → GroupMap MatchTypeIp)
    (set : GroupMap MatchTypeIp → GroupConfig ρ → GroupConfig ρ) :
    Preserves Good (parsePrefixes env name items map set) := by
  intro s holds
  apply returns_get_bind
  split
  · refine store_good (fun cfg good => ?_) s holds
    exact { good with }
  · exact returns_throw

theorem listed_good {entries : List (Yaml × Yaml)} {key error : String} {p : List Yaml → Load ρ Unit}
    (good : ∀ items, Preserves Good (p items)) : Preserves Good (listed entries key error p) := by
  refine given_good fun node => ?_
  split
  · exact good _
  · exact preserves_throw _

theorem groupName_good {entries : List (Yaml × Yaml)} {p : Text → Load ρ Unit}
    (good : ∀ name, Preserves Good (p name)) : Preserves Good (groupName env entries p) := by
  unfold groupName
  split
  · exact convertedOrBad_good good
  · exact preserves_throw _

theorem parseRouterGroup_good (entries : List (Yaml × Yaml)) :
    Preserves Good (parseRouterGroup env entries) := by
  refine groupName_good fun name => ?_
  refine (listed_good fun items => parseRegexpList_good name items _).bind fun _ => ?_
  exact listed_good fun items => parsePrefixes_good name items _ _

theorem readAsn_good (name : Text) (item : Yaml) : Preserves Good (readAsn env name item) := by
  unfold readAsn
  split
  · split
    · exact store_good fun cfg good => { good with }
    · exact preserves_throw _
  · exact preserves_pure _

theorem parsePeerGroup_good (entries : List (Yaml × Yaml)) :
    Preserves Good (parsePeerGroup env entries) := by
  refine groupName_good fun name => ?_
  refine (listed_good fun items => parseRegexpList_good name items _).bind fun _ => ?_
  refine (listed_good fun items => parsePrefixes_good name items _ _).bind fun _ => ?_
  exact listed_good fun items => preserves_forM (readAsn_good name) items

theorem eachGroup_good {groups : List (Yaml × Yaml)} {kind : String}
    {parse : List (Yaml × Yaml) → Load ρ Unit} (good : ∀ entries, Preserves Good (parse entries)) :
    Preserves Good (eachGroup groups kind parse) := by
  refine given_good fun node => ?_
  split
  · refine preserves_forM (fun item => ?_) _
    split
    · exact good _
    · exact preserves_pure _
  · exact preserves_pure _

theorem parseMapping_good (entries : List (Yaml × Yaml)) :
    Preserves Good (parseMapping env entries) := by
  refine given_good fun node => ?_
  split
  · exact (eachGroup_good parseRouterGroup_good).bind fun _ => eachGroup_good parsePeerGroup_good
  · exact preserves_pure _

theorem parseSection_good (entry : Yaml × Yaml) : Preserves Good (parseSection env entry) := by
  unfold parseSection
  split
  · refine preserves_ite (fun _ => parseBase_good _) fun _ => ?_
    refine preserves_ite (fun _ => parseDebug_good _) fun _ => ?_
    refine preserves_ite (fun _ => parseKafka_good _) fun _ => ?_
    exact preserves_ite (fun _ => parseMapping_good _) fun _ => preserves_pure _
  · exact printWarning_good _ _

theorem load_good (root : Yaml) : Preserves Good (load env root) := by
  unfold load
  split
  · exact preserves_forM parseSection_good _
  · exact printWarning_good _ _

end File

/-! The command line. -/

section CommandLine

variable {ρ : Type}

theorem valueOption_good {option : ValueOption ρ} (listed : option ∈ valueOptions ρ) {value : Text}
    {state state' : Config ρ × Options} (good : InRange state.1)
    (applied : option.apply value state = .ok state') : InRange state'.1 := by
  obtain ⟨cfg, options⟩ := state
  simp only [valueOptions, List.mem_cons, List.not_mem_nil, or_false] at listed
  rcases listed with rfl | rfl | rfl | rfl | rfl | rfl | rfl | rfl | rfl | rfl
  · -- the port
    dsimp only at applied
    split at applied
    · cases applied
    · rename_i inside
      cases applied
      exact { good with bmpPort := UInt16.not_lt.mp inside }
  · -- the heartbeat interval
    dsimp only at applied
    split at applied
    · cases applied
    · rename_i inside
      cases applied
      exact { good with heartbeatInterval := ⟨by dsimp only; omega, by dsimp only; omega⟩ }
  · -- the mode
    dsimp only at applied
    split at applied
    · cases applied
      exact { good with }
    · split at applied
      · cases applied
        exact { good with }
      · split at applied
        · cases applied
          exact { good with }
        · cases applied
  · cases applied
    exact { good with }
  · cases applied
    exact { good with adminId := (List.length_take_le _ _).trans (by decide) }
  · -- the buffer size
    dsimp only at applied
    split at applied
    · cases applied
    · rename_i inside
      cases applied
      exact { good with bmpBufferSize := ⟨by dsimp only; omega, by dsimp only; omega⟩ }
  all_goals
    cases applied
    exact good

theorem plainOption_good (arg : Text) {cfg : Config ρ} {options : Options} (good : InRange cfg) :
    InRange (plainOption arg cfg options).1 := by
  unfold plainOption
  split
  · exact { good with }
  split
  · exact { good with }
  split
  · exact { good with }
  split
  · exact { good with }
  split <;> exact good

theorem cmdArgsLoop_good {args : List Text} {state : Config ρ × Options} {cfg : Config ρ}
    {options : Options} (good : InRange state.1) (read : cmdArgsLoop args state = .read cfg options) :
    InRange cfg := by
  fun_induction cmdArgsLoop args state with
  | case1 state =>
    cases read
    exact good
  | case2 => cases read
  | case3 arg state unhelpful rest plain ih => exact ih (plainOption_good arg good) read
  | case4 => cases read
  | case5 => cases read
  | case6 arg state unhelpful option value rest found state' applied ih =>
    exact ih (valueOption_good (List.mem_of_find?_eq_some found) good applied) read

end CommandLine

/-- What the accept loop reads of the configuration. -/
def serverConfig {ρ : Type} (cfg : Config ρ) : RunServer.Config where
  maxConcurrentRouters := cfg.maxConcurrentRouters
  initialRouterTime := cfg.initialRouterTime
  calculateBaseline := cfg.calculateBaseline

/-- Whatever the command line says and whatever the file holds: a server that is started has an
administrator's name and a configuration in range, and with it the counters of its accept loop
stay exact in every run, with room for a router whenever none is starting. -/
theorem started_in_range {ρ : Type} (env : YamlEnv ρ) (args : List Text)
    (readFile : Text → Option Yaml) (cfg : Config ρ) (started : main env args readFile = .server cfg) :
    InRange cfg ∧ cfg.adminId ≠ [] ∧
      ∀ events, let books := (RunServer.run (serverConfig cfg) events).settled
        books.Balanced cfg.maxConcurrentRouters ∧
          (false ∉ books.flags → books.concurrent < cfg.maxConcurrentRouters) := by
  have fine : InRange cfg ∧ cfg.adminId ≠ [] := by
    have named (cfg' : Config ρ) (good : InRange cfg')
        (result : (if cfg'.adminId = [] then .exit 2 else .server cfg' : Started ρ) = .server cfg) :
        InRange cfg ∧ cfg.adminId ≠ [] := by
      split at result
      · cases result
      · rename_i shown
        cases result
        exact ⟨good, shown⟩
    unfold main at started
    dsimp only at started
    cases read : readCmdArgs args (Config.default ρ) with
    | exit | invalid => simp [read] at started
    | read cfg' options =>
      have good : InRange cfg' := by
        unfold readCmdArgs at read
        split at read
        · cases read
        · exact cmdArgsLoop_good (inRange_default ρ) read
      rw [read] at started
      dsimp only at started
      split at started
      · exact named cfg' good started
      · split at started
        · cases started
        · split at started
          · rename_i loaded
            exact named _ (load_good _ _ good _ _ loaded) started
          all_goals cases started
  refine ⟨fine.1, fine.2, fun events => ?_⟩
  have limit := fine.1.maxConcurrentRouters
  have balanced : (RunServer.run (serverConfig cfg) events).settled.Balanced
      cfg.maxConcurrentRouters :=
    RunServer.Books.balanced_of_run (by omega) (RunServer.run_refines (serverConfig cfg) events).2
  refine ⟨balanced, fun quiet => ?_⟩
  have none := List.count_eq_zero_of_not_mem quiet
  have counted := balanced.concurrent
  rw [RunServer.starting, none] at counted
  omega

/-- Conversions that know the number seven only. -/
def sevenEnv : YamlEnv Unit where
  int text := if text = "7".toList then some 7 else none
  uint16 _ := none
  uint32 _ := none
  bool _ := none
  nullString := none
  hostname := []
  compile _ := none
  inetPton _ _ := none
  entryFirst := false

/-- A file with the administrator's name, a port that does not convert, and a heartbeat every
seven minutes. -/
def sevenFile : Yaml :=
  .map [(.scalar "base".toList, .map
    [(.scalar "admin_id".toList, .scalar "a".toList),
      (.scalar "listen_port".toList, .scalar "bmp".toList),
      (.scalar "heartbeat".toList, .map [(.scalar "interval".toList, .scalar "7".toList)])])]

theorem started_in_range_seven :
    ∃ cfg, main sevenEnv ["-c".toList, "openbmpd.conf".toList] (fun _ => some sevenFile) = .server cfg ∧
      cfg.heartbeatInterval = 420 ∧ InRange cfg := by
  refine ⟨{ Config.default Unit with adminId := "a".toList, heartbeatInterval := 420 }, rfl, rfl, ?_⟩
  exact (started_in_range sevenEnv ["-c".toList, "openbmpd.conf".toList] (fun _ => some sevenFile)
    _ rfl).1

end SonicBmp.Startup
