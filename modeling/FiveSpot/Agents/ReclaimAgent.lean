import Mathlib.Data.List.Infix
import FiveSpot.Interaction.Watch
import FiveSpot.Helpers.Agents

/-! # The reclaim agent (`src/reclaim_agent.rs`, `src/bin/reclaim_agent.rs`)

It watches the ConfigMap of its Node for patterns and the processes of its host for a match. There are two
detectors: one walks `/proc` over and over, the other is told of each exec by the kernel.
-/

namespace FiveSpot.ReclaimAgent

set_option autoImplicit false

open Interaction

/-! ## Configuration -/

inductive TomlValue where
  | string (s : String)
  | integer (n : Int)
  | array (items : List TomlValue)
  | other

abbrev TomlTable := List (String × TomlValue)

/-- The `toml` crate. -/
structure Toml where
  toText : TomlTable → String
  fromStr : String → Except String TomlTable

structure Config where
  matchCommands : List String
  matchArgvSubstrings : List String
  pollIntervalMs : Nat
  deriving DecidableEq

/-- The wording of parse errors is that of `toml` and `serde`. -/
inductive ConfigError where
  | parse (reason : String)
  | invalid (reason : String)

def TomlValue.asString : TomlValue → Option String
  | .string s => some s
  | _ => none

def TomlValue.asStrings : TomlValue → Option (List String)
  | .array items => items.mapM TomlValue.asString
  | _ => none

def TomlValue.asU64 : TomlValue → Option Nat
  | .integer n => if 0 ≤ n then some n.toNat else none
  | _ => none

def fieldOr {α : Type} (table : TomlTable) (name : String) (read : TomlValue → Option α) (default : α) :
    Except ConfigError α :=
  match table.lookup name with
  | none => .ok default
  | some value => match read value with
    | some a => .ok a
    | none => .error (.parse s!"invalid type in {name}")

def configFields : List String := ["match_commands", "match_argv_substrings", "poll_interval_ms"]

/-- Deserialisation of `Config`: unknown fields are denied. -/
def Config.ofTable (table : TomlTable) : Except ConfigError Config :=
  match table.find? fun entry => entry.1 ∉ configFields with
  | some entry => .error (.parse s!"unknown field {entry.1}")
  | none => do
    let commands ← fieldOr table "match_commands" TomlValue.asStrings []
    let substrings ← fieldOr table "match_argv_substrings" TomlValue.asStrings []
    let interval ← fieldOr table "poll_interval_ms" TomlValue.asU64 Constants.defaultPollIntervalMs
    return ⟨commands, substrings, interval⟩

def parseConfig (toml : Toml) (input : String) : Except ConfigError Config :=
  match toml.fromStr input with
  | .error e => .error (.parse e)
  | .ok table => do
    let config ← Config.ofTable table
    if config.pollIntervalMs = 0 then .error (.invalid "poll_interval_ms must be > 0") else .ok config

structure ConfigMap where
  data : Option (List (String × String))

def reclaimConfigDataKey : String := "reclaim.toml"

def configmapToConfig (toml : Toml) (cm : ConfigMap) : Except ConfigError (Option Config) :=
  match cm.data.bind fun data => data.lookup reclaimConfigDataKey with
  | none => .ok none
  | some body => (parseConfig toml body).map some

def applyEvent (toml : Toml) (config : Option Config) : WatchEvent ConfigMap → Option Config
  | .apply cm | .initApply cm => match configmapToConfig toml cm with
    | .ok parsed => parsed
    | .error _ => config
  | .delete _ => none
  | .init | .initDone => config

/-! ### What the controller puts into the ConfigMap -/

/-- The table of `render_reclaim_toml`; keys come out in alphabetical order. -/
def reclaimTable (body : ReclaimToml) : TomlTable :=
  [("match_argv_substrings", .array (body.matchArgvSubstrings.map .string)),
    ("match_commands", .array (body.matchCommands.map .string)), ("poll_interval_ms", .integer body.pollIntervalMs)]

def reclaimTomlText (toml : Toml) (body : ReclaimToml) : String :=
  "# Auto-generated by 5-spot controller from spec.killIfCommands\n" ++
    "# DO NOT EDIT — changes will be overwritten on next reconcile.\n" ++ toml.toText (reclaimTable body)

def buildReclaimAgentConfigmap (toml : Toml) (commands : List String) : ConfigMap :=
  ⟨some [(reclaimConfigDataKey, reclaimTomlText toml (renderReclaimToml commands))]⟩

/-! ## Matching -/

inductive MatchSource where
  | comm
  | argv
  deriving DecidableEq

structure Match where
  pid : Nat
  matchedPattern : String
  source : MatchSource
  deriving DecidableEq

/-- The files of one process as read, if they can be. -/
structure ProcEntry where
  comm : Option ByteArray
  cmdline : Option ByteArray

def trimEndNewlines (s : String) : String := String.ofList (s.toList.reverse.dropWhile (· == '\n')).reverse

/-- Each byte as a character, NUL as a space. -/
def cmdlineText (raw : ByteArray) : List Char :=
  raw.data.toList.map fun b => if b = 0 then ' ' else Char.ofNat b.toNat

def contains (text : List Char) (pattern : String) : Bool := decide (pattern.toList <:+: text)

def matchComm (pid : Nat) (comm : String) (config : Config) : Option Match :=
  (config.matchCommands.find? fun pattern => comm == pattern).map fun pattern => ⟨pid, pattern, .comm⟩

def matchArgv (pid : Nat) (cmdline : ByteArray) (config : Config) : Option Match :=
  (config.matchArgvSubstrings.find? (contains (cmdlineText cmdline))).map fun pattern => ⟨pid, pattern, .argv⟩

def matchPid (pid : Nat) (entry : ProcEntry) (config : Config) : Option Match :=
  ((entry.comm.bind String.fromUTF8?).bind fun comm => matchComm pid (trimEndNewlines comm) config).or
    (entry.cmdline.bind fun cmdline => matchArgv pid cmdline config)

/-- The entries of `/proc` whose name is a number, in the order in which they are listed. -/
structure ProcRoot where
  pids : Except String (List Nat)
  entry : Nat → ProcEntry

def scanProc (proc : ProcRoot) (config : Config) : Except String (Option Match) :=
  if config.matchCommands.isEmpty && config.matchArgvSubstrings.isEmpty then .ok none
  else proc.pids.map fun pids => pids.findSome? fun pid => matchPid pid (proc.entry pid) config

/-! ## Detectors -/

structure Process where
  comm : ByteArray
  cmdline : ByteArray

/-- `/proc/<pid>` of a running process. The kernel ends `comm` with a newline. -/
def Process.entry (process : Process) : ProcEntry := ⟨some (process.comm.push 10), some process.cmdline⟩

abbrev Host := List (Nat × Process)

def Host.proc (host : Host) : ProcRoot where
  pids := .ok (host.map Prod.fst)
  entry pid := ((host.lookup pid).map Process.entry).getD ⟨none, none⟩

inductive HostStep where
  | exec (pid : Nat) (process : Process)
  | exit (pid : Nat)
  /-- The ConfigMap watcher pushes a value. -/
  | push (config : Option Config)
  /-- The poll detector begins a pass of its loop. -/
  | tick
  /-- The netlink detector begins a pass of its loop. -/
  | subscribe
  | restart

def Host.step (host : Host) : HostStep → Host
  | .exec pid process => (pid, process) :: host.filter fun entry => entry.1 != pid
  | .exit pid => host.filter fun entry => entry.1 != pid
  | _ => host

/-- The agent with the poll detector. It exits with its first report. -/
structure Poll where
  config : Option Config
  reported : Option Match

/-- One step of `run_scanner`, with the processes as they are after it. -/
def Poll.step (agent : Poll) (host : Host) : HostStep → Poll
  | .push config => { agent with config := config }
  | .tick => match agent.reported, agent.config with
    | none, some config => match scanProc host.proc config with
      | .ok found => { agent with reported := found }
      | .error _ => agent
    | _, _ => agent
  | .restart => ⟨none, none⟩
  | _ => agent

/-- The agent with the netlink detector; `listening` is the configuration its subscriber was opened with. -/
structure Netlink where
  config : Option Config
  listening : Option Config
  reported : Option Match

/-- One step of `run_netlink_scanner`. A pushed value closes the subscriber. -/
def Netlink.step (agent : Netlink) (host : Host) : HostStep → Netlink
  | .push config => { agent with config := config, listening := none }
  | .subscribe => { agent with listening := agent.config }
  | .exec pid _ => match agent.reported, agent.listening with
    | none, some config => { agent with reported := matchPid pid (host.proc.entry pid) config }
    | _, _ => agent
  | .restart => ⟨none, none, none⟩
  | _ => agent

structure Detectors where
  host : Host
  poll : Poll
  netlink : Netlink

def Detectors.new : Detectors := ⟨[], ⟨none, none⟩, ⟨none, none, none⟩⟩

def Detectors.step (s : Detectors) (step : HostStep) : Detectors where
  host := s.host.step step
  poll := s.poll.step (s.host.step step) step
  netlink := s.netlink.step (s.host.step step) step

def Detectors.run (s : Detectors) (trace : List HostStep) : Detectors := trace.foldl Detectors.step s

end FiveSpot.ReclaimAgent
