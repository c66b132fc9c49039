import FiveSpot.Agents.ReclaimAgent

/-! # From `killIfCommands` to a report

The field is documented as matching the basename of a process or its command line. The controller fills in the
list of basenames only, so the agent it configures never looks at a command line.
-/

namespace FiveSpot.ReclaimAgent

set_option autoImplicit false

def AgentReports (toml : Toml) (commands : List String) (pid : Nat) (process : Process) : Prop :=
  ∃ config, configmapToConfig toml (buildReclaimAgentConfigmap toml commands) = .ok (some config) ∧
    (matchPid pid process.entry config).isSome = true

def Named (commands : List String) (process : Process) : Prop :=
  ∃ pattern ∈ commands, pattern.toUTF8 = process.comm

/-- The command line as one text: NUL separates the arguments. -/
def Process.commandLine (process : Process) : List UInt8 :=
  process.cmdline.data.toList.map fun byte => if byte = 0 then 32 else byte

def InCommandLine (commands : List String) (process : Process) : Prop :=
  ∃ pattern ∈ commands, pattern.toUTF8.data.toList <:+: process.commandLine

/-- The documentation of `spec.killIfCommands`. -/
def Documented (commands : List String) (process : Process) : Prop := Named commands process ∨ InCommandLine commands process

def NamedTrimmed (commands : List String) (process : Process) : Prop :=
  ∃ name : String, name.toUTF8 = process.comm ∧ trimEndNewlines name ∈ commands

/-- A listed pattern in the command line comes with one that is the name. The other two parts are about names that
end in a newline. -/
structure NameDecides (commands : List String) (process : Process) : Prop where
  inCommandLine : InCommandLine commands process → NamedTrimmed commands process
  trimmed : NamedTrimmed commands process → ¬Named commands process → InCommandLine commands process
  untrimmed : Named commands process → NamedTrimmed commands process

/-! ## The configuration that reaches the agent -/

theorem asStrings_strings (commands : List String) :
    (TomlValue.array (commands.map TomlValue.string)).asStrings = some commands := by
  unfold TomlValue.asStrings
  induction commands with
  | nil => rfl
  | cons command commands ih => simp [ih, TomlValue.asString]

theorem ofTable_reclaimTable (commands : List String) :
    Config.ofTable (reclaimTable (renderReclaimToml commands)) = .ok ⟨commands, [], Constants.defaultPollIntervalMs⟩ := by
  have hknown : (reclaimTable (renderReclaimToml commands)).find? (fun entry => entry.1 ∉ configFields) = none := by
    simp [reclaimTable, configFields]
  have hcommands : (reclaimTable (renderReclaimToml commands)).lookup "match_commands" =
      some (.array (commands.map .string)) := rfl
  have hsubstrings : (reclaimTable (renderReclaimToml commands)).lookup "match_argv_substrings" =
      some (.array []) := rfl
  have hinterval : (reclaimTable (renderReclaimToml commands)).lookup "poll_interval_ms" =
      some (.integer Constants.defaultPollIntervalMs) := rfl
  simp only [Config.ofTable, hknown, fieldOr, hcommands, hsubstrings, hinterval, asStrings_strings]
  rfl

theorem config_of_commands {toml : Toml} {commands : List String}
    (hread : toml.fromStr (reclaimTomlText toml (renderReclaimToml commands)) =
      .ok (reclaimTable (renderReclaimToml commands))) :
    configmapToConfig toml (buildReclaimAgentConfigmap toml commands) =
      .ok (some ⟨commands, [], Constants.defaultPollIntervalMs⟩) := by
  have hbody : (buildReclaimAgentConfigmap toml commands).data.bind (fun data => data.lookup reclaimConfigDataKey) =
      some (reclaimTomlText toml (renderReclaimToml commands)) := by
    simp [buildReclaimAgentConfigmap]
  simp only [configmapToConfig, hbody, parseConfig, hread, ofTable_reclaimTable]
  rfl

/-! ## Reading a name -/

theorem fromUTF8_toUTF8 (text : String) : String.fromUTF8? text.toUTF8 = some text := dif_pos text.isValidUTF8

theorem toUTF8_of_fromUTF8 {bytes : ByteArray} {text : String} (h : String.fromUTF8? bytes = some text) :
    text.toUTF8 = bytes := by
  unfold String.fromUTF8? at h
  split at h
  · cases h
    rfl
  · cases h

/-- The bytes after the first one of a longer encoding are not ASCII. -/
theorem eq_newline_of_last {c : Char} (h : (String.utf8EncodeChar c).getLast? = some 10) : c = '\n' := by
  have hcontinuation : ∀ n : Nat, UInt8.ofNat (n % 64 + 128) ≠ 10 := by
    intro n heq
    have := congrArg UInt8.toNat heq
    simp only [UInt8.toNat_ofNat', UInt8.reduceToNat] at this
    omega
  unfold String.utf8EncodeChar at h
  simp only at h
  split_ifs at h with hone htwo hthree
  · have hval : c.toNat % 256 = 10 := by simpa using congrArg UInt8.toNat (Option.some.inj h)
    have hsmall : c.toNat ≤ 127 := hone
    apply Char.ext
    apply UInt32.toNat_inj.mp
    change c.toNat = 10
    omega
  · exact absurd (Option.some.inj h) (hcontinuation _)
  · exact absurd (Option.some.inj h) (hcontinuation _)
  · exact absurd (Option.some.inj h) (hcontinuation _)

theorem toUTF8_push_newline (text : String) : (text.push '\n').toUTF8 = text.toUTF8.push 10 := by
  have hnewline : ['\n'].utf8Encode = (ByteArray.empty).push 10 := by
    rw [List.utf8Encode_singleton]
    rfl
  rw [String.toUTF8_eq_toByteArray, String.toByteArray_push, hnewline]
  simp [ByteArray.ext_iff]

theorem exists_push_of_toUTF8 {text : String} {bytes : ByteArray} (h : text.toUTF8 = bytes.push 10) :
    ∃ name : String, text = name.push '\n' ∧ name.toUTF8 = bytes := by
  have hbytes : text.toList.flatMap String.utf8EncodeChar = bytes.data.toList ++ [10] := by
    have hlist := congrArg (fun array : ByteArray => array.data.toList) h
    rw [← String.ofList_toList (s := text), String.toUTF8_eq_toByteArray, String.toByteArray_ofList] at hlist
    simpa [List.utf8Encode] using hlist
  have hne : text.toList ≠ [] := by
    intro hnil
    rw [hnil] at hbytes
    cases (List.append_eq_nil_iff.mp hbytes.symm).2
  obtain ⟨chars, last, hchars⟩ : ∃ chars last, text.toList = chars ++ [last] :=
    ⟨_, _, (List.dropLast_append_getLast hne).symm⟩
  have hlast : last = '\n' := by
    apply eq_newline_of_last
    have hsome := congrArg List.getLast? hbytes
    rw [hchars, List.flatMap_append, List.getLast?_append, List.getLast?_append] at hsome
    cases hc : (String.utf8EncodeChar last).getLast? with
    | none => exact absurd (List.getLast?_eq_none_iff.mp hc) String.utf8EncodeChar_ne_nil
    | some byte => simpa [hc] using hsome
  subst hlast
  have htext : text = (String.ofList chars).push '\n' := by
    apply String.toList_injective
    rw [hchars, String.toList_push, String.toList_ofList]
  refine ⟨String.ofList chars, htext, ?_⟩
  rw [htext, toUTF8_push_newline] at h
  simpa [ByteArray.ext_iff, Array.push_eq_push] using h

theorem trimEndNewlines_push (name : String) : trimEndNewlines (name.push '\n') = trimEndNewlines name := by
  simp [trimEndNewlines]

/-! ## What the agent reports -/

theorem matchComm_isSome {pid : Nat} {comm : String} {config : Config} :
    (matchComm pid comm config).isSome = true ↔ comm ∈ config.matchCommands := by
  simp [matchComm]

theorem matchPid_iff {commands : List String} {interval pid : Nat} {process : Process} :
    (matchPid pid process.entry ⟨commands, [], interval⟩).isSome = true ↔ NamedTrimmed commands process := by
  have hargv : (process.entry.cmdline.bind fun cmdline => matchArgv pid cmdline ⟨commands, [], interval⟩) = none := rfl
  rw [matchPid, hargv, Option.or_none]
  constructor
  · intro h
    obtain ⟨report, hreport⟩ := Option.isSome_iff_exists.mp h
    obtain ⟨text, htext, hmatch⟩ := Option.bind_eq_some_iff.mp hreport
    obtain ⟨name, rfl, hname⟩ := exists_push_of_toUTF8 (toUTF8_of_fromUTF8 htext)
    refine ⟨name, hname, ?_⟩
    rw [trimEndNewlines_push] at hmatch
    exact matchComm_isSome.mp (Option.isSome_of_eq_some hmatch)
  · rintro ⟨name, hname, hlisted⟩
    have htext : process.entry.comm.bind String.fromUTF8? = some (name.push '\n') := by
      have hread := fromUTF8_toUTF8 (name.push '\n')
      rw [toUTF8_push_newline, hname] at hread
      exact hread
    rw [htext, Option.bind_some, trimEndNewlines_push]
    exact matchComm_isSome.mpr hlisted

theorem agentReports_iff {toml : Toml} {commands : List String}
    (hread : toml.fromStr (reclaimTomlText toml (renderReclaimToml commands)) =
      .ok (reclaimTable (renderReclaimToml commands))) (pid : Nat) (process : Process) :
    AgentReports toml commands pid process ↔ NamedTrimmed commands process := by
  rw [AgentReports, config_of_commands hread]
  constructor
  · rintro ⟨config, heq, hmatch⟩
    cases heq
    exact matchPid_iff.mp hmatch
  · intro h
    exact ⟨_, rfl, matchPid_iff.mpr h⟩

theorem trimEndNewlines_of_plain {name : String} (h : ∀ rest : String, name ≠ rest.push '\n') :
    trimEndNewlines name = name := by
  apply String.toList_injective
  rw [trimEndNewlines, String.toList_ofList]
  cases hlist : name.toList.reverse with
  | nil => simpa using hlist
  | cons last rest =>
    have hname : name.toList = rest.reverse ++ [last] := by simpa using congrArg List.reverse hlist
    have hlast : last ≠ '\n' := by
      rintro rfl
      apply h (String.ofList rest.reverse)
      apply String.toList_injective
      rw [hname, String.toList_push, String.toList_ofList]
    rw [List.dropWhile_cons_of_neg (by simpa using hlast), hname]
    simp

/-- For a name that does not end in a newline the first part is all there is. -/
theorem nameDecides_iff {commands : List String} {process : Process}
    (hplain : ∀ bytes : ByteArray, process.comm ≠ bytes.push 10) :
    NameDecides commands process ↔ (InCommandLine commands process → Named commands process) := by
  have htrim : ∀ name : String, name.toUTF8 = process.comm → trimEndNewlines name = name := by
    intro name hname
    apply trimEndNewlines_of_plain
    rintro rest rfl
    exact hplain _ (hname.symm.trans (toUTF8_push_newline rest))
  have hsame : NamedTrimmed commands process ↔ Named commands process := by
    constructor
    · rintro ⟨name, hname, hlisted⟩
      rw [htrim name hname] at hlisted
      exact ⟨name, hlisted, hname⟩
    · rintro ⟨pattern, hlisted, hname⟩
      exact ⟨pattern, hname, (htrim pattern hname).symm ▸ hlisted⟩
  constructor
  · exact fun h hline => hsame.mp (h.inCommandLine hline)
  · intro h
    constructor
    · exact fun hline => hsame.mpr (h hline)
    · exact fun htrimmed hnamed => absurd (hsame.mp htrimmed) hnamed
    · exact hsame.mpr

def ideaBody : String := "match_argv_substrings = []\nmatch_commands = [\"idea\"]\npoll_interval_ms = 250\n"

/-- `toml` on the table for the one pattern `idea`. -/
def ideaToml : Toml where
  toText _ := ideaBody
  fromStr text :=
    if text = "# Auto-generated by 5-spot controller from spec.killIfCommands\n" ++
      "# DO NOT EDIT — changes will be overwritten on next reconcile.\n" ++ ideaBody then
      .ok (reclaimTable (renderReclaimToml ["idea"]))
    else .error "expected another text"

theorem ideaToml_reads : ideaToml.fromStr (reclaimTomlText ideaToml (renderReclaimToml ["idea"])) =
    .ok (reclaimTable (renderReclaimToml ["idea"])) := by
  unfold ideaToml reclaimTomlText
  dsimp only
  rw [if_pos]
  with_reducible rfl

/-- The command line of the IDE runs `java`. -/
def ideProcess : Process := ⟨"java".toUTF8, "/opt/idea/jbr/bin/java".toUTF8⟩

end FiveSpot.ReclaimAgent
