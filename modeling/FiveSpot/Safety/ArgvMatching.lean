import FiveSpot.Agents.ReclaimAgent
import FiveSpot.Model.Encodings

/-! # What the argv patterns match

The agent reads each byte of a command line as a character of its own and then searches for the characters of a
pattern. That is the search for the pattern's bytes as long as the pattern is ASCII.
-/

namespace FiveSpot.ReclaimAgent

set_option autoImplicit false

open Encodings

/-- The command line with the ends of its arguments as spaces. -/
def shownBytes (cmdline : ByteArray) : List UInt8 := cmdline.data.toList.map fun b => if b = 0 then 32 else b

def occursUtf8 (cmdline : ByteArray) (pattern : String) : Bool := decide (utf8Bytes pattern <:+: shownBytes cmdline)

/-- The pattern occurs with one byte for each of its characters. -/
def occursLatin1 (cmdline : ByteArray) (pattern : String) : Bool :=
  isLatin1 pattern.toList && decide (latin1Bytes pattern.toList <:+: shownBytes cmdline)

/-- The match there has to be: the first entry whose UTF-8 bytes occur. -/
def byteMatch (pid : Nat) (cmdline : ByteArray) (config : Config) : Option Match :=
  (config.matchArgvSubstrings.find? (occursUtf8 cmdline)).map fun pattern => ⟨pid, pattern, .argv⟩

/-- No command pattern is the name of the process. -/
def NameUnmatched (entry : ProcEntry) (config : Config) : Prop :=
  ∀ comm, entry.comm.bind String.fromUTF8? = some comm → trimEndNewlines comm ∉ config.matchCommands

theorem find?_eq_find?_iff {α : Type} {p q : α → Bool} {l : List α} :
    l.find? p = l.find? q ↔ ∀ a, l.find? (fun x => p x || q x) = some a → p a = q a := by
  induction l with
  | nil => simp
  | cons x rest ih =>
    have hother : ∀ {r : α → Bool}, r x = false → rest.find? r ≠ some x := by
      intro r hr hfound
      rw [List.find?_some hfound] at hr
      cases hr
    cases hp : p x <;> cases hq : q x
    · simp [hp, hq, ih]
    · simp [hp, hq, hother hp]
    · simp [hp, hq, (hother hq).symm]
    · simp [hp, hq]

section

variable {pid : Nat} {entry : ProcEntry} {cmdline : ByteArray} {config : Config} {pattern : String}

theorem cmdlineText_eq (cmdline : ByteArray) : cmdlineText cmdline = charsOf (shownBytes cmdline) := by
  rw [cmdlineText, charsOf, shownBytes, List.map_map]
  refine List.map_congr_left fun b _ => ?_
  by_cases hb : b = 0
  · simp [hb]
  · simp [hb]

/-- What the code searches for. -/
theorem contains_eq (cmdline : ByteArray) (pattern : String) : contains (cmdlineText cmdline) pattern = occursLatin1 cmdline pattern := by
  rw [Bool.eq_iff_iff, contains, cmdlineText_eq, decide_eq_true_eq, infix_charsOf_iff, occursLatin1, Bool.and_eq_true,
    decide_eq_true_eq]

theorem occurs_of_isAscii (h : Text.isAscii pattern = true) : occursUtf8 cmdline pattern = occursLatin1 cmdline pattern := by
  rw [occursUtf8, occursLatin1, isLatin1_of_isAscii h, Bool.true_and, utf8Bytes_of_isAscii h]

theorem matchPid_of_unmatched (hcmdline : entry.cmdline = some cmdline) (hname : NameUnmatched entry config) :
    matchPid pid entry config =
      (config.matchArgvSubstrings.find? (occursLatin1 cmdline)).map fun pattern => ⟨pid, pattern, .argv⟩ := by
  have hcomm : (entry.comm.bind String.fromUTF8?).bind (fun comm => matchComm pid (trimEndNewlines comm) config) = none := by
    rw [Option.bind_eq_none_iff]
    intro comm hread
    rw [matchComm, Option.map_eq_none_iff, List.find?_eq_none]
    rintro pattern hpattern heq
    rw [← beq_iff_eq.mp heq] at hpattern
    exact hname comm hread hpattern
  rw [matchPid, hcomm, hcmdline, Option.none_or, Option.bind_some, matchArgv]
  exact congrArg _ (congrArg (List.find? · _) (funext (contains_eq cmdline)))

theorem matchPid_eq_byteMatch_iff (hcmdline : entry.cmdline = some cmdline) (hname : NameUnmatched entry config) :
    matchPid pid entry config = byteMatch pid cmdline config ↔
      ∀ pattern, config.matchArgvSubstrings.find?
          (fun pattern => occursUtf8 cmdline pattern || occursLatin1 cmdline pattern) = some pattern →
        occursUtf8 cmdline pattern = occursLatin1 cmdline pattern := by
  have hinj : Function.Injective fun pattern => (⟨pid, pattern, .argv⟩ : Match) := by
    intro a b h
    cases h
    rfl
  rw [matchPid_of_unmatched hcmdline hname, byteMatch, (Option.map_injective hinj).eq_iff, eq_comm, find?_eq_find?_iff]

theorem matchPid_of_ascii (hcmdline : entry.cmdline = some cmdline) (hname : NameUnmatched entry config)
    (hascii : ∀ pattern ∈ config.matchArgvSubstrings, Text.isAscii pattern = true) :
    matchPid pid entry config = byteMatch pid cmdline config :=
  (matchPid_eq_byteMatch_iff hcmdline hname).mpr fun _ hfound => occurs_of_isAscii (hascii _ (List.mem_of_find?_eq_some hfound))

/-- Without a pattern nothing matches, so the early return of the scan loses nothing. -/
theorem matchPid_of_empty (hcommands : config.matchCommands = []) (hsubstrings : config.matchArgvSubstrings = []) :
    matchPid pid entry config = none := by
  have hcomm : (entry.comm.bind String.fromUTF8?).bind (fun comm => matchComm pid (trimEndNewlines comm) config) = none := by
    rw [Option.bind_eq_none_iff]
    intro comm _
    rw [matchComm, hcommands]
    rfl
  rw [matchPid, hcomm, Option.none_or, Option.bind_eq_none_iff]
  intro cmdline _
  rw [matchArgv, hsubstrings]
  rfl

/-- The scan reports the first process that matches. -/
theorem scanProc_eq {proc : ProcRoot} {pids : List Nat} (hpids : proc.pids = .ok pids) :
    scanProc proc config = .ok (pids.findSome? fun pid => matchPid pid (proc.entry pid) config) := by
  rw [scanProc]
  split
  · rename_i hempty
    rw [Bool.and_eq_true, List.isEmpty_iff, List.isEmpty_iff] at hempty
    have hnone : (pids.findSome? fun pid => matchPid pid (proc.entry pid) config) = none :=
      List.findSome?_eq_none_iff.mpr fun pid _ => matchPid_of_empty hempty.1 hempty.2
    rw [hnone]
  · rw [hpids]
    rfl

theorem scanProc_reports_iff {proc : ProcRoot} {pids : List Nat} (hpids : proc.pids = .ok pids) :
    (∃ found, scanProc proc config = .ok (some found)) ↔ ∃ pid ∈ pids, (matchPid pid (proc.entry pid) config).isSome := by
  rw [scanProc_eq hpids, ← List.findSome?_isSome_iff, Option.isSome_iff_exists]
  exact exists_congr fun found => ⟨fun h => Except.ok.inj h, congrArg Except.ok⟩

end

/-- A process whose name matches nothing is reported for the entry whose bytes occur first, exactly when the
first entry that occurs in UTF-8 or with one byte a character occurs in both; and a scan finds a match exactly
when some process matches. -/
theorem argv_matches_bytes_iff (config : Config) {pid : Nat} {entry : ProcEntry} {cmdline : ByteArray}
    (hcmdline : entry.cmdline = some cmdline) (hname : NameUnmatched entry config) :
    (matchPid pid entry config = byteMatch pid cmdline config ↔
        ∀ pattern, config.matchArgvSubstrings.find?
            (fun pattern => occursUtf8 cmdline pattern || occursLatin1 cmdline pattern) = some pattern →
          occursUtf8 cmdline pattern = occursLatin1 cmdline pattern) ∧
      ∀ (proc : ProcRoot) (pids : List Nat), proc.pids = .ok pids →
        ((∃ found, scanProc proc config = .ok (some found)) ↔
          ∃ pid ∈ pids, (matchPid pid (proc.entry pid) config).isSome) :=
  ⟨matchPid_eq_byteMatch_iff hcmdline hname, fun _ _ hpids => scanProc_reports_iff hpids⟩

def argvConfig (pattern : String) : Config := ⟨[], [pattern], 250⟩

def argvEntry (cmdline : String) : ProcEntry := ⟨none, some cmdline.toUTF8⟩

theorem argv_matches_bytes_javac : matchPid 7 (argvEntry "java\x00-jar\x00app") (argvConfig "-jar app") = some ⟨7, "-jar app", .argv⟩ := by
  have hname : NameUnmatched (argvEntry "java\x00-jar\x00app") (argvConfig "-jar app") := by rintro _ ⟨⟩
  rw [(argv_matches_bytes_iff (argvConfig "-jar app") rfl hname).1.mpr]
  · decide +kernel
  · intro pattern hfound
    have hpattern := List.mem_singleton.mp (List.mem_of_find?_eq_some hfound)
    rw [hpattern]
    decide +kernel

/-- The umlaut of the pattern stands in the command line, but not as one byte. -/
theorem umlaut_missed : ¬∀ (config : Config) (pid : Nat) (entry : ProcEntry) (cmdline : ByteArray),
    entry.cmdline = some cmdline → NameUnmatched entry config → (∀ pattern ∈ config.matchArgvSubstrings, pattern ≠ "") →
      matchPid pid entry config = byteMatch pid cmdline config := by
  intro h
  have hmatch := h (argvConfig "münze") 7 (argvEntry "münze\x00--tief") _ rfl (by rintro _ ⟨⟩) (by decide)
  have hnone : matchPid 7 (argvEntry "münze\x00--tief") (argvConfig "münze") = none := by decide +kernel
  have hsome : (byteMatch 7 "münze\x00--tief".toUTF8 (argvConfig "münze")).isSome = true := by decide +kernel
  rw [← hmatch, hnone] at hsome
  cases hsome

end FiveSpot.ReclaimAgent
