import FiveSpot.Model.Lines
import FiveSpot.Vex.Presence

/-! # Reachability VEX (`src/auto_vex_reachability.rs`)

A CVE is declared not in the execute path when the dynamic symbol imports of the release binary name none of the
functions it is mapped to. The imports are read from the text that `nm -D --undefined-only` prints, and of that
text only the lines of type `U` are kept.
-/

namespace FiveSpot.Vex

set_option autoImplicit false

open Text

def autoImpactPrefix : String :=
  "Auto-derived by auto-vex-reachability: the Rust controller binary's dynamic symbol-import table contains none of the documented entry points for this CVE"

def isAsciiAlphabetic (c : Char) : Bool := ('a' ≤ c && c ≤ 'z') || ('A' ≤ c && c ≤ 'Z')

/-- A one-byte token that is a letter, which is taken for the type column. -/
def isTypeToken : List Char → Bool
  | [c] => isAsciiAlphabetic c
  | _ => false

/-- The name before an `@VERSION` suffix. -/
def bareName (name : List Char) : List Char := name.takeWhile (· ≠ '@')

def nmSymbol (line : List Char) : Option String :=
  let trimmed := trimList line
  if trimmed = [] || ['#'].isPrefixOf trimmed then none
  else
    let tokens := splitWhitespace trimmed
    match tokens.findIdx? isTypeToken with
    | none => none
    | some typeCharIdx =>
      if tokens[typeCharIdx]? ≠ some ['U'] then none
      else match tokens[typeCharIdx + 1]? with
        | none => none
        | some name => if bareName name = [] then none else some (String.ofList (bareName name))

/-- The set of symbols, as the list of the lines that name one. -/
def parseNmOutput (input : String) : List String := (lines input.toList).filterMap nmSymbol

section

variable (importedSymbols : List String) (affectedFunctions : Std.TreeMap String (List String))
  (alreadyTriaged : List String) (productPurl statementTimestamp : String)

def reachabilityStatement (fns : List String) (cve : String) : Statement where
  vulnerability := ⟨cve⟩
  products := [⟨productPurl⟩]
  status := "not_affected"
  justification := some "vulnerable_code_not_in_execute_path"
  impactStatement := some (autoImpactPrefix ++ " (" ++ ", ".intercalate fns ++
    "). The dynamic symbol-import table was inspected via `nm -D --undefined-only` against the release artifact; none of the listed entry points were found.")
  timestamp := statementTimestamp

structure ReachabilityState where
  emitted : Std.TreeSet String
  statements : Std.TreeMap String Statement

def reachabilityStep (st : ReachabilityState) (m : GrypeMatch) : ReachabilityState :=
  let cve := m.vulnerability.id
  if alreadyTriaged.contains cve then st
  else if st.emitted.contains cve then st
  else match affectedFunctions[cve]? with
    | none => st
    | some fns =>
      if fns = [] then st
      else if fns.any fun f => importedSymbols.contains f then st
      else {
        emitted := st.emitted.insert cve
        statements := st.statements.insert cve (reachabilityStatement productPurl statementTimestamp fns cve) }

def computeReachabilityVex (grype : GrypeReport) : List Statement :=
  (grype.matches.foldl (reachabilityStep importedSymbols affectedFunctions alreadyTriaged productPurl
    statementTimestamp) ⟨∅, ∅⟩).statements.toList.map Prod.snd

end

/-! ## What `nm` prints -/

/-- `nm` marks an undefined symbol by `U`, a weak one by `w` and a weak object by `v`. -/
inductive NmType where
  | undefined
  | weak
  | weakObject
  deriving DecidableEq

def NmType.char : NmType → Char
  | .undefined => 'U'
  | .weak => 'w'
  | .weakObject => 'v'

/-- A line of the form `<spaces> <type> <name>[@version]`. -/
structure NmLine where
  indent : List Char
  type : NmType
  gap : List Char
  name : List Char
  version : Option (List Char)
  trailing : List Char
  spaces : isBlank (indent ++ gap ++ trailing) = true
  gap_ne : gap ≠ []
  oneLine : '\n' ∉ indent ++ gap ++ trailing
  name_isWord : isWord name = true
  name_bare : '@' ∉ name
  version_chars : ∀ v ∈ version, v.all (fun c => !isWhitespace c) = true

namespace NmLine

def symbol (line : NmLine) : List Char := line.name ++ (line.version.elim [] ('@' :: ·))

def render (line : NmLine) : List Char :=
  line.indent ++ ([line.type.char] ++ line.gap ++ line.symbol) ++ line.trailing

def plain (type : NmType) (name : List Char) (hname : isWord name = true) (hbare : '@' ∉ name) : NmLine where
  indent := []
  type := type
  gap := [' ']
  name := name
  version := none
  trailing := []
  spaces := by decide
  gap_ne := List.cons_ne_nil _ _
  oneLine := by decide
  name_isWord := hname
  name_bare := hbare
  version_chars := by simp

end NmLine

def nmText (nmLines : List NmLine) (finalNewline : Bool) : String :=
  String.ofList (unlines (nmLines.map NmLine.render) finalNewline)

/-! ## What the parser keeps of it -/

section

variable {line : NmLine} {cs : List Char}

theorem NmLine.symbol_isWord : isWord line.symbol = true := by
  have hname := line.name_isWord
  have hversion := line.version_chars
  unfold symbol
  cases hv : line.version with
  | none => simpa using hname
  | some v =>
    have hv := hversion v hv
    have hat : isWhitespace '@' = false := by decide
    simp_all [isWord]

theorem NmLine.bareName_symbol : bareName line.symbol = line.name := by
  have hbare : ∀ c ∈ line.name, decide (c ≠ '@') = true := by
    intro c hc
    exact decide_eq_true fun h => line.name_bare (h ▸ hc)
  rw [bareName, symbol, List.takeWhile_append_of_pos hbare]
  cases line.version <;> simp

theorem NmLine.blanks : isBlank line.indent = true ∧ isBlank line.gap = true ∧ isBlank line.trailing = true := by
  have hspaces := line.spaces
  simp only [isBlank, List.all_append, Bool.and_eq_true] at hspaces ⊢
  exact ⟨hspaces.1.1, hspaces.1.2, hspaces.2⟩

theorem NmLine.newline_not_mem_render : '\n' ∉ line.render := by
  have hword := line.symbol_isWord
  have hline := line.oneLine
  have hsymbol : '\n' ∉ line.symbol := by
    intro hmem
    rw [isWord, Bool.and_eq_true, List.all_eq_true] at hword
    exact absurd (hword.2 _ hmem) (by decide)
  have htype : '\n' ≠ line.type.char := by
    cases line.type <;> decide
  simp_all [render]

/-- Blanks, versions and the other columns do not matter: a line gives its bare name if its type is `U`. -/
theorem nmSymbol_render : nmSymbol line.render =
    if line.type = .undefined then some (String.ofList line.name) else none := by
  obtain ⟨hindent, hgap, htrailing⟩ := line.blanks
  have htype : isWord [line.type.char] = true := by
    cases line.type <;> decide
  have htrim : trimList line.render = [line.type.char] ++ line.gap ++ line.symbol :=
    trimList_append hindent htrailing htype line.symbol_isWord
  have htokens : splitWhitespace ([line.type.char] ++ line.gap ++ line.symbol) = [[line.type.char], line.symbol] := by
    rw [splitWhitespace_word_append htype hgap line.gap_ne, splitWhitespace_word line.symbol_isWord]
  have hname : line.name ≠ [] := by
    have hword := line.name_isWord
    rw [isWord, Bool.and_eq_true] at hword
    simpa using hword.1
  simp only [nmSymbol, htrim, htokens]
  cases line.type with
  | undefined => simp [NmType.char, isTypeToken, isAsciiAlphabetic, NmLine.bareName_symbol, hname, List.findIdx?_cons]
  | weak => simp [NmType.char, isTypeToken, isAsciiAlphabetic, List.findIdx?_cons]
  | weakObject => simp [NmType.char, isTypeToken, isAsciiAlphabetic, List.findIdx?_cons]

theorem nmSymbol_stripCarriageReturn : nmSymbol (stripCarriageReturn cs) = nmSymbol cs := by
  simp only [nmSymbol, trimList_stripCarriageReturn]

theorem mem_parseNmOutput {nmLines : List NmLine} {finalNewline : Bool} {name : String} :
    name ∈ parseNmOutput (nmText nmLines finalNewline) ↔
      ∃ line ∈ nmLines, line.type = .undefined ∧ String.ofList line.name = name := by
  have hlines : ∀ part ∈ nmLines.map NmLine.render, '\n' ∉ part := by
    intro part hpart
    obtain ⟨line, -, rfl⟩ := List.mem_map.mp hpart
    exact line.newline_not_mem_render
  rw [parseNmOutput, nmText, String.toList_ofList,
    filterMap_lines_unlines (by decide) (fun _ => nmSymbol_stripCarriageReturn) hlines]
  simp only [List.filterMap_map, List.mem_filterMap, Function.comp_apply, nmSymbol_render,
    Option.ite_none_right_eq_some, Option.some.injEq]

end

/-! ## What is emitted -/

section

variable {importedSymbols : List String} {affectedFunctions : Std.TreeMap String (List String)}
  {alreadyTriaged : List String} {productPurl statementTimestamp : String} {grype : GrypeReport} {cve : String}

/-- The CVE is mapped to functions, and none of them is imported. -/
def Unreachable (importedSymbols : List String) (affectedFunctions : Std.TreeMap String (List String))
    (cve : String) : Prop :=
  ∃ fns, affectedFunctions[cve]? = some fns ∧ fns ≠ [] ∧ ∀ f ∈ fns, f ∉ importedSymbols

def unreachable (importedSymbols : List String) (affectedFunctions : Std.TreeMap String (List String))
    (cve : String) : Bool :=
  affectedFunctions[cve]?.any fun fns => !fns.isEmpty && !fns.any fun f => importedSymbols.contains f

theorem unreachable_iff : unreachable importedSymbols affectedFunctions cve = true ↔
    Unreachable importedSymbols affectedFunctions cve := by
  simp only [unreachable, Unreachable, Option.any_eq_true, Bool.and_eq_true, Bool.not_eq_true', List.isEmpty_eq_false_iff,
    List.any_eq_false, List.contains_eq_mem, decide_eq_true_eq]

def emitsReachability (importedSymbols : List String) (affectedFunctions : Std.TreeMap String (List String))
    (alreadyTriaged : List String) (m : GrypeMatch) : Bool :=
  !alreadyTriaged.contains m.vulnerability.id && unreachable importedSymbols affectedFunctions m.vulnerability.id

theorem emitsReachability_iff {m : GrypeMatch} :
    emitsReachability importedSymbols affectedFunctions alreadyTriaged m = true ↔
      m.vulnerability.id ∉ alreadyTriaged ∧ Unreachable importedSymbols affectedFunctions m.vulnerability.id := by
  simp only [emitsReachability, Bool.and_eq_true, Bool.not_eq_true', List.contains_eq_mem, decide_eq_false_iff_not,
    unreachable_iff]

/-- The set of emitted CVEs holds the keys of the statements. -/
def ReachabilityState.Synced (st : ReachabilityState) : Prop :=
  ∀ cve, st.emitted.contains cve = st.statements.contains cve

def mappedStatement (affectedFunctions : Std.TreeMap String (List String)) (productPurl statementTimestamp : String)
    (cve : String) : Statement :=
  reachabilityStatement productPurl statementTimestamp (affectedFunctions[cve]?.getD []) cve

theorem reachabilityStep_synced {st : ReachabilityState} (hst : st.Synced) (m : GrypeMatch) :
    (reachabilityStep importedSymbols affectedFunctions alreadyTriaged productPurl statementTimestamp st m).Synced := by
  unfold reachabilityStep
  dsimp only
  split
  · exact hst
  split
  · exact hst
  split
  · exact hst
  split
  · exact hst
  split
  · exact hst
  · intro cve
    rw [Std.TreeSet.contains_insert, Std.TreeMap.contains_insert, hst]

theorem reachabilityStep_statements {st : ReachabilityState} (hst : st.Synced) (m : GrypeMatch) :
    (reachabilityStep importedSymbols affectedFunctions alreadyTriaged productPurl statementTimestamp st m).statements =
      FirstEntry.step (·.vulnerability.id) (FirstEntry.keyed (·.vulnerability.id)
        (emitsReachability importedSymbols affectedFunctions alreadyTriaged)
        (mappedStatement affectedFunctions productPurl statementTimestamp)) st.statements m := by
  unfold reachabilityStep FirstEntry.step FirstEntry.keyed emitsReachability unreachable mappedStatement
  simp only [hst m.vulnerability.id]
  by_cases htriaged : m.vulnerability.id ∈ alreadyTriaged
  · simp [htriaged]
  by_cases hemitted : m.vulnerability.id ∈ st.statements
  · simp [htriaged, hemitted]
  cases affectedFunctions[m.vulnerability.id]? with
  | none => simp [htriaged, hemitted]
  | some fns =>
    by_cases hempty : fns = []
    · simp [htriaged, hemitted, hempty]
    cases himported : fns.any fun f => importedSymbols.contains f with
    | true =>
      simp only [Option.any_some, himported]
      simp [htriaged, hemitted, hempty]
    | false =>
      simp only [Option.any_some, himported]
      simp [htriaged, hemitted, hempty]

theorem foldl_statements (ms : List GrypeMatch) {st : ReachabilityState} (hst : st.Synced) :
    (ms.foldl (reachabilityStep importedSymbols affectedFunctions alreadyTriaged productPurl statementTimestamp)
      st).statements =
    ms.foldl (FirstEntry.step (·.vulnerability.id) (FirstEntry.keyed (·.vulnerability.id)
      (emitsReachability importedSymbols affectedFunctions alreadyTriaged)
      (mappedStatement affectedFunctions productPurl statementTimestamp))) st.statements := by
  induction ms generalizing st with
  | nil => rfl
  | cons m ms ih => rw [List.foldl_cons, List.foldl_cons, ih (reachabilityStep_synced hst m),
      reachabilityStep_statements hst]

theorem computeReachabilityVex_eq :
    computeReachabilityVex importedSymbols affectedFunctions alreadyTriaged productPurl statementTimestamp grype =
      (FirstEntry.collect (·.vulnerability.id) (FirstEntry.keyed (·.vulnerability.id)
        (emitsReachability importedSymbols affectedFunctions alreadyTriaged)
        (mappedStatement affectedFunctions productPurl statementTimestamp)) grype.matches).toList.map Prod.snd := by
  have hempty : ReachabilityState.Synced ⟨∅, ∅⟩ := by
    intro cve
    simp
  rw [computeReachabilityVex, foldl_statements _ hempty, FirstEntry.collect]

theorem suppresses_reachability_iff :
    Suppresses "vulnerable_code_not_in_execute_path" (computeReachabilityVex importedSymbols affectedFunctions
        alreadyTriaged productPurl statementTimestamp grype) cve ↔
      (∃ m ∈ grype.matches, m.vulnerability.id = cve) ∧ cve ∉ alreadyTriaged ∧
        Unreachable importedSymbols affectedFunctions cve := by
  constructor
  · rintro ⟨s, hs, rfl, -, -⟩
    rw [computeReachabilityVex_eq, FirstEntry.mem_values_collect] at hs
    obtain ⟨m, hm, hemits, rfl⟩ := hs
    exact ⟨⟨m, hm, rfl⟩, emitsReachability_iff.mp hemits⟩
  · rintro ⟨⟨m, hm, rfl⟩, hemits⟩
    refine ⟨mappedStatement affectedFunctions productPurl statementTimestamp m.vulnerability.id, ?_, rfl, rfl, rfl⟩
    rw [computeReachabilityVex_eq, FirstEntry.mem_values_collect]
    exact ⟨m, hm, emitsReachability_iff.mpr hemits, rfl⟩

end

/-! ## Soundness -/

/-- A suppressed CVE is mapped to functions, none of which is an undefined symbol, and the order of the lines and
of the matches does not matter. -/
structure ReachabilitySound (nmLines : List NmLine) (finalNewline : Bool)
    (affectedFunctions : Std.TreeMap String (List String)) (alreadyTriaged : List String)
    (productPurl statementTimestamp : String) (grype : GrypeReport) : Prop where
  absent : ∀ cve, Suppresses "vulnerable_code_not_in_execute_path" (computeReachabilityVex
      (parseNmOutput (nmText nmLines finalNewline)) affectedFunctions alreadyTriaged productPurl statementTimestamp
      grype) cve →
    ∃ fns, affectedFunctions[cve]? = some fns ∧ fns ≠ [] ∧ ∀ line ∈ nmLines, String.ofList line.name ∉ fns
  order : ∀ nmLines' finalNewline' grype', nmLines.Perm nmLines' → grype.matches.Perm grype'.matches → ∀ cve,
    Suppresses "vulnerable_code_not_in_execute_path" (computeReachabilityVex
        (parseNmOutput (nmText nmLines finalNewline)) affectedFunctions alreadyTriaged productPurl statementTimestamp
        grype) cve ↔
      Suppresses "vulnerable_code_not_in_execute_path" (computeReachabilityVex
        (parseNmOutput (nmText nmLines' finalNewline')) affectedFunctions alreadyTriaged productPurl
        statementTimestamp grype') cve

/-- A reported CVE must not be mapped to functions of which some are imported weakly and none strongly. -/
theorem reachability_sound_iff (nmLines : List NmLine) (finalNewline : Bool)
    (affectedFunctions : Std.TreeMap String (List String)) (alreadyTriaged : List String)
    (productPurl statementTimestamp : String) (grype : GrypeReport) :
    ReachabilitySound nmLines finalNewline affectedFunctions alreadyTriaged productPurl statementTimestamp grype ↔
      ∀ m ∈ grype.matches, m.vulnerability.id ∉ alreadyTriaged →
        ∀ fns, affectedFunctions[m.vulnerability.id]? = some fns →
          (∀ line ∈ nmLines, line.type = .undefined → String.ofList line.name ∉ fns) →
          ∀ line ∈ nmLines, line.type ≠ .undefined → String.ofList line.name ∉ fns := by
  have hstrong : ∀ fns : List String, (∀ f ∈ fns, f ∉ parseNmOutput (nmText nmLines finalNewline)) ↔
      ∀ line ∈ nmLines, line.type = .undefined → String.ofList line.name ∉ fns := by
    intro fns
    constructor
    · intro h line hline htype hmem
      exact h _ hmem (mem_parseNmOutput.mpr ⟨line, hline, htype, rfl⟩)
    · intro h f hf himported
      obtain ⟨line, hline, htype, rfl⟩ := mem_parseNmOutput.mp himported
      exact h line hline htype hf
  constructor
  · intro h m hm htriaged fns hfns hundefined line hline hweak hmem
    have hunreachable : Unreachable (parseNmOutput (nmText nmLines finalNewline)) affectedFunctions
        m.vulnerability.id := ⟨fns, hfns, List.ne_nil_of_mem hmem, (hstrong fns).mpr hundefined⟩
    obtain ⟨fns', hfns', -, habsent⟩ :=
      h.absent _ (suppresses_reachability_iff.mpr ⟨⟨m, hm, rfl⟩, htriaged, hunreachable⟩)
    cases hfns.symm.trans hfns'
    exact habsent line hline hmem
  · intro h
    constructor
    · intro cve hcve
      obtain ⟨⟨m, hm, rfl⟩, htriaged, fns, hfns, hne, himports⟩ := suppresses_reachability_iff.mp hcve
      have hundefined := (hstrong fns).mp himports
      refine ⟨fns, hfns, hne, ?_⟩
      intro line hline
      by_cases htype : line.type = .undefined
      · exact hundefined line hline htype
      · exact h m hm htriaged fns hfns hundefined line hline htype
    · intro nmLines' finalNewline' grype' hlines hmatches cve
      simp only [suppresses_reachability_iff, Unreachable, mem_parseNmOutput, hlines.mem_iff, hmatches.mem_iff]

/-- The only function of the CVE is a weak import. -/
theorem reachability_unsound : ¬ ∀ nmLines finalNewline affectedFunctions alreadyTriaged productPurl statementTimestamp
    grype, ReachabilitySound nmLines finalNewline affectedFunctions alreadyTriaged productPurl statementTimestamp
      grype := by
  intro h
  let weak : NmLine := .plain .weak "getrandom".toList (by decide) (by decide)
  let affected : Std.TreeMap String (List String) := .ofList [("CVE-2026-0002", ["getrandom"])]
  have hsound := h [weak] true affected [] "pkg:oci/5-spot" "2026-01-01T00:00:00Z"
    ⟨[⟨⟨"CVE-2026-0002"⟩, ⟨none⟩⟩]⟩
  have hmapped : affected["CVE-2026-0002"]? = some ["getrandom"] := by
    simp [affected]
  have hdropped : "getrandom" ∉ parseNmOutput (nmText [weak] true) := by
    rw [mem_parseNmOutput]
    simp [weak, NmLine.plain]
  have hsuppressed := hsound.absent "CVE-2026-0002" (suppresses_reachability_iff.mpr
    ⟨⟨_, List.mem_cons_self, rfl⟩, List.not_mem_nil, ["getrandom"], hmapped, by simp, by simpa using hdropped⟩)
  obtain ⟨fns, hfns, -, habsent⟩ := hsuppressed
  cases hmapped.symm.trans hfns
  exact habsent weak List.mem_cons_self List.mem_cons_self

end FiveSpot.Vex
