import FiveSpot.Admission.Policy
import FiveSpot.Cluster.Run
import FiveSpot.Helpers.TaintGrammar
import FiveSpot.Model.Lines
import FiveSpot.Safety.Durations

/-! # What is admitted and what is accepted at runtime

The policy repeats the checks of the controller in another language. Where both look at the same characters they
agree; a length in bytes, a number, a second slash and the characters of a taint are seen at runtime only.
-/

namespace FiveSpot

set_option autoImplicit false

open RegularExpression Admission Pattern

/-- The validators the policy mirrors accept the spec. -/
structure RuntimeAccepts (spec : ScheduledMachineSpec) : Prop where
  clusterName : validateClusterName spec.clusterName = .ok ()
  commands : validateKillIfCommands spec.killIfCommands = .ok ()
  graceful : ∃ seconds, parseDuration spec.gracefulShutdownTimeout = .ok seconds
  drain : ∃ seconds, parseDuration spec.nodeDrainTimeout = .ok seconds
  bootstrap : ∃ v, spec.bootstrapSpec.apiVersion = some v ∧
    validateApiGroup v Constants.allowedBootstrapApiGroups "bootstrap" = .ok ()
  infrastructure : ∃ v, spec.infrastructureSpec.apiVersion = some v ∧
    validateApiGroup v Constants.allowedInfrastructureApiGroups "infrastructure" = .ok ()
  taints : validateNodeTaints spec.nodeTaints = .ok ()

/-- The seconds a duration spells, however large. -/
def spelledSeconds (text : String) : Nat :=
  (Text.parseDigits text.toList.dropLast 0).getD 0 * (text.toList.getLast?.bind unitSeconds).getD 0

/-- The part of a key after its first slash, or all of it. -/
def taintNamePart (key : String) : List Char :=
  match Text.splitOnceList '/' key.toList with
  | some (_, name) => name
  | none => key.toList

def taintLabels (key : String) : List (List Char) :=
  match Text.splitOnceList '/' key.toList with
  | some (pre, _) => pre.splitOn '.'
  | none => []

/-- The entries are within the cap of the runtime, which counts bytes. -/
def CommandsFit (commands : Option (List String)) : Prop :=
  ∀ entries, commands = some entries → ∀ c ∈ entries, c.utf8ByteSize ≤ Constants.maxKillIfCommandLen

/-- No second slash, so that the group is the same from either end. -/
def OneSlash (embedded : EmbeddedResource) : Prop := ∀ v, embedded.apiVersion = some v → v.toList.count '/' = 1

/-- The characters the runtime allows in a taint, and its cap on a label. The cap on the name part is left out. -/
structure PlainTaint (t : NodeTaint) : Prop where
  name : '_' ∉ taintNamePart t.key
  labels : ∀ label ∈ taintLabels t.key, label.length ≤ taintNameMaxLen
  value : ∀ v, t.value = some v → v = "" ∨ isQualifiedName v = true

def ShortName (t : NodeTaint) : Prop := (taintNamePart t.key).length ≤ taintNameMaxLen

/-- When exactly each validator accepts a spec that is admitted. -/
structure AdmittedChecks (spec : ScheduledMachineSpec) : Prop where
  clusterName : validateClusterName spec.clusterName = .ok ()
  commands : validateKillIfCommands spec.killIfCommands = .ok () ↔ CommandsFit spec.killIfCommands
  graceful : (∃ seconds, parseDuration spec.gracefulShutdownTimeout = .ok seconds) ↔
    spelledSeconds spec.gracefulShutdownTimeout ≤ Constants.maxDurationSecs
  drain : (∃ seconds, parseDuration spec.nodeDrainTimeout = .ok seconds) ↔
    spelledSeconds spec.nodeDrainTimeout ≤ Constants.maxDurationSecs
  schedule : validateScheduleRef spec.schedule = .ok ()
  bootstrap : (∃ v, spec.bootstrapSpec.apiVersion = some v ∧
    validateApiGroup v Constants.allowedBootstrapApiGroups "bootstrap" = .ok ()) ↔ OneSlash spec.bootstrapSpec
  infrastructure : (∃ v, spec.infrastructureSpec.apiVersion = some v ∧
    validateApiGroup v Constants.allowedInfrastructureApiGroups "infrastructure" = .ok ()) ↔
      OneSlash spec.infrastructureSpec
  taints : validateNodeTaints spec.nodeTaints = .ok () ↔ ∀ t ∈ spec.nodeTaints, PlainTaint t ∧ ShortName t

/-- The policy against the validators it mirrors. Where the runtime also checks what no rule looks at, under that
condition. The cap on the name part of a taint key is the runtime's. -/
structure Mirrored (spec : ScheduledMachineSpec) : Prop where
  clusterName : validateClusterName spec.clusterName = .ok ()
  commands : CommandsFit spec.killIfCommands → validateKillIfCommands spec.killIfCommands = .ok ()
  graceful : spelledSeconds spec.gracefulShutdownTimeout ≤ Constants.maxDurationSecs →
    ∃ seconds, parseDuration spec.gracefulShutdownTimeout = .ok seconds
  drain : spelledSeconds spec.nodeDrainTimeout ≤ Constants.maxDurationSecs →
    ∃ seconds, parseDuration spec.nodeDrainTimeout = .ok seconds
  schedule : validateScheduleRef spec.schedule = .ok ()
  bootstrap : OneSlash spec.bootstrapSpec → ∃ v, spec.bootstrapSpec.apiVersion = some v ∧
    validateApiGroup v Constants.allowedBootstrapApiGroups "bootstrap" = .ok ()
  infrastructure : OneSlash spec.infrastructureSpec → ∃ v, spec.infrastructureSpec.apiVersion = some v ∧
    validateApiGroup v Constants.allowedInfrastructureApiGroups "infrastructure" = .ok ()
  taints : (∀ t ∈ spec.nodeTaints, PlainTaint t) →
    (validateNodeTaints spec.nodeTaints = .ok () ↔ ∀ t ∈ spec.nodeTaints, ShortName t)

/-! ## The cluster name -/

section

variable {spec : ScheduledMachineSpec} {s text apiVersion key : String}

theorem fullMatch_iff {pattern : RegularExpression Char} : fullMatch pattern s = true ↔ s.toList ∈ pattern.matches' :=
  rmatch_iff_matches' pattern s.toList

theorem validateClusterName_of_match (hmatch : fullMatch clusterNamePattern s = true) (hsize : size s ≤ 63) :
    validateClusterName s = .ok () := by
  obtain ⟨_, hfirst, rest, hrest, hs⟩ := Language.mem_mul.mp (fullMatch_iff.mp hmatch)
  obtain ⟨c, hc, rfl⟩ := mem_oneOf.mp hfirst
  have hall : ∀ c ∈ s.toList, c ∈ ['.', '_', '-'] ++ alphanumeric := by
    rw [← hs, List.singleton_append, List.forall_mem_cons]
    refine ⟨List.mem_append_right _ hc, fun d hd => ?_⟩
    exact List.mem_append.mpr (List.mem_append.mp (mem_star_oneOf.mp hrest d hd)).symm
  have hne : s ≠ "" := by
    rintro rfl
    cases hs
  have hbytes : ¬ Constants.maxClusterNameLen < s.utf8ByteSize := by
    rw [bytes_of_all ['.', '_', '-'] (by decide) hall, String.length_toList]
    exact Nat.not_lt.mpr hsize
  have hchars : s.toList.all clusterNameChar = true := by
    rw [List.all_eq_true]
    intro d hd
    rcases List.mem_append.mp (hall d hd) with hd | hd
    · exact List.all_eq_true.mp (by decide : ['.', '_', '-'].all clusterNameChar = true) d hd
    · rw [clusterNameChar, mem_alphanumeric.mp hd]
      rfl
  rw [validateClusterName, if_neg hne, if_neg hbytes, if_pos hchars]

/-! ## Commands and durations -/

theorem validateCommandsFrom_iff {index : Nat} {commands : List String} : validateCommandsFrom index commands = .ok () ↔
    ∀ c ∈ commands, c ≠ "" ∧ c.utf8ByteSize ≤ Constants.maxKillIfCommandLen := by
  induction commands generalizing index with
  | nil => simp [validateCommandsFrom]
  | cons c commands ih =>
    have hrest := @ih (index + 1)
    rw [validateCommandsFrom, List.forall_mem_cons, ← hrest]
    split
    · simp_all
    split
    · rename_i hlong
      simp [Nat.not_le.mpr hlong]
    · rename_i hne hlong
      simp [hne, Nat.not_lt.mp hlong]

theorem validateKillIfCommands_iff (hcount : killIfCommandsCount spec = true) (hentries : killIfCommandsEntries spec = true) :
    validateKillIfCommands spec.killIfCommands = .ok () ↔ ∀ commands, spec.killIfCommands = some commands →
      ∀ c ∈ commands, c.utf8ByteSize ≤ Constants.maxKillIfCommandLen := by
  rw [killIfCommandsCount] at hcount
  rw [killIfCommandsEntries] at hentries
  cases hcommands : spec.killIfCommands with
  | none => simp [validateKillIfCommands]
  | some commands =>
    rw [hcommands, Option.all_some, decide_eq_true_eq] at hcount
    rw [hcommands, Option.all_some, List.all_eq_true] at hentries
    have hne : ∀ c ∈ commands, c ≠ "" := by
      rintro c hc rfl
      exact absurd (hentries "" hc) (by decide)
    have hcap : ¬ Constants.maxKillIfCommandsCount < commands.length := Nat.not_lt.mpr hcount
    rw [validateKillIfCommands, if_neg hcap, validateCommandsFrom_iff]
    constructor
    · intro h _ heq c hc
      cases heq
      exact (h c hc).2
    · intro h c hc
      exact ⟨hne c hc, h commands rfl c hc⟩

theorem exists_parseDigits {ds : List Char} (h : ∀ c ∈ ds, c ∈ digits) (acc : Nat) :
    ∃ n, Text.parseDigits ds acc = some n := by
  induction ds generalizing acc with
  | nil => exact ⟨acc, rfl⟩
  | cons c ds ih =>
    rw [List.forall_mem_cons, mem_digits] at h
    rw [Text.parseDigits, Text.digit, if_pos h.1, Option.bind_some]
    exact ih h.2 _

theorem duration_of_match (hmatch : durationFormat text = true) :
    ∃ ds unit, text.toList = ds ++ [unit] ∧ ds ≠ [] ∧ (∀ c ∈ ds, c ∈ digits) ∧ unit ∈ ['s', 'm', 'h'] := by
  obtain ⟨ds, hds, _, hunit, htext⟩ := Language.mem_mul.mp (fullMatch_iff.mp hmatch)
  obtain ⟨unit, hmem, rfl⟩ := mem_oneOf.mp hunit
  obtain ⟨hne, hdigits⟩ := mem_oneOrMore_oneOf.mp hds
  exact ⟨ds, unit, htext.symm, hne, hdigits, hmem⟩

theorem trim_of_all (h : ∀ c ∈ s.toList, Text.isWhitespace c = false) : Text.trim s = s := by
  have hdrop : ∀ cs : List Char, (∀ c ∈ cs, Text.isWhitespace c = false) → cs.dropWhile Text.isWhitespace = cs := by
    intro cs hcs
    cases cs with
    | nil => rfl
    | cons c cs => rw [List.dropWhile_cons_of_neg (by simp [hcs c])]
  have hreverse : ∀ c ∈ s.toList.reverse, Text.isWhitespace c = false := fun c hc => h c (List.mem_reverse.mp hc)
  rw [Text.trim, Text.trimList, hdrop _ h, hdrop _ hreverse, List.reverse_reverse, String.ofList_toList]

theorem parseUnsigned_of_digits {ds : List Char} (hne : ds ≠ []) (h : ∀ c ∈ ds, c ∈ digits) (width : Nat) :
    Text.parseUnsigned width (String.ofList ds) = (Text.parseDigits ds 0).filter fun n => decide (n < 2 ^ width) := by
  cases ds with
  | nil => exact absurd rfl hne
  | cons c ds =>
    have hc : c ≠ '+' := by
      rintro rfl
      exact absurd (h '+' List.mem_cons_self) (by decide)
    rw [Text.parseUnsigned, String.toList_ofList]
    split
    · rename_i hbody
      split at hbody
      · rename_i heq
        cases heq
        exact absurd rfl hc
      · cases hbody
    · split
      · rename_i heq
        cases heq
        exact absurd rfl hc
      · rfl

theorem spelledSeconds_of_parts {ds : List Char} {unit : Char} {value multiplier : Nat} (htext : text.toList = ds ++ [unit])
    (hvalue : Text.parseDigits ds 0 = some value) (hmultiplier : unitSeconds unit = some multiplier) :
    spelledSeconds text = value * multiplier := by
  rw [spelledSeconds, htext, List.dropLast_concat, List.getLast?_concat, hvalue, Option.bind_some, hmultiplier]
  rfl

/-- It has neither blanks to trim nor other characters than ASCII. -/
theorem plain_of_duration (hmatch : durationFormat text = true) : Text.trim text = text ∧ Text.isAscii text = true := by
  obtain ⟨ds, unit, htext, -, hdigits, hunit⟩ := duration_of_match hmatch
  have hchars : ∀ {chars : List Char}, (chars.all fun c => !Text.isWhitespace c && decide (c.toNat < 128)) = true →
      ∀ c ∈ chars, Text.isWhitespace c = false ∧ c.toNat < 128 := by
    intro chars hall c hc
    simpa using List.all_eq_true.mp hall c hc
  have hplain : ∀ c ∈ text.toList, Text.isWhitespace c = false ∧ c.toNat < 128 := by
    rw [htext]
    intro c hc
    rcases List.mem_append.mp hc with hc | hc
    · exact hchars (by decide) c (hdigits c hc)
    · rw [List.mem_singleton.mp hc]
      exact hchars (by decide : (['s', 'm', 'h'].all fun c => !Text.isWhitespace c && decide (c.toNat < 128)) = true)
        unit hunit
  refine ⟨trim_of_all fun c hc => (hplain c hc).1, ?_⟩
  rw [Text.isAscii, List.all_eq_true]
  exact fun c hc => decide_eq_true (hplain c hc).2

/-- Within a day the value fits and the product does not overflow. -/
theorem parseDuration_iff (hmatch : durationFormat text = true) :
    (∃ seconds, parseDuration text = .ok seconds) ↔ spelledSeconds text ≤ Constants.maxDurationSecs := by
  obtain ⟨ds, unit, htext, hne, hdigits, hunit⟩ := duration_of_match hmatch
  obtain ⟨htrim, hascii⟩ := plain_of_duration hmatch
  simp only [parseDuration_eq_ok_iff, htrim]
  constructor
  · rintro ⟨seconds, hspells⟩
    obtain ⟨numeral, unit', value, multiplier, hcut, hvalue, hmultiplier, rfl⟩ := hspells.spelled
    rw [htext] at hcut
    obtain ⟨rfl, hunits⟩ := List.append_inj' hcut rfl
    cases hunits
    rw [parseUnsigned_of_digits hne hdigits] at hvalue
    rw [spelledSeconds_of_parts htext (Option.filter_eq_some_iff.mp hvalue).1 hmultiplier]
    exact hspells.bounded
  · intro hday
    obtain ⟨value, hvalue⟩ := exists_parseDigits hdigits 0
    obtain ⟨multiplier, hmultiplier, hpos⟩ : ∃ multiplier, unitSeconds unit = some multiplier ∧ 0 < multiplier := by
      simp only [List.mem_cons, List.not_mem_nil, or_false] at hunit
      rcases hunit with rfl | rfl | rfl
      · exact ⟨1, rfl, by decide⟩
      · exact ⟨60, rfl, by decide⟩
      · exact ⟨3600, rfl, by decide⟩
    rw [spelledSeconds_of_parts htext hvalue hmultiplier] at hday
    have hfits : value < 2 ^ 64 := by
      have hcap : Constants.maxDurationSecs = 86400 := rfl
      have hle : value ≤ value * multiplier := Nat.le_mul_of_pos_right value hpos
      omega
    refine ⟨value * multiplier, hascii, ⟨ds, unit, value, multiplier, htext, ?_, hmultiplier, rfl⟩, hday⟩
    rw [parseUnsigned_of_digits hne hdigits, hvalue, Option.filter_some, if_pos (decide_eq_true hfits)]

/-! ## API groups -/

theorem validateScheduleRef_of_pin (hpin : scheduleGroupPin spec = true) : validateScheduleRef spec.schedule = .ok () := by
  have hslash : '/' ∉ Constants.spotScheduleApiGroup.toList := by decide
  obtain ⟨version, hsplit⟩ := Text.splitOnce_of_startsWith hslash hpin
  have hpinned : spec.schedule.isSpotScheduleGroup = true := by
    rw [SpotScheduleRef.isSpotScheduleGroup, SpotScheduleRef.group, hsplit]
    exact beq_self_eq_true _
  rw [validateScheduleRef, if_pos hpinned]

/-- The policy looks at the first slash and the controller at the last one. -/
theorem validateApiGroup_iff {group resourceType : String} {allowed : List String} (hgroup : group ∈ allowed)
    (hallowed : ∀ g ∈ allowed, '/' ∉ g.toList) (hstarts : Text.startsWith apiVersion (group ++ '/'.toString) = true) :
    validateApiGroup apiVersion allowed resourceType = .ok () ↔ apiVersion.toList.count '/' = 1 := by
  have hcount : ∀ {g v : String}, '/' ∉ g.toList → apiVersion.toList = g.toList ++ '/' :: v.toList →
      (apiVersion.toList.count '/' = 1 ↔ '/' ∉ v.toList) := by
    intro g v hg happend
    rw [happend, List.count_append, List.count_cons_self, List.count_eq_zero.mpr hg, ← List.count_eq_zero]
    omega
  constructor
  · intro h
    rw [validateApiGroup] at h
    split at h
    · cases h
    · rename_i g v hsplit
      split at h
      · rename_i hmem
        rw [hcount (hallowed g hmem) (Text.eq_append_of_rsplitOnce hsplit)]
        exact Text.not_mem_of_rsplitOnce hsplit
      · cases h
  · intro hone
    obtain ⟨version, hversion⟩ := Text.startsWith_iff.mp hstarts
    have happend : apiVersion = group ++ '/'.toString ++ String.ofList version := by
      rw [← String.toList_inj, hversion, String.toList_append (s := group ++ '/'.toString), String.toList_ofList]
    have hslash : '/' ∉ (String.ofList version).toList := by
      rw [← hcount (hallowed group hgroup) (by rw [happend]; simp [Char.toString])]
      exact hone
    have hsplit : Text.rsplitOnce '/' apiVersion = some (group, String.ofList version) := by
      rw [happend]
      exact Text.rsplitOnce_append hslash
    rw [validateApiGroup, hsplit]
    exact if_pos hgroup

theorem apiGroup_accepted_iff {embedded : EmbeddedResource} {prefixes : List String} (allowed : List String) (resourceType : String)
    (h : allowedGroup prefixes embedded = true) (hallowed : ∀ g ∈ allowed, '/' ∉ g.toList)
    (hprefixes : ∀ pre ∈ prefixes, ∃ g ∈ allowed, g ++ '/'.toString = pre) :
    (∃ v, embedded.apiVersion = some v ∧ validateApiGroup v allowed resourceType = .ok ()) ↔
      ∀ v, embedded.apiVersion = some v → v.toList.count '/' = 1 := by
  obtain ⟨v, hv, hany⟩ := Option.any_eq_true _ _ |>.mp h
  obtain ⟨pre, hpre, hstarts⟩ := List.any_eq_true.mp hany
  obtain ⟨g, hg, rfl⟩ := hprefixes pre hpre
  rw [hv]
  simp only [Option.some.injEq, exists_eq_left', forall_eq']
  exact validateApiGroup_iff hg hallowed hstarts

/-! ## Taints -/

theorem parts_of_keyFormat (h : fullMatch taintKeyPattern key = true) :
    Framed alphanumeric ('-' :: (alphanumeric ++ ['_', '.'])) (taintNamePart key) ∧
      ∀ label ∈ taintLabels key, Framed (lower ++ digits) ('-' :: (lower ++ digits)) label := by
  have hlabel : ∀ {x}, x ∈ labelPattern.matches' ↔ Framed (lower ++ digits) ('-' :: (lower ++ digits)) x :=
    mem_framed fun c hc => List.mem_cons_of_mem '-' hc
  have hname : ∀ {x}, x ∈ namePattern.matches' ↔ Framed alphanumeric ('-' :: (alphanumeric ++ ['_', '.'])) x :=
    mem_framed fun c hc => List.mem_cons_of_mem '-' (List.mem_append_left _ hc)
  have hdot : ∀ x ∈ labelPattern.matches', '.' ∉ x := fun x hx hmem =>
    absurd ((hlabel.mp hx).all '.' hmem) (by decide)
  rw [taintNamePart, taintLabels]
  rcases mem_preceded.mp (fullMatch_iff.mp h) with hq | ⟨p, hp, q, hq, hkey⟩
  · have hslash : '/' ∉ key.toList := fun hmem => absurd ((hname.mp hq).all '/' hmem) (by decide)
    rw [Text.splitOnceList_eq_none.mpr hslash]
    exact ⟨hname.mp hq, fun label hmem => absurd hmem List.not_mem_nil⟩
  · have hlabels := (mem_separated hdot).mp hp
    have hslash : '/' ∉ p := by
      intro hmem
      rcases eq_or_mem_of_splitOn '.' hmem with heq | ⟨label, hmem, hslash⟩
      · exact absurd heq (by decide)
      · exact absurd ((hlabel.mp (hlabels label hmem)).all '/' hslash) (by decide)
    rw [hkey, Text.splitOnceList_append hslash]
    exact ⟨hname.mp hq, fun label hmem => hlabel.mp (hlabels label hmem)⟩

theorem taintKeyWord_iff (hsize : key.toList.length ≤ taintPrefixMaxLen) : TaintKeyWord key ↔
    TaintName (taintNamePart key) ∧ ∀ label ∈ taintLabels key, TaintLabel label := by
  rw [TaintKeyWord, taintNamePart, taintLabels]
  cases hsplit : Text.splitOnceList '/' key.toList with
  | none => simp
  | some p =>
    obtain ⟨pre, name⟩ := p
    have hshort : pre.length ≤ taintPrefixMaxLen := by
      rw [Text.eq_append_of_splitOnceList hsplit, List.length_append] at hsize
      exact Nat.le_trans (Nat.le_add_right _ _) hsize
    constructor
    · rintro ⟨hword, hname⟩
      exact ⟨hname, hword.labels⟩
    · rintro ⟨hname, hlabels⟩
      exact ⟨⟨hlabels, hshort⟩, hname⟩

theorem validateTaintKey_iff_of_format (h : fullMatch taintKeyPattern key = true) (hsize : size key ≤ 253)
    (hreserved : ¬ ReservedKey key) : validateTaintKey key = .ok () ↔
      (taintNamePart key).length ≤ taintNameMaxLen ∧ '_' ∉ taintNamePart key ∧
        ∀ label ∈ taintLabels key, label.length ≤ taintNameMaxLen := by
  obtain ⟨hname, hlabels⟩ := parts_of_keyFormat h
  have hnameWord : TaintName (taintNamePart key) ↔
      (taintNamePart key).length ≤ taintNameMaxLen ∧ '_' ∉ taintNamePart key := by
    constructor
    · intro hword
      exact ⟨hword.short, fun hmem => absurd (hword.framed.all '_' hmem) (by decide)⟩
    · rintro ⟨hshort, hunderscore⟩
      refine ⟨hname.mono (fun c hc => hc) fun c hc hinner => ?_, hshort⟩
      have hne : c ≠ '_' := fun heq => hunderscore (heq ▸ hc)
      simp only [List.mem_cons, List.mem_append, List.not_mem_nil, or_false] at hinner ⊢
      tauto
  have hlabelWord : ∀ label ∈ taintLabels key, (TaintLabel label ↔ label.length ≤ taintNameMaxLen) := by
    intro label hmem
    have hsub : ∀ c ∈ lower ++ digits, c ∈ alphanumeric := by
      intro c hc
      rcases List.mem_append.mp hc with hlower | hdigit
      · exact List.mem_append_left digits (List.mem_append_right upper hlower)
      · exact List.mem_append_right (upper ++ lower) hdigit
    refine ⟨TaintLabel.short, fun hshort => ⟨(hlabels label hmem).mono hsub fun c _ hc => ?_, hshort⟩⟩
    rcases List.mem_cons.mp hc with rfl | hc
    · exact List.mem_cons_self
    · exact List.mem_cons_of_mem _ (hsub c hc)
  rw [validateTaintKey_iff, and_iff_right hreserved, taintKeyWord_iff (by rwa [String.length_toList]), hnameWord, and_assoc]
  exact and_congr_right fun _ => and_congr_right fun _ => forall₂_congr hlabelWord

theorem not_reserved_of_rules (hown : taintOwnPrefix spec = true) (hk8s : taintKubernetesPrefix spec = true) :
    ∀ t ∈ spec.nodeTaints, ¬ ReservedKey t.key := by
  rintro t ht ⟨pre, hpre, hstarts⟩
  have hown := List.all_eq_true.mp hown t ht
  have hk8s := List.all_eq_true.mp hk8s t ht
  simp only [Bool.and_eq_true, Bool.not_eq_true'] at hown hk8s
  simp only [reservedK8sTaintPrefixes, List.mem_cons, List.not_mem_nil, or_false] at hpre
  rcases hpre with rfl | rfl | rfl | rfl
  · exact Bool.false_ne_true (hown.symm.trans hstarts)
  · exact Bool.false_ne_true (hk8s.1.2.symm.trans hstarts)
  · exact Bool.false_ne_true (hk8s.2.symm.trans hstarts)
  · exact Bool.false_ne_true (hk8s.1.1.symm.trans hstarts)

theorem distinct_of_rule (h : taintDuplicates spec = true) : DistinctEntries spec.nodeTaints := by
  rw [DistinctEntries, List.nodup_iff_count_eq_one]
  intro entry hentry
  obtain ⟨t, ht, rfl⟩ := List.mem_map.mp hentry
  have hone := eq_of_beq (List.all_eq_true.mp h t ht)
  rw [List.count, List.countP_map, List.countP_eq_length_filter]
  exact hone

theorem validateNodeTaints_iff_of_rules (hformat : taintKeyFormat spec = true) (hlength : taintKeyLength spec = true)
    (hvalue : taintValueLength spec = true) (hown : taintOwnPrefix spec = true)
    (hk8s : taintKubernetesPrefix spec = true) (hduplicates : taintDuplicates spec = true) :
    validateNodeTaints spec.nodeTaints = .ok () ↔ ∀ t ∈ spec.nodeTaints, PlainTaint t ∧ ShortName t := by
  rw [validateNodeTaints_iff, and_iff_left (distinct_of_rule hduplicates)]
  refine forall₂_congr fun t ht => ?_
  have hkey := validateTaintKey_iff_of_format (List.all_eq_true.mp hformat t ht)
    (of_decide_eq_true (List.all_eq_true.mp hlength t ht)) (not_reserved_of_rules hown hk8s t ht)
  have hvalues : ∀ v, t.value = some v → (validateTaintValue v = .ok () ↔ v = "" ∨ isQualifiedName v = true) := by
    intro v hv
    have hsize : v.toList.length ≤ taintNameMaxLen := by
      have hrule := List.all_eq_true.mp hvalue t ht
      rw [hv, Option.all_some, decide_eq_true_eq] at hrule
      rwa [String.length_toList]
    rw [validateTaintValue_iff, isQualifiedName_iff]
    exact or_congr_right ⟨TaintName.framed, fun hframed => ⟨hframed, hsize⟩⟩
  rw [NodeTaint.accepted_iff, hkey, forall₂_congr hvalues, ShortName]
  constructor
  · rintro ⟨⟨hshort, hname, hlabels⟩, hvalue⟩
    exact ⟨⟨hname, hlabels, hvalue⟩, hshort⟩
  · rintro ⟨⟨hname, hlabels, hvalue⟩, hshort⟩
    exact ⟨⟨hshort, hname, hlabels⟩, hvalue⟩

/-! ## The two sets of checks -/

theorem admittedChecks {authorizer : Authorizer} {ns : Option String} (h : admits authorizer ns spec = true) :
    AdmittedChecks spec := by
  simp only [admits, validations, List.all_cons, List.all_nil, id_eq, Bool.and_eq_true, Bool.and_true] at h
  obtain ⟨-, -, hclusterSize, hclusterMatch, hcount, hentries, hgraceful, hdrain, hpin, -, hbootstrap, -, -, hinfra, -,
    -, -, -, -, -, -, hformat, hlength, hvalue, hown, hk8s, hduplicates⟩ := h
  exact {
    clusterName := validateClusterName_of_match hclusterMatch (of_decide_eq_true hclusterSize)
    commands := validateKillIfCommands_iff hcount hentries
    graceful := parseDuration_iff hgraceful
    drain := parseDuration_iff hdrain
    schedule := validateScheduleRef_of_pin hpin
    bootstrap := apiGroup_accepted_iff _ _ hbootstrap (by decide) (by decide)
    infrastructure := apiGroup_accepted_iff _ _ hinfra (by decide) (by decide)
    taints := validateNodeTaints_iff_of_rules hformat hlength hvalue hown hk8s hduplicates }

end

theorem admitted_mirrored (authorizer : Authorizer) (ns : Option String) (spec : ScheduledMachineSpec)
    (h : admits authorizer ns spec = true) : Mirrored spec := by
  have hchecks := admittedChecks h
  exact {
    clusterName := hchecks.clusterName
    commands := hchecks.commands.mpr
    graceful := hchecks.graceful.mpr
    drain := hchecks.drain.mpr
    schedule := hchecks.schedule
    bootstrap := hchecks.bootstrap.mpr
    infrastructure := hchecks.infrastructure.mpr
    taints := fun hplain => by
      rw [hchecks.taints]
      exact forall₂_congr fun t ht => and_iff_right (hplain t ht) }

/-! ## A long name -/

def taintedSpec (key : String) : ScheduledMachineSpec :=
  { demoSpec with
    bootstrapSpec := ⟨.obj [("apiVersion", .str "bootstrap.cluster.x-k8s.io/v1beta1"), ("kind", .str "K0sWorkerConfig"),
      ("spec", .obj [])]⟩
    infrastructureSpec := ⟨.obj [("apiVersion", .str "infrastructure.cluster.x-k8s.io/v1beta1"),
      ("kind", .str "RemoteMachine"), ("spec", .obj [])]⟩
    nodeTaints := [⟨key, none, .noSchedule⟩] }

def anyUser : Authorizer := fun _ _ _ => true

theorem short_name_mirrored : admits anyUser (some "team") (taintedSpec "gpu") = true ∧
    Mirrored (taintedSpec "gpu") := by
  have hadmits : admits anyUser (some "team") (taintedSpec "gpu") = true := by decide +kernel
  exact ⟨hadmits, admitted_mirrored anyUser (some "team") (taintedSpec "gpu") hadmits⟩

/-- 64 letters pass the rules for keys. -/
def longKey : String := String.ofList (List.replicate 64 'a')

theorem longKey_toList : longKey.toList = List.replicate 64 'a' := String.toList_ofList

theorem keyFormat_of_alphanumeric {key : String} (hne : key.toList ≠ []) (hall : ∀ c ∈ key.toList, c ∈ alphanumeric) :
    fullMatch taintKeyPattern key = true := by
  have hframed : Framed alphanumeric ('-' :: (alphanumeric ++ ['_', '.'])) key.toList := by
    refine ⟨?_, ?_, fun c hc => List.mem_cons_of_mem '-' (List.mem_append_left _ (hall c hc))⟩
    · exact ⟨key.toList.head hne, hall _ (List.head_mem hne), List.head?_eq_some_head hne⟩
    · exact ⟨key.toList.getLast hne, hall _ (List.getLast_mem hne), List.getLast?_eq_some_getLast hne⟩
  have hname : key.toList ∈ namePattern.matches' :=
    (mem_framed fun c hc => List.mem_cons_of_mem '-' (List.mem_append_left _ hc)).mpr hframed
  exact fullMatch_iff.mpr (mem_preceded.mpr (Or.inl hname))

theorem long_name_admitted : ¬ ∀ authorizer ns spec, admits authorizer ns spec = true → RuntimeAccepts spec := by
  intro h
  have hadmits : admits anyUser (some "team") (taintedSpec longKey) = true := by
    have hne : longKey.toList ≠ [] := by simp [longKey_toList]
    have hkey : ∀ c ∈ longKey.toList, c ∈ alphanumeric := by
      rw [longKey_toList]
      intro c hc
      rw [List.eq_of_mem_replicate hc]
      decide
    have hformat : taintKeyFormat (taintedSpec longKey) = true := by
      rw [taintKeyFormat, taintedSpec, List.all_cons, keyFormat_of_alphanumeric hne hkey]
      rfl
    simp only [admits, validations, List.all_cons, List.all_nil, id_eq, Bool.and_eq_true, Bool.and_true, hformat]
    and_intros
    all_goals decide +kernel
  have htaints := (h anyUser (some "team") (taintedSpec longKey) hadmits).taints
  exact absurd htaints (by decide +kernel)

end FiveSpot
