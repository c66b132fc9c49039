import FiveSpot.Model.FirstEntry
import Mathlib.Data.List.Perm.Basic

/-! # Presence VEX (`src/auto_vex_presence.rs`)

A CVE that Grype reports for a package no SBOM lists is declared not present in the product. The loop decides
match by match, and the first match that qualifies settles the whole CVE.
-/

namespace FiveSpot.Vex

set_option autoImplicit false

/-! Grype reports and CycloneDX SBOMs, as far as they are read. -/

structure GrypeVuln where
  id : String

structure GrypeArtifact where
  purl : Option String

structure GrypeMatch where
  vulnerability : GrypeVuln
  artifact : GrypeArtifact

structure GrypeReport where
  «matches» : List GrypeMatch

structure SbomComponent where
  purl : Option String

structure Sbom where
  components : Option (List SbomComponent)

/-! The statements that are emitted. -/

structure Vuln where
  name : String
  deriving DecidableEq

structure Product where
  id : String
  deriving DecidableEq

structure Statement where
  vulnerability : Vuln
  products : List Product
  status : String
  justification : Option String
  impactStatement : Option String
  timestamp : String
  deriving DecidableEq

def autoImpactStatement : String :=
  "Auto-derived by auto-vex-presence: the vulnerable component's package URL is not present in any release SBOM, so the CVE cannot be exploited against this product."

def sbomPurls (sboms : List Sbom) : List String :=
  (sboms.flatMap fun s => s.components.getD []).filterMap (·.purl)

section

variable (sboms : List Sbom) (alreadyTriaged : List String) (productPurl statementTimestamp : String)

def presenceStatement (cve : String) : Statement where
  vulnerability := ⟨cve⟩
  products := [⟨productPurl⟩]
  status := "not_affected"
  justification := some "component_not_present"
  impactStatement := some autoImpactStatement
  timestamp := statementTimestamp

def presenceStep (emitted : Std.TreeMap String Statement) (m : GrypeMatch) : Std.TreeMap String Statement :=
  let cve := m.vulnerability.id
  if alreadyTriaged.contains cve then emitted
  else if emitted.contains cve then emitted
  else match m.artifact.purl with
    | none => emitted
    | some artifactPurl =>
      if artifactPurl = "" then emitted
      else if (sbomPurls sboms).contains artifactPurl then emitted
      else emitted.insert cve (presenceStatement productPurl statementTimestamp cve)

def computePresenceVex (grype : GrypeReport) : List Statement :=
  (grype.matches.foldl (presenceStep sboms alreadyTriaged productPurl statementTimestamp) ∅).toList.map Prod.snd

end

/-! ## What is emitted -/

/-- The match names a package, and no SBOM has it. -/
def AbsentPackage (sboms : List Sbom) (m : GrypeMatch) : Prop :=
  ∃ purl, m.artifact.purl = some purl ∧ purl ≠ "" ∧
    ∀ s ∈ sboms, ∀ c ∈ s.components.getD [], c.purl ≠ some purl

/-- A statement that takes the CVE off the table with the given justification. -/
def Suppresses (justification : String) (statements : List Statement) (cve : String) : Prop :=
  ∃ s ∈ statements, s.vulnerability.name = cve ∧ s.status = "not_affected" ∧ s.justification = some justification

section

variable {sboms : List Sbom} {alreadyTriaged : List String} {productPurl statementTimestamp : String}
  {grype : GrypeReport}

def absentPackage (sboms : List Sbom) (m : GrypeMatch) : Bool :=
  m.artifact.purl.any fun purl => purl != "" && !(sbomPurls sboms).contains purl

theorem mem_sbomPurls {purl : String} :
    purl ∈ sbomPurls sboms ↔ ∃ s ∈ sboms, ∃ c ∈ s.components.getD [], c.purl = some purl := by
  simp only [sbomPurls, List.mem_filterMap, List.mem_flatMap]
  constructor
  · rintro ⟨c, ⟨s, hs, hc⟩, hpurl⟩
    exact ⟨s, hs, c, hc, hpurl⟩
  · rintro ⟨s, hs, c, hc, hpurl⟩
    exact ⟨c, ⟨s, hs, hc⟩, hpurl⟩

theorem absentPackage_iff {m : GrypeMatch} : absentPackage sboms m = true ↔ AbsentPackage sboms m := by
  simp only [absentPackage, AbsentPackage, Option.any_eq_true, Bool.and_eq_true, bne_iff_ne, Bool.not_eq_true',
    List.contains_eq_mem, decide_eq_false_iff_not, mem_sbomPurls]
  grind

def emitsPresence (sboms : List Sbom) (alreadyTriaged : List String) (m : GrypeMatch) : Bool :=
  !alreadyTriaged.contains m.vulnerability.id && absentPackage sboms m

theorem emitsPresence_iff {m : GrypeMatch} : emitsPresence sboms alreadyTriaged m = true ↔
    m.vulnerability.id ∉ alreadyTriaged ∧ AbsentPackage sboms m := by
  simp only [emitsPresence, Bool.and_eq_true, Bool.not_eq_true', List.contains_eq_mem, decide_eq_false_iff_not,
    absentPackage_iff]

theorem presenceStep_eq : presenceStep sboms alreadyTriaged productPurl statementTimestamp =
    FirstEntry.step (·.vulnerability.id) (FirstEntry.keyed (·.vulnerability.id) (emitsPresence sboms alreadyTriaged)
      (presenceStatement productPurl statementTimestamp)) := by
  funext emitted m
  unfold presenceStep FirstEntry.step FirstEntry.keyed emitsPresence absentPackage
  by_cases htriaged : m.vulnerability.id ∈ alreadyTriaged
  · simp [htriaged]
  by_cases hemitted : m.vulnerability.id ∈ emitted
  · simp [htriaged, hemitted]
  cases m.artifact.purl with
  | none => simp [htriaged, hemitted]
  | some purl =>
    by_cases hempty : purl = ""
    · simp [htriaged, hemitted, hempty]
    by_cases hlisted : purl ∈ sbomPurls sboms
    · simp [htriaged, hemitted, hempty, hlisted]
    · simp [htriaged, hemitted, hempty, hlisted]

theorem computePresenceVex_eq : computePresenceVex sboms alreadyTriaged productPurl statementTimestamp grype =
    (FirstEntry.collect (·.vulnerability.id) (FirstEntry.keyed (·.vulnerability.id)
      (emitsPresence sboms alreadyTriaged) (presenceStatement productPurl statementTimestamp))
      grype.matches).toList.map Prod.snd := by
  rw [computePresenceVex, presenceStep_eq, FirstEntry.collect]

theorem mem_computePresenceVex {s : Statement} :
    s ∈ computePresenceVex sboms alreadyTriaged productPurl statementTimestamp grype ↔
      ∃ m ∈ grype.matches, (m.vulnerability.id ∉ alreadyTriaged ∧ AbsentPackage sboms m) ∧
        s = presenceStatement productPurl statementTimestamp m.vulnerability.id := by
  rw [computePresenceVex_eq, FirstEntry.mem_values_collect]
  simp only [emitsPresence_iff]

/-- One match that is not triaged and names an absent package is enough. -/
theorem suppresses_presence_iff {cve : String} :
    Suppresses "component_not_present"
        (computePresenceVex sboms alreadyTriaged productPurl statementTimestamp grype) cve ↔
      ∃ m ∈ grype.matches, m.vulnerability.id = cve ∧ cve ∉ alreadyTriaged ∧ AbsentPackage sboms m := by
  constructor
  · rintro ⟨s, hs, rfl, -, -⟩
    obtain ⟨m, hm, ⟨htriaged, habsent⟩, rfl⟩ := mem_computePresenceVex.mp hs
    exact ⟨m, hm, rfl, htriaged, habsent⟩
  · rintro ⟨m, hm, rfl, htriaged, habsent⟩
    exact ⟨_, mem_computePresenceVex.mpr ⟨m, hm, ⟨htriaged, habsent⟩, rfl⟩, rfl, rfl, rfl⟩

end

/-! ## Order -/

/-- The same SBOMs with the same components, each in some order. -/
def SameSboms (sboms sboms' : List Sbom) : Prop :=
  ∃ mid, sboms.Perm mid ∧ List.Forall₂ (fun s s' => (s.components.getD []).Perm (s'.components.getD [])) mid sboms'

theorem absentPackage_congr {sboms sboms' : List Sbom} (h : SameSboms sboms sboms') (m : GrypeMatch) :
    AbsentPackage sboms m ↔ AbsentPackage sboms' m := by
  obtain ⟨mid, hperm, hforall⟩ := h
  have hcomponents : ∀ purl, (∀ s ∈ sboms, ∀ c ∈ s.components.getD [], c.purl ≠ some purl) ↔
      ∀ s ∈ sboms', ∀ c ∈ s.components.getD [], c.purl ≠ some purl := by
    intro purl
    have hmid : (∀ s ∈ mid, ∀ c ∈ s.components.getD [], c.purl ≠ some purl) ↔
        ∀ s ∈ sboms', ∀ c ∈ s.components.getD [], c.purl ≠ some purl := by
      clear hperm
      induction hforall with
      | nil => simp
      | cons hcons _ ih => simp only [List.forall_mem_cons, ih, hcons.mem_iff]
    simp only [hperm.mem_iff]
    exact hmid
  simp only [AbsentPackage, hcomponents]

/-- Neither the order of the matches nor that of the SBOMs and their components reaches the output. -/
theorem computePresenceVex_congr {sboms sboms' : List Sbom} {alreadyTriaged : List String}
    {productPurl statementTimestamp : String} {grype grype' : GrypeReport}
    (hmatches : grype.matches.Perm grype'.matches) (hsboms : SameSboms sboms sboms') :
    computePresenceVex sboms alreadyTriaged productPurl statementTimestamp grype =
      computePresenceVex sboms' alreadyTriaged productPurl statementTimestamp grype' := by
  rw [computePresenceVex_eq, computePresenceVex_eq]
  congr 1
  apply FirstEntry.toList_collect_congr
  intro cve
  simp only [emitsPresence_iff, absentPackage_congr hsboms, hmatches.mem_iff]

/-! ## Soundness -/

/-- A suppressed CVE is about packages that are not in the product, and the order of the inputs does not matter. -/
structure PresenceSound (sboms : List Sbom) (alreadyTriaged : List String) (productPurl statementTimestamp : String)
    (grype : GrypeReport) : Prop where
  absent : ∀ cve, Suppresses "component_not_present"
      (computePresenceVex sboms alreadyTriaged productPurl statementTimestamp grype) cve →
    ∀ m ∈ grype.matches, m.vulnerability.id = cve → AbsentPackage sboms m
  order : ∀ grype' sboms', grype.matches.Perm grype'.matches → SameSboms sboms sboms' → ∀ cve,
    Suppresses "component_not_present"
        (computePresenceVex sboms alreadyTriaged productPurl statementTimestamp grype) cve ↔
      Suppresses "component_not_present"
        (computePresenceVex sboms' alreadyTriaged productPurl statementTimestamp grype') cve

/-- A CVE must not have some packages in the product and some out of it. -/
theorem presence_sound_iff (sboms : List Sbom) (alreadyTriaged : List String)
    (productPurl statementTimestamp : String) (grype : GrypeReport) :
    PresenceSound sboms alreadyTriaged productPurl statementTimestamp grype ↔
      ∀ m ∈ grype.matches, m.vulnerability.id ∉ alreadyTriaged → AbsentPackage sboms m →
        ∀ m' ∈ grype.matches, m'.vulnerability.id = m.vulnerability.id → AbsentPackage sboms m' := by
  constructor
  · intro h m hm htriaged habsent
    apply h.absent
    exact suppresses_presence_iff.mpr ⟨m, hm, rfl, htriaged, habsent⟩
  · intro h
    constructor
    · intro cve hcve m' hm' hid
      obtain ⟨m, hm, rfl, htriaged, habsent⟩ := suppresses_presence_iff.mp hcve
      exact h m hm htriaged habsent m' hm' hid
    · intro grype' sboms' hmatches hsboms cve
      rw [computePresenceVex_congr hmatches hsboms]

/-- The CVE is in a package of the SBOM and in one that is not. -/
theorem presence_unsound : ¬ ∀ sboms alreadyTriaged productPurl statementTimestamp grype,
    PresenceSound sboms alreadyTriaged productPurl statementTimestamp grype := by
  intro h
  let shipped : GrypeMatch := ⟨⟨"CVE-2026-0001"⟩, ⟨some "pkg:deb/debian/openssl@3.0.1"⟩⟩
  let notShipped : GrypeMatch := ⟨⟨"CVE-2026-0001"⟩, ⟨some "pkg:deb/debian/libssl1.1@1.1.1"⟩⟩
  let sboms : List Sbom := [⟨some [⟨some "pkg:deb/debian/openssl@3.0.1"⟩]⟩]
  have hsound := h sboms [] "pkg:oci/5-spot" "2026-01-01T00:00:00Z" ⟨[shipped, notShipped]⟩
  have habsent : AbsentPackage sboms notShipped := absentPackage_iff.mp (by decide)
  have hshipped : AbsentPackage sboms shipped := by
    apply hsound.absent "CVE-2026-0001" _ shipped List.mem_cons_self rfl
    apply suppresses_presence_iff.mpr
    exact ⟨notShipped, List.mem_cons_of_mem _ List.mem_cons_self, rfl, List.not_mem_nil, habsent⟩
  exact absurd (absentPackage_iff.mpr hshipped) (by decide)

end FiveSpot.Vex
