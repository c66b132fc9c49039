import FiveSpot.Admission.CrdSchema
import FiveSpot.Safety.Admission

/-! # Specs that come back from the API server

Between the CRD and serde: what the server stores under the schema can always be read, and only the caps on commands, which
the schema counts in characters, are left to the runtime. What a manifest leaves out is filled in alike on both sides.
-/

namespace FiveSpot

set_option autoImplicit false

open Admission Pattern

section

variable {spec : ScheduledMachineSpec} {s : String} {least greatest : Nat} {pattern : RegularExpression Char}

theorem fullMatch_of_lets (h : (Schema.string least (some greatest) (some pattern)).Lets s) :
    fullMatch pattern s = true ∧ size s ≤ greatest := by
  obtain ⟨-, hgreatest, hpattern⟩ := accepts_string_iff.mp h
  exact ⟨hpattern pattern rfl, hgreatest greatest rfl⟩

theorem ScheduledMachineSpec.Fits.scheduleGroupPin (h : spec.Fits) : scheduleGroupPin spec = true := by
  obtain ⟨hmatch, -⟩ := fullMatch_of_lets h.schedule.apiVersion
  obtain ⟨_, hgroup, version, -, hversion⟩ := Language.mem_mul.mp (fullMatch_iff.mp hmatch)
  cases mem_literal.mp hgroup
  exact Text.startsWith_iff.mpr ⟨version, hversion.symm⟩

theorem ScheduledMachineSpec.Fits.killIfCommandsCount (h : spec.Fits) : killIfCommandsCount spec = true := by
  refine (Option.all_eq_true _ _).mpr fun commands hcommands => decide_eq_true ?_
  exact (h.killIfCommands commands hcommands).1

theorem ScheduledMachineSpec.Fits.killIfCommandsEntries (h : spec.Fits) : killIfCommandsEntries spec = true := by
  refine (Option.all_eq_true _ _).mpr fun commands hcommands => List.all_eq_true.mpr fun c hc => ?_
  obtain ⟨hleast, hgreatest, -⟩ := accepts_string_iff.mp ((h.killIfCommands commands hcommands).2 c hc)
  exact Bool.and_eq_true_iff.mpr ⟨decide_eq_true hleast, decide_eq_true (hgreatest 256 rfl)⟩

/-- Of the checks made on every reconcile the schema leaves one open. -/
theorem ScheduledMachineSpec.Fits.validateSpec_iff (h : spec.Fits) :
    validateSpec spec = .ok () ↔ CommandsFit spec.killIfCommands := by
  obtain ⟨hmatch, hsize⟩ := fullMatch_of_lets h.clusterName
  have hcommands := validateKillIfCommands_iff h.killIfCommandsCount h.killIfCommandsEntries
  have hschedule := validateScheduleRef_of_pin h.scheduleGroupPin
  rw [CommandsFit, ← hcommands, validateSpec, validateClusterName_of_match hmatch hsize, hschedule]
  cases validateKillIfCommands spec.killIfCommands with
  | error e => exact iff_of_false nofun nofun
  | ok _ => exact iff_of_true rfl rfl

end

/-- A stored spec is read, passes the checks up to the bytes of its commands, and survives being written back. -/
structure Readable (v : Json) (spec : ScheduledMachineSpec) : Prop where
  read : ScheduledMachineSpec.read v = some spec
  checks : validateSpec spec = .ok () ↔ CommandsFit spec.killIfCommands
  stored : ScheduledMachineSpec.schema.Stores spec.write
  back : ScheduledMachineSpec.read spec.write = some spec

theorem stored_spec_readable (v : Json) (h : ScheduledMachineSpec.schema.Stores v) : ∃ spec, Readable v spec := by
  have hformat := ScheduledMachineSpec.format
  obtain ⟨spec, hread, hfits⟩ := hformat.reads v h.distinct h.accepted
  refine ⟨spec, hread, hfits.validateSpec_iff, ⟨⟨spec.write, ?_⟩, ?_, ?_⟩, ?_⟩
  · exact hformat.complete spec hfits
  · exact hformat.distinct spec hfits
  · exact hformat.accepts spec hfits
  · exact hformat.back spec hfits

/-- A manifest with no more than it needs, and a note on one of its resources. -/
def demoManifest : Json :=
  .obj [("schedule", .obj [("apiVersion", .str "spotschedules.5spot.finos.org/v1alpha1"), ("kind", .str "TimeSchedule"),
      ("name", .str "work")]),
    ("clusterName", .str "edge"),
    ("bootstrapSpec", .obj [("apiVersion", .str "bootstrap.cluster.x-k8s.io/v1beta1"), ("kind", .str "K0sWorkerConfig"),
      ("spec", .obj []), ("note", .str "pruned")]),
    ("infrastructureSpec", .obj [("apiVersion", .str "infrastructure.cluster.x-k8s.io/v1beta1"), ("kind", .str "RemoteMachine"),
      ("spec", .obj [])])]

theorem demoManifest_accepted :
    ScheduledMachineSpec.schema.accepts (ScheduledMachineSpec.schema.complete demoManifest) = true := by
  decide +kernel

theorem demoManifest_readable : ∃ spec, Readable (ScheduledMachineSpec.schema.complete demoManifest) spec :=
  stored_spec_readable _ ⟨⟨demoManifest, rfl⟩, by decide +kernel, demoManifest_accepted⟩

/-! ## What a manifest becomes -/

/-- The stored spec is the one of the manifest, as far as the controller looks. -/
structure Preserves (manifest stored : ScheduledMachineSpec) : Prop where
  typed : stored = { manifest with bootstrapSpec := stored.bootstrapSpec, infrastructureSpec := stored.infrastructureSpec }
  bootstrapSpec : stored.bootstrapSpec.SameView manifest.bootstrapSpec
  infrastructureSpec : stored.infrastructureSpec.SameView manifest.infrastructureSpec

/-- The embedded resources of a spec are the values it was read from. -/
theorem embedded_of_readFields {get : String → Option Json} {spec : ScheduledMachineSpec}
    (h : ScheduledMachineSpec.readFields get = some spec) :
    get "bootstrapSpec" = some spec.bootstrapSpec.value ∧ get "infrastructureSpec" = some spec.infrastructureSpec.value := by
  rw [ScheduledMachineSpec.readFields] at h
  iterate 3 obtain ⟨_, -, h⟩ := Option.bind_eq_some_iff.mp h
  obtain ⟨_, hbootstrap, h⟩ := Option.bind_eq_some_iff.mp h
  obtain ⟨_, hinfra, h⟩ := Option.bind_eq_some_iff.mp h
  iterate 9 obtain ⟨_, -, h⟩ := Option.bind_eq_some_iff.mp h
  cases h
  have hvalue : ∀ {x : Option Json} {e : EmbeddedResource}, Reader.required EmbeddedResource.read x = some e →
      x = some e.value := by
    intro x e hx
    obtain ⟨w, hw, hread⟩ := Option.bind_eq_some_iff.mp hx
    cases hread
    exact hw
  exact ⟨hvalue hbootstrap, hvalue hinfra⟩

theorem accepts_of_required {schema : Schema} {w : Json}
    (h : Presence.required.admits schema (Presence.required.complete schema (some w)) = true) :
    schema.accepts (schema.complete w) = true := by
  rw [Presence.complete] at h
  cases hnull : w.isNull with
  | true =>
    rw [hnull] at h
    cases h
  | false =>
    rw [hnull] at h
    exact h

theorem manifest_preserved (v : Json) (spec : ScheduledMachineSpec) (hdistinct : v.distinct = true)
    (haccepts : ScheduledMachineSpec.schema.accepts (ScheduledMachineSpec.schema.complete v) = true)
    (hread : ScheduledMachineSpec.read v = some spec) :
    ∃ stored, ScheduledMachineSpec.read (ScheduledMachineSpec.schema.complete v) = some stored ∧ Preserves spec stored := by
  cases v with
  | obj fields =>
    have hfields : ScheduledMachineSpec.readFields (fun name => (Json.obj fields).get name) = some spec := hread
    obtain ⟨hbootstrap, hinfra⟩ := embedded_of_readFields hfields
    have hnames : (fields.map Prod.fst).Nodup := of_decide_eq_true (Bool.and_eq_true_iff.mp hdistinct).1
    have hsame : ∀ name (e : EmbeddedResource), (name, Presence.required, EmbeddedResource.schema) ∈ ScheduledMachineSpec.properties →
        (Json.obj fields).get name = some e.value → e.settled.SameView e := by
      intro name e hmem hvalue
      have hadmits := Schema.admits_of_accepts haccepts hmem
      rw [ScheduledMachineSpec.schema, Schema.get_complete (by decide) hnames hmem, hvalue] at hadmits
      exact EmbeddedResource.settled_sameView (Json.distinct_get hdistinct hvalue) (accepts_of_required hadmits)
    exact ⟨spec.settled, ScheduledMachineSpec.format.settles _ spec hdistinct haccepts hread, rfl,
      hsame "bootstrapSpec" _ (by simp [ScheduledMachineSpec.properties]) hbootstrap,
      hsame "infrastructureSpec" _ (by simp [ScheduledMachineSpec.properties]) hinfra⟩
  | _ => cases hread

theorem demoManifest_preserved : ∃ spec stored, ScheduledMachineSpec.read demoManifest = some spec ∧
    ScheduledMachineSpec.read (ScheduledMachineSpec.schema.complete demoManifest) = some stored ∧ Preserves spec stored := by
  have hread : (ScheduledMachineSpec.read demoManifest).isSome = true := by decide +kernel
  obtain ⟨spec, hspec⟩ := Option.isSome_iff_exists.mp hread
  obtain ⟨stored, hstored, hpreserves⟩ := manifest_preserved demoManifest spec (by decide +kernel) demoManifest_accepted hspec
  exact ⟨spec, stored, hspec, hstored, hpreserves⟩

end FiveSpot
