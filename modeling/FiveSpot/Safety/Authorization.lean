import FiveSpot.Model.Lowercase
import FiveSpot.Safety.Admission
import FiveSpot.Safety.CreatedObjects

/-! # What is authorised and what is created

The policy asks whether the user may create the resources the controller is going to create for him. It derives their
group and plural in its own language.
-/

namespace FiveSpot

set_option autoImplicit false

open Admission

/-- The group and the resource the policy asks the authorizer about. -/
def policyPair (apiVersion kind : String) : String × String := (resourceGroup apiVersion, resourceName kind)

/-- The group and the plural of the access review and of the create. -/
def controllerPair (ctx : Context) (apiVersion kind : String) : String × String :=
  ((dynamicResource ctx apiVersion kind).group, (dynamicResource ctx apiVersion kind).plural)

section

variable {ctx : Context} {table : Text.LowercaseTable} {spec : ScheduledMachineSpec} {plan : CapiPlan}

/-- A group of the allow-list has no slash, so the first slash is the last one. -/
theorem resourceGroup_eq_group {apiVersion : String} {allowed : List String} (hallowed : ∀ g ∈ allowed, '/' ∉ g.toList)
    (h : (parseApiVersion apiVersion).1 ∈ allowed) (hne : "" ∉ allowed) :
    resourceGroup apiVersion = (parseApiVersion apiVersion).1 := by
  cases hsplit : Text.rsplitOnce '/' apiVersion with
  | none =>
    rw [parseApiVersion, hsplit] at h
    exact absurd h hne
  | some parts =>
    obtain ⟨group, version⟩ := parts
    rw [parseApiVersion, hsplit] at h ⊢
    have hslash : '/' ∉ group.toList := hallowed group h
    rw [resourceGroup, Text.split, Text.eq_append_of_rsplitOnce hsplit, Text.splitList_eq_splitOn,
      List.splitOn_append_cons_self_of_not_mem hslash]
    exact String.ofList_toList

theorem resourceName_eq_plural_iff (hlower : ctx.lowercase = table.lowercase) {kind : String} :
    resourceName kind = resourcePlural ctx kind ↔ table.Unfolded kind := by
  rw [resourceName, resourcePlural, hlower, lowerAscii, String.append_left_inj, eq_comm]
  exact table.toLowercase_eq_iff

theorem policyPair_eq_iff (hlower : ctx.lowercase = table.lowercase) {apiVersion kind : String} {allowed : List String}
    (hallowed : ∀ g ∈ allowed, '/' ∉ g.toList) (hne : "" ∉ allowed) (h : (parseApiVersion apiVersion).1 ∈ allowed) :
    policyPair apiVersion kind = controllerPair ctx apiVersion kind ↔ table.Unfolded kind := by
  rw [policyPair, controllerPair, Prod.mk.injEq, resourceGroup_eq_group hallowed h hne]
  exact (and_iff_right rfl).trans (resourceName_eq_plural_iff hlower)

theorem allowed_of_userMayCreate {authorizer : Authorizer} {ns : Option String} {embedded : EmbeddedResource}
    {apiVersion kind : String} (hversion : embedded.apiVersion = some apiVersion) (hkind : embedded.kind = some kind)
    (h : userMayCreate authorizer ns embedded = true) :
    authorizer (policyPair apiVersion kind).1 (policyPair apiVersion kind).2 ns = true := by
  rw [userMayCreate, hversion, hkind] at h
  exact h

/-- Of an object that both accept: the authorizer has allowed the policy's pair, and it is the controller's pair if and
only if no character of the kind beyond ASCII has another lowercase. -/
theorem authorised_pair_iff (hlower : ctx.lowercase = table.lowercase) {authorizer : Authorizer} {ns : Option String}
    (hadmits : admits authorizer ns spec = true) (hplan : planCapi spec = .ok plan) :
    (authorizer (policyPair plan.bootstrapApiVersion plan.bootstrapKind).1
        (policyPair plan.bootstrapApiVersion plan.bootstrapKind).2 ns = true ∧
      (policyPair plan.bootstrapApiVersion plan.bootstrapKind =
        controllerPair ctx plan.bootstrapApiVersion plan.bootstrapKind ↔ table.Unfolded plan.bootstrapKind)) ∧
    authorizer (policyPair plan.infraApiVersion plan.infraKind).1
        (policyPair plan.infraApiVersion plan.infraKind).2 ns = true ∧
      (policyPair plan.infraApiVersion plan.infraKind =
        controllerPair ctx plan.infraApiVersion plan.infraKind ↔ table.Unfolded plan.infraKind) := by
  obtain ⟨⟨hba, hbk, hia, hik⟩, -⟩ := planCapi_eq_ok hplan
  obtain ⟨hbootstrap, hinfra⟩ := groups_of_planCapi hplan
  obtain ⟨hbUser, hiUser⟩ : userMayCreate authorizer ns spec.bootstrapSpec = true ∧
      userMayCreate authorizer ns spec.infrastructureSpec = true := by
    simp only [admits, validations, List.all_cons, List.all_nil, id_eq, Bool.and_eq_true, Bool.and_true] at hadmits
    obtain ⟨-, -, -, -, -, -, -, -, -, -, -, -, -, -, -, -, -, -, -, hb, hi, -⟩ := hadmits
    exact ⟨hb, hi⟩
  refine ⟨⟨allowed_of_userMayCreate hba hbk hbUser, ?_⟩, allowed_of_userMayCreate hia hik hiUser, ?_⟩
  · exact policyPair_eq_iff hlower (by decide) (by decide) hbootstrap
  · exact policyPair_eq_iff hlower (by decide) (by decide) hinfra

end

/-! ## The Kelvin sign -/

def kelvinSign : Char := Char.ofNat 0x212A

/-- The lowercase of ASCII letters, of the sigma and of the Kelvin sign, which is the letter k. -/
def kelvinTable : Text.LowercaseTable where
  mapping c := if c = kelvinSign then ['k'] else if c = Text.capitalSigma then [Text.smallSigma] else [c.toLower]
  endsWord _ _ := false
  ascii c hc := by
    have hkelvin : c ≠ kelvinSign := by
      rintro rfl
      exact absurd hc (by decide)
    have hsigma : c ≠ Text.capitalSigma := by
      rintro rfl
      exact absurd hc (by decide)
    rw [if_neg hkelvin, if_neg hsigma]
  nonempty c := by
    split
    · exact List.cons_ne_nil _ _
    · split <;> exact List.cons_ne_nil _ _
  sigma := by decide

def kelvinContext : Context := { demoContext with lowercase := kelvinTable.lowercase }

theorem ascii_kind_authorised_exactly : policyPair demoPlan.bootstrapApiVersion demoPlan.bootstrapKind =
    controllerPair kelvinContext demoPlan.bootstrapApiVersion demoPlan.bootstrapKind := by
  have hadmits : admits anyUser (some "team") (taintedSpec "gpu") = true := by decide +kernel
  have hplan : planCapi (taintedSpec "gpu") = .ok demoPlan := rfl
  have hkind : kelvinTable.Unfolded demoPlan.bootstrapKind := kelvinTable.unfolded_of_isAscii (by decide)
  have hlower : kelvinContext.lowercase = kelvinTable.lowercase := rfl
  exact (authorised_pair_iff hlower hadmits hplan).1.2.mpr hkind

/-- `K0sWorkerConfig`, written with the Kelvin sign. -/
def kelvinKind : String := String.ofList (kelvinSign :: "0sWorkerConfig".toList)

def kelvinSpec : ScheduledMachineSpec :=
  { taintedSpec "gpu" with
    bootstrapSpec := ⟨.obj [("apiVersion", .str "bootstrap.cluster.x-k8s.io/v1beta1"), ("kind", .str kelvinKind),
      ("spec", .obj [])]⟩ }

def kelvinPlan : CapiPlan := { demoPlan with bootstrapKind := kelvinKind }

/-- The user is asked about a resource nobody serves, and a `K0sWorkerConfig` is created. -/
theorem kelvin_kind_authorised_otherwise :
    ¬∀ authorizer ns spec plan, admits authorizer ns spec = true → planCapi spec = .ok plan →
      policyPair plan.bootstrapApiVersion plan.bootstrapKind =
          controllerPair kelvinContext plan.bootstrapApiVersion plan.bootstrapKind ∧
        policyPair plan.infraApiVersion plan.infraKind =
          controllerPair kelvinContext plan.infraApiVersion plan.infraKind := by
  intro h
  have hadmits : admits anyUser (some "team") kelvinSpec = true := by decide +kernel
  have hplan : planCapi kelvinSpec = .ok kelvinPlan := rfl
  have hpair := congrArg Prod.snd (h anyUser (some "team") kelvinSpec kelvinPlan hadmits hplan).1
  exact absurd hpair (by decide +kernel)

end FiveSpot
