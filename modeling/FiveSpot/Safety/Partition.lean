import FiveSpot.Cluster.Run
import FiveSpot.Discipline.Effects
import Mathlib.Tactic.IntervalCases
import Mathlib.Tactic.Ring

/-! # One controller for each resource

The assignment hash lands on every instance number. Each controller compares it with an environment
variable of its process, not with the number it was configured with.
-/

namespace FiveSpot

set_option autoImplicit false

open Interaction

def instanceOf (ctx : Context) : Nat :=
  (ctx.operatorInstanceId.bind (Text.parseUnsigned 32)).getD Constants.defaultInstanceId

/-- `n` controllers numbered from 0, all past the leader guard. The count is a `u32`. -/
structure Fleet (n : Nat) where
  controller : Fin n → Context
  inhabited : 1 ≤ n
  bounded : n < 2 ^ 32
  numbered : ∀ i, (controller i).instanceId = i
  counted : ∀ i, (controller i).instanceCount = n
  leading : ∀ i, (controller i).isLeader = true

/-- Exactly one controller gets past the guards, for every resource. -/
def Fleet.Partitions {n : Nat} (fleet : Fleet n) : Prop :=
  ∀ sm ns, sm.metadata.ns = some ns → ∃! i, Entered (fleet.controller i) sm ns

/-! ## The hash covers every instance -/

/-- The hash without wrap-around, from a start value. -/
def rollFrom (hash : Nat) (bytes : List UInt8) : Nat := bytes.foldl (fun hash byte => hash * 31 + byte.toNat) hash

theorem resourceHash_eq (bytes : List UInt8) : resourceHash bytes = rollFrom 0 bytes % 2 ^ 64 := by
  have hstep : ∀ hash, bytes.foldl (fun hash byte => (hash * 31 + byte.toNat) % 2 ^ 64) (hash % 2 ^ 64) =
      rollFrom hash bytes % 2 ^ 64 := by
    induction bytes with
    | nil => intro hash; rfl
    | cons byte bytes ih =>
      intro hash
      have hmod : (hash % 2 ^ 64 * 31 + byte.toNat) % 2 ^ 64 = (hash * 31 + byte.toNat) % 2 ^ 64 := by omega
      rw [List.foldl_cons, hmod, ih]
      rfl
  exact hstep 0

/-- The value of `m` letters `a`. -/
def lowest : Nat → Nat
  | 0 => 0
  | m + 1 => 97 * 31 ^ m + lowest m

/-- With 31 letters, `m` of them reach every value of an interval of length `31 ^ m`. -/
theorem exists_letters (m hash x : Nat) (hx : x < 31 ^ m) :
    ∃ letters : List Char, (∀ c ∈ letters, c.toNat < 128) ∧
      rollFrom hash (letters.map fun c => c.toNat.toUInt8) = hash * 31 ^ m + lowest m + x := by
  induction m generalizing hash x with
  | zero =>
    refine ⟨[], fun _ h => (nomatch h), ?_⟩
    simp only [pow_zero, Nat.lt_one_iff] at hx
    simp [rollFrom, lowest, hx]
  | succ m ih =>
    have hpos : 0 < 31 ^ m := Nat.pow_pos (by decide)
    have hdigit : x / 31 ^ m < 31 := by
      rw [Nat.div_lt_iff_lt_mul hpos]
      rw [pow_succ] at hx
      omega
    obtain ⟨letters, hascii, hvalue⟩ := ih (hash * 31 + (97 + x / 31 ^ m)) (x % 31 ^ m) (Nat.mod_lt _ hpos)
    have hchar : (Char.ofNat (97 + x / 31 ^ m)).toNat = 97 + x / 31 ^ m := by
      generalize x / 31 ^ m = d at hdigit
      interval_cases d <;> rfl
    refine ⟨Char.ofNat (97 + x / 31 ^ m) :: letters, ?_, ?_⟩
    · intro c hc
      rcases List.mem_cons.mp hc with rfl | hc
      · omega
      · exact hascii c hc
    · have hbyte : (97 + x / 31 ^ m).toUInt8.toNat = 97 + x / 31 ^ m := by
        rw [Nat.toUInt8_eq, UInt8.toNat_ofNat']
        omega
      have hsplit : 31 ^ m * (x / 31 ^ m) + x % 31 ^ m = x := Nat.div_add_mod x (31 ^ m)
      simp only [List.map_cons, rollFrom, List.foldl_cons, hchar, hbyte] at hvalue ⊢
      rw [hvalue, lowest, pow_succ]
      calc (hash * 31 + (97 + x / 31 ^ m)) * 31 ^ m + lowest m + x % 31 ^ m
          = hash * (31 ^ m * 31) + (97 * 31 ^ m + lowest m) + (31 ^ m * (x / 31 ^ m) + x % 31 ^ m) := by ring
        _ = hash * (31 ^ m * 31) + (97 * 31 ^ m + lowest m) + x := by rw [hsplit]

theorem utf8Encode_ascii {chars : List Char} (h : ∀ c ∈ chars, c.toNat < 128) :
    chars.utf8Encode.data.toList = chars.map fun c => c.toNat.toUInt8 := by
  rw [List.utf8Encode, List.toList_data_toByteArray]
  induction chars with
  | nil => rfl
  | cons c chars ih =>
    have hc : String.utf8EncodeChar c = [c.toNat.toUInt8] := if_pos (Nat.le_of_lt_succ (h c List.mem_cons_self))
    rw [List.flatMap_cons, hc, ih fun c hc => h c (List.mem_cons_of_mem _ hc)]
    rfl

theorem assignedInstance_lt (name ns : String) (priority : UInt8) {n : Nat} (hn : 1 ≤ n) :
    assignedInstance name ns priority n < n :=
  Nat.lt_of_le_of_lt (Nat.mod_le _ _) (Nat.mod_lt _ hn)

theorem exists_assigned {k n : Nat} (hk : k < n) (hn : n < 2 ^ 32) : ∃ name, assignedInstance name "" 0 n = k := by
  obtain ⟨letters, hascii, hvalue⟩ := exists_letters 7 47 ((k + (n - (47 * 31 ^ 7 + lowest 7) % n)) % n) (by
    have hlt : (k + (n - (47 * 31 ^ 7 + lowest 7) % n)) % n < n := Nat.mod_lt _ (by omega)
    omega)
  have hbytes : (toString "" ++ toString "/" ++ toString (String.ofList letters)).toUTF8.data.toList =
      47 :: letters.map fun c => c.toNat.toUInt8 := by
    have htext : toString "" ++ toString "/" ++ toString (String.ofList letters) = String.ofList ('/' :: letters) := by
      apply String.toList_injective
      simp [toString]
    rw [htext, String.toUTF8_eq_toByteArray, String.toByteArray_ofList, utf8Encode_ascii]
    · rfl
    · intro c hc
      rcases List.mem_cons.mp hc with rfl | hc
      · decide
      · exact hascii c hc
  refine ⟨String.ofList letters, ?_⟩
  have hbase : 47 * 31 ^ 7 + lowest 7 = 1382050315506 := by decide
  rw [hbase] at hvalue
  have hlt : (k + (n - 1382050315506 % n)) % n < n := Nat.mod_lt _ (by omega)
  have hhash : resourceHash (47 :: letters.map fun c => c.toNat.toUInt8) =
      1382050315506 + (k + (n - 1382050315506 % n)) % n := by
    have hroll : rollFrom 0 (47 :: letters.map fun c => c.toNat.toUInt8) =
        rollFrom 47 (letters.map fun c => c.toNat.toUInt8) := rfl
    rw [resourceHash_eq, hroll, hvalue]
    exact Nat.mod_eq_of_lt (by omega)
  have hreach : (1382050315506 + (k + (n - 1382050315506 % n)) % n) % n = k := by
    have hle : 1382050315506 % n ≤ n := Nat.le_of_lt (Nat.mod_lt _ (by omega))
    have hsplit : n * (1382050315506 / n) + 1382050315506 % n = 1382050315506 := Nat.div_add_mod _ n
    calc (1382050315506 + (k + (n - 1382050315506 % n)) % n) % n
        = (1382050315506 + (k + (n - 1382050315506 % n))) % n := Nat.add_mod_mod _ _ _
      _ = (k + n * (1382050315506 / n + 1)) % n := by
        congr 1
        rw [Nat.mul_add, Nat.mul_one]
        omega
      _ = k := by rw [Nat.add_mul_mod_self_left, Nat.mod_eq_of_lt hk]
  have hpriority : (0 : UInt8).toNat * 1000 = 0 := rfl
  simp only [assignedInstance, hbytes, hhash, hpriority, Nat.add_zero]
  rw [Nat.mod_eq_of_lt (show 1382050315506 + (k + (n - 1382050315506 % n)) % n < 2 ^ 64 by omega), hreach]
  exact Nat.mod_eq_of_lt (by omega)

/-! ## When the fleet partitions the resources -/

section

variable {n : Nat} (fleet : Fleet n)

theorem Fleet.entered_iff (hn : n ≠ 1) {i : Fin n} {sm : ScheduledMachine} {ns : String}
    (hns : sm.metadata.ns = some ns) : Entered (fleet.controller i) sm ns ↔
      instanceOf (fleet.controller i) = assignedInstance sm.metadata.name ns sm.spec.priority n := by
  have hmany : ¬n ≤ 1 := by have := fleet.inhabited; omega
  have hguard : shouldProcessResource (fleet.controller i) sm.metadata.name ns sm.spec.priority = true ↔
      instanceOf (fleet.controller i) = assignedInstance sm.metadata.name ns sm.spec.priority n := by
    simp only [shouldProcessResource, fleet.counted i, if_neg hmany, beq_iff_eq, instanceOf]
    exact eq_comm
  rw [← hguard]
  exact ⟨fun h => h.assigned, fun h => ⟨hns, fleet.leading i, h⟩⟩

/-- The resource with the given name, in the namespace with the empty name. -/
def named (name : String) : ScheduledMachine :=
  { demoMachine with
    metadata := { demoMachine.metadata with name := name, ns := some "" }
    spec := { demoSpec with priority := 0 } }

/-- A fleet gives every resource to exactly one controller if and only if it has a single controller or
the environment variables of the processes hold each of the numbers once. -/
theorem fleet_partitions_iff :
    fleet.Partitions ↔ n = 1 ∨ ∀ k < n, ∃! i, instanceOf (fleet.controller i) = k := by
  constructor
  · intro hpartitions
    refine or_iff_not_imp_left.mpr fun hn k hk => ?_
    obtain ⟨name, hname⟩ := exists_assigned hk fleet.bounded
    have hone := hpartitions (named name) "" rfl
    have hns : (named name).metadata.ns = some "" := rfl
    simp only [fleet.entered_iff hn hns] at hone
    rw [← hname]
    exact hone
  · intro h sm ns hns
    by_cases hn : n = 1
    · subst hn
      refine ⟨0, ⟨hns, fleet.leading 0, ?_⟩, fun i _ => Subsingleton.elim i 0⟩
      simp [shouldProcessResource, fleet.counted 0]
    · have hassigned := assignedInstance_lt sm.metadata.name ns sm.spec.priority fleet.inhabited
      have hone := (h.resolve_left hn) _ hassigned
      simp only [fleet.entered_iff hn hns]
      exact hone

end

/-- Two controllers started with `--instance-id`, the environment variable unset. -/
def flagFleet : Fleet 2 where
  controller i := { demoContext with instanceId := i, instanceCount := 2 }
  inhabited := by decide
  bounded := by decide
  numbered _ := rfl
  counted _ := rfl
  leading _ := rfl

/-- Both take themselves for instance 0: each of them works on the resources of that instance. -/
theorem flagFleet_does_not_partition : ¬∀ (n : Nat) (fleet : Fleet n), fleet.Partitions := by
  intro hall
  obtain ⟨i, hi, hunique⟩ := hall 2 flagFleet demoMachine "team" rfl
  have hboth : ∀ j, Entered (flagFleet.controller j) demoMachine "team" := by
    intro j
    have hi := (flagFleet.entered_iff (by decide) rfl).mp hi
    exact (flagFleet.entered_iff (by decide) rfl).mpr hi
  have hzero := hunique 0 (hboth 0)
  have hone := hunique 1 (hboth 1)
  rw [← hone] at hzero
  cases hzero

end FiveSpot
