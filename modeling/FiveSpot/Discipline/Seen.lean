import FiveSpot.Discipline.Effects

/-! # Reading on

A reconcile observes more and more. Requests without an effect only add observations that are
not its own writes, and none of the path conditions is lost by them.
-/

namespace FiveSpot

set_option autoImplicit false

open Interaction

section

/-- `u` has seen more than `t`, by observations all satisfying `P`. -/
def Seen (P : Obs → Prop) (t u : List Obs) : Prop := ∃ os, u = os ++ t ∧ ∀ o ∈ os, P o

variable {P P' : Obs → Prop} {t u v : List Obs}

theorem Seen.refl (t : List Obs) : Seen P t t := ⟨[], rfl, fun _ h => absurd h List.not_mem_nil⟩

theorem Seen.trans (htu : Seen P t u) (huv : Seen P u v) : Seen P t v := by
  obtain ⟨os, rfl, hos⟩ := htu
  obtain ⟨os', rfl, hos'⟩ := huv
  refine ⟨os' ++ os, (List.append_assoc ..).symm, fun o ho => ?_⟩
  rcases List.mem_append.mp ho with h | h
  · exact hos' o h
  · exact hos o h

theorem Seen.cons {o : Obs} (ho : P o) (t : List Obs) : Seen P t (o :: t) :=
  ⟨[o], rfl, fun o' h => by rw [List.mem_singleton.mp h]; exact ho⟩

theorem Seen.mono (hP : ∀ o, P o → P' o) (h : Seen P t u) : Seen P' t u := by
  obtain ⟨os, rfl, hos⟩ := h
  exact ⟨os, rfl, fun o ho => hP o (hos o ho)⟩

theorem Seen.mem (h : Seen P t u) {o : Obs} (ho : o ∈ t) : o ∈ u := by
  obtain ⟨os, rfl, -⟩ := h
  exact List.mem_append_right os ho

theorem Seen.cases (h : Seen P t u) {o : Obs} (ho : o ∈ u) : P o ∨ o ∈ t := by
  obtain ⟨os, rfl, hos⟩ := h
  exact (List.mem_append.mp ho).imp (hos o) id

abbrev Read := Seen fun o => o.isRead = true

theorem Read.cons {o : Obs} (ho : o.isRead = true) (t : List Obs) : Read t (o :: t) := Seen.cons ho t

abbrev Deleting := Seen fun o => o.isWrite = true → ∃ key, o = .cleared key

abbrev Creating := Seen fun o => o.isWrite = true → ∃ key, o = .created key

abbrev Tainting := Seen fun o => o.isWrite = true → ∃ client node done, o = .tainted client node done

theorem Obs.isWrite_of_isRead {o : Obs} (h : o.isRead = true) : o.isWrite = false := by
  cases o <;> first | rfl | cases h

theorem Seen.deleting (h : Read t u) : Deleting t u :=
  h.mono fun o ho hw => absurd hw (by rw [Obs.isWrite_of_isRead ho]; exact Bool.false_ne_true)

theorem Seen.creating (h : Read t u) : Creating t u :=
  h.mono fun o ho hw => absurd hw (by rw [Obs.isWrite_of_isRead ho]; exact Bool.false_ne_true)

theorem Seen.tainting (h : Read t u) : Tainting t u :=
  h.mono fun o ho hw => absurd hw (by rw [Obs.isWrite_of_isRead ho]; exact Bool.false_ne_true)

theorem Seen.unscheduled (h : Read t u) (ht : .scheduled ∉ t) : .scheduled ∉ u := by
  intro hmem
  rcases h.cases hmem with hread | hold
  · cases hread
  · exact ht hold

theorem Untouched.creating (ht : Untouched t) (h : Creating t u) : Untouched u := by
  intro o ho hw
  rcases h.cases ho with hP | hmem
  · exact hP hw
  · exact ht o hmem hw

theorem Untouched.tail {o : Obs} (h : Untouched (o :: t)) : Untouched t :=
  fun o' ho' => h o' (List.mem_cons_of_mem o ho')

theorem Untouched.read (ht : Untouched t) (h : Read t u) : Untouched u := ht.creating h.creating

theorem Untouched.unmarked (ht : Untouched t) : Unmarked t := by
  intro o ho hw
  obtain ⟨key, rfl⟩ := ht o ho hw
  exact ⟨key, .inl rfl⟩

theorem Unmarked.deleting (ht : Unmarked t) (h : Deleting t u) : Unmarked u := by
  intro o ho hw
  rcases h.cases ho with hP | hmem
  · obtain ⟨key, hkey⟩ := hP hw
    exact ⟨key, .inr hkey⟩
  · exact ht o hmem hw

theorem Untouched.tainted (ht : Untouched t) (h : Tainting t u) : Tainted u := by
  intro o ho hw
  rcases h.cases ho with hP | hmem
  · exact .inr (hP hw)
  · exact .inl (ht o hmem hw)

variable {ctx : Context} {sm : ScheduledMachine} {ns node : String}

theorem NoReclaim.seen (ht : NoReclaim sm t) (h : Seen P t u) : NoReclaim sm u := by
  intro name hname
  obtain ⟨found, hmem, hfound⟩ := ht name hname
  exact ⟨found, h.mem hmem, hfound⟩

theorem Scheduled.seen (ht : Scheduled ctx sm ns t) (h : Seen P t u) : Scheduled ctx sm ns u :=
  { ht with calm := ht.calm.seen h }

theorem Reclaimed.seen (ht : Reclaimed ctx sm ns node t) (h : Seen P t u) :
    Reclaimed ctx sm ns node u := by
  obtain ⟨found, hmem, hfound⟩ := ht.requested
  exact { ht with requested := ⟨found, h.mem hmem, hfound⟩ }

theorem GraceOver.seen (ht : GraceOver sm t) (h : Seen P t u) : GraceOver sm u := by
  obtain ⟨status, hstatus, hstart | ⟨start, timeout, now, hstart, htimeout, hnow, hover⟩⟩ := ht
  · exact ⟨status, hstatus, .inl hstart⟩
  · exact ⟨status, hstatus, .inr ⟨start, timeout, now, hstart, htimeout, h.mem hnow, hover⟩⟩

theorem ShutDown.seen (ht : ShutDown ctx sm ns t) (h : Seen P t u) : ShutDown ctx sm ns u :=
  { ht.toScheduled.seen h with phase := ht.phase, elapsed := ht.elapsed.seen h }

theorem MachineOn.seen (ht : MachineOn sm node t) (h : Seen P t u) : MachineOn sm node u := by
  obtain ⟨machine, hmem, hnode⟩ := ht
  exact ⟨machine, h.mem hmem, hnode⟩

theorem NodeRead.cons {client : Client} {found : Node} (ht : MachineOn sm node t) :
    NodeRead sm client node found (.node client node (some found) :: t) :=
  ⟨[.node client node (some found)], t, rfl, ht, List.mem_singleton_self _⟩

theorem NodeRead.seen {client : Client} {found : Node} (ht : NodeRead sm client node found t) (h : Seen P t u) :
    NodeRead sm client node found u := by
  obtain ⟨newer, older, rfl, hmachine, hread⟩ := ht
  obtain ⟨os, rfl, -⟩ := h
  exact ⟨os ++ newer, older, (List.append_assoc ..).symm, hmachine, List.mem_append_right _ hread⟩

theorem Removed.seen (ht : Removed ctx sm t) (h : Seen P t u) : Removed ctx sm u :=
  fun key hkey => h.mem (ht key hkey)

end

end FiveSpot
