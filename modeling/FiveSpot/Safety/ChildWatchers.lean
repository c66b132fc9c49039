import FiveSpot.Cluster.Run
import FiveSpot.Interaction.Pool

/-! # Watchers of child clusters (`src/reconcilers/child_watch.rs`)

Each cached child client has a watcher of its own. The cache tells the watch manager about its changes after
it has released its lock, so concurrent calls may tell about theirs in another order than they made them.
-/

namespace FiveSpot

set_option autoImplicit false

open Interaction

/-! ## The cache and the watch manager -/

/-- A client is the work of one call; each call builds at most one. -/
structure Child where
  builder : Nat
  kubeconfig : String
  deriving DecidableEq

structure ChildState where
  memory : Memory
  /-- `tasks` of the watch manager, by the client the watcher runs with. -/
  tasks : CacheKey → Option Child
  /-- The call that changed the entry of the key last. -/
  changed : CacheKey → Option Nat

def ChildState.empty : ChildState := ⟨.empty, fun _ => none, fun _ => none⟩

def Memory.kubeconfig (m : Memory) (key : CacheKey) : Option String :=
  (m.cache.find? fun entry => entry.1 == key).map fun entry => entry.2.1

/-- The client in the cache; whoever changed a cached key last built its client. -/
def ChildState.cached (w : ChildState) (key : CacheKey) : Option Child :=
  match w.memory.kubeconfig key, w.changed key with
  | some kubeconfig, some builder => some ⟨builder, kubeconfig⟩
  | _, _ => none

def Memory.remove (m : Memory) (key : CacheKey) : Bool × Memory :=
  (m.cache.any fun entry => entry.1 == key, { m with cache := m.cache.filter fun entry => entry.1 != key })

def ChildState.onChildResolved (w : ChildState) (key : CacheKey) (client : Child) : ChildState :=
  { w with tasks := fun k => if k = key then some client else w.tasks k }

def ChildState.onChildEvicted (w : ChildState) (key : CacheKey) : ChildState :=
  { w with tasks := fun k => if k = key then none else w.tasks k }

/-- Beside the requests of the reconciler there is the removal of a key. -/
abbrev ChildResp : Req ⊕ CacheKey → Type := Either Resp fun _ => Bool

abbrev Call (α : Type) := Prog ChildResp ReconcilerError α

def evict (key : CacheKey) : Call Unit := do
  let removed : Bool ← (Prog.request (Sum.inr key) : Call Bool)
  (hookEvicted (if removed then some key else none)).extend

inductive ChildJob where
  | resolve (sm : ScheduledMachine)
  | evict (key : CacheKey)

def childProgram : ChildJob → Call Unit
  | .resolve sm => (resolve sm).extend.bind fun _ => .pure ()
  | .evict key => evict key

/-- The answers of everything but the cache and the watch manager. -/
abbrev Outside := (r : Req) → Resp r

def serveChild (w : ChildState) (i : Nat) : (r : Req ⊕ CacheKey) → Outside → ChildResp r × ChildState
  | .inl (.loc (.cacheGet key resourceVersion)), _ =>
    ((w.memory.cacheGet key resourceVersion).1, { w with memory := (w.memory.cacheGet key resourceVersion).2 })
  | .inl (.loc (.cacheInsert key kubeconfig resourceVersion)), _ =>
    let inserted := w.memory.cacheInsert key kubeconfig resourceVersion
    (inserted.1, { w with
      memory := inserted.2
      changed := fun k => if k = key ∨ inserted.1.2 = some k then some i else w.changed k })
  | .inl (.loc (.hookEvicted key)), _ => ((), w.onChildEvicted key)
  | .inl (.loc (.hookResolved key kubeconfig)), _ => ((), w.onChildResolved key ⟨i, kubeconfig⟩)
  | .inl r, outside => (outside r, w)
  | .inr key, _ =>
    let removed := w.memory.remove key
    (removed.1, { w with
      memory := removed.2
      changed := fun k => if k = key ∧ removed.1 = true then some i else w.changed k })

/-- Resolve and evict calls, any number at once. -/
def childPool : Pool ChildResp ReconcilerError Unit ChildState ChildJob Outside where
  program := childProgram
  serve := serveChild

/-- Nothing is cached and nothing watched. -/
def ColdChildren (w : ChildState) : Prop := w = .empty

theorem coldChildren_empty : ColdChildren .empty := rfl

/-! ## Hooks still to be fired -/

inductive Hook where
  | evicted (key : CacheKey)
  | resolved (key : CacheKey) (kubeconfig : String)

def Hook.key : Hook → CacheKey
  | .evicted key => key
  | .resolved key _ => key

def hookOf : Req ⊕ CacheKey → Option Hook
  | .inl (.loc (.hookEvicted key)) => some (.evicted key)
  | .inl (.loc (.hookResolved key kubeconfig)) => some (.resolved key kubeconfig)
  | _ => none

/-- What a call owes after a request: an insertion tells about the evicted entry, the replaced one and the
new one, in this order. -/
def owedAfter (owed : List Hook) : (r : Req ⊕ CacheKey) → ChildResp r → List Hook
  | .inl (.loc (.cacheInsert key kubeconfig _)), inserted =>
    (inserted.2.toList.map .evicted) ++ (if inserted.1 then [.evicted key] else []) ++ [.resolved key kubeconfig]
  | .inr key, removed => if removed then [.evicted key] else []
  | .inl (.loc (.hookEvicted _)), _ => owed.tail
  | .inl (.loc (.hookResolved _ _)), _ => owed.tail
  | _, _ => owed

/-- Hooks are fired as they are owed, and all of them before the cache is changed again. -/
def hookOrder : Monitor ChildResp (List Hook) where
  allowed owed
    | .inl (.loc (.cacheInsert _ _ _)) => owed = []
    | .inr _ => owed = []
    | r => ∀ hook, hookOf r = some hook → owed.head? = some hook
  observe := owedAfter

abbrev ChildPoolState := PoolState ChildResp ReconcilerError Unit ChildState

/-- The hooks that call `i` still has to fire. -/
def owedBy (s : ChildPoolState) (i : Nat) : List Hook := ((s.standing hookOrder [])[i]?).getD []

/-- A hook comes from the call that changed the key last, or before that call is done with the key. An
eviction may also come later, if the key is no longer cached. -/
def hooksInOrder (s : ChildPoolState) : PoolAct ChildJob Outside → Bool
  | .begin _ => true
  | .answer i _ => match s.threads[i]? with
    | some ⟨.call r _, _⟩ => match hookOf r with
      | some hook => (s.shared.changed hook.key).all (fun last => last == i ||
          (owedBy s last).any fun owed => owed.key == hook.key) ||
        (match hook with
          | .evicted key => (s.shared.memory.kubeconfig key).isNone
          | .resolved _ _ => false)
      | none => true
    | _ => true

/-- What holds when no call is in progress. -/
structure Coherent (w : ChildState) : Prop where
  tracked : ∀ key, (w.tasks key).isSome = true ↔ ∃ entry ∈ w.memory.cache, entry.1 = key
  client : ∀ key child, w.tasks key = some child → w.cached key = some child
  bounded : w.memory.cache.length ≤ Constants.childClientCacheCap

/-! ## What a call owes -/

def settled {α : Type} : Except ReconcilerError α → List Hook → Prop := fun _ owed => owed = []

theorem hookOrder_hookEvicted {key : Option CacheKey} {rest : List Hook} {Q : Except ReconcilerError Unit → List Hook → Prop}
    (hQ : Q (.ok ()) rest) :
    Conforms hookOrder.restrict (hookEvicted key) Q ((key.toList.map .evicted) ++ rest) := by
  cases key with
  | none => exact hQ
  | some key =>
    refine ⟨?_, fun _ => hQ⟩
    rintro hook ⟨⟩
    rfl

theorem hookOrder_buildChildClient {ns secretName key : String} {secret : Secret} :
    Conforms hookOrder.restrict (buildChildClient ns secretName key secret) settled [] := by
  unfold buildChildClient
  split
  · exact rfl
  · exact rfl
  · rename_i kubeconfig _
    refine ⟨fun hook h => (nomatch h), fun failure => ?_⟩
    cases failure with
    | some reason => exact rfl
    | none =>
      refine ⟨rfl, fun inserted => ?_⟩
      obtain ⟨present, evicted⟩ := inserted
      change Conforms hookOrder.restrict ((hookEvicted evicted).bind _) settled
        ((evicted.toList.map .evicted) ++ (if present = true then [Hook.evicted ⟨ns, secretName⟩] else []) ++
          [Hook.resolved ⟨ns, secretName⟩ kubeconfig])
      rw [conforms_bind, List.append_assoc]
      apply hookOrder_hookEvicted
      rw [continue_ok, Prog.bind_def, conforms_bind]
      have hsame : (if present = true then [Hook.evicted ⟨ns, secretName⟩] else []) =
          (if present = true then some (⟨ns, secretName⟩ : CacheKey) else none).toList.map .evicted := by
        cases present <;> rfl
      rw [hsame]
      apply hookOrder_hookEvicted
      refine ⟨?_, fun _ => rfl⟩
      rintro hook ⟨⟩
      rfl

theorem hookOrder_buildOrGetCached {ns secretName key : String} {explicit : Bool} :
    Conforms hookOrder.restrict (buildOrGetCached ns secretName key explicit) settled [] := by
  refine ⟨fun hook h => (nomatch h), fun answer => ?_⟩
  cases answer with
  | error e => exact rfl
  | ok secret =>
    refine ⟨fun hook h => (nomatch h), fun cached => ?_⟩
    cases cached with
    | some kubeconfig => exact rfl
    | none => exact hookOrder_buildChildClient

theorem hookOrder_resolve {sm : ScheduledMachine} : Conforms hookOrder.restrict (resolve sm) settled [] := by
  unfold resolve
  split
  · exact rfl
  · split
    · exact hookOrder_buildOrGetCached
    · rw [Prog.bind_def, conforms_bind, conforms_attempt]
      apply hookOrder_buildOrGetCached.mono
      intro x owed howed
      cases x with
      | ok resolved => exact howed
      | error e => cases e <;> exact howed

theorem hookOrder_childProgram (job : ChildJob) : Conforms hookOrder (childProgram job) settled [] := by
  cases job with
  | resolve sm =>
    unfold childProgram
    rw [conforms_bind, conforms_extend]
    apply hookOrder_resolve.mono
    intro x owed howed
    cases x with
    | ok resolved => exact howed
    | error e => exact howed
  | evict key =>
    refine ⟨rfl, fun removed => ?_⟩
    cases removed with
    | false => exact rfl
    | true =>
      refine ⟨?_, fun _ => rfl⟩
      rintro hook ⟨⟩
      rfl

/-! ## The cache -/

section

variable {m : Memory} {key k : CacheKey} {kubeconfig resourceVersion : String}

structure Memory.WellFormed (m : Memory) : Prop where
  nodup : (m.cache.map Prod.fst).Nodup
  bounded : m.cache.length ≤ Constants.childClientCacheCap

theorem find?_filter_ne {α : Type} {cache : List (CacheKey × α)} (h : k ≠ key) :
    (cache.filter fun entry => entry.1 != key).find? (fun entry => entry.1 == k) =
      cache.find? fun entry => entry.1 == k := by
  rw [List.find?_filter]
  congr 1
  funext entry
  by_cases hk : entry.1 = k
  · simp [hk, h]
  · simp [hk]

theorem find?_filter_self {α : Type} {cache : List (CacheKey × α)} :
    (cache.filter fun entry => entry.1 != key).find? (fun entry => entry.1 == key) = none := by
  rw [List.find?_filter, List.find?_eq_none]
  intro entry _
  by_cases hk : entry.1 = key
  · simp [hk]
  · simp [hk]

theorem kubeconfig_isSome_iff : (m.kubeconfig key).isSome = true ↔ ∃ entry ∈ m.cache, entry.1 = key := by
  simp [Memory.kubeconfig, List.find?_isSome]

theorem kubeconfig_cacheGet : (m.cacheGet key resourceVersion).2.kubeconfig k = m.kubeconfig k := by
  unfold Memory.cacheGet
  split
  · rename_i entry hfound
    split
    · have hkey : entry.1 = key := by simpa using List.find?_some hfound
      simp only [Memory.kubeconfig, List.find?_cons]
      by_cases hk : k = key
      · subst hk
        simp [hkey, hfound]
      · have hne : (entry.1 == k) = false := by simpa [hkey] using fun h => hk h.symm
        rw [hne, find?_filter_ne hk]
    · rfl
  · rfl

theorem kubeconfig_remove : (m.remove key).2.kubeconfig k = if k = key then none else m.kubeconfig k := by
  simp only [Memory.remove, Memory.kubeconfig]
  split
  · rename_i hk
    subst hk
    rw [find?_filter_self, Option.map_none]
  · rename_i hk
    rw [find?_filter_ne hk]

theorem remove_fst : (m.remove key).1 = (m.kubeconfig key).isSome := by
  rw [Bool.eq_iff_iff, kubeconfig_isSome_iff]
  simp [Memory.remove]

theorem find?_dropLast {α : Type} {cache : List (CacheKey × α)} (h : (cache.map Prod.fst).Nodup) (k : CacheKey) :
    cache.dropLast.find? (fun entry => entry.1 == k) =
      if cache.getLast?.map Prod.fst = some k then none else cache.find? fun entry => entry.1 == k := by
  rcases List.eq_nil_or_concat cache with rfl | ⟨front, last, rfl⟩
  · rfl
  · rw [List.concat_eq_append] at h ⊢
    rw [List.map_append, List.map_cons, List.map_nil] at h
    simp only [List.dropLast_concat, List.getLast?_concat, Option.map_some, Option.some.injEq, List.find?_append]
    split
    · rename_i hlast
      rw [List.find?_eq_none]
      intro entry hentry hkey
      have hmem : last.1 ∈ front.map Prod.fst := by
        rw [hlast, ← eq_of_beq hkey]
        exact List.mem_map_of_mem hentry
      exact (List.nodup_append.mp h).2.2 _ hmem _ (List.mem_singleton_self _) rfl
    · rename_i hlast
      have hnone : [last].find? (fun entry => entry.1 == k) = none := by simpa using hlast
      rw [hnone, Option.or_none]

theorem nodup_cons_filter {α : Type} {entry : CacheKey × α} {kept : List (CacheKey × α)} (hentry : entry.1 = key)
    (h : (kept.map Prod.fst).Nodup) : ((entry :: kept.filter fun other => other.1 != key).map Prod.fst).Nodup := by
  rw [List.map_cons, List.nodup_cons]
  constructor
  · rw [hentry, List.mem_map]
    rintro ⟨other, hother, hkey⟩
    have hne := (List.mem_filter.mp hother).2
    simp [hkey] at hne
  · exact (List.filter_sublist.map _).nodup h

theorem length_cons_filter {α : Type} {entry : CacheKey × α} {kept : List (CacheKey × α)}
    (h : ∃ other ∈ kept, other.1 = key) :
    (entry :: kept.filter fun other => other.1 != key).length ≤ kept.length := by
  obtain ⟨other, hother, hkey⟩ := h
  have hlt : (kept.filter fun other => other.1 != key).length < kept.length := by
    apply List.length_filter_lt_length_iff_exists.mpr
    exact ⟨other, hother, by simp [hkey]⟩
  rw [List.length_cons]
  omega

theorem Memory.WellFormed.cacheGet (h : m.WellFormed) : (m.cacheGet key resourceVersion).2.WellFormed := by
  unfold Memory.cacheGet
  split
  · rename_i entry hfound
    split
    · have hkey : entry.1 = key := by simpa using List.find?_some hfound
      constructor
      · exact nodup_cons_filter hkey h.nodup
      · exact Nat.le_trans (length_cons_filter ⟨entry, List.mem_of_find?_eq_some hfound, hkey⟩) h.bounded
    · exact h
  · exact h

theorem Memory.WellFormed.remove (h : m.WellFormed) : (m.remove key).2.WellFormed where
  nodup := (List.filter_sublist.map _).nodup h.nodup
  bounded := Nat.le_trans (List.length_filter_le _ _) h.bounded

theorem cacheInsert_cases (m : Memory) (key : CacheKey) (kubeconfig resourceVersion : String) :
    (∃ entry ∈ m.cache, entry.1 = key) ∧ (m.cacheInsert key kubeconfig resourceVersion).1 = (true, none) ∧
        (m.cacheInsert key kubeconfig resourceVersion).2.cache =
          (key, kubeconfig, resourceVersion) :: m.cache.filter (fun other => other.1 != key) ∨
      m.cache.length < Constants.childClientCacheCap ∧
        (m.cacheInsert key kubeconfig resourceVersion).1 = (false, none) ∧
        (m.cacheInsert key kubeconfig resourceVersion).2.cache =
          (key, kubeconfig, resourceVersion) :: m.cache.filter (fun other => other.1 != key) ∨
      Constants.childClientCacheCap ≤ m.cache.length ∧
        (m.cacheInsert key kubeconfig resourceVersion).1 = (false, m.cache.getLast?.map Prod.fst) ∧
        (m.cacheInsert key kubeconfig resourceVersion).2.cache =
          (key, kubeconfig, resourceVersion) :: m.cache.dropLast.filter (fun other => other.1 != key) := by
  by_cases hpresent : ∃ entry ∈ m.cache, entry.1 = key
  · left
    have hany : (m.cache.any fun entry => entry.1 == key) = true := by simpa using hpresent
    simp only [Memory.cacheInsert, hany, Bool.not_true, Bool.and_false, Bool.false_eq_true, if_false]
    exact ⟨hpresent, trivial, trivial⟩
  · right
    have hany : (m.cache.any fun entry => entry.1 == key) = false :=
      Bool.eq_false_iff.mpr fun hany => hpresent (by simpa using hany)
    by_cases hfull : Constants.childClientCacheCap ≤ m.cache.length
    · right
      simp only [Memory.cacheInsert, hany, hfull, decide_true, Bool.not_false, Bool.and_true, if_true]
      exact ⟨trivial, trivial, trivial⟩
    · left
      simp only [Memory.cacheInsert, hany, hfull, decide_false, Bool.false_and, Bool.false_eq_true, if_false]
      exact ⟨by omega, trivial, trivial⟩

theorem Memory.WellFormed.cacheInsert (h : m.WellFormed) :
    (m.cacheInsert key kubeconfig resourceVersion).2.WellFormed := by
  have hbounded := h.bounded
  have hdropped : ((m.cache.dropLast).map Prod.fst).Nodup := ((List.dropLast_sublist _).map _).nodup h.nodup
  rcases cacheInsert_cases m key kubeconfig resourceVersion with
    ⟨hpresent, -, hcache⟩ | ⟨hroom, -, hcache⟩ | ⟨hfull, -, hcache⟩
  · constructor
    · rw [hcache]
      exact nodup_cons_filter rfl h.nodup
    · rw [hcache]
      exact Nat.le_trans (length_cons_filter hpresent) hbounded
  · constructor
    · rw [hcache]
      exact nodup_cons_filter rfl h.nodup
    · have hle := List.length_filter_le (fun other => other.1 != key) m.cache
      rw [hcache, List.length_cons]
      omega
  · constructor
    · rw [hcache]
      exact nodup_cons_filter rfl hdropped
    · have hle := List.length_filter_le (fun other => other.1 != key) m.cache.dropLast
      have hpos : 0 < Constants.childClientCacheCap := by decide
      rw [List.length_dropLast] at hle
      rw [hcache, List.length_cons]
      omega

theorem kubeconfig_cacheInsert (h : m.WellFormed) : (m.cacheInsert key kubeconfig resourceVersion).2.kubeconfig k =
    if k = key then some kubeconfig
    else if (m.cacheInsert key kubeconfig resourceVersion).1.2 = some k then none else m.kubeconfig k := by
  have hhead : ∀ kept : List (CacheKey × String × String), k ≠ key →
      ((key, kubeconfig, resourceVersion) :: kept.filter fun other => other.1 != key).find?
        (fun entry => entry.1 == k) = kept.find? fun entry => entry.1 == k := by
    intro kept hk
    have hne : (key == k) = false := by simpa using fun heq => hk heq.symm
    rw [List.find?_cons, hne, find?_filter_ne hk]
  by_cases hk : k = key
  · subst hk
    rcases cacheInsert_cases m k kubeconfig resourceVersion with ⟨-, -, hcache⟩ | ⟨-, -, hcache⟩ | ⟨-, -, hcache⟩
    all_goals simp [Memory.kubeconfig, hcache]
  · rcases cacheInsert_cases m key kubeconfig resourceVersion with
      ⟨-, hanswer, hcache⟩ | ⟨-, hanswer, hcache⟩ | ⟨-, hanswer, hcache⟩
    · rw [Memory.kubeconfig, hcache, hhead _ hk, hanswer, if_neg hk]
      rfl
    · rw [Memory.kubeconfig, hcache, hhead _ hk, hanswer, if_neg hk]
      rfl
    · rw [Memory.kubeconfig, hcache, hhead _ hk, hanswer, if_neg hk, find?_dropLast h.nodup]
      split
      · rfl
      · rfl

end

/-! ## The invariant -/

/-- The watcher's client once a hook of call `i` has been fired. -/
def Hook.shows (i : Nat) : Hook → Option Child
  | .evicted _ => none
  | .resolved _ kubeconfig => some ⟨i, kubeconfig⟩

/-- The watcher of a key once call `i` has fired its hooks. -/
def afterHooks (i : Nat) (key : CacheKey) : List Hook → Option Child → Option Child
  | [], shown => shown
  | hook :: rest, shown => afterHooks i key rest (if hook.key = key then hook.shows i else shown)

def owedIn (ts : List (List Hook)) (i : Nat) : List Hook := ts[i]?.getD []

/-- Once the call that changed a key last has fired its hooks, the watcher is that of the cached client. -/
structure WatchInvariant (w : ChildState) (ts : List (List Hook)) : Prop where
  wellFormed : w.memory.WellFormed
  untouched : ∀ key, w.changed key = none → w.tasks key = none ∧ w.memory.kubeconfig key = none
  shown : ∀ key i, w.changed key = some i → afterHooks i key (owedIn ts i) (w.tasks key) = w.cached key
  known : ∀ i, ∀ hook ∈ owedIn ts i, (w.changed hook.key).isSome = true

section

variable {key : CacheKey} {i : Nat} {owed : List Hook} {w : ChildState} {ts : List (List Hook)}

theorem afterHooks_of_mem (h : ∃ hook ∈ owed, hook.key = key) (a b : Option Child) :
    afterHooks i key owed a = afterHooks i key owed b := by
  induction owed generalizing a b with
  | nil =>
    obtain ⟨hook, hmem, -⟩ := h
    cases hmem
  | cons hook rest ih =>
    rw [afterHooks, afterHooks]
    by_cases hkey : hook.key = key
    · rw [if_pos hkey, if_pos hkey]
    · apply ih
      obtain ⟨other, hmem, hother⟩ := h
      rcases List.mem_cons.mp hmem with rfl | hmem
      · exact absurd hother hkey
      · exact ⟨other, hmem, hother⟩

theorem afterHooks_of_not_mem (h : ∀ hook ∈ owed, hook.key ≠ key) (a : Option Child) : afterHooks i key owed a = a := by
  induction owed generalizing a with
  | nil => rfl
  | cons hook rest ih =>
    rw [afterHooks, if_neg (h hook List.mem_cons_self)]
    exact ih (fun other hother => h other (List.mem_cons_of_mem _ hother)) a

theorem owedIn_set {j : Nat} (hi : i < ts.length) : owedIn (ts.set i owed) j = if j = i then owed else owedIn ts j := by
  unfold owedIn
  rw [List.getElem?_set]
  split
  · rename_i hij
    subst hij
    simp
  · rename_i hij
    rw [if_neg fun h => hij h.symm]

theorem owedIn_append_nil (j : Nat) : owedIn (ts ++ [[]]) j = owedIn ts j := by
  unfold owedIn
  rw [List.getElem?_append]
  split
  · rfl
  · rename_i hj
    rw [List.getElem?_eq_none (by omega : ts.length ≤ j)]
    rcases Nat.lt_or_ge (j - ts.length) 1 with hlast | hbeyond
    · have hzero : j - ts.length = 0 := by omega
      rw [hzero]
      rfl
    · rw [List.getElem?_eq_none (by simpa using hbeyond)]

theorem WatchInvariant.congr {ts' : List (List Hook)} (h : WatchInvariant w ts) (hts : ∀ i, owedIn ts' i = owedIn ts i) :
    WatchInvariant w ts' where
  wellFormed := h.wellFormed
  untouched := h.untouched
  shown key i hchanged := by
    rw [hts]
    exact h.shown key i hchanged
  known i := by
    rw [hts]
    exact h.known i

theorem cached_congr {w' : ChildState} (hkubeconfig : w'.memory.kubeconfig key = w.memory.kubeconfig key)
    (hchanged : w'.changed key = w.changed key) : w'.cached key = w.cached key := by
  simp only [ChildState.cached, hkubeconfig, hchanged]

theorem WatchInvariant.get (h : WatchInvariant w ts) (resourceVersion : String) :
    WatchInvariant { w with memory := (w.memory.cacheGet key resourceVersion).2 } ts where
  wellFormed := h.wellFormed.cacheGet
  untouched k hk := by
    obtain ⟨htasks, hnone⟩ := h.untouched k hk
    exact ⟨htasks, kubeconfig_cacheGet.trans hnone⟩
  shown k j hk := by
    have hshown := h.shown k j hk
    rw [cached_congr]
    · exact hshown
    · exact kubeconfig_cacheGet
    · rfl
  known := h.known

/-- A hook comes from the call that changed the key last, or that call owes a hook for the key, or the hook
is an eviction of a key that is not cached. -/
def InOrder (w : ChildState) (ts : List (List Hook)) (i : Nat) (hook : Hook) : Prop :=
  (∀ last, w.changed hook.key = some last → last = i ∨ ∃ owed ∈ owedIn ts last, owed.key = hook.key) ∨
    hook.shows i = none ∧ w.memory.kubeconfig hook.key = none

theorem WatchInvariant.hook {hook : Hook} {rest : List Hook} (h : WatchInvariant w ts) (hi : i < ts.length)
    (howed : owedIn ts i = hook :: rest) (horder : InOrder w ts i hook) :
    WatchInvariant { w with tasks := fun k => if k = hook.key then hook.shows i else w.tasks k } (ts.set i rest) where
  wellFormed := h.wellFormed
  untouched k hk := by
    obtain ⟨htasks, hnone⟩ := h.untouched k hk
    refine ⟨?_, hnone⟩
    have hknown := h.known i hook (by rw [howed]; exact List.mem_cons_self)
    have hne : k ≠ hook.key := by
      rintro rfl
      rw [show w.changed hook.key = none from hk] at hknown
      cases hknown
    exact (if_neg hne).trans htasks
  shown k j hk := by
    have hshown := h.shown k j hk
    change afterHooks j k (owedIn (ts.set i rest) j) (if k = hook.key then hook.shows i else w.tasks k) = w.cached k
    rw [owedIn_set hi]
    by_cases hj : j = i
    · subst hj
      rw [howed, afterHooks] at hshown
      rw [if_pos rfl]
      by_cases hkey : k = hook.key
      · rw [if_pos hkey]
        rw [if_pos hkey.symm] at hshown
        exact hshown
      · rw [if_neg hkey]
        rw [if_neg fun heq => hkey heq.symm] at hshown
        exact hshown
    · rw [if_neg hj]
      by_cases hkey : k = hook.key
      · subst hkey
        rw [if_pos rfl]
        by_cases howes : ∃ owed ∈ owedIn ts j, owed.key = hook.key
        · rw [← hshown]
          exact afterHooks_of_mem howes _ _
        · rcases horder with hlast | ⟨heviction, huncached⟩
          · rcases hlast j hk with hsame | howes'
            · exact absurd hsame hj
            · exact absurd howes' howes
          · rw [afterHooks_of_not_mem fun owed hmem heq => howes ⟨owed, hmem, heq⟩, heviction, ChildState.cached,
              huncached]
      · rw [if_neg hkey]
        exact hshown
  known j := by
    rw [owedIn_set hi]
    split
    · intro other hother
      exact h.known i other (by rw [howed]; exact List.mem_cons_of_mem _ hother)
    · exact h.known j

theorem WatchInvariant.change {memory : Memory} {hooks : List Hook} (h : WatchInvariant w ts) (hi : i < ts.length)
    (hnone : owedIn ts i = []) (touched : CacheKey → Prop) [DecidablePred touched]
    (hwell : memory.WellFormed)
    (hhooks : ∀ hook ∈ hooks, touched hook.key)
    (hkept : ∀ k, ¬touched k → memory.kubeconfig k = w.memory.kubeconfig k)
    (hshows : ∀ k shown, touched k → afterHooks i k hooks shown =
      (memory.kubeconfig k).map fun kubeconfig => ⟨i, kubeconfig⟩) :
    WatchInvariant { w with memory := memory, changed := fun k => if touched k then some i else w.changed k }
      (ts.set i hooks) where
  wellFormed := hwell
  untouched k hk := by
    by_cases ht : touched k
    · simp [ht] at hk
    · simp only [if_neg ht] at hk
      obtain ⟨htasks, hempty⟩ := h.untouched k hk
      exact ⟨htasks, (hkept k ht).trans hempty⟩
  shown k j hk := by
    change afterHooks j k (owedIn (ts.set i hooks) j) (w.tasks k) = _
    by_cases ht : touched k
    · simp only [if_pos ht, Option.some.injEq] at hk
      subst hk
      rw [owedIn_set hi, if_pos rfl, hshows k _ ht]
      simp only [ChildState.cached, if_pos ht]
      cases memory.kubeconfig k <;> rfl
    · simp only [if_neg ht] at hk
      have hshown := h.shown k j hk
      rw [cached_congr (hkept k ht) (if_neg ht), ← hshown, owedIn_set hi]
      by_cases hj : j = i
      · subst hj
        rw [if_pos rfl, hnone, afterHooks_of_not_mem]
        · rfl
        · exact fun hook hmem heq => ht (heq ▸ hhooks hook hmem)
      · rw [if_neg hj]
  known j := by
    rw [owedIn_set hi]
    split
    · intro hook hmem
      simp [hhooks hook hmem]
    · intro hook hmem
      by_cases ht : touched hook.key
      · simp [ht]
      · simpa [ht] using h.known j hook hmem

theorem afterHooks_append (first second : List Hook) (shown : Option Child) :
    afterHooks i key (first ++ second) shown = afterHooks i key second (afterHooks i key first shown) := by
  induction first generalizing shown with
  | nil => rfl
  | cons hook rest ih => exact ih _

theorem afterHooks_insert {k : CacheKey} {kubeconfig : String} {present : Bool} {evicted : Option CacheKey}
    (hk : k = key ∨ evicted = some k) (shown : Option Child) :
    afterHooks i k (evicted.toList.map .evicted ++ (if present = true then [Hook.evicted key] else []) ++
      [.resolved key kubeconfig]) shown = if k = key then some ⟨i, kubeconfig⟩ else none := by
  rw [List.append_assoc, afterHooks_append, afterHooks_append]
  by_cases hkey : k = key
  · subst hkey
    rw [if_pos rfl]
    exact if_pos rfl
  · rw [if_neg hkey]
    have hne : key ≠ k := fun heq => hkey heq.symm
    rcases hk with heq | rfl
    · exact absurd heq hkey
    · rw [afterHooks_of_not_mem, afterHooks_of_not_mem]
      · exact if_pos rfl
      · intro hook hmem
        split at hmem
        · rw [List.mem_singleton.mp hmem]
          exact hne
        · cases hmem
      · intro hook hmem
        rw [List.mem_singleton.mp hmem]
        exact hne

theorem WatchInvariant.insert (h : WatchInvariant w ts) (hi : i < ts.length) (hnone : owedIn ts i = [])
    (kubeconfig resourceVersion : String) (outside : Outside) :
    WatchInvariant (serveChild w i (.inl (.loc (.cacheInsert key kubeconfig resourceVersion))) outside).2
      (ts.set i (owedAfter [] (.inl (.loc (.cacheInsert key kubeconfig resourceVersion)))
        (w.memory.cacheInsert key kubeconfig resourceVersion).1)) := by
  have hwell := h.wellFormed
  apply h.change hi hnone (fun k => k = key ∨ (w.memory.cacheInsert key kubeconfig resourceVersion).1.2 = some k)
    hwell.cacheInsert
  · intro hook hmem
    rcases List.mem_append.mp hmem with hmem | hmem
    · rcases List.mem_append.mp hmem with hmem | hmem
      · obtain ⟨k, hk, rfl⟩ := List.mem_map.mp hmem
        exact .inr (Option.mem_toList.mp hk)
      · split at hmem
        · rw [List.mem_singleton.mp hmem]
          exact .inl rfl
        · cases hmem
    · rw [List.mem_singleton.mp hmem]
      exact .inl rfl
  · intro k hk
    obtain ⟨hkey, hevicted⟩ := not_or.mp hk
    rw [kubeconfig_cacheInsert hwell, if_neg hkey, if_neg hevicted]
  · intro k shown hk
    refine (afterHooks_insert hk shown).trans ?_
    rw [kubeconfig_cacheInsert hwell]
    split
    · rfl
    · rename_i hkey
      rcases hk with heq | hevicted
      · exact absurd heq hkey
      · rw [if_pos hevicted]
        rfl

theorem WatchInvariant.remove (h : WatchInvariant w ts) (hi : i < ts.length) (hnone : owedIn ts i = [])
    (outside : Outside) : WatchInvariant (serveChild w i (.inr key) outside).2
      (ts.set i (owedAfter [] (.inr key) (w.memory.remove key).1)) := by
  apply h.change hi hnone (fun k => k = key ∧ (w.memory.remove key).1 = true) h.wellFormed.remove
  · intro hook hmem
    cases hremoved : (w.memory.remove key).1 with
    | false =>
      rw [hremoved] at hmem
      cases hmem
    | true =>
      rw [hremoved] at hmem
      rw [List.mem_singleton.mp hmem]
      exact ⟨rfl, rfl⟩
  · intro k hk
    rw [kubeconfig_remove]
    split
    · rename_i hkey
      have hremoved : (w.memory.remove key).1 = false := Bool.eq_false_iff.mpr fun htrue => hk ⟨hkey, htrue⟩
      rw [remove_fst] at hremoved
      rw [hkey]
      exact (Option.isSome_eq_false_iff.mp hremoved |> Option.isNone_iff_eq_none.mp).symm
    · rfl
  · rintro k shown ⟨rfl, hremoved⟩
    rw [kubeconfig_remove, if_pos rfl, hremoved]
    exact if_pos rfl

end

theorem inOrder_of_hooksInOrder {s : ChildPoolState} {i : Nat} {r : Req ⊕ CacheKey} {k : ChildResp r → Call Unit}
    {trace : List (Sigma ChildResp)} {outside : Outside} {hook : Hook} (hi : s.threads[i]? = some ⟨.call r k, trace⟩)
    (hhook : hookOf r = some hook) (hok : hooksInOrder s (.answer i outside) = true) :
    InOrder s.shared (s.standing hookOrder []) i hook := by
  simp only [hooksInOrder, hi, hhook, Bool.or_eq_true] at hok
  rcases hok with hlast | heviction
  · left
    intro last hchanged
    rw [hchanged, Option.all_some, Bool.or_eq_true] at hlast
    rcases hlast with hsame | howes
    · exact .inl (eq_of_beq hsame)
    · obtain ⟨owed, hmem, hkey⟩ := List.any_eq_true.mp howes
      exact .inr ⟨owed, hmem, eq_of_beq hkey⟩
  · right
    cases hook with
    | evicted key => exact ⟨rfl, Option.isNone_iff_eq_none.mp heviction⟩
    | resolved key kubeconfig => cases heviction

theorem watchInvariant_keeps : childPool.Keeps hookOrder [] ColdChildren
    (fun s a => hooksInOrder s a = true) WatchInvariant where
  base := by
    rintro w rfl
    refine ⟨⟨List.nodup_nil, Nat.zero_le _⟩, fun _ _ => ⟨rfl, rfl⟩, fun _ _ h => (nomatch h), ?_⟩
    intro i hook hmem
    cases hmem
  begin w ts h := h.congr owedIn_append_nil
  answer := by
    intro s i r k trace outside h hi hallowed hok
    have hstanding : (s.standing hookOrder [])[i]? = some (hookOrder.after [] trace) := by
      rw [PoolState.standing, List.getElem?_map, hi, Option.map_some]
    have howed : owedIn (s.standing hookOrder []) i = hookOrder.after [] trace := by
      rw [owedIn, hstanding, Option.getD_some]
    obtain ⟨hlt, -⟩ := List.getElem?_eq_some_iff.mp hstanding
    generalize hookOrder.after [] trace = owed at hallowed howed hstanding
    -- a request that is no hook and leaves the cache alone
    have hother : owedAfter owed r (serveChild s.shared i r outside).1 = owed →
        (serveChild s.shared i r outside).2 = s.shared →
          WatchInvariant (serveChild s.shared i r outside).2 ((s.standing hookOrder []).set i
            (owedAfter owed r (serveChild s.shared i r outside).1)) := by
      intro howes hsame
      rw [howes, hsame]
      apply h.congr
      intro j
      rw [owedIn_set hlt]
      split
      · rename_i hj
        rw [hj, howed]
      · rfl
    cases r with
    | inr key =>
      cases hallowed
      exact h.remove hlt howed outside
    | inl r =>
      cases r with
      | api client call => exact hother rfl rfl
      | timer seconds => exact hother rfl rfl
      | loc op =>
        cases op with
        | cacheInsert key kubeconfig resourceVersion =>
          cases hallowed
          exact h.insert hlt howed kubeconfig resourceVersion outside
        | cacheGet key resourceVersion =>
          apply (h.get resourceVersion).congr
          intro j
          rw [owedIn_set hlt]
          split
          · rename_i hj
            rw [hj, howed]
            rfl
          · rfl
        | hookEvicted key =>
          obtain ⟨rest, rfl⟩ := List.head?_eq_some_iff.mp (hallowed (.evicted key) rfl)
          exact h.hook hlt howed (inOrder_of_hooksInOrder hi rfl hok)
        | hookResolved key kubeconfig =>
          obtain ⟨rest, rfl⟩ := List.head?_eq_some_iff.mp (hallowed (.resolved key kubeconfig) rfl)
          exact h.hook hlt howed (inOrder_of_hooksInOrder hi rfl hok)
        | _ => exact hother rfl rfl

theorem WatchInvariant.coherent {w : ChildState} {ts : List (List Hook)} (h : WatchInvariant w ts)
    (hnone : ∀ owed ∈ ts, owed = []) : Coherent w := by
  have howed : ∀ i, owedIn ts i = [] := by
    intro i
    unfold owedIn
    cases hget : ts[i]? with
    | none => rfl
    | some owed => exact hnone owed (List.mem_of_getElem? hget)
  have hsame : ∀ key, w.tasks key = w.cached key := by
    intro key
    cases hchanged : w.changed key with
    | none =>
      obtain ⟨htasks, hkubeconfig⟩ := h.untouched key hchanged
      rw [htasks, ChildState.cached, hkubeconfig]
    | some i =>
      have hshown := h.shown key i hchanged
      rwa [howed, afterHooks] at hshown
  constructor
  · intro key
    rw [hsame, ← kubeconfig_isSome_iff, ChildState.cached]
    cases hkubeconfig : w.memory.kubeconfig key with
    | none => simp
    | some kubeconfig =>
      cases hchanged : w.changed key with
      | none =>
        obtain ⟨-, hempty⟩ := h.untouched key hchanged
        rw [hkubeconfig] at hempty
        cases hempty
      | some i => simp
  · intro key child hchild
    rw [← hsame, hchild]
  · exact h.wellFormed.bounded

/-- In every such run, whenever no call is in progress, the watchers are those of the cached clients. -/
theorem watchers_coherent {s : ChildPoolState}
    (hs : childPool.Reach ColdChildren (fun s a => hooksInOrder s a = true) s) (hquiet : s.Quiescent) :
    Coherent s.shared := by
  have hinv := Pool.Reach.invariant childPool hookOrder_childProgram watchInvariant_keeps hs
  have hconform := Pool.Reach.allConform childPool hookOrder_childProgram hs
  apply hinv.coherent
  intro owed hmem
  obtain ⟨outcome, hsettled⟩ := Pool.standing_of_quiescent hconform hquiet owed hmem
  exact hsettled

/-! ## Two runs -/

def edgeKey : CacheKey := ⟨"team", "edge-kubeconfig"⟩

/-- The Secret holds this kubeconfig, and every client can be built. -/
def secretHolds (kubeconfig : String) : Outside
  | .api _ (.getSecret _ _) => .ok ⟨some kubeconfig, some [(Constants.defaultKubeconfigSecretKey, .ok kubeconfig)]⟩
  | .api _ _ => .error notFoundError
  | .loc .utcNow => 0
  | .loc .instantNow => 0
  | .loc (.cacheGet _ _) => none
  | .loc (.cacheInsert _ _ _) => (false, none)
  | .loc (.hookEvicted _) => ()
  | .loc (.hookResolved _ _) => ()
  | .loc (.buildClient _) => none
  | .loc (.recordEmergencyReclaim _ _) => ()
  | .loc (.recordEmergencyReclaimEvent _ _) => false
  | .timer _ => false

def childAnswers (i n : Nat) (kubeconfig : String) : List (PoolAct ChildJob Outside) :=
  List.replicate n (.answer i (secretHolds kubeconfig))

/-- Two calls read the Secret before and after it is rotated; the second one is through first. -/
def rotatedBetween : List (PoolAct ChildJob Outside) :=
  [.begin (.resolve demoMachine), .begin (.resolve demoMachine)] ++ childAnswers 0 3 "old" ++ childAnswers 1 3 "new" ++
    childAnswers 0 1 "old" ++ childAnswers 1 3 "new" ++ childAnswers 0 1 "old"

theorem quiescent_of_all {s : ChildPoolState} (h : s.threads.all Thread.over = true) : s.Quiescent :=
  List.all_eq_true.mp h

theorem watchers_coherent_once : ∃ s : ChildPoolState, s.shared.tasks edgeKey = some ⟨0, "new"⟩ ∧ Coherent s.shared := by
  obtain ⟨s, hs, hproperty⟩ := Pool.Reach.exists_of_runWith childPool hooksInOrder
    (fun s => s.threads.all Thread.over && s.shared.tasks edgeKey == some ⟨0, "new"⟩)
    ([.begin (.resolve demoMachine)] ++ childAnswers 0 5 "new") coldChildren_empty (by decide +kernel)
  obtain ⟨hover, hwatched⟩ := Bool.and_eq_true_iff.mp hproperty
  exact ⟨s, eq_of_beq hwatched, watchers_coherent hs (quiescent_of_all hover)⟩

/-- The watcher runs with the client of the old Secret while the new one is cached. -/
theorem watcher_of_replaced_client : ¬∀ s : ChildPoolState, childPool.Reach ColdChildren (fun _ _ => True) s →
    s.Quiescent → Coherent s.shared := by
  intro hcoherent
  obtain ⟨s, hs, hproperty⟩ := Pool.Reach.exists_of_runWith childPool (fun _ _ => true)
    (fun s => s.threads.all Thread.over && s.shared.tasks edgeKey == some ⟨0, "old"⟩ &&
      s.shared.cached edgeKey == some ⟨1, "new"⟩) rotatedBetween coldChildren_empty (by decide +kernel)
  obtain ⟨hwatched, hcached⟩ := Bool.and_eq_true_iff.mp hproperty
  obtain ⟨hover, hwatched⟩ := Bool.and_eq_true_iff.mp hwatched
  have hclient := (hcoherent s (hs.mono _ fun _ _ _ => trivial) (quiescent_of_all hover)).client _ _ (eq_of_beq hwatched)
  rw [eq_of_beq hcached] at hclient
  cases hclient

end FiveSpot
