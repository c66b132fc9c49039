import FiveSpot.Interaction.Monitor

/-! # Pools of programs

Any number of programs run at once over a state they share. One step answers one request of one of them,
and requests are atomic; which program is next, and what the outside answers, is open. Each program is
watched by a copy of the same monitor, so an invariant speaks of the shared state and of where the copies
stand.
-/

namespace FiveSpot.Interaction

set_option autoImplicit false

/-- `serve` knows which program asks. -/
structure Pool {Req : Type} (Resp : Req → Type) (ε α σ Job Fate : Type) where
  program : Job → Prog Resp ε α
  serve : σ → Nat → (r : Req) → Fate → Resp r × σ

section

variable {Req : Type} {Resp : Req → Type} {ε α σ Job Fate τ : Type}

/-- What is left of a program, and what happened in it so far. -/
structure Thread (Resp : Req → Type) (ε α : Type) where
  rest : Prog Resp ε α
  trace : List (Sigma Resp)

def Thread.over (thread : Thread Resp ε α) : Bool :=
  match thread.rest with
  | .call _ _ => false
  | _ => true

/-- Programs are numbered in the order they began. -/
structure PoolState (Resp : Req → Type) (ε α σ : Type) where
  shared : σ
  threads : List (Thread Resp ε α)

inductive PoolAct (Job Fate : Type) where
  | begin (job : Job)
  | answer (i : Nat) (f : Fate)

def PoolState.Quiescent (s : PoolState Resp ε α σ) : Prop := ∀ thread ∈ s.threads, thread.over = true

def PoolState.standing (M : Monitor Resp τ) (t₀ : τ) (s : PoolState Resp ε α σ) : List τ :=
  s.threads.map fun thread => M.after t₀ thread.trace

namespace Pool

variable (pool : Pool Resp ε α σ Job Fate)

def step : PoolAct Job Fate → PoolState Resp ε α σ → Option (PoolState Resp ε α σ)
  | .begin job, s => some { s with threads := s.threads ++ [⟨pool.program job, []⟩] }
  | .answer i f, s => match s.threads[i]? with
    | some ⟨.call r k, trace⟩ =>
      let served := pool.serve s.shared i r f
      some ⟨served.2, s.threads.set i ⟨k served.1, ⟨r, served.1⟩ :: trace⟩⟩
    | _ => none

/-- States reached from an initial shared state by steps that all meet `ok`. -/
inductive Reach (init : σ → Prop) (ok : PoolState Resp ε α σ → PoolAct Job Fate → Prop) : PoolState Resp ε α σ → Prop
  | init {w : σ} : init w → Reach init ok ⟨w, []⟩
  | step {s s' : PoolState Resp ε α σ} {a : PoolAct Job Fate} :
      Reach init ok s → ok s a → pool.step a s = some s' → Reach init ok s'

/-- Execute steps that all pass a check. -/
def runWith (check : PoolState Resp ε α σ → PoolAct Job Fate → Bool) :
    List (PoolAct Job Fate) → PoolState Resp ε α σ → Option (PoolState Resp ε α σ)
  | [], s => some s
  | a :: rest, s => if check s a then (pool.step a s).bind (runWith check rest) else none

theorem Reach.of_runWith {init : σ → Prop} {check : PoolState Resp ε α σ → PoolAct Job Fate → Bool}
    (acts : List (PoolAct Job Fate)) {s s' : PoolState Resp ε α σ}
    (hs : pool.Reach init (fun s a => check s a = true) s) (hrun : pool.runWith check acts s = some s') :
    pool.Reach init (fun s a => check s a = true) s' := by
  induction acts generalizing s with
  | nil =>
    cases hrun
    exact hs
  | cons a rest ih =>
    rw [runWith] at hrun
    split at hrun
    · rename_i hcheck
      obtain ⟨mid, hmid, hrest⟩ := Option.bind_eq_some_iff.mp hrun
      exact ih (.step hs hcheck hmid) hrest
    · cases hrun

theorem Reach.exists_of_runWith {init : σ → Prop} (check : PoolState Resp ε α σ → PoolAct Job Fate → Bool)
    (property : PoolState Resp ε α σ → Bool) (acts : List (PoolAct Job Fate)) {w : σ} (hw : init w)
    (hrun : (pool.runWith check acts ⟨w, []⟩).any property = true) :
    ∃ s, pool.Reach init (fun s a => check s a = true) s ∧ property s = true := by
  obtain ⟨s, hs, hproperty⟩ := (Option.any_eq_true _ _).mp hrun
  exact ⟨s, Reach.of_runWith pool acts (.init hw) hs, hproperty⟩

theorem Reach.mono {init : σ → Prop} {ok ok' : PoolState Resp ε α σ → PoolAct Job Fate → Prop}
    (h : ∀ s a, ok s a → ok' s a) {s : PoolState Resp ε α σ} (hs : pool.Reach init ok s) : pool.Reach init ok' s := by
  induction hs with
  | init hw => exact .init hw
  | step _ hok hstep ih => exact .step ih (h _ _ hok) hstep

/-! ## The invariant rule -/

/-- Every program conforms from where its monitor stands, and will end within `Q`. -/
def AllConform (M : Monitor Resp τ) (Q : Except ε α → τ → Prop) (t₀ : τ) (s : PoolState Resp ε α σ) : Prop :=
  ∀ thread ∈ s.threads, Conforms M thread.rest Q (M.after t₀ thread.trace)

theorem Reach.allConform {M : Monitor Resp τ} {Q : Except ε α → τ → Prop} {t₀ : τ} {init : σ → Prop}
    {ok : PoolState Resp ε α σ → PoolAct Job Fate → Prop} (hprog : ∀ job, Conforms M (pool.program job) Q t₀)
    {s : PoolState Resp ε α σ} (hs : pool.Reach init ok s) : AllConform M Q t₀ s := by
  induction hs with
  | init _ => exact fun _ h => nomatch h
  | @step s s' a _ _ hstep ih =>
    cases a with
    | begin job =>
      cases hstep
      intro thread hthread
      rcases List.mem_append.mp hthread with hold | hnew
      · exact ih thread hold
      · rw [List.mem_singleton.mp hnew]
        exact hprog job
    | answer i f =>
      simp only [Pool.step] at hstep
      split at hstep
      · rename_i r k trace hi
        cases hstep
        intro thread hthread
        rcases List.mem_or_eq_of_mem_set hthread with hold | rfl
        · exact ih thread hold
        · exact (ih _ (List.mem_of_getElem? hi)).2 _
      · cases hstep

/-- What has to be shown of an invariant `J`: it holds of no programs at all, a program may begin, and an
answer to a request that the monitor allows keeps it. -/
structure Keeps (M : Monitor Resp τ) (t₀ : τ) (init : σ → Prop) (ok : PoolState Resp ε α σ → PoolAct Job Fate → Prop)
    (J : σ → List τ → Prop) : Prop where
  base : ∀ w, init w → J w []
  begin : ∀ w ts, J w ts → J w (ts ++ [t₀])
  answer : ∀ (s : PoolState Resp ε α σ) i r k trace f, J s.shared (s.standing M t₀) →
    s.threads[i]? = some ⟨.call r k, trace⟩ → M.allowed (M.after t₀ trace) r → ok s (.answer i f) →
    J (pool.serve s.shared i r f).2
      ((s.standing M t₀).set i (M.observe (M.after t₀ trace) r (pool.serve s.shared i r f).1))

theorem Reach.invariant {M : Monitor Resp τ} {Q : Except ε α → τ → Prop} {t₀ : τ} {init : σ → Prop}
    {ok : PoolState Resp ε α σ → PoolAct Job Fate → Prop} {J : σ → List τ → Prop}
    (hprog : ∀ job, Conforms M (pool.program job) Q t₀) (hJ : pool.Keeps M t₀ init ok J)
    {s : PoolState Resp ε α σ} (hs : pool.Reach init ok s) : J s.shared (s.standing M t₀) := by
  induction hs with
  | init hw => exact hJ.base _ hw
  | @step s s' a hs hok hstep ih =>
    have hconform := Reach.allConform pool hprog hs
    cases a with
    | begin job =>
      cases hstep
      simp only [PoolState.standing, List.map_append, List.map_cons, List.map_nil, Monitor.after_nil]
      exact hJ.begin _ _ ih
    | answer i f =>
      simp only [Pool.step] at hstep
      split at hstep
      · rename_i r k trace hi
        cases hstep
        have hallowed := (hconform _ (List.mem_of_getElem? hi)).1
        simp only [PoolState.standing, List.map_set, Monitor.after_cons]
        exact hJ.answer s i r k trace f ih hi hallowed hok
      · cases hstep

theorem standing_of_quiescent {M : Monitor Resp τ} {Q : Except ε α → τ → Prop} {t₀ : τ} {s : PoolState Resp ε α σ}
    (h : AllConform M Q t₀ s) (hquiet : s.Quiescent) : ∀ t ∈ s.standing M t₀, ∃ outcome, Q outcome t := by
  intro t ht
  obtain ⟨⟨rest, trace⟩, hthread, rfl⟩ := List.mem_map.mp ht
  have hconforms := h _ hthread
  have hover := hquiet _ hthread
  cases rest with
  | pure a => exact ⟨_, hconforms⟩
  | fail e => exact ⟨_, hconforms⟩
  | call r k => cases hover

end Pool

end

/-! ## More requests

A program can be run where there are more requests than it makes. -/

section

variable {Req Req' : Type} {Resp : Req → Type} {Resp' : Req' → Type} {ε α τ : Type}

/-- Answers of either kind of request. -/
abbrev Either (Resp : Req → Type) (Resp' : Req' → Type) : Req ⊕ Req' → Type
  | .inl r => Resp r
  | .inr r => Resp' r

def Prog.extend : Prog Resp ε α → Prog (Either Resp Resp') ε α
  | .pure a => .pure a
  | .fail e => .fail e
  | .call r k => .call (.inl r) fun answer => (k answer).extend

def Monitor.restrict (M : Monitor (Either Resp Resp') τ) : Monitor Resp τ where
  allowed t r := M.allowed t (.inl r)
  observe t r answer := M.observe t (.inl r) answer

theorem conforms_extend {M : Monitor (Either Resp Resp') τ} {p : Prog Resp ε α} {Q : Except ε α → τ → Prop} {t : τ} :
    Conforms M p.extend Q t ↔ Conforms M.restrict p Q t := by
  induction p generalizing t with
  | pure a => rfl
  | fail e => rfl
  | call r k ih => exact and_congr_right fun _ => forall_congr' fun answer => ih answer

end

end FiveSpot.Interaction
