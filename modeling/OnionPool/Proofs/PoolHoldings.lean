import OnionPool.Proofs.PoolTotals

/-!
# What the tasks hold

Every permit that is out is held by a task, and every port that is leased is owed by one task. This
needs nobody's discipline: whatever happens to the pool, to its processes and to the reverse proxy,
and whoever else changes the registry.

## Structure

- `Holdings` is the invariant; `Holdings.task` keeps it through a move, `Holdings.step` through
  every step.
- `Holdings.perm_inUse` lists the leased ports by the tasks that owe them, and
  `Holdings.total_length` counts them.
-/

namespace OnionPool.Pool

/-- What is out is what the tasks hold: the permits, and the ports. -/
structure Holdings (p : Pool) : Prop where
  proper : ∀ t ∈ p.tasks, t.Proper
  orderly : ∀ t ∈ p.tasks, Chore.Orderly t.debts
  permits : p.available + p.total (·.holdsPermit.toNat) = p.plan.size
  ports : ∀ x, p.total (·.ports.count x) = p.site.ports.leased.count x

/-- The pool before its run, with some directories that were left behind. -/
def opening (plan : Plan) (proxyPlan : Proxy.Plan) (range : PortRange)
    (folders : List (Seat × Contents)) : Pool where
  plan
  proxy := { plan := proxyPlan }
  site := { ports := .new range, folders }

/-- Before the run nothing is out. -/
theorem Holdings.opening (plan : Plan) (proxyPlan : Proxy.Plan) (range : PortRange)
    (folders : List (Seat × Contents)) : Holdings (opening plan proxyPlan range folders) where
  proper := List.forall_mem_nil _
  orderly := List.forall_mem_nil _
  permits := rfl
  ports x := (PortSet.count_empty x).symm

section Invariant

variable {now : Time} {p q : Pool} {t t' : Task} {i : Nat}

/-- A permit is held or available, whatever a task does. -/
theorem Move.permits (h : Move now p t t' q) :
    q.available + t'.holdsPermit.toNat = p.available + t.holdsPermit.toNat := by
  cases h <;> rfl

/-- What a task owes can be given back: the ports are leased. -/
theorem Holdings.backs (h : Holdings p) (there : p.tasks[i]? = some t) : p.site.Backs t.debts :=
  fun x => h.ports x ▸ le_total there (·.ports.count x)

/-- The holdings are kept when a task moves. -/
theorem Holdings.task (h : Holdings p) (there : p.tasks[i]? = some t) (move : Move now p t t' q) :
    Holdings { q with tasks := p.tasks.set i t' } := by
  have hmem := List.mem_of_getElem? there
  have hexchange := move.exchange (h.backs there)
  have hset := fun f => total_set there q t' f
  constructor
  case proper => exact forall_mem_set h.proper move.proper
  case orderly => exact forall_mem_set h.orderly (move.orderly (h.orderly t hmem))
  case permits =>
    have hmove := move.permits
    have htotal := hset (·.holdsPermit.toNat)
    have hbefore := h.permits
    have hsize : q.plan.size = p.plan.size := congrArg Plan.size move.frame.2.1
    dsimp only
    omega
  case ports =>
    intro x
    have hmove := hexchange.ports x
    have htotal := hset (·.ports.count x)
    have hbefore := h.ports x
    simp only [Task.ports] at htotal hbefore ⊢
    omega

/-- A new task has nothing but a permit. -/
theorem Holdings.admit (h : Holdings p) (permit : 0 < p.available) :
    Holdings { p with available := p.available - 1, tasks := p.tasks ++ [{}] } := by
  have hadd := fun f => total_append p { p with available := p.available - 1 } {} f
  constructor
  case proper => exact forall_mem_admit h.proper .allocating
  case orderly => exact forall_mem_admit h.orderly trivial
  case permits =>
    have htotal := hadd (·.holdsPermit.toNat)
    have hone : Task.holdsPermit {} = true := rfl
    have hbefore := h.permits
    simp only [hone, Bool.toNat_true] at htotal ⊢
    omega
  case ports => exact fun x => (hadd (·.ports.count x)).trans (h.ports x)

/-- Whatever happens, what is out is what the tasks hold. -/
theorem Holdings.step {a : Action} (h : Holdings p) (hs : p.step now a = some q) : Holdings q := by
  cases change_of_step h.proper hs with
  | raise | desert | begin | close | finish => exact { h with }
  | proxy a proxy step => exact { h with }
  | worker w a site step =>
    obtain ⟨worker, process, -, -, rfl⟩ := Site.processStep_eq_some step
    exact { h with }
  | admitPair runner stop permit => exact h.admit permit
  | task i a t t' r there move => exact h.task there move

/-- The holdings are kept in every run. -/
theorem Holdings.of_trace {allowed : Action → Prop} {since : Time} {done : List (Time × Action)}
    {plan : Plan} {proxyPlan : Proxy.Plan} {range : PortRange} {folders : List (Seat × Contents)}
    (run : machine.Trace allowed since (Pool.opening plan proxyPlan range folders) done now p) :
    Holdings p := by
  induction run with
  | refl => exact .opening plan proxyPlan range folders
  | act _ _ hs ih => exact ih.step hs
  | tick _ _ ih => exact ih

/-- On a system that obeys no directory is left where it was to be removed. -/
theorem forgone_of_run {since : Time} {plan : Plan} {proxyPlan : Proxy.Plan} {range : PortRange}
    {folders : List (Seat × Contents)}
    (run : machine.Run Action.Obeyed since (Pool.opening plan proxyPlan range folders) now p) :
    p.site.forgone = [] := by
  refine (run.induct (P := fun _ (s : Pool) => Holdings s ∧ s.site.forgone = [])
    ⟨.opening plan proxyPlan range folders, rfl⟩ ?_ fun ih _ => ih).2
  intro now s s' a ih obeyed hs
  exact ⟨ih.1.step hs, (forgone_of_step ih.1.proper obeyed hs).trans ih.2⟩

/-- The leased ports are those that tasks owe, each of them once. -/
theorem Holdings.perm_inUse (h : Holdings p) :
    (p.tasks.flatMap Task.ports).Perm p.site.ports.inUse := by
  -- Two lists with the same counts are the same up to order.
  apply List.perm_iff_count.mpr
  intro x
  rw [← total_count, h.ports x]
  exact (PortSet.count_toList ..).symm

/-- All leased ports are held. -/
theorem Holdings.total_length (h : Holdings p) :
    p.total (·.ports.length) = p.site.ports.leased.size := by
  calc p.total (·.ports.length) = (p.tasks.flatMap Task.ports).length := List.length_flatMap.symm
    _ = p.site.ports.inUse.length := h.perm_inUse.length_eq
    _ = p.site.ports.leased.size := PortSet.length_toList _

end Invariant

end OnionPool.Pool
