import Mathlib.Algebra.Order.BigOperators.Group.List
import Mathlib.Algebra.Order.Ring.Nat
import OnionPool.Proofs.PairDebts
import OnionPool.Proofs.ProxyTransition
import OnionPool.Proofs.Runs
import OnionPool.Proofs.TaskMove

/-!
# What the tasks of the pool have together

A task owes chores, advertises a port, and counts as live or as launched. What all tasks have
together is a total over them, and a move of one task changes the total by what it changes there.

## Structure

- `Task.debts`, `Task.advertised`, `Task.isLive` and `Task.isLaunched` are the measures of a task.
- `Pool.total` adds up a measure; `total_set` follows it when one task changes.
- `Move.exchange` says that a move exchanges debts for what is there, `Move.orderly` that ports are
  still released last.
-/

namespace OnionPool

/-! ## Sums over a list -/

/-- A sum after one item of its list was replaced. -/
theorem sum_map_set {α : Type} {l : List α} {i : Nat} {a : α} (h : l[i]? = some a) (b : α)
    (f : α → Nat) : ((l.set i b).map f).sum + f a = (l.map f).sum + f b := by
  -- The replaced item is the first one, or it is in the rest.
  induction l generalizing i with
  | nil => cases h
  | cons c l ih =>
    cases i with
    | zero =>
      cases h
      simp only [List.set_cons_zero, List.map_cons, List.sum_cons]
      omega
    | succ i =>
      have hrest := ih (i := i) h
      simp only [List.set_cons_succ, List.map_cons, List.sum_cons]
      omega

/-- A sum of smaller numbers is smaller, by as much as they differ at any one item. -/
theorem sum_map_add_le {α : Type} {l : List α} {a : α} {f g : α → Nat} (ha : a ∈ l)
    (hle : ∀ b ∈ l, f b ≤ g b) : (l.map f).sum + g a ≤ (l.map g).sum + f a := by
  induction l with
  | nil => cases ha
  | cons b l ih =>
    have hrest : ∀ c ∈ l, f c ≤ g c := fun c hc => hle c (List.mem_cons_of_mem _ hc)
    simp only [List.map_cons, List.sum_cons]
    -- At the item itself the difference is exact; at all others it is dropped.
    rcases List.mem_cons.mp ha with rfl | ha
    · have hsum : (l.map f).sum ≤ (l.map g).sum := List.sum_le_sum hrest
      omega
    · have hb := hle b (List.mem_cons_self ..)
      have hsum := ih ha hrest
      omega

/-- Two items at different places add up to no more than the sum. -/
theorem add_le_sum_map {α : Type} {l : List α} {i j : Nat} {a b : α} (hi : l[i]? = some a)
    (hj : l[j]? = some b) (hne : i ≠ j) (f : α → Nat) : f a + f b ≤ (l.map f).sum := by
  have hle : ∀ {m : List α} {k : Nat} {c : α}, m[k]? = some c → f c ≤ (m.map f).sum := fun hk =>
    List.single_le_sum (fun _ _ => Nat.zero_le _) _ (List.mem_map_of_mem (List.mem_of_getElem? hk))
  -- One of them is the first item, or both are in the rest.
  induction l generalizing i j with
  | nil => cases hi
  | cons c l ih =>
    rw [List.map_cons, List.sum_cons]
    match i, j with
    | 0, 0 => exact absurd rfl hne
    | 0, j + 1 =>
      cases hi
      exact Nat.add_le_add_left (hle (m := l) hj) _
    | i + 1, 0 =>
      cases hj
      rw [Nat.add_comm]
      exact Nat.add_le_add_left (hle (m := l) hi) _
    | i + 1, j + 1 =>
      have hrest := ih (i := i) (j := j) hi hj (fun h => hne (congrArg _ h))
      exact hrest.trans (Nat.le_add_left ..)

namespace Pool

/-! ## Measures of a task -/

/-- The chores that would give back all that a task has. -/
def Task.debts (t : Task) : List Chore :=
  match t.leases, t.pair, t.activity with
  | some (circuit, forwarder), _, _ => [.release forwarder, .release circuit]
  | none, some pair, _ => pair.teardown
  | none, none, .leasing circuit => [.release circuit]
  | none, none, .starting s => s.debts
  | none, none, .started pair => pair.teardown
  | none, none, .discarding chores | none, none, .tearing chores => chores
  | none, none, _ => []

/-- The ports that a task holds. -/
def Task.ports (t : Task) : List Port := Chore.ports t.debts

/-- The port that a task has put into the registry, and not yet taken out. -/
def Task.advertised (t : Task) : List Port :=
  match t.state, t.activity with
  | .registered, .entering => []
  | .registered, _ | .retiring, .entering => t.pair.toList.map (·.forwarderPort)
  | _, _ => []

/-- Whether the pair of a task is counted as live. -/
def Task.isLive (t : Task) : Bool :=
  match t.state, t.activity with
  | .registered, .entering | .retiring, .leaving _ => false
  | .registered, _ | .retiring, _ => true
  | _, _ => false

/-- Whether the pair of a task is counted as started, and not yet as retired. -/
def Task.isLaunched (t : Task) : Bool :=
  match t.state, t.activity with
  | .retiring, .leaving _ => false
  | .starting, .leaving .launched | .registered, _ | .retiring, _ => true
  | _, _ => false

/-! ## Totals -/

/-- What all tasks have together by a measure. -/
def total (p : Pool) (f : Task → Nat) : Nat := (p.tasks.map f).sum

section Totals

variable {now : Time} {p q : Pool} {t t' : Task} {i : Nat}

/-- A total follows the measure of the task that moves. -/
theorem total_set (there : p.tasks[i]? = some t) (q : Pool) (t' : Task) (f : Task → Nat) :
    total { q with tasks := p.tasks.set i t' } f + f t = p.total f + f t' :=
  sum_map_set there t' f

theorem total_append (p q : Pool) (t : Task) (f : Task → Nat) :
    total { q with tasks := p.tasks ++ [t] } f = p.total f + f t := by
  simp [total]

theorem le_total (there : p.tasks[i]? = some t) (f : Task → Nat) : f t ≤ p.total f :=
  List.single_le_sum (fun _ _ => Nat.zero_le _) _
    (List.mem_map_of_mem (List.mem_of_getElem? there))

/-- What all tasks have together once, one task has, and no other one. -/
theorem not_mem_of_total_le {α : Type} [DecidableEq α] {f : Task → List α} {x : α} {u : Task}
    {j : Nat} (once : p.total (fun t => (f t).count x) ≤ 1) (there : p.tasks[i]? = some t)
    (other : p.tasks[j]? = some u) (hne : i ≠ j) (hx : x ∈ f t) : x ∉ f u := by
  intro hu
  have hboth := (add_le_sum_map there other hne fun t => (f t).count x).trans once
  have ht : 0 < (f t).count x := List.count_pos_iff.mpr hx
  have hu : 0 < (f u).count x := List.count_pos_iff.mpr hu
  omega

/-- The total of a test is the number of tasks that pass it. -/
theorem total_toNat (p : Pool) (f : Task → Bool) :
    p.total (fun t => (f t).toNat) = p.tasks.countP f := by
  unfold total
  induction p.tasks with
  | nil => rfl
  | cons t l ih =>
    rw [List.map_cons, List.sum_cons, ih, List.countP_cons, Nat.add_comm]
    cases f t <;> rfl

/-- The total of the counts in lists is the count in all of them. -/
theorem total_count {α : Type} [DecidableEq α] (p : Pool) (f : Task → List α) (x : α) :
    p.total (fun t => (f t).count x) = (p.tasks.flatMap f).count x := by
  unfold total
  rw [List.count_flatMap]
  rfl

end Totals

/-! ## Moves are exchanges -/

section Moves

variable {now : Time} {p q : Pool} {t t' : Task}

/-- Leases and releases exchange nothing but ports. -/
private theorem exchange_setPorts {debts debts' : List Chore} {ports : PortAllocator}
    (hports : ∀ x, ports.leased.count x + (Chore.ports debts).count x =
      p.site.ports.leased.count x + (Chore.ports debts').count x)
    (hnone : Chore.belongings debts = []) :
    Exchange p.site debts (p.setPorts ports).site debts' where
  ports := hports
  belongings b hb := by
    refine .inr (.inl ⟨?_, hnone ▸ List.not_mem_nil⟩)
    cases b <;> exact hb
  forgone := List.Subset.refl _

/-- A move exchanges belongings for debts. -/
theorem Move.exchange (h : Move now p t t' q) (backed : p.site.Backs t.debts) :
    Exchange p.site t.debts q.site t'.debts := by
  cases h with
  | leaseFirst circuit ports lease =>
    exact exchange_setPorts (fun x => PortAllocator.count_lease lease x) rfl
  | leaseNone ports lease =>
    refine exchange_setPorts (fun x => ?_) rfl
    rw [PortAllocator.leased_of_lease_none lease]
    rfl
  | leaseSecond circuit forwarder ports lease =>
    refine exchange_setPorts (fun x => ?_) rfl
    -- The circuit is owed already, and the forwarder comes in front of it.
    have hboth : [forwarder, circuit].count x = [forwarder].count x + [circuit].count x := by
      show ([forwarder] ++ [circuit]).count x = _
      exact List.count_append ..
    rw [PortAllocator.count_lease lease x, Nat.add_assoc]
    exact congrArg _ hboth.symm
  | leaseOne circuit ports lease =>
    -- The first port is owed, hence leased, so it can be released.
    have hleased : circuit ∈ ports.leased := by
      rw [PortAllocator.leased_of_lease_none lease, ← PortSet.count_pos_iff]
      refine Nat.lt_of_lt_of_le ?_ (backed circuit)
      exact List.count_pos_iff.mpr (List.mem_singleton_self _)
    refine exchange_setPorts (fun x => ?_) rfl
    rw [← PortAllocator.leased_of_lease_none lease]
    exact PortAllocator.count_release hleased x
  | launch circuit forwarder => exact .of_same (fun _ => rfl) fun b hb => by cases hb
  | startup s s' a site step => exact (Startup.advance_of_step step).exchange backed
  | ready s circuit forwarder stage =>
    apply Exchange.of_eq
    show Pair.teardown _ = s.debts
    simp only [Startup.debts, stage]
  | interrupted s stage | startFails s cause stage =>
    apply Exchange.of_eq
    show [] = s.debts
    simp only [Startup.debts, stage]
  | discardChore chores rest site part => exact part.exchange backed
  | tearChore chores rest site part => exact part.exchange backed
  | advance s s' leases pair =>
    cases leases <;> cases pair <;> exact .of_eq _ rfl
  -- All other moves touch neither the ports nor what is owed.
  | _ => exact .of_eq _ rfl

/-- Ports are still released last. -/
theorem Move.orderly (h : Move now p t t' q) (ho : Chore.Orderly t.debts) :
    Chore.Orderly t'.debts := by
  cases h with
  | leaseFirst => exact fun c hc => by cases hc
  | leaseSecond circuit forwarder => exact Chore.orderly_releases forwarder circuit
  | launch circuit forwarder =>
    exact Startup.orderly_undo ⟨circuit, forwarder, .preparing none⟩ none
  | startup s s' a site step => exact (Startup.advance_of_step step).orderly ho
  | ready s circuit forwarder => exact Pair.orderly_teardown ⟨_, _, circuit, forwarder⟩
  | discardChore chores rest site part => exact part.orderly ho
  | tearChore chores rest site part => exact part.orderly ho
  | discard pair | count pair | register pair | retire pair | deregister pair =>
    exact pair.orderly_teardown
  | advance s s' leases pair => cases leases <;> cases pair <;> exact ho
  | _ => trivial

end Moves

end Pool

end OnionPool
