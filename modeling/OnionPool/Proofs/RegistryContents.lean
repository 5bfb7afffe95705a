import Mathlib.Data.List.Induction
import OnionPool.Port.Registry
import OnionPool.Proxy.Layout

/-!
# What is in the registry

The registry is a set: what is in it depends on what was done last to each port, and not on the
order in which different ports had their turn. So pairs can register their ports at once, and the
text that is rendered from the registry is the same whoever came first.

## Structure

- `after` performs all operations of a history, and `lastChange?` looks up what was done last to a
  port.
- `mem_perform_iff` says what one operation does to the contents, and `contents_iff` what a history
  has done to them. `snapshots_performAll` says that snapshots stay as they were handed out.
- `Exact` is what can be said of the registry at any moment, and `registry_is_a_set` says that it
  holds after every history, with the texts that two histories lead to.
-/

namespace OnionPool.Registry

/-! ## Histories -/

/-- The registry after some more operations. -/
def performAll (r : Registry) (ops : List Operation) : Registry :=
  ops.foldl (fun r op => (r.perform op).2) r

/-- The registry after all operations that were ever performed on it. -/
def after (ops : List Operation) : Registry := performAll {} ops

/-- Whether an operation puts a port in or takes it out. -/
def Operation.changes (p : Port) : Operation → Bool
  | insert q | remove q => q = p
  | contains _ | snapshot => false

/-- What was done last to a port. -/
def lastChange? (p : Port) (ops : List Operation) : Option Operation :=
  (ops.filter (·.changes p)).getLast?

section Histories

variable {r : Registry} {ops later : List Operation} {op : Operation} {p : Port}

theorem performAll_append : r.performAll (ops ++ later) = (r.performAll ops).performAll later :=
  List.foldl_append

/-- The last operation is performed on what the others have left. -/
theorem after_snoc : after (ops ++ [op]) = ((after ops).perform op).2 := performAll_append

/-- The last operation on a port counts, and those on other ports do not. -/
theorem lastChange?_snoc :
    lastChange? p (ops ++ [op]) = if op.changes p then some op else lastChange? p ops := by
  unfold lastChange?
  rw [List.filter_append]
  split
  next h => rw [List.filter_cons_of_pos h, List.filter_nil, List.getLast?_concat]
  next h => rw [List.filter_cons_of_neg h, List.filter_nil, List.append_nil]

/-! ## Contents -/

/-- An operation that changes a port decides whether it is there, and all others leave it. -/
theorem mem_perform_iff :
    p ∈ (r.perform op).2.ports ↔ if op.changes p then op = .insert p else p ∈ r.ports := by
  cases op with
  | insert q =>
    by_cases h : q = p
    · simp [perform, Operation.changes, h]
    · simp [perform, Operation.changes, h, Ne.symm h]
  | remove q =>
    by_cases h : q = p
    · simp [perform, Operation.changes, h]
    · simp [perform, Operation.changes, h, Ne.symm h]
  | contains q => rfl
  | snapshot => rfl

/-- The contents are the ports that were put in and not taken out after that. -/
theorem contents_iff (ops : List Operation) :
    p ∈ (after ops).ports ↔ lastChange? p ops = some (.insert p) := by
  -- The induction is on the history, with the last operation taken off.
  induction ops using List.reverseRecOn with
  | nil => exact iff_of_false (PortSet.not_mem_empty p) nofun
  | append_singleton ops op ih =>
    rw [after_snoc, mem_perform_iff, lastChange?_snoc]
    split
    next => rw [Option.some.injEq]
    next => exact ih

/-- The contents depend on what was done last to each port only. -/
theorem ports_eq_of_lastChange?_eq {ops ops' : List Operation}
    (h : ∀ p, lastChange? p ops = lastChange? p ops') : (after ops).ports = (after ops').ports :=
  PortSet.ext fun p => by rw [contents_iff, contents_iff, h p]

/-- Putting a port in changes something exactly if it was not there. -/
theorem perform_insert_ne_iff : (r.perform (.insert p)).2.ports ≠ r.ports ↔ p ∉ r.ports := by
  constructor
  · intro h there
    refine h (PortSet.ext fun q => ?_)
    rw [perform, PortSet.mem_insert, or_iff_right_of_imp]
    rintro rfl
    exact there
  · intro h same
    exact h (same ▸ PortSet.mem_insert.mpr (.inl rfl))

/-- Taking a port out changes something exactly if it was there. -/
theorem perform_remove_ne_iff : (r.perform (.remove p)).2.ports ≠ r.ports ↔ p ∈ r.ports := by
  constructor
  · intro h
    by_contra absent
    refine h (PortSet.ext fun q => ?_)
    rw [perform, PortSet.mem_erase, and_iff_right_of_imp]
    rintro there rfl
    exact absent there
  · intro h same
    rw [← same, perform, PortSet.mem_erase] at h
    exact h.1 rfl

theorem contains_eq : r.ports.contains p = decide (p ∈ r.ports) :=
  Bool.eq_iff_iff.mpr (by rw [PortSet.contains_iff, decide_eq_true_eq])

/-! ## Snapshots -/

theorem length_snapshots (ops : List Operation) :
    (after ops).snapshots.length = ops.count .snapshot := by
  induction ops using List.reverseRecOn with
  | nil => rfl
  | append_singleton ops op ih =>
    rw [after_snoc, List.count_append, ← ih]
    cases op with
    | insert | remove | contains => rfl
    | snapshot => exact List.length_append

/-- Nothing that is done later reaches a snapshot. -/
theorem snapshots_performAll (r : Registry) (later : List Operation) :
    r.snapshots <+: (r.performAll later).snapshots := by
  induction later generalizing r with
  | nil => exact List.prefix_rfl
  | cons op later ih =>
    have hone : r.snapshots <+: (r.perform op).2.snapshots := by
      cases op with
      | insert | remove | contains => exact List.prefix_rfl
      | snapshot => exact List.prefix_append ..
    exact hone.trans (ih _)

/-- A snapshot is for good what was in the registry when it was taken. -/
theorem getElem?_snapshots (before later : List Operation) :
    (after (before ++ .snapshot :: later)).snapshots[before.count .snapshot]? =
      some (after before).ports := by
  have hafter : after (before ++ .snapshot :: later) =
      ((after before).perform .snapshot).2.performAll later := performAll_append
  have htaken : ((after before).perform .snapshot).2.snapshots =
      (after before).snapshots ++ [(after before).ports] := rfl
  obtain ⟨rest, hrest⟩ := snapshots_performAll ((after before).perform .snapshot).2 later
  rw [hafter, ← hrest, htaken, List.append_assoc, ← length_snapshots,
    List.getElem?_append_right (Nat.le_refl _), Nat.sub_self]
  rfl

end Histories

/-! ## The registry at any moment -/

/-- What can be said of the registry after some operations. -/
structure Exact (ops : List Operation) (r : Registry) : Prop where
  contents : ∀ p, p ∈ r.ports ↔ lastChange? p ops = some (.insert p)
  contains : ∀ p, (r.perform (.contains p)).1 = .flag (decide (p ∈ r.ports))
  /-- A snapshot lists the ports in ascending order, each of them once. -/
  snapshot : (r.perform .snapshot).1 = .ports r.ports
  ascending : r.ports.toList.Pairwise (· < ·)
  listed : ∀ p, p ∈ r.ports.toList ↔ p ∈ r.ports
  size : r.size = r.ports.toList.length
  isEmpty : r.isEmpty = true ↔ r.ports.toList = []
  /-- Putting a port in and taking it out say whether that has changed what is there. -/
  insert : ∀ p, (r.perform (.insert p)).1 =
    .flag (decide ((r.perform (.insert p)).2.ports ≠ r.ports))
  remove : ∀ p, (r.perform (.remove p)).1 =
    .flag (decide ((r.perform (.remove p)).2.ports ≠ r.ports))
  /-- Every snapshot that was ever taken still is what was there then. -/
  snapshots : ∀ before later, ops = before ++ .snapshot :: later →
    r.snapshots[before.count .snapshot]? = some (after before).ports

/-- After every history, the registry and its snapshots are what the history says. -/
theorem exact_after (ops : List Operation) : Exact ops (after ops) where
  contents _ := contents_iff ops
  contains _ := congrArg Answer.flag contains_eq
  snapshot := rfl
  ascending := PortSet.ascending _
  listed _ := PortSet.mem_toList
  size := (PortSet.length_toList _).symm
  isEmpty := by
    rw [isEmpty, size, beq_iff_eq, ← PortSet.length_toList, List.length_eq_zero_iff]
  insert p := by
    rw [decide_eq_decide.mpr perform_insert_ne_iff, decide_not, ← contains_eq]
    rfl
  remove p := by
    rw [decide_eq_decide.mpr perform_remove_ne_iff, ← contains_eq]
    rfl
  snapshots before later h := h ▸ getElem?_snapshots before later

/-- **The registry is a set**: after every history, what is in it are the ports that were put in
last; it lists them once and in ascending order, says of each operation whether it has changed
anything, and leaves the snapshots alone that were taken before. And if two histories end with the
same for each port, in whatever order the ports had their turn, the same configuration is rendered
from the registry, whatever the other settings are. -/
theorem registry_is_a_set (settings : ProxySettings) (ops : List Operation) :
    Exact ops (after ops) ∧
      ∀ ops', (∀ p, lastChange? p ops = lastChange? p ops') →
        (Proxy.Layout.ofSettings settings (after ops).ports).render =
          (Proxy.Layout.ofSettings settings (after ops').ports).render := by
  refine ⟨exact_after ops, fun ops' same => ?_⟩
  rw [ports_eq_of_lastChange?_eq same]

/-- Two pairs register their ports, and a third one comes and goes. -/
def oneOrder : List Operation :=
  [.insert 30005, .insert 30003, .snapshot, .remove 30003, .insert 30001]

/-- The same, in another order and with more ado. -/
def otherOrder : List Operation :=
  [.insert 30001, .remove 30001, .insert 30003, .insert 30001, .insert 30001, .remove 30003,
    .contains 30003, .insert 30005]

/-- The two histories lead to the same text, with two backends. -/
theorem registry_is_a_set_in_either_order :
    (Proxy.Layout.ofSettings ⟨8080, none, 256, .roundRobin⟩ (after oneOrder).ports).render =
        (Proxy.Layout.ofSettings ⟨8080, none, 256, .roundRobin⟩ (after otherOrder).ports).render ∧
      (after otherOrder).ports.toList = [30001, 30005] := by
  have hsame : ∀ p, lastChange? p oneOrder = lastChange? p otherOrder := by
    intro p
    by_cases hone : 30001 = p
    · subst hone; decide
    by_cases hthree : 30003 = p
    · subst hthree; decide
    by_cases hfive : 30005 = p
    · subst hfive; decide
    -- No operation has changed any other port.
    simp [lastChange?, oneOrder, otherOrder, Operation.changes, hone, hthree, hfive]
  exact ⟨(registry_is_a_set _ oneOrder).2 otherOrder hsame, by decide⟩

end OnionPool.Registry
