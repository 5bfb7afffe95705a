import Mathlib.Data.List.Induction
import OnionPool.Proofs.PortCycle

/-!
# Histories of leases

An allocator is asked for ports, and leases end, in whatever order. At every moment the leased ports
are those of the leases that are out; another port can be leased as long as one is idle, and it is
the nearest one upward from the cursor. The cursor passes over leased ports only, so a port has its
next turn when every other one has had its own.

## Structure

- `LeaseLedger` is an allocator with the leases that are out, and `after` makes all entries of a
  history in it.
- `Sound` is the invariant; `Sound.enter` keeps it through every entry, and `Sound.after` through
  every history.
- `Exact` is what can be said of leases at any moment, and `leases_are_exact` says that it holds
  after every history.
- `WasOut` looks back on a part of a history, `exists_passed` follows the cursor through it, and
  `reuse_is_delayed` says what has been out when a port is issued again.
-/

namespace OnionPool

/-- An allocator with the leases that it has issued. -/
structure LeaseLedger where
  allocator : PortAllocator
  /-- The ports of the leases that are out, in the order in which they were issued. -/
  out : List Port := []
  /-- The port that was issued last. -/
  latest? : Option Port := none

namespace LeaseLedger

/-- What can happen to leases. -/
inductive Entry where
  /-- Another lease is asked for. -/
  | lease
  /-- A lease ends, the one at some place among those that are out. -/
  | drop (place : Nat)

/-- The port that the next lease would be for. -/
def next? (l : LeaseLedger) : Option Port := l.allocator.lease.1

/-- The ledger after one more entry. -/
def enter (l : LeaseLedger) : Entry → LeaseLedger
  | .lease =>
    match l.allocator.lease with
    | (some p, allocator) => ⟨allocator, l.out ++ [p], some p⟩
    | (none, allocator) => { l with allocator }
  | .drop place =>
    match l.out[place]? with
    | some p => { l with allocator := l.allocator.release p, out := l.out.eraseIdx place }
    | none => l

/-- The ledger after some more entries. -/
def keep (l : LeaseLedger) (entries : List Entry) : LeaseLedger := entries.foldl enter l

/-- The ledger after all entries that were ever made. -/
def after (r : PortRange) (entries : List Entry) : LeaseLedger :=
  keep { allocator := .new r } entries

section Entries

variable {l : LeaseLedger} {entries : List Entry} {e : Entry}

theorem keep_snoc : l.keep (entries ++ [e]) = (l.keep entries).enter e := by
  simp [keep]

/-- A lease is issued for the port that a search finds, or there is none. -/
theorem enter_lease_cases (l : LeaseLedger) :
    (∃ p allocator, l.allocator.lease = (some p, allocator) ∧ l.next? = some p ∧
      l.enter .lease = ⟨allocator, l.out ++ [p], some p⟩) ∨
    ∃ allocator, l.allocator.lease = (none, allocator) ∧ l.next? = none ∧
      l.enter .lease = { l with allocator } := by
  rcases hlease : l.allocator.lease with ⟨_ | p, allocator⟩
  · exact .inr ⟨allocator, rfl, by simp only [next?, hlease], by simp only [enter, hlease]⟩
  · exact .inl ⟨p, allocator, rfl, by simp only [next?, hlease], by simp only [enter, hlease]⟩

/-- A lease that ends gives its port back, or there is no such lease. -/
theorem enter_drop_cases (l : LeaseLedger) (place : Nat) :
    (∃ p, l.out[place]? = some p ∧ l.enter (.drop place) =
      { l with allocator := l.allocator.release p, out := l.out.eraseIdx place }) ∨
    l.enter (.drop place) = l := by
  cases hplace : l.out[place]? with
  | some p => exact .inl ⟨p, rfl, by simp only [enter, hplace]⟩
  | none => exact .inr (by simp only [enter, hplace])

end Entries

/-! ## The invariant -/

/-- The leased ports are those that are out, each of them once, and the cursor stands behind the
port that was issued last. -/
structure Sound (r : PortRange) (l : LeaseLedger) : Prop where
  range : l.allocator.range = r
  distinct : l.out.Nodup
  leased : ∀ p, p ∈ l.allocator.leased ↔ p ∈ l.out
  inRange : ∀ p ∈ l.out, p ∈ r
  start : l.allocator.cursor = l.latest?.elim r.floor r.next
  latest : ∀ p, l.latest? = some p → p ∈ r

section Soundness

variable {r : PortRange} {l : LeaseLedger} {p : Port} {allocator : PortAllocator}

/-- In a range that is not empty the cursor stands on one of its ports. -/
theorem Sound.cursor_mem (h : Sound r l) (ascending : r.floor < r.ceiling) :
    l.allocator.cursor ∈ r := by
  rw [h.start]
  cases hlatest : l.latest? with
  | none => exact PortRange.floor_mem ascending
  | some p => exact PortRange.next_mem (h.latest p hlatest)

/-- The search that the next lease needs. -/
theorem Sound.search (h : Sound r l) {port : Option Port}
    (lease : l.allocator.lease = (port, allocator)) :
    PortAllocator.Search r.span l.allocator port allocator := by
  have hsearch := PortAllocator.search_of_scan lease
  rwa [h.range] at hsearch

/-- A search that fails has gone round once, and everything is as it was. -/
theorem Sound.eq_of_lease_none (h : Sound r l) (lease : l.allocator.lease = (none, allocator)) :
    allocator = l.allocator := by
  cases h.search lease with
  | fails =>
    have hback : l.allocator.range.next^[r.span] l.allocator.cursor = l.allocator.cursor := by
      rw [h.range]
      rcases Nat.eq_zero_or_pos r.span with hempty | hpos
      · rw [hempty, Function.iterate_zero_apply]
      · exact PortRange.iterate_span (h.cursor_mem (PortRange.ascending_of_span_pos hpos))
    rw [hback]

/-- What a search finds is an idle port of the range, and all ports before it are out. -/
theorem Sound.found (h : Sound r l) (lease : l.allocator.lease = (some p, allocator)) :
    ∃ k < r.span, l.allocator.cursor ∈ r ∧ p = r.next^[k] l.allocator.cursor ∧
      (∀ j < k, r.next^[j] l.allocator.cursor ∈ l.out) ∧ p ∉ l.out ∧
      allocator = ⟨r, r.next p, l.allocator.leased.insert p⟩ := by
  cases h.search lease with
  | finds k lt passed idle =>
    rw [h.range] at passed idle ⊢
    refine ⟨k, lt, ?_, rfl, fun j hj => (h.leased _).mp (passed j hj),
      fun hout => idle ((h.leased _).mpr hout), ?_⟩
    · exact h.cursor_mem (PortRange.ascending_of_span_pos (Nat.zero_lt_of_lt lt))
    · rw [Function.iterate_succ_apply']

theorem Sound.new (r : PortRange) : Sound r { allocator := .new r } where
  range := rfl
  distinct := .nil
  leased p := by simp [PortAllocator.new]
  inRange := List.forall_mem_nil _
  start := rfl
  latest p h := by cases h

/-- The invariant is kept by every entry. -/
theorem Sound.enter (h : Sound r l) (e : Entry) : Sound r (l.enter e) := by
  cases e with
  | lease =>
    rcases l.enter_lease_cases with
      ⟨p, allocator, hlease, -, henter⟩ | ⟨allocator, hlease, -, henter⟩
    · obtain ⟨k, -, hcursor, hp, -, hidle, rfl⟩ := h.found hlease
      have hmem : p ∈ r := hp ▸ PortRange.iterate_next_mem hcursor k
      rw [henter]
      constructor
      case range => rfl
      case distinct => exact h.distinct.append (List.nodup_singleton p) (by simpa using hidle)
      case leased =>
        intro q
        rw [PortSet.mem_insert, h.leased, List.mem_append, List.mem_singleton, or_comm]
      case inRange =>
        exact List.forall_mem_append.mpr ⟨h.inRange, List.forall_mem_singleton.mpr hmem⟩
      case start => rfl
      case latest =>
        intro q hq
        cases hq
        exact hmem
    · rw [henter, h.eq_of_lease_none hlease]
      exact h
  | drop place =>
    rcases l.enter_drop_cases place with ⟨p, hthere, henter⟩ | henter
    · -- A port is out once, so it is gone with its lease.
      have hgone : ∀ q, q ∈ l.out.eraseIdx place ↔ q ≠ p ∧ q ∈ l.out := by
        intro q
        obtain ⟨hplace, rfl⟩ := List.getElem?_eq_some_iff.mp hthere
        rw [← h.distinct.erase_getElem place hplace, h.distinct.mem_erase_iff]
      rw [henter]
      constructor
      case range => exact h.range
      case distinct => exact h.distinct.eraseIdx place
      case leased =>
        intro q
        rw [hgone, ← h.leased]
        exact PortSet.mem_erase
      case inRange => exact fun q hq => h.inRange q (List.mem_of_mem_eraseIdx hq)
      case start => exact h.start
      case latest => exact h.latest
    · rw [henter]
      exact h

/-- The invariant is kept by every history. -/
theorem Sound.keep (h : Sound r l) (entries : List Entry) : Sound r (l.keep entries) := by
  induction entries generalizing l with
  | nil => exact h
  | cons e entries ih => exact ih (h.enter e)

/-- The invariant holds after every history. -/
theorem Sound.after (r : PortRange) (entries : List Entry) : Sound r (after r entries) :=
  (Sound.new r).keep entries

end Soundness

/-! ## Leases at any moment -/

/-- What can be said of the leases of an allocator at a moment, and of the next one. -/
structure Exact (r : PortRange) (l : LeaseLedger) : Prop where
  /-- No port is out twice. -/
  distinct : l.out.Nodup
  inRange : ∀ p ∈ l.out, p ∈ r
  inUse : l.allocator.inUse.Perm l.out
  ascending : l.allocator.inUse.Pairwise (· < ·)
  /-- The cursor, and every port to which the next search can come, is in the range, and one can be
  added to it without an overflow. -/
  cursor : r.floor < r.ceiling → ∀ k, r.next^[k] l.allocator.cursor ∈ r ∧
    (r.next^[k] l.allocator.cursor + 1).toNat = (r.next^[k] l.allocator.cursor).toNat + 1
  /-- The search begins behind the port that was issued last. -/
  start : l.allocator.cursor = l.latest?.elim r.floor r.next
  succeeds : l.next?.isSome = true ↔ ∃ p ∈ r, p ∉ l.out
  /-- Of all idle ports the one is found that comes first upward from the cursor. -/
  nearest : ∀ p, l.next? = some p → p ∈ r ∧ p ∉ l.out ∧ ∀ q ∈ r, q ∉ l.out →
    r.distance l.allocator.cursor p ≤ r.distance l.allocator.cursor q
  /-- A lease that fails leaves the allocator as it was. -/
  unchanged : l.next? = none → l.allocator.lease = (none, l.allocator)

section Exactness

variable {r : PortRange} {l : LeaseLedger} {p : Port}

/-- The port that is leased next is the first one from the cursor on that is not out. -/
theorem Sound.exists_found (h : Sound r l) (next : l.next? = some p) :
    ∃ k < r.span, l.allocator.cursor ∈ r ∧ p = r.next^[k] l.allocator.cursor ∧
      (∀ j < k, r.next^[j] l.allocator.cursor ∈ l.out) ∧ p ∉ l.out := by
  have hlease : l.allocator.lease = (some p, l.allocator.lease.2) := Prod.ext next rfl
  obtain ⟨k, hk, hcursor, hp, hpassed, hidle, -⟩ := h.found hlease
  exact ⟨k, hk, hcursor, hp, hpassed, hidle⟩

/-- No search that fails leaves a port of the range idle. -/
theorem Sound.mem_out_of_next?_none (h : Sound r l) (next : l.next? = none) (hp : p ∈ r) :
    p ∈ l.out := by
  rw [← h.leased]
  refine PortAllocator.mem_leased_of_lease_none (a := l.allocator) ?_ (Prod.ext next rfl) p ?_
  · rw [h.range]
    exact h.cursor_mem (PortRange.ascending_of_mem hp)
  · rw [h.range]
    exact hp

theorem Sound.exact (h : Sound r l) : Exact r l where
  distinct := h.distinct
  inRange := h.inRange
  inUse := by
    refine (List.perm_ext_iff_of_nodup (PortSet.nodup_toList _) h.distinct).mpr fun p => ?_
    rw [← h.leased]
    exact PortSet.mem_toList
  ascending := PortSet.ascending _
  cursor ascending k := by
    have hmem := PortRange.iterate_next_mem (h.cursor_mem ascending) k
    exact ⟨hmem, PortRange.toNat_add_one hmem⟩
  start := h.start
  succeeds := by
    constructor
    · intro hsome
      obtain ⟨p, hp⟩ := Option.isSome_iff_exists.mp hsome
      obtain ⟨k, -, hcursor, rfl, -, hidle⟩ := h.exists_found hp
      exact ⟨_, PortRange.iterate_next_mem hcursor k, hidle⟩
    · rintro ⟨p, hp, hidle⟩
      cases hnext : l.next? with
      | none => exact absurd (h.mem_out_of_next?_none hnext hp) hidle
      | some p => rfl
  nearest p next := by
    obtain ⟨k, hk, hcursor, rfl, hpassed, hidle⟩ := h.exists_found next
    refine ⟨PortRange.iterate_next_mem hcursor k, hidle, fun q hq hqidle => ?_⟩
    rw [PortRange.distance_iterate hcursor hk]
    by_contra hnearer
    -- The cursor would have passed over `q`, which is idle.
    have hout := hpassed _ (Nat.lt_of_not_le hnearer)
    rw [PortRange.iterate_distance hcursor hq] at hout
    exact hqidle hout
  unchanged next := by
    have hlease : l.allocator.lease = (none, l.allocator.lease.2) := Prod.ext next rfl
    rw [h.eq_of_lease_none hlease] at hlease
    exact hlease

/-- **Leases are exact**, whatever was leased and given back before, on every range. -/
theorem leases_are_exact (r : PortRange) (entries : List Entry) : Exact r (after r entries) :=
  (Sound.after r entries).exact

end Exactness

/-! ## When a port is issued again -/

/-- A port was out at some moment from `l` on, while some entries were made. -/
def WasOut (l : LeaseLedger) (entries : List Entry) (p : Port) : Prop :=
  ∃ earlier, earlier <+: entries ∧ p ∈ (l.keep earlier).out

section Reuse

variable {r : PortRange} {l : LeaseLedger} {entries between : List Entry} {e : Entry} {p q : Port}

theorem WasOut.now (h : p ∈ (l.keep entries).out) : WasOut l entries p :=
  ⟨entries, List.prefix_rfl, h⟩

/-- Whatever was out at some time still was when more has happened. -/
theorem WasOut.snoc (h : WasOut l entries p) : WasOut l (entries ++ [e]) p := by
  obtain ⟨earlier, hprefix, hout⟩ := h
  exact ⟨earlier, hprefix.trans (List.prefix_append ..), hout⟩

/-- When some entries were made since `p` was issued, the cursor has passed over ports that have
been out meanwhile, and over no other ones. -/
theorem exists_passed (h : Sound r l) (latest : l.latest? = some p) (entries : List Entry) :
    ∃ n, (l.keep entries).allocator.cursor = r.next^[n] (r.next p) ∧
      ∀ j < n, WasOut l entries (r.next^[j] (r.next p)) := by
  -- The induction is on the history, with the last entry taken off.
  induction entries using List.reverseRecOn with
  | nil =>
    refine ⟨0, ?_, fun j hj => absurd hj (Nat.not_lt_zero j)⟩
    show l.allocator.cursor = r.next p
    rw [h.start, latest]
    rfl
  | append_singleton entries e ih =>
    obtain ⟨n, hcursor, hpassed⟩ := ih
    have hsound := h.keep entries
    -- As long as the cursor stays where it is, nothing has changed.
    have hstay : ((l.keep entries).enter e).allocator.cursor = (l.keep entries).allocator.cursor →
        ∃ n, (l.keep (entries ++ [e])).allocator.cursor = r.next^[n] (r.next p) ∧
          ∀ j < n, WasOut l (entries ++ [e]) (r.next^[j] (r.next p)) := by
      intro hsame
      rw [keep_snoc, hsame]
      exact ⟨n, hcursor, fun j hj => (hpassed j hj).snoc⟩
    cases e with
    | drop place =>
      refine hstay ?_
      rcases (l.keep entries).enter_drop_cases place with ⟨_, -, henter⟩ | henter
      · rw [henter, PortAllocator.release]
      · rw [henter]
    | lease =>
      rcases (l.keep entries).enter_lease_cases with
        ⟨q, allocator, hlease, -, henter⟩ | ⟨allocator, hlease, -, henter⟩
      · obtain ⟨k, -, -, hq, htried, -, rfl⟩ := hsound.found hlease
        rw [hcursor, ← Function.iterate_add_apply] at hq
        refine ⟨k + n + 1, ?_, fun j hj => ?_⟩
        · rw [keep_snoc, henter, Function.iterate_succ_apply', ← hq]
        · rcases Nat.lt_or_ge j n with hold | hnew
          · exact (hpassed j hold).snoc
          · obtain ⟨i, rfl⟩ := Nat.exists_eq_add_of_le' hnew
            rcases Nat.lt_or_ge i k with hbefore | hlast
            · -- The cursor has passed over this port since it was leased.
              have hout := htried i hbefore
              rw [hcursor, ← Function.iterate_add_apply] at hout
              exact (WasOut.now hout).snoc
            · obtain rfl : i = k := by omega
              refine WasOut.now ?_
              rw [keep_snoc, henter, ← hq]
              exact List.mem_append_right _ (List.mem_singleton_self q)
      · refine hstay ?_
        rw [henter, hsound.eq_of_lease_none hlease]

/-- **Reuse is delayed as long as possible**: between two leases of the same port, whatever is
leased or given back meanwhile, and whether leases succeed or fail, every other port of the range is
leased at some moment. -/
theorem reuse_is_delayed (first : (after r entries).next? = some p)
    (again : (((after r entries).enter .lease).keep between).next? = some p) (hq : q ∈ r)
    (hne : q ≠ p) :
    ∃ earlier, earlier <+: between ∧
      q ∈ (((after r entries).enter .lease).keep earlier).allocator.inUse := by
  have hbefore := Sound.after r entries
  have hstart := hbefore.enter .lease
  have hlatest : ((after r entries).enter .lease).latest? = some p := by
    rcases (after r entries).enter_lease_cases with
      ⟨p', _, -, hnext, henter⟩ | ⟨_, -, hnext, -⟩
    · rw [henter]
      exact hnext.symm.trans first
    · cases hnext.symm.trans first
  generalize (after r entries).enter .lease = l at *
  have hsound := hstart.keep between
  have hp : p ∈ r := hstart.latest p hlatest
  obtain ⟨n, hcursor, hpassed⟩ := exists_passed hstart hlatest between
  obtain ⟨k, -, -, hfound, htried, -⟩ := hsound.exists_found again
  rw [hcursor, ← Function.iterate_add_apply] at hfound
  -- The cursor has come back to `p`, so it has gone round, and has come to `q` on its way.
  have hround : r.span ≤ k + n + 1 := by
    refine PortRange.span_le_of_iterate_eq hp (Nat.succ_pos _) ?_
    rw [Function.iterate_succ_apply]
    exact hfound.symm
  obtain ⟨j, hj, rfl⟩ := PortRange.exists_iterate_eq (PortRange.next_mem hp) hq
  have hout : WasOut l between (r.next^[j] (r.next p)) := by
    rcases Nat.lt_or_ge j n with hold | hnew
    · exact hpassed j hold
    · obtain ⟨i, rfl⟩ := Nat.exists_eq_add_of_le' hnew
      rcases Nat.lt_or_ge i k with hbefore | hlast
      · have hout := htried i hbefore
        rw [hcursor, ← Function.iterate_add_apply] at hout
        exact .now hout
      · obtain rfl : i = k := by omega
        exact absurd hfound.symm hne
  obtain ⟨earlier, hprefix, hmem⟩ := hout
  exact ⟨earlier, hprefix, PortSet.mem_toList.mpr (((hstart.keep earlier).leased _).mpr hmem)⟩

/-- Three ports: the first one is given back at once, and issued again when the two others have been
out, one of them only for a moment. -/
theorem reuse_is_delayed_in_three :
    (after ⟨30000, 30003⟩ []).next? = some 30000 ∧
      (((after ⟨30000, 30003⟩ []).enter .lease).keep [.drop 0, .lease, .drop 0, .lease]).next? =
        some 30000 ∧
      ∃ earlier, earlier <+: [.drop 0, .lease, .drop 0, .lease] ∧
        30001 ∈ (((after ⟨30000, 30003⟩ []).enter .lease).keep earlier).allocator.inUse := by
  have hfirst : (after ⟨30000, 30003⟩ []).next? = some 30000 := by rfl
  have hagain : (((after ⟨30000, 30003⟩ []).enter .lease).keep
      [.drop 0, .lease, .drop 0, .lease]).next? = some 30000 := by rfl
  exact ⟨hfirst, hagain, reuse_is_delayed hfirst hagain ⟨by decide, by decide⟩ (by decide)⟩

end Reuse

end LeaseLedger

end OnionPool
