import Mathlib.Data.List.Lattice
import Mathlib.Data.List.Pairwise
import OnionPool.Proofs.BurstTiming

/-!
# The queue of requests

Requests for reloads come to a place for one; a debounced one that finds it taken is dropped, an
immediate one stands in line. The loop takes them out one after the other, gathers the debounced
ones, and answers all that it has gathered by one reload. So nothing that came to the place is lost
or answered twice, and no reload begins that was not asked for.

## Structure

- `Proxy.received` lists the requests that the loop has taken, `Reload.Prompted` says of a reload
  that only its last request may be an immediate one.
- `Handling` says what a step can do to the requests, and `Transition.handling` that it does nothing
  else.
- `Disciplined` is the invariant: the requests that came to the place are those in it and those that
  were received, in order and without repetition.
- `requests_are_answered_once` reads this off for all runs before the shutdown.
-/

namespace OnionPool.Proxy

/-! ## Requests that were received -/

/-- The requests that the loop gathers for its next reload, the last one first. -/
def Loop.gathered : Loop → List Request
  | .pending _ _ rs => rs
  | .working _ _ | .idle | .stopped | .failed _ => []

/-- The requests that were answered by reloads, the last one first. -/
def answered (p : Proxy) : List Request := p.reloads.flatMap (·.requests)

/-- The requests that the loop has taken from the place, the last one first. -/
def received (p : Proxy) : List Request := p.loop.gathered ++ p.answered

/-- Only a loop that is in a burst has gathered something. -/
theorem pending_of_gathered {l : Loop} {x : Request} {rs : List Request}
    (h : l.gathered = x :: rs) : ∃ openedAt latestAt, l = .pending openedAt latestAt (x :: rs) := by
  unfold Loop.gathered at h
  split at h
  next openedAt latestAt rs' => exact ⟨openedAt, latestAt, by rw [h]⟩
  all_goals cases h

/-- A reload answers some requests, and all but the last one of them are debounced. -/
def Reload.Prompted (r : Reload) : Prop :=
  ∃ prompt earlier, r.requests = prompt :: earlier ∧ ∀ x ∈ earlier, x.urgency = .debounced

/-- The immediate request among those of a reload is the one that has started it. -/
theorem Reload.Prompted.head? {r : Reload} (h : r.Prompted) {x : Request} (hx : x ∈ r.requests)
    (immediate : x.urgency = .immediate) : r.requests.head? = some x := by
  obtain ⟨prompt, earlier, hrequests, hearlier⟩ := h
  rw [hrequests] at hx ⊢
  rcases List.mem_cons.mp hx with rfl | hx
  · rfl
  · rw [hearlier x hx] at immediate
    cases immediate

/-! ## What a step does to the requests -/

/-- The place for a request, the line for it, and the requests that came to it, are the same. -/
structure SameQueue (p q : Proxy) : Prop where
  slot : q.slot = p.slot
  line : q.line = p.line
  accepted : q.accepted = p.accepted
  tickets : q.tickets = p.tickets

/-- The requests that were received are the same, and the loop goes on if it did before. -/
structure SameWork (p q : Proxy) : Prop where
  gathered : q.loop.gathered = p.loop.gathered
  pending : q.state = .pending → p.state = .pending
  going : p.loop ≠ .stopped → q.loop ≠ .stopped
  reloads : q.reloads = p.reloads

/-- What a step can do to the requests. -/
inductive Handling (p : Proxy) (a : Action) (q : Proxy) : Prop where
  | nothing (other : a.isReceipt = false) (same : SameQueue p q) (work : SameWork p q)
  /-- A new request comes to the place. -/
  | accept (x : Request) (other : a.isReceipt = false) (up : p.isUp = true)
      (ticket : x.ticket = p.tickets) (free : p.slot = none)
      (same : SameQueue
        { p with slot := some x, accepted := x :: p.accepted, tickets := p.tickets + 1 } q)
      (work : SameWork p q)
  /-- A new request stands in line. -/
  | queue (x : Request) (other : a.isReceipt = false) (up : p.isUp = true)
      (ticket : x.ticket = p.tickets) (immediate : x.urgency = .immediate)
      (full : p.slot.isSome = true)
      (same : SameQueue { p with line := p.line ++ [x], tickets := p.tickets + 1 } q)
      (work : SameWork p q)
  /-- The loop takes a debounced request, and gathers it. -/
  | gather (x : Request) (slot : p.slot = some x) (debounced : x.urgency = .debounced)
      (same : SameQueue p.refill q) (gathered : q.loop.gathered = x :: p.loop.gathered)
      (reloads : q.reloads = p.reloads)
  /-- The loop takes an immediate request, and answers it together with those that it gathered. -/
  | prompt (x : Request) (r : Reload) (slot : p.slot = some x) (immediate : x.urgency = .immediate)
      (same : SameQueue p.refill q) (loop : q.loop = .working (.reload r) .writing)
      (reloads : q.reloads = r :: p.reloads) (requests : r.requests = x :: p.loop.gathered)
  /-- The loop answers the requests that it gathered. -/
  | expire (r : Reload) (other : a.isReceipt = false) (pending : p.state = .pending)
      (same : SameQueue p q) (loop : q.loop = .working (.reload r) .writing)
      (reloads : q.reloads = r :: p.reloads) (requests : r.requests = p.loop.gathered)

section Steps

variable {now : Time} {p q : Proxy} {a : Action}

theorem SameQueue.refl (p : Proxy) : SameQueue p p := ⟨rfl, rfl, rfl, rfl⟩

theorem SameWork.refl (p : Proxy) : SameWork p p := ⟨rfl, id, id, rfl⟩

/-- A loop that is left alone goes on with its work. -/
theorem SameWork.of_loop (loop : q.loop = p.loop) (reloads : q.reloads = p.reloads) :
    SameWork p q where
  gathered := by rw [loop]
  pending := by simp only [state, loop, imp_self]
  going := by rw [loop]; exact id
  reloads := reloads

/-- A job gathers nothing. -/
theorem SameWork.of_working {job : Job} {stage : Stage} (loop : p.loop = .working job stage)
    (gathered : q.loop.gathered = []) (pending : q.state ≠ .pending) (going : q.loop ≠ .stopped)
    (reloads : q.reloads = p.reloads) : SameWork p q where
  gathered := by rw [gathered, loop]; rfl
  pending h := absurd h pending
  going _ := going
  reloads := reloads

/-- A debounced request comes to the place, or is dropped. -/
theorem handling_request {p₀ : Proxy} (same : SameQueue p₀ p) (work : SameWork p₀ p)
    (up : p₀.isUp = true) (other : a.isReceipt = false) : Handling p₀ a p.request := by
  unfold request
  split
  next => exact .nothing other same work
  next hfree =>
    have hslot : p.slot = none := by
      simp only [Bool.or_eq_true, not_or, Option.not_isSome_iff_eq_none] at hfree
      exact hfree.2
    refine .accept ⟨p.tickets, .debounced⟩ other up same.tickets (same.slot ▸ hslot) ?_ ?_
    · exact ⟨by rw [same.tickets], same.line, by simp [same.accepted, same.tickets],
        congrArg (· + 1) same.tickets⟩
    · exact ⟨work.gathered, work.pending, work.going, work.reloads⟩

/-- An immediate request comes to the place, or stands in line. -/
theorem handling_reloadNow (up : p.isUp = true) : Handling p .reloadNow p.reloadNow := by
  unfold reloadNow
  split
  next => exact .nothing rfl (.refl p) (.refl p)
  next =>
    dsimp only
    split
    next hfull =>
      exact .queue ⟨p.tickets, .immediate⟩ rfl up rfl rfl hfull (.refl _) (.of_loop rfl rfl)
    next hfree =>
      have hslot : p.slot = none := by simpa using hfree
      exact .accept ⟨p.tickets, .immediate⟩ rfl up rfl hslot (.refl _) (.of_loop rfl rfl)

/-- When a job is over, the requests are as they were: a failure of the first instance loses none,
because nobody could ask for a reload before. -/
theorem handling_conclude {job : Job} {stage : Stage} {p₀ : Proxy}
    (loop : p₀.loop = .working job stage) (same : SameQueue p₀ p) (reloads : p.reloads = p₀.reloads)
    (unopened : p₀.isUp = false → p₀.slot = none ∧ p₀.line = []) (other : a.isReceipt = false)
    (replaces : Option InstanceId) (failure : Option Failure) :
    Handling p₀ a (p.conclude now job replaces failure) := by
  cases job with
  | reload r =>
    refine .nothing other ⟨same.slot, same.line, same.accepted, same.tickets⟩ ?_
    exact .of_working loop rfl (by simp [conclude, state]) (by simp [conclude]) reloads
  | opening =>
    cases failure with
    | none =>
      refine .nothing other ⟨same.slot, same.line, same.accepted, same.tickets⟩ ?_
      exact .of_working loop rfl (by simp [conclude, state]) (by simp [conclude]) reloads
    | some f =>
      obtain ⟨hslot, hline⟩ := unopened (by simp [isUp, loop])
      refine .nothing other ⟨hslot.symm, hline.symm, same.accepted, same.tickets⟩ ?_
      exact .of_working loop rfl (by simp [conclude, state]) (by simp [conclude]) reloads

/-- A job goes on, and the requests are as they were. -/
theorem handling_proceed {job : Job} {stage next : Stage} (loop : p.loop = .working job stage)
    (loop' : q.loop = .working job next) (same : SameQueue p q) (reloads : q.reloads = p.reloads)
    (other : a.isReceipt = false) : Handling p a q := by
  refine .nothing other same (.of_working loop ?_ ?_ ?_ reloads)
  · rw [loop']
    rfl
  · cases job <;> simp [state, loop']
  · simp [loop']

/-- Before the shutdown, every step handles the requests in one of these ways. -/
theorem Transition.handling (t : Transition now p a q) (running : p.stop = false)
    (unopened : p.isUp = false → p.slot = none ∧ p.line = []) : Handling p a q := by
  cases t with
  | register port up | deregister port up =>
    refine handling_request ⟨?_, ?_, ?_, ?_⟩ (.of_loop ?_ ?_) up ?_ <;> rfl
  | request up => exact handling_request (.refl p) (.refl p) up rfl
  | reloadNow up => exact handling_reloadNow up
  -- What is received leaves the place, and who stands in line comes in.
  | openBurst x slot debounced loop =>
    have hreloads : p.refill.reloads = p.reloads := by rw [refill_eq]
    exact .gather x slot debounced ⟨rfl, rfl, rfl, rfl⟩ (by rw [loop]; rfl) hreloads
  | prolong x openedAt latestAt rs slot debounced loop =>
    have hreloads : p.refill.reloads = p.reloads := by rw [refill_eq]
    exact .gather x slot debounced ⟨rfl, rfl, rfl, rfl⟩ (by rw [loop]; rfl) hreloads
  | answer x slot immediate loop =>
    have hreloads : p.refill.reloads = p.reloads := by rw [refill_eq]
    refine .prompt x _ slot immediate ⟨rfl, rfl, rfl, rfl⟩ rfl (congrArg _ hreloads) ?_
    rw [loop]
    rfl
  | endBurst x openedAt latestAt rs slot immediate loop =>
    have hreloads : p.refill.reloads = p.reloads := by rw [refill_eq]
    refine .prompt x _ slot immediate ⟨rfl, rfl, rfl, rfl⟩ rfl (congrArg _ hreloads) ?_
    rw [loop]
    rfl
  | expire openedAt latestAt rs loop =>
    refine .expire _ rfl (by simp [state, loop]) ⟨rfl, rfl, rfl, rfl⟩ rfl rfl ?_
    rw [loop]
    rfl
  | halt stop =>
    rw [running] at stop
    cases stop
  -- A job handles no request until it ends.
  | prepare job loop => exact handling_proceed loop rfl ⟨rfl, rfl, rfl, rfl⟩ rfl rfl
  | write job folder loop => exact handling_proceed loop rfl ⟨rfl, rfl, rfl, rfl⟩ rfl rfl
  | rename job text loop => exact handling_proceed loop rfl ⟨rfl, rfl, rfl, rfl⟩ rfl rfl
  | spawn job pid settle loop => exact handling_proceed loop rfl ⟨rfl, rfl, rfl, rfl⟩ rfl rfl
  | prepareFails job e loop | writeFails job folder e left loop | writeNowhere job fault loop
  | renameFails job fault e loop | refuse job e loop | failEarly job i due process outcome loop =>
    refine handling_conclude loop ⟨?_, ?_, ?_, ?_⟩ ?_ unopened ?_ _ _ <;> rfl
  | succeed job i due process loop =>
    rw [takeOver_eq]
    refine handling_conclude loop ⟨?_, ?_, ?_, ?_⟩ ?_ unopened ?_ _ _ <;> rfl
  | _ => exact .nothing rfl ⟨rfl, rfl, rfl, rfl⟩ (.of_loop rfl rfl)

end Steps

/-! ## The invariant -/

/-- Nothing that came to the place is lost or answered twice. -/
structure Disciplined (p : Proxy) : Prop where
  going : p.loop ≠ .stopped
  unopened : p.isUp = false → p.accepted = [] ∧ p.line = []
  /-- Nobody stands in line for a place that is free. -/
  full : p.line ≠ [] → p.slot.isSome = true
  pressing : ∀ x ∈ p.line, x.urgency = .immediate
  ledger : p.accepted = p.slot.toList ++ p.received
  /-- Requests come to the place in the order of their numbers. -/
  numbered : (p.line.reverse ++ p.accepted).map (·.ticket) = (List.range p.tickets).reverse
  debounced : ∀ x ∈ p.loop.gathered, x.urgency = .debounced
  burst : p.state = .pending → p.loop.gathered ≠ []
  prompted : ∀ r ∈ p.reloads, r.Prompted

section Invariant

variable {plan : Plan} {folder : Option Folder} {now : Time} {p q : Proxy} {a : Action}
  {x : Request} {r : Reload}

/-- At first there are no requests. -/
theorem Disciplined.start (plan : Plan) (folder : Option Folder) :
    Disciplined { plan, folder } where
  going h := by cases h
  unopened _ := ⟨rfl, rfl⟩
  full h := absurd rfl h
  pressing x hx := by cases hx
  ledger := rfl
  numbered := rfl
  debounced x hx := by cases hx
  burst h := by cases h
  prompted r hr := by cases hr

theorem Disciplined.slot_of_unopened (h : Disciplined p) (unopened : p.isUp = false) :
    p.slot = none ∧ p.line = [] := by
  obtain ⟨haccepted, hline⟩ := h.unopened unopened
  have hledger := h.ledger
  rw [haccepted] at hledger
  cases hslot : p.slot with
  | none => exact ⟨rfl, hline⟩
  | some x =>
    rw [hslot] at hledger
    cases hledger

/-- Nobody stands in line while the place is free. -/
theorem Disciplined.line_of_free (h : Disciplined p) (free : p.slot = none) : p.line = [] := by
  by_contra hline
  have hfull := h.full hline
  rw [free] at hfull
  cases hfull

/-- A change of the loop alone. -/
theorem Disciplined.toLoop (h : Disciplined p) (same : SameQueue p q) (going : q.loop ≠ .stopped)
    (unopened : q.isUp = false → p.isUp = false) (received : q.received = p.received)
    (debounced : ∀ x ∈ q.loop.gathered, x.urgency = .debounced)
    (burst : q.state = .pending → q.loop.gathered ≠ []) (prompted : ∀ r ∈ q.reloads, r.Prompted) :
    Disciplined q := by
  obtain ⟨hslot, hline, haccepted, htickets⟩ := same
  constructor
  case unopened =>
    rw [haccepted, hline]
    exact fun hq => h.unopened (unopened hq)
  case full => rw [hslot, hline]; exact h.full
  case pressing => rw [hline]; exact h.pressing
  case ledger => rw [haccepted, hslot, h.ledger, received]
  case numbered => rw [hline, haccepted, htickets]; exact h.numbered
  all_goals assumption

/-- A change of the queue alone. -/
theorem Disciplined.toQueue (h : Disciplined p) (up : p.isUp = true) (work : SameWork p q)
    (isUp : p.isUp = true → q.isUp = true) (full : q.line ≠ [] → q.slot.isSome = true)
    (pressing : ∀ x ∈ q.line, x.urgency = .immediate)
    (ledger : q.accepted = q.slot.toList ++ p.received)
    (numbered : (q.line.reverse ++ q.accepted).map (·.ticket) = (List.range q.tickets).reverse) :
    Disciplined q where
  going := work.going h.going
  unopened hq := by
    rw [isUp up] at hq
    cases hq
  full := full
  pressing := pressing
  ledger := by rw [ledger, received, received, answered, answered, work.gathered, work.reloads]
  numbered := numbered
  debounced := work.gathered ▸ h.debounced
  burst hq := work.gathered ▸ h.burst (work.pending hq)
  prompted := work.reloads ▸ h.prompted

/-- A change of the loop after it took a request; the next one in line comes to the place. -/
theorem Disciplined.ofRefill (h : Disciplined p) (slot : p.slot = some x)
    (same : SameQueue p.refill q) (going : q.loop ≠ .stopped) (up : q.isUp = true)
    (received : q.received = x :: p.received)
    (debounced : ∀ x ∈ q.loop.gathered, x.urgency = .debounced)
    (burst : q.state = .pending → q.loop.gathered ≠ []) (prompted : ∀ r ∈ q.reloads, r.Prompted) :
    Disciplined q := by
  have hledger : p.accepted = x :: p.received := by
    have hledger := h.ledger
    rw [slot] at hledger
    exact hledger
  obtain ⟨hslot, hline, haccepted, htickets⟩ := same
  have hnumbered := h.numbered
  have hpressing := h.pressing
  unfold refill at hslot hline haccepted htickets
  split at hslot
  next hempty =>
    simp only [hempty] at hline haccepted htickets
    constructor
    case unopened =>
      intro hq
      rw [up] at hq
      cases hq
    case full => exact fun hne => absurd hline hne
    case pressing => simp [hline]
    case ledger => rw [haccepted, hslot, hledger, received]; rfl
    case numbered => simpa only [hline, haccepted, htickets, hempty] using hnumbered
    all_goals assumption
  next next rest hnext =>
    simp only [hnext] at hline haccepted htickets
    rw [hnext] at hnumbered hpressing
    constructor
    case unopened =>
      intro hq
      rw [up] at hq
      cases hq
    case full => exact fun _ => by rw [hslot]; rfl
    case pressing =>
      rw [hline]
      exact fun y hy => hpressing y (List.mem_cons_of_mem _ hy)
    case ledger => rw [haccepted, hslot, hledger, received]; rfl
    case numbered =>
      -- The first in line comes to the place, and the order is the same.
      rw [hline, haccepted, htickets, ← hnumbered, List.reverse_cons, List.append_assoc]
      rfl
    all_goals assumption

theorem numbered_succ {numbers : List Nat} {n : Nat} (h : numbers = (List.range n).reverse) :
    n :: numbers = (List.range (n + 1)).reverse := by
  rw [List.range_succ, List.reverse_append, h]
  rfl

/-! ### One lemma for each kind of handling -/

/-- Nothing happens to the requests. -/
theorem Disciplined.nothing (h : Disciplined p) (isUp : p.isUp = true → q.isUp = true)
    (same : SameQueue p q) (work : SameWork p q) : Disciplined q := by
  apply h.toLoop same (work.going h.going)
  · intro hq
    cases hp : p.isUp with
    | false => rfl
    | true =>
      rw [isUp hp] at hq
      cases hq
  · rw [received, received, answered, answered, work.gathered, work.reloads]
  · rw [work.gathered]
    exact h.debounced
  · rw [work.gathered]
    exact fun hq => h.burst (work.pending hq)
  · rw [work.reloads]
    exact h.prompted

/-- A request comes to a place that is free, so nobody stands in line. -/
theorem Disciplined.accept (h : Disciplined p) (isUp : p.isUp = true → q.isUp = true)
    (up : p.isUp = true) (ticket : x.ticket = p.tickets) (free : p.slot = none)
    (same : SameQueue
      { p with slot := some x, accepted := x :: p.accepted, tickets := p.tickets + 1 } q)
    (work : SameWork p q) : Disciplined q := by
  obtain ⟨hslot, hline, haccepted, htickets⟩ := same
  have hempty : q.line = [] := hline.trans (h.line_of_free free)
  have hnumbered := h.numbered
  have hledger := h.ledger
  rw [h.line_of_free free] at hnumbered
  rw [free] at hledger
  refine h.toQueue up work isUp (fun hne => absurd hempty hne) (by simp [hempty]) ?_ ?_
  · rw [haccepted, hslot, hledger]
    rfl
  · rw [hempty, haccepted, htickets, ← numbered_succ hnumbered, ← ticket]
    rfl

/-- An immediate request stands in line; the place is as it was. -/
theorem Disciplined.queue (h : Disciplined p) (isUp : p.isUp = true → q.isUp = true)
    (up : p.isUp = true) (ticket : x.ticket = p.tickets) (immediate : x.urgency = .immediate)
    (full : p.slot.isSome = true)
    (same : SameQueue { p with line := p.line ++ [x], tickets := p.tickets + 1 } q)
    (work : SameWork p q) : Disciplined q := by
  obtain ⟨hslot, hline, haccepted, htickets⟩ := same
  refine h.toQueue up work isUp (fun _ => by rw [hslot]; exact full) ?_ ?_ ?_
  · rw [hline]
    intro y hy
    rcases List.mem_append.mp hy with hy | hy
    · exact h.pressing y hy
    · rw [List.mem_singleton.mp hy]
      exact immediate
  · rw [haccepted, hslot]
    exact h.ledger
  · rw [hline, haccepted, htickets, ← numbered_succ h.numbered, ← ticket, List.reverse_append]
    rfl

/-- A debounced request joins the burst; no reload begins. -/
theorem Disciplined.gather (h : Disciplined p) (slot : p.slot = some x)
    (debounced : x.urgency = .debounced) (same : SameQueue p.refill q)
    (gathered : q.loop.gathered = x :: p.loop.gathered) (reloads : q.reloads = p.reloads) :
    Disciplined q := by
  obtain ⟨openedAt, latestAt, hloop⟩ := pending_of_gathered gathered
  apply h.ofRefill slot same
  · simp [hloop]
  · simp only [isUp, hloop]
  · rw [received, received, answered, answered, gathered, reloads]
    rfl
  · rw [gathered]
    intro y hy
    rcases List.mem_cons.mp hy with rfl | hy
    · exact debounced
    · exact h.debounced y hy
  · rw [gathered]
    exact fun _ => List.cons_ne_nil _ _
  · rw [reloads]
    exact h.prompted

/-- A reload that begins answers whatever was gathered, and nothing is gathered any more. -/
theorem received_of_reload {rs : List Request} (loop : q.loop = .working (.reload r) .writing)
    (reloads : q.reloads = r :: p.reloads) (requests : r.requests = rs) :
    q.received = rs ++ p.answered ∧ q.loop.gathered = [] ∧ q.state ≠ .pending := by
  refine ⟨?_, by rw [loop]; rfl, by simp [state, loop]⟩
  rw [received, answered, loop, reloads, List.flatMap_cons, requests]
  rfl

/-- All reloads were prompted when the one that begins is. -/
theorem Disciplined.prompted_cons (h : Disciplined p) (reloads : q.reloads = r :: p.reloads)
    (prompted : r.Prompted) : ∀ r ∈ q.reloads, r.Prompted := by
  rw [reloads]
  exact List.forall_mem_cons.mpr ⟨prompted, h.prompted⟩

/-- An immediate request prompts a reload for all that were gathered. -/
theorem Disciplined.prompt (h : Disciplined p) (slot : p.slot = some x)
    (same : SameQueue p.refill q) (loop : q.loop = .working (.reload r) .writing)
    (reloads : q.reloads = r :: p.reloads) (requests : r.requests = x :: p.loop.gathered) :
    Disciplined q := by
  obtain ⟨hreceived, hgathered, hstate⟩ := received_of_reload loop reloads requests
  refine h.ofRefill slot same (by simp [loop]) (by simp only [isUp, loop]) hreceived ?_
    (fun hq => absurd hq hstate) (h.prompted_cons reloads ⟨x, _, requests, h.debounced⟩)
  rw [hgathered]
  exact List.forall_mem_nil _

/-- A burst ends with a reload for all that were gathered, of which there is one at least. -/
theorem Disciplined.expire (h : Disciplined p) (pending : p.state = .pending)
    (same : SameQueue p q) (loop : q.loop = .working (.reload r) .writing)
    (reloads : q.reloads = r :: p.reloads) (requests : r.requests = p.loop.gathered) :
    Disciplined q := by
  obtain ⟨hreceived, hgathered, hstate⟩ := received_of_reload loop reloads requests
  obtain ⟨prompt, earlier, hburst⟩ := List.exists_cons_of_ne_nil (h.burst pending)
  have hearlier : ∀ y ∈ earlier, y.urgency = .debounced := fun y hy =>
    h.debounced y (hburst ▸ List.mem_cons_of_mem _ hy)
  refine h.toLoop same (by simp [loop]) (by simp [isUp, loop]) hreceived ?_
    (fun hq => absurd hq hstate)
    (h.prompted_cons reloads ⟨prompt, earlier, requests.trans hburst, hearlier⟩)
  rw [hgathered]
  exact List.forall_mem_nil _

/-- The invariant is kept by every step before the shutdown. -/
theorem Disciplined.step (h : Disciplined p) (running : p.stop = false)
    (hs : p.step now a = some q) : Disciplined q := by
  have t := transition_of_step hs
  cases t.handling running h.slot_of_unopened with
  | nothing other same work => exact h.nothing t.isUp same work
  | accept x other up ticket free same work => exact h.accept t.isUp up ticket free same work
  | queue x other up ticket immediate full same work =>
    exact h.queue t.isUp up ticket immediate full same work
  | gather x slot debounced same gathered reloads =>
    exact h.gather slot debounced same gathered reloads
  | prompt x r slot immediate same loop reloads requests =>
    exact h.prompt slot same loop reloads requests
  | expire r other pending same loop reloads requests =>
    exact h.expire pending same loop reloads requests

/-- The invariant holds in every run before the shutdown. -/
theorem Disciplined.of_reach (h : machine.Reach (· ≠ .shutdown) { plan, folder } now p) :
    Disciplined p := by
  induction h with
  | start => exact .start plan folder
  | act hreach ha hs ih => exact ih.step (running_of_reach hreach) hs
  | tick _ _ ih => exact ih

/-! ## What it means -/

/-- No request is accepted twice. -/
theorem Disciplined.nodup (h : Disciplined p) : p.accepted.Nodup := by
  have htickets : ((p.line.reverse ++ p.accepted).map (·.ticket)).Nodup := by
    rw [h.numbered, List.nodup_reverse]
    exact List.nodup_range
  exact (List.nodup_append.mp (List.Nodup.of_map _ htickets)).2.1

/-- Every request that was accepted waits, is gathered or was answered. -/
theorem Disciplined.mem_accepted (h : Disciplined p) :
    x ∈ p.accepted ↔ p.slot = some x ∨ x ∈ p.loop.gathered ∨ x ∈ p.answered := by
  rw [h.ledger, received, List.mem_append, List.mem_append, Option.mem_toList]

/-- No request is answered twice. -/
theorem Disciplined.pairwise_disjoint (h : Disciplined p) :
    p.reloads.Pairwise fun r s => r.requests.Disjoint s.requests := by
  have hnodup := h.nodup
  rw [h.ledger, received, List.nodup_append, List.nodup_append] at hnodup
  exact (List.nodup_flatMap.mp hnodup.2.1.2.1).2

/-- Two reloads that answer the same request are the same. -/
theorem Disciplined.reload_unique (h : Disciplined p) {s : Reload} (hr : r ∈ p.reloads)
    (hs : s ∈ p.reloads) (hx : x ∈ r.requests) (hx' : x ∈ s.requests) : r = s := by
  by_contra hne
  have hsymm : Std.Symm fun r s : Reload => r.requests.Disjoint s.requests :=
    ⟨fun _ _ => List.Disjoint.symm⟩
  exact h.pairwise_disjoint.forall hr hs hne hx hx'

/-- There are not more reloads than requests. -/
theorem Disciplined.length_reloads_le (h : Disciplined p) :
    p.reloads.length ≤ p.accepted.length := by
  have hone : ∀ n ∈ p.reloads.map (·.requests.length), 1 ≤ n := by
    intro n hn
    obtain ⟨r, hr, rfl⟩ := List.mem_map.mp hn
    obtain ⟨prompt, earlier, hrequests, -⟩ := h.prompted r hr
    simp [hrequests]
  calc p.reloads.length = (p.reloads.map (·.requests.length)).length := (List.length_map _).symm
    _ ≤ (p.reloads.map (·.requests.length)).sum := List.length_le_sum_of_one_le _ hone
    _ = p.answered.length := List.length_flatMap.symm
    _ ≤ p.accepted.length := by simp only [h.ledger, received, List.length_append]; omega

/-- When nothing happens of itself any more and no reload is under way, nothing is in the queue. -/
theorem Disciplined.vacant_of_quiet (h : Disciplined p) (quiet : machine.Quiet now p)
    (settled : p.state ≠ .reloading) :
    p.slot = none ∧ p.line = [] := by
  by_cases hwaiting : p.loop.isWaiting = true
  · have hslot : p.slot = none := by
      cases hslot : p.slot with
      | none => rfl
      | some x =>
        -- The loop would receive the request.
        have hreceive : p.receive now = none := quiet .receive rfl
        unfold receive at hreceive
        rcases isWaiting_iff.mp hwaiting with loop | ⟨openedAt, latestAt, rs, loop⟩
        all_goals
          simp only [hslot, loop] at hreceive
          split at hreceive <;> cases hreceive
    exact ⟨hslot, h.line_of_free hslot⟩
  · apply h.slot_of_unopened
    cases hloop : p.loop with
    | working job stage =>
      cases job with
      | opening => simp [isUp, hloop]
      | reload r => exact absurd (by simp [state, hloop]) settled
    | idle | pending openedAt latestAt rs => simp [hloop, Loop.isWaiting] at hwaiting
    | stopped => exact absurd hloop h.going
    | failed f => simp [isUp, hloop]

/-- Every immediate request that came to the place is in it still, or has started one reload. -/
theorem Disciplined.immediate (h : Disciplined p) (hx : x ∈ p.accepted)
    (immediate : x.urgency = .immediate) :
    p.slot = some x ∨ ∃! r, r ∈ p.reloads ∧ r.requests.head? = some x := by
  rcases h.mem_accepted.mp hx with hslot | hgathered | hanswered
  · exact .inl hslot
  · -- A burst gathers debounced requests only.
    rw [h.debounced x hgathered] at immediate
    cases immediate
  · obtain ⟨r, hr, hxr⟩ := List.mem_flatMap.mp hanswered
    refine .inr ⟨r, ⟨hr, (h.prompted r hr).head? hxr immediate⟩, fun s hs => ?_⟩
    exact h.reload_unique hs.1 hr (List.mem_of_mem_head? hs.2) hxr

/-- A step begins no reload, and receives no immediate request; or it begins a reload that answers
requests which came to the place before and were not answered yet, and the one that it receives. -/
theorem Disciplined.reload_of_step (h : Disciplined p) (running : p.stop = false)
    (hs : p.step now a = some q) :
    (q.reloads = p.reloads ∧ ∀ x, Receives x p a q → x.urgency = .debounced) ∨
    ∃ r, q.reloads = r :: p.reloads ∧ r.requests ≠ [] ∧
      (∀ x ∈ r.requests, x ∈ p.accepted ∧ x ∉ p.answered) ∧
      ∀ x, Receives x p a q → r.requests.head? = some x := by
  have hledger : (p.slot.toList ++ p.received).Nodup := h.ledger ▸ h.nodup
  -- The ledger is without repetition, so what is gathered was not answered.
  have hfresh : ∀ x ∈ p.loop.gathered, x ∈ p.accepted ∧ x ∉ p.answered := by
    intro x hx
    refine ⟨h.mem_accepted.mpr (.inr (.inl hx)), fun hanswered => ?_⟩
    have hdisjoint := (List.nodup_append.mp (List.nodup_append.mp hledger).2.1).2.2
    exact hdisjoint x hx x hanswered rfl
  have hother : a.isReceipt = false → ∀ x, ¬ Receives x p a q := by
    rintro other x ⟨hreceipt, -⟩
    rw [other] at hreceipt
    cases hreceipt
  cases (transition_of_step hs).handling running h.slot_of_unopened with
  | nothing other same work => exact .inl ⟨work.reloads, fun x hx => absurd hx (hother other x)⟩
  | accept y other up ticket free same work =>
    exact .inl ⟨work.reloads, fun x hx => absurd hx (hother other x)⟩
  | queue y other up ticket immediate full same work =>
    exact .inl ⟨work.reloads, fun x hx => absurd hx (hother other x)⟩
  | gather y slot debounced same gathered reloads =>
    refine .inl ⟨reloads, fun x hx => ?_⟩
    cases slot.symm.trans hx.2
    exact debounced
  | prompt y r slot immediate same loop reloads requests =>
    refine .inr ⟨r, reloads, by simp [requests], ?_, fun x hx => ?_⟩
    · rw [requests]
      intro x hx
      rcases List.mem_cons.mp hx with rfl | hx
      · refine ⟨h.mem_accepted.mpr (.inl slot), fun hanswered => ?_⟩
        rw [slot] at hledger
        exact (List.nodup_cons.mp hledger).1 (List.mem_append_right p.loop.gathered hanswered)
      · exact hfresh x hx
    · cases slot.symm.trans hx.2
      rw [requests]
      rfl
  | expire r other pending same loop reloads requests =>
    refine .inr ⟨r, reloads, requests ▸ h.burst pending, ?_, fun x hx => absurd hx (hother other x)⟩
    rw [requests]
    exact hfresh

/-- **Requests are answered once**, as long as there is no shutdown, however they interleave with
everything else. What came to the place is in it, or was received, in order and without repetition,
so that at most one request waits in the place; and somebody stands in line only while it is taken.
When nothing more happens at an instant and no reload is under way, nothing waits at all. Every
immediate request that came to the place starts one reload, which no other immediate one shares. A
reload answers at least one request, and no request is answered by two of them; so there are not
more reloads than requests. And a step begins no reload, or one for requests that came to the place
before and were not answered yet; it does so whenever it receives an immediate request. -/
theorem requests_are_answered_once
    (h : machine.Reach (· ≠ .shutdown) { plan, folder } now p) :
    (p.accepted = p.slot.toList ++ p.received ∧ p.accepted.Nodup) ∧
    (p.line ≠ [] → p.slot.isSome = true) ∧
    (machine.Quiet now p → p.state ≠ .reloading → p.slot = none ∧ p.line = []) ∧
    (∀ x ∈ p.accepted, x.urgency = .immediate →
      p.slot = some x ∨ ∃! r, r ∈ p.reloads ∧ r.requests.head? = some x) ∧
    (∀ r ∈ p.reloads, r.requests ≠ [] ∧ r.requests ⊆ p.accepted ∧
      ∀ x ∈ r.requests, x.urgency = .immediate → r.requests.head? = some x) ∧
    p.reloads.Pairwise (fun r s => r.requests.Disjoint s.requests) ∧
    p.reloads.length ≤ p.accepted.length ∧
    ∀ a q, p.step now a = some q →
      (q.reloads = p.reloads ∧ ∀ x, Receives x p a q → x.urgency = .debounced) ∨
      ∃ r, q.reloads = r :: p.reloads ∧ r.requests ≠ [] ∧
        (∀ x ∈ r.requests, x ∈ p.accepted ∧ x ∉ p.answered) ∧
        ∀ x, Receives x p a q → r.requests.head? = some x := by
  have hp := Disciplined.of_reach h
  refine ⟨⟨hp.ledger, hp.nodup⟩, hp.full, hp.vacant_of_quiet, fun x => hp.immediate, ?_,
    hp.pairwise_disjoint, hp.length_reloads_le, fun a q => hp.reload_of_step (running_of_reach h)⟩
  intro r hr
  have hprompted := hp.prompted r hr
  refine ⟨?_, fun x hx => ?_, fun x => hprompted.head?⟩
  · -- Each reload has the request that prompted it.
    obtain ⟨prompt, earlier, hrequests, -⟩ := hprompted
    simp [hrequests]
  · exact hp.mem_accepted.mpr (.inr (.inr (List.mem_flatMap.mpr ⟨r, hr, hx⟩)))

/-- While a first reload is under way, a debounced request comes to the place, one more is dropped,
and two immediate ones stand in line. Then the next reload answers two of the three that are
left. -/
def pileUp : List Action := [
  .prepare none, .write none, .rename none, .spawn 1 0, .judge,
  .reloadNow, .receive, .request, .request, .reloadNow, .reloadNow,
  .write none, .rename none, .spawn 2 0, .judge, .receive, .receive]

/-- The second reload comes to its end, and the third one answers the last request. -/
def workOff : List Action := [
  .write none, .rename none, .spawn 3 0, .judge,
  .receive, .write none, .rename none, .spawn 4 0, .judge]

def piledUp : Proxy := (machine.play 0 pileUp { plan := briefPlan }).getD { plan := briefPlan }

def workedOff : Proxy := (machine.play 0 workOff piledUp).getD piledUp

theorem quiet_workedOff : machine.Quiet 0 workedOff := by
  refine quiet_of_resting ⟨.inl rfl, rfl, rfl, fun g hg => ?_, rfl, fun i process there a ha => ?_⟩
  · have hwaiting : ∀ g ∈ workedOff.graces, (g.retired = 0 ∨ g.retired = 1 ∨ g.retired = 2) ∧
        g.since = 0 ∧ g.stage = .waiting := by decide
    obtain ⟨hretired, hsince, hstage⟩ := hwaiting g hg
    refine ⟨hstage, by rw [hsince]; decide, fun process there => ?_⟩
    rcases hretired with hretired | hretired | hretired
    all_goals
      rw [hretired] at there
      cases there
      rfl
  · match i with
    | 0 | 1 | 2 | 3 => cases there; exact Process.quiet_of_unasked rfl rfl rfl rfl ha
    | i + 4 => cases there

/-- In the pile-up four requests came to the place; the last of them waits in it, and the second
reload belongs to the third one. In the end nothing waits. -/
theorem requests_are_answered_once_in_pile_up :
    machine.play 0 pileUp { plan := briefPlan } = some piledUp ∧
      machine.play 0 workOff piledUp = some workedOff ∧
      piledUp.slot = some ⟨3, .immediate⟩ ∧
      piledUp.received = [⟨2, .immediate⟩, ⟨1, .debounced⟩, ⟨0, .immediate⟩] ∧
      (∃! r, r ∈ piledUp.reloads ∧ r.requests.head? = some ⟨2, .immediate⟩) ∧
      workedOff.slot = none ∧ workedOff.line = [] ∧
      workedOff.reloads.length = 3 ∧ workedOff.accepted.length = 4 := by
  have hpile : machine.play 0 pileUp { plan := briefPlan } = some piledUp := by rfl
  have hwork : machine.play 0 workOff piledUp = some workedOff := by rfl
  have hpiled : machine.Reach (· ≠ .shutdown) { plan := briefPlan } 0 piledUp :=
    .of_play (by simp [pileUp]) hpile
  have hworked : machine.Reach (· ≠ .shutdown) { plan := briefPlan } 0 workedOff :=
    hpiled.append (.play .refl (by simp [workOff]) hwork)
  obtain ⟨-, -, -, himmediate, -⟩ := requests_are_answered_once hpiled
  obtain ⟨-, -, hvacant, -⟩ := requests_are_answered_once hworked
  obtain ⟨hslot, hline⟩ := hvacant quiet_workedOff (by decide)
  have hthird : (⟨2, .immediate⟩ : Request) ∈ piledUp.accepted := by decide
  rcases himmediate _ hthird rfl with hwaits | hstarts
  · cases hwaits
  · exact ⟨hpile, hwork, rfl, rfl, hstarts, hslot, hline, rfl, rfl⟩

end Invariant

end OnionPool.Proxy
