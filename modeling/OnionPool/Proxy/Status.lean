import OnionPool.Proxy.Step

/-!
# What the reverse proxy reports

A snapshot of the reverse proxy for those who ask for it.
-/

namespace OnionPool.Proxy

/-- The last reload that is over. -/
structure LastReload where
  generation : Nat
  backends : List Port
  /-- The number of the process that serves after it. -/
  pid : Option Nat
  error : Option String

/-- A snapshot of the reverse proxy. -/
structure Status where
  port : Port
  statsPort : Option Port
  balance : Balance
  state : LoopState
  pid : Option Nat
  backends : List Port
  reloads : Nat
  lastReload : Option LastReload

/-- The report on a reload that is over. -/
def Event.report (e : Event) (p : Proxy) : LastReload :=
  ⟨e.generation, e.backends, e.serving.bind p.pid?, e.failure.map (·.message)⟩

def status (p : Proxy) : Status where
  port := p.plan.settings.port
  statsPort := p.plan.settings.statsPort
  balance := p.plan.settings.balance
  state := p.state
  pid := p.servingPid
  backends := p.registry.toList
  reloads := p.generation
  lastReload := p.events.head?.map (·.report p)

end OnionPool.Proxy
