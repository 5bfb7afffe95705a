import OnionPool.Port.Basic
import OnionPool.Text.Blank
import OnionPool.Text.Split

/-!
# Reading backends from a configuration

A backend is a line that begins, blanks aside, with the name of a forwarder; the port is the number
in that name. Other lines are passed over.
-/

namespace OnionPool.Proxy

/-- What the line of a backend begins with. -/
def serverMark : List Char := "server privoxy-".toList

/-- The port of the backend that a line describes. -/
def backendOfLine? (line : List Char) : Option Port := do
  let rest ← Text.after? serverMark (Text.trim line)
  let word ← (Text.words rest).head?
  Port.read? word

/-- The ports of the backends in a configuration, in the order of its lines. -/
def renderedBackends (config : String) : List Port :=
  (Text.lines config.toList).filterMap backendOfLine?

end OnionPool.Proxy
