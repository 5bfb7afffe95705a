import OnionPool.FileTree.Edit
import OnionPool.Launch.Privoxy
import OnionPool.Launch.Tor

/-!
# Launching a pair

Both programs of a pair need a directory before they can be launched: tor one that nobody else can
read, privoxy one that holds its configuration.
-/

namespace OnionPool

/-- How both programs of a pair are launched. -/
structure Chain where
  tor : Tor
  privoxy : Privoxy
  deriving DecidableEq

namespace Chain

/-- The circuit on a port, after its directory was made. -/
def circuit (c : Chain) (port : Port) (dir : Path) : Edit LaunchSpec := do
  Edit.ensureDirectory FileTree.privateMode dir
  return c.tor.spec port dir

/-- The forwarder from a port to the circuit on another, after its directory was made and its
configuration written. -/
def forwarder (c : Chain) (port circuitPort : Port) (dir : Path) : Edit LaunchSpec := do
  Edit.ensureDirectory FileTree.openMode dir
  Edit.writeFile (Privoxy.configPath dir) (Privoxy.config dir port circuitPort)
  return c.privoxy.spec port dir

end Chain

end OnionPool
