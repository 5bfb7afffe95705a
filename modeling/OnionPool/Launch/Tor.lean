import OnionPool.FileTree.Path
import OnionPool.Launch.Spec

/-!
# Launching tor

One tor process listens for SOCKS clients on one port. Its directory holds its data and its pid
file.
-/

namespace OnionPool

/-- How tor is launched. -/
structure Tor where
  program : String
  /-- How long a circuit is used before the next is built. -/
  circuitPeriod : Duration
  settle : Duration
  /-- The least severity that tor reports. -/
  logLevel : String := "notice"
  deriving DecidableEq

namespace Tor

/-- The launch of tor on a port, with its data in a directory. -/
def spec (t : Tor) (port : Port) (dir : Path) : LaunchSpec where
  service := "tor"
  port
  program := t.program
  args := [
    "--allow-missing-torrc",
    "--SocksPort", port.text,
    "--NewCircuitPeriod", Text.decimal t.circuitPeriod.secs,
    "--DataDirectory", dir,
    "--PidFile", Path.join dir "tor.pid",
    "--Log", t.logLevel ++ " stdout"]
  format := .tor
  settle := t.settle

end Tor

end OnionPool
