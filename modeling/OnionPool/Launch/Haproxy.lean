import OnionPool.FileTree.Path
import OnionPool.Launch.Spec

/-!
# Launching haproxy

A haproxy process reads its configuration from one file and writes its process number into another.
The replacement of a running instance is told whom it replaces: it takes over the listeners, and
the other finishes the connections that it has.
-/

namespace OnionPool

/-- How haproxy is launched. -/
structure Haproxy where
  program : String
  port : Port
  settle : Duration
  deriving DecidableEq

namespace Haproxy

/-- The arguments that name the instance to be replaced. -/
def handoverArgs : Option Nat → List String
  | none => []
  | some pid => ["-sf", Text.decimal pid]

/-- The launch of an instance, perhaps in place of another. -/
def spec (h : Haproxy) (configFile pidFile : Path) (previous : Option Nat) : LaunchSpec where
  service := "haproxy"
  port := h.port
  program := h.program
  args := ["-f", configFile, "-p", pidFile] ++ handoverArgs previous
  format := .haproxy
  settle := h.settle

end Haproxy

end OnionPool
