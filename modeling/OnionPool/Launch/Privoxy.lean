import OnionPool.FileTree.Path
import OnionPool.Launch.Spec

/-!
# Launching privoxy

One privoxy process listens for HTTP clients on one port and forwards to the tor process on another.
It reads its configuration from its directory.
-/

namespace OnionPool

/-- How privoxy is launched. -/
structure Privoxy where
  program : String
  settle : Duration
  deriving DecidableEq

namespace Privoxy

/-- Where the configuration stands. -/
def configPath (dir : Path) : Path := Path.join dir "privoxy.conf"

/-- The configuration: listen on `port`, forward to tor on `circuitPort`. -/
def config (dir : Path) (port circuitPort : Port) : String :=
  "user-manual /usr/share/doc/privoxy/user-manual/\n" ++
  "confdir /etc/privoxy\n" ++
  "logdir " ++ dir ++ "\n" ++
  "actionsfile match-all.action\n" ++
  "actionsfile default.action\n" ++
  "actionsfile user.action\n" ++
  "filterfile default.filter\n" ++
  "filterfile user.filter\n" ++
  "logfile logfile\n" ++
  "listen-address  127.0.0.1:" ++ port.text ++ "\n" ++
  "forward-socks5t / 127.0.0.1:" ++ circuitPort.text ++ " .\n" ++
  "toggle  1\n" ++
  "enable-remote-toggle  0\n" ++
  "enable-remote-http-toggle  0\n" ++
  "enable-edit-actions 0\n" ++
  "enforce-blocks 0\n" ++
  "buffer-limit 4096\n" ++
  "enable-proxy-authentication-forwarding 0\n" ++
  "forwarded-connect-retries  0\n" ++
  "accept-intercepted-requests 0\n" ++
  "allow-cgi-request-crunching 0\n" ++
  "split-large-forms 0\n" ++
  "keep-alive-timeout 5\n" ++
  "tolerate-pipelining 1\n" ++
  "socket-timeout 300\n"

/-- The launch of privoxy on a port, with its configuration in a directory. -/
def spec (p : Privoxy) (port : Port) (dir : Path) : LaunchSpec where
  service := "privoxy"
  port
  program := p.program
  args := ["--no-daemon", "--pidfile", Path.join dir "privoxy.pid", configPath dir]
  format := .privoxy
  settle := p.settle

end Privoxy

end OnionPool
