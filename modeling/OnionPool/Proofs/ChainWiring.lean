import OnionPool.Proofs.CircuitDirectory
import OnionPool.Proofs.SeatPaths

/-!
# How the layers of a pair are wired

Clients reach the proxy, the proxy spreads them over the forwarders, and each forwarder sends them
to the circuit of its pair. Each layer is told of the next by a text of its own: arguments for tor
and privoxy, one configuration for privoxy and one for the proxy. All of them name the same ports
and the same paths, wherever the directory of all pairs is.

## Structure

- Arguments: the values that are given to an option.
- Configuration of a forwarder: the lines that count, which are the last of their kind.
- Files: after a launch the arguments lead to the files that were written.
-/

namespace OnionPool

/-! ## Arguments -/

/-- The values that arguments give to an option: each stands right behind the name of the option. -/
def LaunchSpec.valuesOf (option : String) : (args : List String) → List String
  | name :: value :: rest =>
    if name = option then value :: valuesOf option rest else valuesOf option (value :: rest)
  | _ => []

/-- A text that can be the name of an option: there is no dot, no blank and no digit in it. -/
def IsOption (s : String) : Prop :=
  '.' ∉ s.toList ∧ ' ' ∉ s.toList ∧ s.toList.any Text.Decimal.isDigit = false
  deriving Decidable

section Arguments

variable {option s : String} {work : Path} {seat : Seat}

/-- A value with a digit in it is no option, for options have none. -/
theorem ne_option_of_digit {c : Char} (h : IsOption option) (hc : c ∈ s.toList)
    (hdigit : Text.Decimal.isDigit c = true) : s ≠ option := by
  rintro rfl
  exact List.any_eq_false.mp h.2.2 c hc hdigit

theorem decimal_ne_option (h : IsOption option) (n : Nat) : Text.decimal n ≠ option := by
  obtain ⟨d, ds, hdigits, hd⟩ := Text.exists_digit n
  exact ne_option_of_digit h (by rw [hdigits]; simp) hd

theorem directory_ne_option (h : IsOption option) : seat.directory work ≠ option := by
  obtain ⟨front, d, hfront, hd⟩ := seat.exists_digit work
  exact ne_option_of_digit h (by rw [hfront]; simp) hd

/-- Of options with their values, none of which is the name of an option itself, each value is
found behind its own option. -/
theorem LaunchSpec.valuesOf_pairs {pairs : List (String × String)}
    (h : ∀ o ∈ pairs, o.2 ≠ option) :
    valuesOf option (pairs.flatMap fun o => [o.1, o.2]) =
      (pairs.filter (·.1 = option)).map (·.2) := by
  induction pairs with
  | nil => rfl
  | cons o pairs ih =>
    obtain ⟨name, value⟩ := o
    rw [List.forall_mem_cons] at h
    have hrest := ih h.2
    have hpair : ((name, value) :: pairs).flatMap (fun o => [o.1, o.2]) =
        name :: value :: pairs.flatMap fun o => [o.1, o.2] := rfl
    rw [hpair, valuesOf]
    by_cases hname : name = option
    · rw [if_pos hname, hrest]
      simp [hname]
    · rw [if_neg hname, List.filter_cons_of_neg (by simpa using hname), ← hrest]
      -- The value is passed over; behind it the next option stands, if there is one.
      cases pairs with
      | nil => rfl
      | cons next pairs => exact if_neg h.1

end Arguments

section Specs

variable {work : Path} {seat : Seat} {port : Port}

/-- A name is put into the directory of a seat behind one slash, however the work directory ends. -/
theorem join_directory_slash {name : String} (h : '/' ∉ name.toList) :
    Path.join (seat.directory work) name = seat.directory work ++ ("/" ++ name) := by
  rw [Seat.join_directory h, String.append_assoc]

/-- The options that tor is given, with their values. -/
def Tor.options (tor : Tor) (port : Port) (dir : Path) : List (String × String) := [
  ("--SocksPort", port.text),
  ("--NewCircuitPeriod", Text.decimal tor.circuitPeriod.secs),
  ("--DataDirectory", dir),
  ("--PidFile", dir ++ "/tor.pid"),
  ("--Log", tor.logLevel ++ " stdout")]

/-- The arguments for tor are its options, each followed by its value. -/
theorem Tor.args_spec (tor : Tor) : (tor.spec port (seat.directory work)).args =
    "--allow-missing-torrc" ::
      (tor.options port (seat.directory work)).flatMap fun o => [o.1, o.2] := by
  rw [spec, join_directory_slash (by decide)]
  rfl

/-- Tor is told every option as it is meant, since no value can be taken for an option. -/
theorem Tor.valuesOf_spec (tor : Tor) {option : String} (h : IsOption option)
    (hflag : "--allow-missing-torrc" ≠ option) :
    LaunchSpec.valuesOf option (tor.spec port (seat.directory work)).args =
      ((tor.options port (seat.directory work)).filter (·.1 = option)).map (·.2) := by
  have hvalues : ∀ o ∈ tor.options port (seat.directory work), o.2 ≠ option := by
    have hpid : seat.directory work ++ "/tor.pid" ≠ option := by
      rintro rfl
      exact h.1 (by simp)
    have hlog : tor.logLevel ++ " stdout" ≠ option := by
      rintro rfl
      exact h.2.1 (by simp)
    simp only [options, List.forall_mem_cons]
    exact ⟨decimal_ne_option h _, decimal_ne_option h _, directory_ne_option h, hpid, hlog, nofun⟩
  rw [args_spec, ← LaunchSpec.valuesOf_pairs hvalues]
  exact if_neg hflag

/-- Privoxy is told where its pid is, and last of all where its configuration is. -/
theorem Privoxy.args_spec (privoxy : Privoxy) :
    (privoxy.spec port (seat.directory work)).args =
      ["--no-daemon", "--pidfile", seat.directory work ++ "/privoxy.pid",
        seat.directory work ++ "/privoxy.conf"] := by
  rw [spec, configPath, join_directory_slash (by decide), join_directory_slash (by decide)]
  rfl

end Specs

/-! ## Configuration of a forwarder -/

section Lines

open Proxy.Layout (IsLine isLine_decimal)

/-- The last line of a text that begins in a given way. -/
def Text.lastLine? (start text : String) : Option String :=
  (((lines text.toList).filter (start.toList <+: ·)).getLast?).map String.ofList

variable {start line : String}

/-- A line in front of a text is its first line. -/
theorem Text.lines_line (h : IsLine line) (t : List Char) :
    lines (line.toList ++ '\n' :: t) = line.toList :: lines t := by
  rw [lines_append, List.splitOn_eq_singleton h.1, List.map_singleton, dropReturn_of_not_mem h.2,
    List.singleton_append]

/-- A line counts if no line behind it begins in the same way, whatever stands in front of it. -/
theorem Text.lastLine?_eq_some {text : String} {front after : List Char}
    (htext : text.toList = front ++ '\n' :: (line.toList ++ '\n' :: after)) (h : IsLine line)
    (hline : start.toList <+: line.toList)
    (hafter : ∀ other ∈ lines after, ¬ start.toList <+: other) :
    lastLine? start text = some line := by
  have hnone : (lines after).filter (start.toList <+: ·) = [] := by
    rw [List.filter_eq_nil_iff]
    exact fun other hother => by simpa using hafter other hother
  rw [lastLine?, htext, lines_append, lines_line h, List.filter_append,
    List.filter_cons_of_pos (by simpa using hline), hnone, List.getLast?_concat, Option.map_some,
    String.ofList_toList]

/-- Whether a text begins in a given way is seen from its front, if that is long enough. -/
theorem Text.starts_append_iff {front rest : String}
    (h : start.toList.length ≤ front.toList.length) :
    start.toList <+: (front ++ rest).toList ↔ start.toList <+: front.toList := by
  rw [String.toList_append]
  constructor
  · exact fun hstart => List.prefix_of_prefix_length_le hstart (List.prefix_append _ _) h
  · exact fun hstart => hstart.trans (List.prefix_append _ _)

theorem Text.toList_foldl (pieces : List String) (s : String) :
    (pieces.foldl (· ++ ·) s).toList = s.toList ++ pieces.flatMap String.toList := by
  induction pieces generalizing s with
  | nil => simp
  | cons piece pieces ih => rw [List.foldl_cons, ih, String.toList_append, List.append_assoc,
      List.flatMap_cons]

namespace Privoxy

def listenLine (port : Port) : String := "listen-address  127.0.0.1:" ++ port.text

def forwardLine (circuitPort : Port) : String :=
  "forward-socks5t / 127.0.0.1:" ++ circuitPort.text ++ " ."

/-- What stands behind the lines that name a port. -/
def laterPieces : List String := [
  "toggle  1\n",
  "enable-remote-toggle  0\n",
  "enable-remote-http-toggle  0\n",
  "enable-edit-actions 0\n",
  "enforce-blocks 0\n",
  "buffer-limit 4096\n",
  "enable-proxy-authentication-forwarding 0\n",
  "forwarded-connect-retries  0\n",
  "accept-intercepted-requests 0\n",
  "allow-cgi-request-crunching 0\n",
  "split-large-forms 0\n",
  "keep-alive-timeout 5\n",
  "tolerate-pipelining 1\n",
  "socket-timeout 300\n"]

/-- What stands in front of the lines that name a port ends in a line of its own. -/
theorem config_eq (dir : Path) (port circuitPort : Port) : ∃ front : String,
    config dir port circuitPort = laterPieces.foldl (· ++ ·)
      (front ++ "logfile logfile\n" ++ "listen-address  127.0.0.1:" ++ port.text ++ "\n" ++
        "forward-socks5t / 127.0.0.1:" ++ circuitPort.text ++ " .\n") :=
  ⟨_, rfl⟩

/-- The configuration ends in the lines that name a port, and those behind them. -/
theorem toList_config (dir : Path) (port circuitPort : Port) : ∃ front : List Char,
    (config dir port circuitPort).toList =
      front ++ '\n' :: ((listenLine port).toList ++ '\n' ::
        ((forwardLine circuitPort).toList ++ '\n' :: laterPieces.flatMap String.toList)) := by
  obtain ⟨front, hfront⟩ := config_eq dir port circuitPort
  refine ⟨front.toList ++ "logfile logfile".toList, ?_⟩
  rw [hfront, Text.toList_foldl]
  unfold listenLine forwardLine
  simp

theorem isLine_listenLine (port : Port) : IsLine (listenLine port) :=
  .append (by decide) (isLine_decimal _)

theorem isLine_forwardLine (port : Port) : IsLine (forwardLine port) :=
  .append (.append (by decide) (isLine_decimal _)) (by decide)

/-- The lines that count in the configuration, whatever the path of the directory brings into it. -/
theorem lastLines_config (dir : Path) (port circuitPort : Port) :
    Text.lastLine? "listen-address" (config dir port circuitPort) = some (listenLine port) ∧
      Text.lastLine? "forward-socks5t /" (config dir port circuitPort) =
        some (forwardLine circuitPort) := by
  obtain ⟨front, htext⟩ := toList_config dir port circuitPort
  have hlisten : "listen-address".toList <+: (listenLine port).toList :=
    (Text.starts_append_iff (by decide)).mpr (by decide)
  have hforward : "forward-socks5t /".toList <+: (forwardLine circuitPort).toList := by
    unfold forwardLine
    rw [String.append_assoc]
    exact (Text.starts_append_iff (by decide)).mpr (by decide)
  have hother : ¬ "listen-address".toList <+: (forwardLine circuitPort).toList := by
    unfold forwardLine
    rw [String.append_assoc]
    exact (not_congr (Text.starts_append_iff (by decide))).mpr (by decide)
  -- All lines behind those that name a port are fixed.
  have hlater : ∀ other ∈ Text.lines (laterPieces.flatMap String.toList),
      ¬ "listen-address".toList <+: other ∧ ¬ "forward-socks5t /".toList <+: other := by
    decide +kernel
  constructor
  · refine Text.lastLine?_eq_some htext (isLine_listenLine port) hlisten ?_
    rw [Text.lines_line (isLine_forwardLine circuitPort), List.forall_mem_cons]
    exact ⟨hother, fun other h => (hlater other h).1⟩
  · have htext' : (config dir port circuitPort).toList =
        (front ++ '\n' :: (listenLine port).toList) ++
          '\n' :: ((forwardLine circuitPort).toList ++
            '\n' :: laterPieces.flatMap String.toList) := by
      rw [htext, List.append_assoc, List.cons_append]
    exact Text.lastLine?_eq_some htext' (isLine_forwardLine circuitPort) hforward
      fun other h => (hlater other h).2

end Privoxy

end Lines

/-- Every backend has its line in the text of the proxy's configuration. -/
theorem Proxy.Layout.serverLine_mem_lines {l : Proxy.Layout} {port : Port}
    (h : port ∈ l.backends) : (serverLine port).toList ∈ Text.lines l.render.toList := by
  have hbackend : serverLine port ∈ l.backends.toList.map serverLine :=
    List.mem_map_of_mem (PortSet.mem_toList.mpr h)
  rw [lines_render, lines_eq]
  exact List.mem_map_of_mem (List.mem_append_right _ hbackend)

/-! ## Files -/

namespace Chain

variable {c : Chain} {port circuitPort : Port} {dir : Path} {t u : FileTree} {spec : LaunchSpec}

/-- The forwarder is described if its directory could be made and its configuration written. -/
theorem forwarder_eq_ok_iff : (c.forwarder port circuitPort dir).on t = (.ok spec, u) ↔
    ∃ v, (Edit.ensureDirectory FileTree.openMode dir).on t = (.ok (), v) ∧
      (Edit.writeFile (Privoxy.configPath dir) (Privoxy.config dir port circuitPort)).on v =
        (.ok (), u) ∧
      spec = c.privoxy.spec port dir := by
  unfold forwarder
  -- Each of the two edits can fail; what is described is said after both.
  rw [Edit.on_bind]
  rcases (Edit.ensureDirectory FileTree.openMode dir).on t with ⟨_ | _, v⟩
  · simp
  dsimp only
  rw [Edit.on_bind]
  rcases hwritten : (Edit.writeFile (Privoxy.configPath dir)
    (Privoxy.config dir port circuitPort)).on v with ⟨_ | _, w⟩
  · simp [hwritten]
  · constructor
    · rintro ⟨⟩
      exact ⟨v, rfl, hwritten, rfl⟩
    · rintro ⟨v, ⟨⟩, hw, rfl⟩
      rw [hwritten] at hw
      cases hw
      rfl

/-- After a launch the path of the configuration leads to it, and nothing else was written. -/
theorem leadsTo_of_forwarder (h : (c.forwarder port circuitPort dir).on t = (.ok spec, u)) :
    ∃ place mode,
      u.LeadsTo (Privoxy.configPath dir) place
        (.file mode (Privoxy.config dir port circuitPort)) ∧
      ∀ other, other ≠ place → u.get? other = t.get? other ∨
        t.get? other = none ∧ u.get? other = some (.directory 0o755) := by
  obtain ⟨v, hmade, hwritten, -⟩ := forwarder_eq_ok_iff.mp h
  have hgrown : FileTree.Grown 0o755 dir t v := by
    have hafter := Edit.grown_ensureDirectory FileTree.openMode dir t
    rwa [hmade] at hafter
  obtain ⟨place, mode, hleads, hothers⟩ := Edit.leadsTo_of_writeFile hwritten
  refine ⟨place, mode, hleads, fun other hother => ?_⟩
  rw [hothers other hother]
  exact (hgrown.places other).imp_right fun hnew => ⟨hnew.1, hnew.2.1⟩

/-- **The layers are wired to each other**, wherever the directory of all pairs is. If the launch of
the circuit succeeds, tor is told to listen on the port of the circuit, and to keep its data and its
pid in the directory of the circuit. If that of the forwarder succeeds, the last argument of privoxy
leads to the one file that was written; the lines that count in it, being the last of their kind,
say to listen on the port of the forwarder and to forward to the port of the circuit. Every
configuration of the proxy whose backends contain the forwarder has a line with its port. Two pairs
with different ports have no path in common; and in any tree the name of a directory of one is at a
place that is neither that of a directory of the other nor in it. -/
theorem layers_are_wired (chain : Chain) (work : Path) (c f : Port) :
    let circuitSeat : Seat := ⟨.circuit, c⟩
    let forwarderSeat : Seat := ⟨.forwarder, f⟩
    (∀ t u spec, (chain.circuit c (circuitSeat.directory work)).on t = (.ok spec, u) →
      LaunchSpec.valuesOf "--SocksPort" spec.args = [c.text] ∧
      LaunchSpec.valuesOf "--DataDirectory" spec.args = [circuitSeat.directory work] ∧
      LaunchSpec.valuesOf "--PidFile" spec.args = [circuitSeat.directory work ++ "/tor.pid"]) ∧
    (∀ t u spec, (chain.forwarder f c (forwarderSeat.directory work)).on t = (.ok spec, u) →
      ∃ path place mode text,
        LaunchSpec.valuesOf "--pidfile" spec.args =
          [forwarderSeat.directory work ++ "/privoxy.pid"] ∧
        spec.args.getLast? = some path ∧ path = forwarderSeat.directory work ++ "/privoxy.conf" ∧
        u.LeadsTo path place (.file mode text) ∧
        (∀ other, other ≠ place → u.get? other = t.get? other ∨
          t.get? other = none ∧ u.get? other = some (.directory 0o755)) ∧
        Text.lastLine? "listen-address" text =
          some ("listen-address  127.0.0.1:" ++ f.text) ∧
        Text.lastLine? "forward-socks5t /" text =
          some ("forward-socks5t / 127.0.0.1:" ++ c.text ++ " .")) ∧
    (∀ l : Proxy.Layout, f ∈ l.backends →
      ("  server privoxy-" ++ f.text ++ " 127.0.0.1:" ++ f.text ++ " check").toList ∈
        Text.lines l.render.toList) ∧
    ∀ c' f' : Port, c ≠ c' → f ≠ f' →
      (pairPaths work c f ++ pairPaths work c' f').Nodup ∧
      ∀ s ∈ pairSeats c f, ∀ s' ∈ pairSeats c' f', ∀ (t : FileTree) (x x' : FileTree.Target),
        t.resolveName (s.directory work) = .ok x → t.resolveName (s'.directory work) = .ok x' →
          ¬ x.place <+: x'.place ∧ ¬ x'.place <+: x.place := by
  intro circuitSeat forwarderSeat
  refine ⟨fun t u spec h => ?_, fun t u spec h => ?_, fun l hl => ?_, fun c' f' hc hf => ⟨?_, ?_⟩⟩
  · obtain ⟨-, rfl⟩ := circuit_eq_ok_iff.mp h
    rw [Tor.valuesOf_spec _ (by decide) (by decide), Tor.valuesOf_spec _ (by decide) (by decide),
      Tor.valuesOf_spec _ (by decide) (by decide)]
    simp [Tor.options]
  · obtain ⟨place, mode, hleads, hothers⟩ := leadsTo_of_forwarder h
    obtain ⟨-, -, -, rfl⟩ := forwarder_eq_ok_iff.mp h
    have hpath : Privoxy.configPath (forwarderSeat.directory work) =
        forwarderSeat.directory work ++ "/privoxy.conf" := join_directory_slash (by decide)
    obtain ⟨hlisten, hforward⟩ := Privoxy.lastLines_config (forwarderSeat.directory work) f c
    refine ⟨_, place, mode, _, ?_, ?_, hpath, hleads, hothers, hlisten, hforward⟩
    · rw [Privoxy.args_spec]
      rfl
    · rw [Privoxy.args_spec, hpath]
      rfl
  · exact Proxy.Layout.serverLine_mem_lines hl
  · exact nodup_pairPaths work hc hf
  · intro s hs s' hs' t x x' hx hx'
    have hne := ne_of_mem_pairSeats hc hf hs hs'
    exact ⟨Seat.places_apart hne hx hx', Seat.places_apart hne.symm hx' hx⟩

/-- A tree with nothing but the directory of a forwarder. -/
def prepared : FileTree :=
  FileTree.empty.put ["privoxy-30001"] (.directory FileTree.openMode)

/-- In an empty tree both launches succeed. -/
theorem layers_are_wired_at_root :
    (∃ spec u, (byName.circuit 30000 "/tor-30000").on FileTree.empty = (.ok spec, u) ∧
      LaunchSpec.valuesOf "--SocksPort" spec.args = ["30000"] ∧
      LaunchSpec.valuesOf "--DataDirectory" spec.args = ["/tor-30000"]) ∧
    ∃ spec u path place mode text,
      (byName.forwarder 30001 30000 "/privoxy-30001").on FileTree.empty = (.ok spec, u) ∧
      spec.args.getLast? = some path ∧ u.LeadsTo path place (.file mode text) ∧
      Text.lastLine? "listen-address" text = some "listen-address  127.0.0.1:30001" ∧
      Text.lastLine? "forward-socks5t /" text = some "forward-socks5t / 127.0.0.1:30000 ." := by
  have htor : Seat.directory "/" ⟨.circuit, 30000⟩ = "/tor-30000" := by decide
  have hprivoxy : Seat.directory "/" ⟨.forwarder, 30001⟩ = "/privoxy-30001" := by decide
  have hroot : ∀ t : FileTree, t.get? [] = some (.directory FileTree.openMode) := fun _ => rfl
  obtain ⟨hcircuit, hforwarder, -⟩ := layers_are_wired byName "/" 30000 30001
  rw [htor] at hcircuit
  rw [hprivoxy] at hforwarder
  constructor
  · have hrun : (byName.circuit 30000 "/tor-30000").on FileTree.empty = (.ok _, _) :=
      circuit_eq_ok_iff.mpr ⟨Edit.ensureDirectory_of_vacant torName_is_free, rfl⟩
    exact ⟨_, _, hrun, (hcircuit _ _ _ hrun).1, (hcircuit _ _ _ hrun).2.1⟩
  · have hname : FileTree.empty.resolveName "/privoxy-30001" = .ok (.vacant ["privoxy-30001"]) :=
      FileTree.resolveName_empty ⟨by decide, by decide, by decide⟩ (by decide)
        ⟨by decide, by decide, by decide⟩
    have hfile : prepared.resolve .create "/privoxy-30001/privoxy.conf" =
        .ok (.vacant ["privoxy-30001", "privoxy.conf"]) := by
      have hparts : Path.parts "/privoxy-30001/privoxy.conf" =
          ["", "privoxy-30001", "privoxy.conf"] := by decide
      have hdir : prepared.get? ["privoxy-30001"] = some (.directory FileTree.openMode) := by decide
      refine FileTree.resolveParts_eq_ok_iff.mpr ⟨⟨by decide, by decide, by decide⟩, ?_⟩
      rw [hparts]
      exact .idle (hroot _) (.inl rfl) (.down (hroot _) ⟨by decide, by decide, by decide⟩ hdir nofun
        (.vacant hdir ⟨by decide, by decide, by decide⟩ (by decide) rfl))
    have hpath : Privoxy.configPath "/privoxy-30001" = "/privoxy-30001/privoxy.conf" := by decide
    have hwritten : (Edit.writeFile (Privoxy.configPath "/privoxy-30001")
        (Privoxy.config "/privoxy-30001" 30001 30000)).on prepared =
          (.ok (), prepared.put ["privoxy-30001", "privoxy.conf"]
            (.file FileTree.fileMode (Privoxy.config "/privoxy-30001" 30001 30000))) := by
      rw [hpath, Edit.writeFile_on, hfile]
    have hrun : (byName.forwarder 30001 30000 "/privoxy-30001").on FileTree.empty = (.ok _, _) :=
      forwarder_eq_ok_iff.mpr ⟨prepared, Edit.ensureDirectory_of_vacant hname, hwritten, rfl⟩
    obtain ⟨path, place, mode, text, -, hlast, -, hleads, -, hlisten, hforward⟩ :=
      hforwarder _ _ _ hrun
    exact ⟨_, _, path, place, mode, text, hrun, hlast, hleads, hlisten, hforward⟩

end Chain

end OnionPool
