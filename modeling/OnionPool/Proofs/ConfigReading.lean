import OnionPool.Config.Basic
import OnionPool.Proofs.NumberText

/-!
# Which environments are a configuration

An environment is a configuration if each number in it can be read and three conditions hold between
the numbers. All this is asked in a fixed order, the conditions in the middle of it, and what does
not hold first is the fault that is reported.

## Structure

- Settings: the numeric variables, and the number that an environment gives for each.
- Conditions: what is asked, in its order, with the fault that belongs to each condition.
- Judgement: `Judged` is what comes of asking for some conditions in order. Each step of the reading
  asks for the next condition, so the whole reading is judged by all of them.
-/

namespace OnionPool.Config

/-! ## Settings -/

/-- A setting that is a number. -/
inductive Setting where
  | statsPort
  | rangeStart
  | rangeEnd
  | poolSize
  | proxyPort
  | maxConn
  | lifetime
  | circuitPeriod
  | settle
  | retryBackoff
  | quiet
  | ceiling
  | grace
  | apiPort
  deriving DecidableEq

namespace Setting

/-- The variable that holds the setting. -/
def variableName : Setting → String
  | statsPort => "STATS_PORT"
  | rangeStart => "PORT_RANGE_START"
  | rangeEnd => "PORT_RANGE_END"
  | poolSize => "POOL_SIZE"
  | proxyPort => "PROXY_PORT"
  | maxConn => "PROXY_MAX_CONN"
  | lifetime => "MAX_PROXY_TIME"
  | circuitPeriod => "CIRCUIT_TIME"
  | settle => "SETTLE_MS"
  | retryBackoff => "RETRY_BACKOFF_MS"
  | quiet => "RELOAD_QUIET_MS"
  | ceiling => "RELOAD_CEILING_MS"
  | grace => "HANDOFF_GRACE_SECS"
  | apiPort => "API_PORT"

/-- What counts when the variable holds no text. -/
def default : Setting → String
  | statsPort => "0"
  | rangeStart => "30000"
  | rangeEnd => "65535"
  | poolSize => "3"
  | proxyPort => "8080"
  | maxConn => "256"
  | lifetime => "900"
  | circuitPeriod => "120"
  | settle => "250"
  | retryBackoff => "500"
  | quiet => "2000"
  | ceiling => "10000"
  | grace => "30"
  | apiPort => "8081"

/-- How many bits the number may have. -/
def bits : Setting → Nat
  | statsPort | rangeStart | rangeEnd | proxyPort | apiPort => 16
  | maxConn => 32
  | poolSize | lifetime | circuitPeriod | settle | retryBackoff | quiet | ceiling | grace => 64

/-- An environment gives a number for a setting: the text of the variable, or the default, denotes
it, and it is not too large. -/
def Gives (env : Environment) (s : Setting) (n : Nat) : Prop :=
  Text.Denotes (env.textOr s.variableName s.default).toList n ∧ n < 2 ^ s.bits

variable {env : Environment} {s : Setting} {n m : Nat}

/-- A setting gives one number at most. -/
theorem Gives.unique (hn : s.Gives env n) (hm : s.Gives env m) : n = m := hn.1.unique hm.1

/-- A setting is read as the number that the environment gives for it, and as a fault if there is
none. -/
theorem number_eq_ok_iff :
    number env s.variableName s.default s.bits = .ok n ↔ s.Gives env n := by
  have hread : env.number? s.variableName s.default (width s.bits) = some n ↔ s.Gives env n :=
    Text.read?_trim_eq_some_iff
  rw [← hread, number]
  cases env.number? s.variableName s.default (width s.bits) with
  | some k => simp
  | none => simp

/-- What gives no number is a bad value of its variable. -/
theorem number_of_not_gives (h : ¬ ∃ n, s.Gives env n) :
    number env s.variableName s.default s.bits = .error (.badValue s.variableName) := by
  cases hread : env.number? s.variableName s.default (width s.bits) with
  | some n => exact absurd ⟨n, Text.read?_trim_eq_some_iff.mp hread⟩ h
  | none => rw [number, hread]

end Setting

/-- A configuration has given numbers, each in the unit of its setting. -/
structure Carries (c : Config) (given : Setting → Nat) : Prop where
  /-- Zero stands for no port of a statistics page. -/
  statsPort : c.proxy.statsPort.map UInt16.toNat =
    if given .statsPort = 0 then none else some (given .statsPort)
  rangeStart : c.ports.floor.toNat = given .rangeStart
  rangeEnd : c.ports.ceiling.toNat = given .rangeEnd
  poolSize : c.pool.size = given .poolSize
  proxyPort : c.proxy.port.toNat = given .proxyPort
  maxConn : c.proxy.maxConn.toNat = given .maxConn
  lifetime : c.pool.lifetime = .ofSecs (given .lifetime)
  circuitPeriod : c.pool.circuitPeriod = .ofSecs (given .circuitPeriod)
  settle : c.pool.settle = .ofMillis (given .settle)
  retryBackoff : c.pool.retryBackoff = .ofMillis (given .retryBackoff)
  quiet : c.reload.quiet = .ofMillis (given .quiet)
  ceiling : c.reload.ceiling = .ofMillis (given .ceiling)
  grace : c.reload.grace = .ofSecs (given .grace)
  apiPort : c.api.port.toNat = given .apiPort

/-! ## Conditions -/

/-- What is asked of an environment. -/
inductive Condition where
  /-- There is a number for the setting. -/
  | given (s : Setting)
  /-- The range of ports ends above its start. -/
  | ascending
  /-- There is at least one pair. -/
  | populated
  /-- The range has two ports for each pair. -/
  | ample

namespace Condition

/-- Everything that is asked, in order. -/
def all : List Condition := [
  given .statsPort, given .rangeStart, given .rangeEnd, ascending, given .poolSize, populated,
  ample, given .proxyPort, given .maxConn, given .lifetime, given .circuitPeriod, given .settle,
  given .retryBackoff, given .quiet, given .ceiling, given .grace, given .apiPort]

open Setting in
def Holds (env : Environment) : Condition → Prop
  | given s => ∃ n, s.Gives env n
  | ascending => ∃ start stop, rangeStart.Gives env start ∧ rangeEnd.Gives env stop ∧ start < stop
  | populated => ∃ size, poolSize.Gives env size ∧ 1 ≤ size
  | ample => ∃ start stop size, rangeStart.Gives env start ∧ rangeEnd.Gives env stop ∧
      poolSize.Gives env size ∧ 2 * size ≤ stop - start

/-- The fault that says of an environment that it breaks a condition. -/
inductive Blames (env : Environment) : Condition → ConfigFault → Prop
  | given (s : Setting) : Blames env (given s) (.badValue s.variableName)
  | ascending {range : PortRange} (hstart : Setting.rangeStart.Gives env range.floor.toNat)
      (hend : Setting.rangeEnd.Gives env range.ceiling.toNat) :
      Blames env ascending (.emptyRange range)
  | populated : Blames env populated .emptyPool
  | ample {range : PortRange} {size : Nat}
      (hstart : Setting.rangeStart.Gives env range.floor.toNat)
      (hend : Setting.rangeEnd.Gives env range.ceiling.toNat)
      (hsize : Setting.poolSize.Gives env size) : Blames env ample (.smallRange range size)

/-- A condition is the first of some that an environment breaks. -/
def FirstBroken (env : Environment) (asked : List Condition) (k : Condition) : Prop :=
  ∃ before after, asked = before ++ k :: after ∧ (∀ j ∈ before, j.Holds env) ∧ ¬ k.Holds env

variable {env : Environment} {j k : Condition} {rest : List Condition} {f g : ConfigFault}

theorem given_mem_all (s : Setting) : given s ∈ all := by
  cases s <;> simp [all]

/-- There is one range at most that the environment gives. -/
theorem range_unique {range other : PortRange}
    (hstart : Setting.rangeStart.Gives env range.floor.toNat)
    (hend : Setting.rangeEnd.Gives env range.ceiling.toNat)
    (hstart' : Setting.rangeStart.Gives env other.floor.toNat)
    (hend' : Setting.rangeEnd.Gives env other.ceiling.toNat) : range = other := by
  cases range
  cases other
  rw [PortRange.mk.injEq]
  exact ⟨UInt16.toNat_inj.mp (hstart.unique hstart'), UInt16.toNat_inj.mp (hend.unique hend')⟩

/-- One fault belongs to a broken condition. -/
theorem Blames.unique (hf : k.Blames env f) (hg : k.Blames env g) : f = g := by
  cases hf with
  | given =>
    cases hg
    rfl
  | ascending hstart hend =>
    cases hg with
    | ascending hstart' hend' => rw [range_unique hstart hend hstart' hend']
  | populated =>
    cases hg
    rfl
  | ample hstart hend hsize =>
    cases hg with
    | ample hstart' hend' hsize' =>
      rw [range_unique hstart hend hstart' hend', hsize.unique hsize']

section Numbers

variable {start stop size : Nat}

theorem holds_ascending_iff (hstart : Setting.rangeStart.Gives env start)
    (hstop : Setting.rangeEnd.Gives env stop) : ascending.Holds env ↔ start < stop := by
  constructor
  · rintro ⟨start', stop', hstart', hstop', h⟩
    rw [hstart.unique hstart', hstop.unique hstop']
    exact h
  · exact fun h => ⟨start, stop, hstart, hstop, h⟩

theorem holds_populated_iff (hsize : Setting.poolSize.Gives env size) :
    populated.Holds env ↔ 1 ≤ size := by
  constructor
  · rintro ⟨size', hsize', h⟩
    rw [hsize.unique hsize']
    exact h
  · exact fun h => ⟨size, hsize, h⟩

theorem holds_ample_iff (hstart : Setting.rangeStart.Gives env start)
    (hstop : Setting.rangeEnd.Gives env stop) (hsize : Setting.poolSize.Gives env size) :
    ample.Holds env ↔ 2 * size ≤ stop - start := by
  constructor
  · rintro ⟨start', stop', size', hstart', hstop', hsize', h⟩
    rw [hstart.unique hstart', hstop.unique hstop', hsize.unique hsize']
    exact h
  · exact fun h => ⟨start, stop, size, hstart, hstop, hsize, h⟩

end Numbers

theorem not_firstBroken_nil : ¬ FirstBroken env [] k := by
  rintro ⟨before, after, h, -⟩
  exact List.append_ne_nil_of_right_ne_nil before (List.cons_ne_nil k after) h.symm

/-- A condition that holds is passed over. -/
theorem firstBroken_cons_of_holds (hj : j.Holds env) :
    FirstBroken env (j :: rest) k ↔ FirstBroken env rest k := by
  constructor
  · rintro ⟨before, after, h, hbefore, hk⟩
    -- A condition that holds is not the broken one, so it stands before that.
    cases before with
    | nil =>
      cases h
      exact absurd hj hk
    | cons i before =>
      cases h
      exact ⟨before, after, rfl, fun i hi => hbefore i (List.mem_cons_of_mem _ hi), hk⟩
  · rintro ⟨before, after, rfl, hbefore, hk⟩
    refine ⟨j :: before, after, rfl, ?_, hk⟩
    rw [List.forall_mem_cons]
    exact ⟨hj, hbefore⟩

/-- A condition that does not hold is the first one. -/
theorem firstBroken_cons_of_not_holds (hj : ¬ j.Holds env) :
    FirstBroken env (j :: rest) k ↔ k = j := by
  constructor
  · rintro ⟨before, after, h, hbefore, hk⟩
    cases before with
    | nil =>
      cases h
      rfl
    | cons i before =>
      cases h
      exact absurd (hbefore j (List.mem_cons_self ..)) hj
  · rintro rfl
    exact ⟨[], rest, rfl, nofun, hj⟩

end Condition

/-- An environment gives a number for each setting, and the numbers go together. -/
structure Meets (env : Environment) (given : Setting → Nat) : Prop where
  gives : ∀ s : Setting, s.Gives env (given s)
  ascending : given .rangeStart < given .rangeEnd
  populated : 1 ≤ given .poolSize
  ample : 2 * given .poolSize ≤ given .rangeEnd - given .rangeStart

/-- Together the conditions say that there are numbers, and that they go together. -/
theorem holds_all_iff {env : Environment} :
    (∀ k ∈ Condition.all, k.Holds env) ↔ ∃ given, Meets env given := by
  constructor
  · intro h
    -- The numbers of an environment are unique, so what holds of them holds of the ones here.
    choose given hgives using fun s => h (.given s) (Condition.given_mem_all s)
    refine ⟨given, hgives, ?_, ?_, ?_⟩
    · exact (Condition.holds_ascending_iff (hgives _) (hgives _)).mp
        (h .ascending (by simp [Condition.all]))
    · exact (Condition.holds_populated_iff (hgives _)).mp (h .populated (by simp [Condition.all]))
    · exact (Condition.holds_ample_iff (hgives _) (hgives _) (hgives _)).mp
        (h .ample (by simp [Condition.all]))
  · rintro ⟨given, h⟩ k -
    cases k with
    | given s => exact ⟨given s, h.gives s⟩
    | ascending => exact ⟨_, _, h.gives _, h.gives _, h.ascending⟩
    | populated => exact ⟨_, h.gives _, h.populated⟩
    | ample => exact ⟨_, _, _, h.gives _, h.gives _, h.gives _, h.ample⟩

/-! ## Judgement -/

/-- What comes of asking an environment for some conditions in order: a configuration with a certain
property if all of them hold, and else the fault of the first that does not. -/
inductive Judged (env : Environment) (P : Config → Prop) :
    List Condition → Except ConfigFault Config → Prop
  | accepted {c : Config} (hc : P c) : Judged env P [] (.ok c)
  | refused {k : Condition} {rest : List Condition} {f : ConfigFault} (hk : ¬ k.Holds env)
      (hf : k.Blames env f) : Judged env P (k :: rest) (.error f)
  | passed {k : Condition} {rest : List Condition} {x : Except ConfigFault Config}
      (hk : k.Holds env) (h : Judged env P rest x) : Judged env P (k :: rest) x

namespace Judged

variable {env : Environment} {P : Config → Prop} {asked rest : List Condition}
  {x : Except ConfigFault Config} {s : Setting}

/-- A result has the property that is asked for. -/
theorem property_of_ok (h : Judged env P asked x) : ∀ c, x = .ok c → P c := by
  induction h with
  | accepted hc =>
    rintro _ ⟨⟩
    exact hc
  | refused => nofun
  | passed _ _ ih => exact ih

/-- There is a result exactly if all conditions hold. -/
theorem exists_ok_iff (h : Judged env P asked x) :
    (∃ c, x = .ok c) ↔ ∀ k ∈ asked, k.Holds env := by
  induction h with
  | accepted hc => simp
  | refused hk hf =>
    rw [List.forall_mem_cons]
    constructor
    · rintro ⟨c, hc⟩
      cases hc
    · rintro ⟨hholds, -⟩
      exact absurd hholds hk
  | passed hk _ ih =>
    rw [ih, List.forall_mem_cons]
    exact ⟨fun hrest => ⟨hk, hrest⟩, fun hall => hall.2⟩

/-- A failure blames the first condition that does not hold. -/
theorem eq_error_iff (h : Judged env P asked x) (f : ConfigFault) :
    x = .error f ↔ ∃ k, Condition.FirstBroken env asked k ∧ k.Blames env f := by
  induction h with
  | accepted hc =>
    constructor
    · nofun
    · rintro ⟨k, hk, -⟩
      exact absurd hk Condition.not_firstBroken_nil
  | @refused k rest g hk hg =>
    simp only [Condition.firstBroken_cons_of_not_holds hk, exists_eq_left, Except.error.injEq]
    constructor
    · rintro rfl
      exact hg
    · exact hg.unique
  | passed hk _ ih =>
    simp only [ih, Condition.firstBroken_cons_of_holds hk]

/-! ### One step of the reading -/

/-- A number is read, or the variable has a bad value. -/
theorem number (s : Setting) {next : Nat → Except ConfigFault Config}
    (h : ∀ n, s.Gives env n → Judged env P rest (next n)) :
    Judged env P (.given s :: rest)
      (Config.number env s.variableName s.default s.bits >>= next) := by
  by_cases hgiven : ∃ n, s.Gives env n
  · obtain ⟨n, hn⟩ := hgiven
    rw [Setting.number_eq_ok_iff.mpr hn]
    exact .passed ⟨n, hn⟩ (h n hn)
  · rw [Setting.number_of_not_gives hgiven]
    exact .refused hgiven (.given s)

/-- A number is read and put into the form that the configuration has it in. -/
theorem mapped (s : Setting) {α : Type} (form : Nat → α) {next : α → Except ConfigFault Config}
    (h : ∀ n, s.Gives env n → Judged env P rest (next (form n))) :
    Judged env P (.given s :: rest)
      (form <$> Config.number env s.variableName s.default s.bits >>= next) := by
  rw [bind_map_left]
  exact number s h

/-- A port is read. -/
theorem port (s : Setting) (hbits : s.bits = 16) {next : Port → Except ConfigFault Config}
    (h : ∀ p : Port, s.Gives env p.toNat → Judged env P rest (next p)) :
    Judged env P (.given s :: rest) (Config.port env s.variableName s.default >>= next) := by
  rw [Config.port, ← hbits]
  refine mapped s UInt16.ofNat fun n hn => h (UInt16.ofNat n) ?_
  -- The number fits into a port, so the port has the same number.
  have hbound : n < 2 ^ 16 := hbits ▸ hn.2
  rw [UInt16.toNat_ofNat_of_lt' hbound]
  exact hn

/-- A condition between the numbers is checked. -/
theorem require {condition : Prop} [Decidable condition] {fault : ConfigFault} {k : Condition}
    {next : Unit → Except ConfigFault Config} (hk : k.Holds env ↔ condition)
    (hfault : k.Blames env fault) (h : condition → Judged env P rest (next ())) :
    Judged env P (k :: rest) (Config.require condition fault >>= next) := by
  unfold Config.require
  split
  next hholds => exact .passed (hk.mpr hholds) (h hholds)
  next hbroken => exact .refused (mt hk.mp hbroken) hfault

end Judged

/-- A port of zero stands for none. -/
theorem map_toNat_ite (p : Port) :
    (if p = 0 then none else some p).map UInt16.toNat =
      if p.toNat = 0 then none else some p.toNat := by
  have hzero : p = 0 ↔ p.toNat = 0 := UInt16.toNat_inj.symm
  by_cases h : p = 0
  · rw [if_pos h, if_pos (hzero.mp h)]
    rfl
  · rw [if_neg h, if_neg (mt hzero.mpr h)]
    rfl

/-- The whole reading asks for all conditions, in order, and what it accepts has the numbers that
the environment gives. -/
theorem judged_read (env : Environment) :
    Judged env (fun c => ∀ given, (∀ s : Setting, s.Gives env (given s)) → c.Carries given)
      Condition.all (read env) := by
  unfold read
  refine .port .statsPort rfl fun statsPort hstats => ?_
  refine .port .rangeStart rfl fun start hstart => ?_
  refine .port .rangeEnd rfl fun stop hstop => ?_
  have hascending : Condition.ascending.Holds env ↔ start < stop :=
    (Condition.holds_ascending_iff hstart hstop).trans UInt16.lt_iff_toNat_lt.symm
  refine .require hascending (.ascending hstart hstop) fun _ => ?_
  refine .number .poolSize fun size hsize => ?_
  refine .require (Condition.holds_populated_iff hsize) .populated fun _ => ?_
  -- Two ports for each pair are as many pairs as half of the range has ports.
  have hample : Condition.ample.Holds env ↔ size ≤ PortRange.span ⟨start, stop⟩ / 2 := by
    rw [Condition.holds_ample_iff hstart hstop hsize, Nat.le_div_iff_mul_le Nat.two_pos,
      Nat.mul_comm]
    rfl
  refine .require hample (.ample hstart hstop hsize) fun _ => ?_
  refine .port .proxyPort rfl fun proxyPort hproxy => ?_
  refine .number .maxConn fun maxConn hconn => ?_
  refine .mapped .lifetime Duration.ofSecs fun lifetime hlifetime => ?_
  refine .mapped .circuitPeriod Duration.ofSecs fun circuitPeriod hcircuit => ?_
  refine .mapped .settle Duration.ofMillis fun settle hsettle => ?_
  refine .mapped .retryBackoff Duration.ofMillis fun retryBackoff hbackoff => ?_
  refine .mapped .quiet Duration.ofMillis fun quiet hquiet => ?_
  refine .mapped .ceiling Duration.ofMillis fun ceiling hceiling => ?_
  refine .mapped .grace Duration.ofSecs fun grace hgrace => ?_
  refine .port .apiPort rfl fun apiPort hapi => ?_
  -- An environment gives one number for each setting, so those that were read are the given ones.
  refine .accepted fun given hgiven => ?_
  constructor
  · rw [(hgiven .statsPort).unique hstats]
    exact map_toNat_ite statsPort
  · exact hstart.unique (hgiven _)
  · exact hstop.unique (hgiven _)
  · exact hsize.unique (hgiven _)
  · exact hproxy.unique (hgiven _)
  · rw [(hgiven .maxConn).unique hconn]
    exact UInt32.toNat_ofNat_of_lt' hconn.2
  · exact congrArg Duration.ofSecs (hlifetime.unique (hgiven _))
  · exact congrArg Duration.ofSecs (hcircuit.unique (hgiven _))
  · exact congrArg Duration.ofMillis (hsettle.unique (hgiven _))
  · exact congrArg Duration.ofMillis (hbackoff.unique (hgiven _))
  · exact congrArg Duration.ofMillis (hquiet.unique (hgiven _))
  · exact congrArg Duration.ofMillis (hceiling.unique (hgiven _))
  · exact congrArg Duration.ofSecs (hgrace.unique (hgiven _))
  · exact hapi.unique (hgiven _)

/-- **Settings are judged in order**: there is a configuration exactly if the environment gives a
number for each setting and the numbers go together; it has just those numbers; and if there is
none, the fault is that of the first condition that does not hold. -/
theorem settings_are_judged_in_order (env : Environment) :
    ((∃ c, read env = .ok c) ↔ ∃ given, Meets env given) ∧
      (∀ c given, read env = .ok c → Meets env given → c.Carries given) ∧
      ∀ f, read env = .error f ↔
        ∃ k, Condition.FirstBroken env Condition.all k ∧ k.Blames env f := by
  have hjudged := judged_read env
  refine ⟨?_, fun c given hc h => hjudged.property_of_ok c hc given h.gives, hjudged.eq_error_iff⟩
  rw [hjudged.exists_ok_iff, holds_all_iff]

end OnionPool.Config
