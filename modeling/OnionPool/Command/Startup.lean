import OnionPool.Config.Basic
import OnionPool.FileTree.Edit
import OnionPool.FileTree.Programs
import OnionPool.Launch.Haproxy
import OnionPool.Log.Filter
import OnionPool.Process.Outcome
import OnionPool.Proxy.State

/-!
# Starting the command

The command reads its configuration, looks for the programs that it needs, makes its working
directory, and starts the reverse proxy. The first of these that fails ends it; when the proxy does
not start, the working directory is removed again.
-/

namespace OnionPool.Command

/-- What is seen of a launched proxy within its settle window. -/
inductive Trial where
  | settles
  | ends (status : ExitStatus)
  | refused (error : IoError)

/-- What the command starts from. -/
structure Surroundings where
  environment : Environment
  /-- The search path, if there is one. -/
  searchPath : Option String
  tree : FileTree
  /-- What is seen of the program at a path. -/
  trial : Path → Trial

/-- What starting the command leads to. -/
structure Result where
  /-- Why the command has ended, unless it serves. -/
  failure : Option Failure
  log : List Log.Line
  /-- What is said on the terminal before. -/
  warnings : List String := []
  tree : FileTree

def isJson (c : Config) : Bool := Text.lower c.log.format.toList = "json".toList

/-- The programs that are needed, in the order in which they are looked for. -/
def neededPrograms (c : Config) : List String :=
  [c.programs.haproxy, c.programs.privoxy, c.programs.tor]

/-- The search for the needed programs, as it is logged: up to the first that is missing. -/
def searchLog (s : Surroundings) : List String → List Log.Line
  | [] => []
  | name :: rest =>
    match Programs.find? s.tree s.searchPath name with
    | some _ => ⟨.debug, "found required program", none⟩ :: searchLog s rest
    | none => [⟨.error, "missing required program", some (.missingProgram name)⟩]

/-- The plan of the reverse proxy. -/
def proxyPlan (c : Config) : Proxy.Plan where
  settings := c.proxy
  timings := ⟨c.reload.quiet.ticks, c.reload.ceiling.ticks, c.reload.grace.ticks⟩
  dir := c.proxyDir

/-- An edit whose failure is a failure of input or output. -/
def ioStep (x : Edit Unit) (t : FileTree) : Option Failure × FileTree :=
  match x.on t with
  | (.ok _, t) => (none, t)
  | (.error e, t) => (some (.io e), t)

/-- The first configuration of the proxy is written next to its place and moved there. -/
def placeConfig (plan : Proxy.Plan) : Edit Unit := do
  Edit.writeFile plan.temporaryPath (plan.render .empty)
  Edit.renameFile plan.temporaryPath plan.configPath

/-- The line about a program that has ended. -/
def exitLine (status : ExitStatus) : Log.Line :=
  ⟨if status.isSuccess then .info else .warn, "process exited", none⟩

/-- The start of the proxy: why it failed, the log, and the tree. -/
def startProxy (c : Config) (s : Surroundings) (t : FileTree) :
    Option Failure × List Log.Line × FileTree :=
  let plan := proxyPlan c
  match ioStep (Edit.ensureDirectory FileTree.openMode plan.dir) t with
  | (some f, t) => (some f, [], t)
  | (none, t) =>
    match (placeConfig plan).on t with
    | (.error e, t) => (some (plan.writeFailure e), [], t)
    | (.ok _, t) =>
      let haproxy : Haproxy := ⟨c.programs.haproxy, c.proxy.port, c.pool.settle⟩
      let spec := haproxy.spec plan.configPath plan.pidPath none
      let found := (Programs.find? t s.searchPath spec.program).getD spec.program
      match s.trial found with
      | .settles => (none, [], t)
      | .ends status => (some (spec.failure (Outcome.exited status).text), [exitLine status], t)
      | .refused e => (some (spec.failure e.text), [], t)

/-- The removal of the working directory, as it is logged: nothing is said if it is not there. -/
def removeWorkDir (c : Config) (t : FileTree) : List Log.Line × FileTree :=
  match (Edit.removeDirectory c.workDir).on t with
  | (.ok _, t) => ([], t)
  | (.error e, t) =>
    if e = .os .notFound then ([], t)
    else ([⟨.error, "failed to remove working directory", some (.io e)⟩], t)

/-- All lines that are logged with a valid configuration, and what they lead to. -/
def proceed (c : Config) (s : Surroundings) : Result :=
  let opening : Log.Line := ⟨.info, "rotating tor proxy", none⟩
  let log := opening :: searchLog s (neededPrograms c)
  match Programs.findAll s.tree s.searchPath (neededPrograms c) with
  | .error f => { failure := some f, log, tree := s.tree }
  | .ok _ =>
    match ioStep (Edit.ensureDirectory FileTree.openMode c.workDir) s.tree with
    | (some f, tree) => { failure := some f, log, tree }
    | (none, tree) =>
      match startProxy c s tree with
      | (none, more, tree) => { failure := none, log := log ++ more, tree }
      | (some f, more, tree) =>
        let (removal, tree) := removeWorkDir c tree
        let failed : Log.Line := ⟨.error, "failed to start HAProxy", some f⟩
        { failure := some f, log := log ++ more ++ [failed] ++ removal, tree }

def name : String := "torotator"

/-- The directives that a log level stands for: the command's own part has it, and whatever follows
after a comma is added. -/
def directives (level : String) : List (List Char) :=
  Log.Directive.split (name.toList ++ '=' :: level.toList)

/-- What is said about a directive that has no meaning. -/
def directiveWarning? (text : List Char) : Option String :=
  match Log.Directive.read text with
  | .ok _ => none
  | .error fault =>
    some ("ignoring \x60" ++ String.ofList text ++ "\x60: " ++ fault.message)

/-- The filter of the command's own log; without one, nothing is logged. -/
def filter? (level : String) : Option Log.Filter :=
  Log.Directive.filterFor name.toList
    ((directives level).filterMap fun text => (Log.Directive.read text).toOption)

/-- The lines that a filter lets through. -/
def visible (level : String) (lines : List Log.Line) : List Log.Line :=
  match filter? level with
  | some f => lines.filter fun l => f.passes l.severity
  | none => []

/-- Starting the command. Its own log has the lines that its filter lets through, and directives
without a meaning are passed over. -/
def start (s : Surroundings) : Result :=
  match Config.read s.environment with
  | .error fault =>
    { failure := some (.invalidConfig fault.message), log := [], tree := s.tree }
  | .ok c =>
    let result := proceed c s
    { result with
      log := visible c.log.level result.log
      warnings := (directives c.log.level).filterMap directiveWarning? }

/-- What the command leaves on the terminal. -/
def Result.terminal (r : Result) : String :=
  let failure := (r.failure.map fun f => "Error: " ++ f.record).toList
  String.join ((r.warnings ++ failure).map (· ++ "\n"))

def Result.status (r : Result) : Nat := if r.failure.isSome then 1 else 0

/-- The lines that are written as JSON. -/
def jsonLog (s : Surroundings) (r : Result) : List Log.Line :=
  match Config.read s.environment with
  | .ok c => if isJson c then r.log else []
  | .error _ => []

/-- The tree after a command that served was told to stop. -/
def Result.treeAfterStop (r : Result) (s : Surroundings) : FileTree :=
  match r.failure, Config.read s.environment with
  | none, .ok c => (removeWorkDir c r.tree).2
  | _, _ => r.tree

end OnionPool.Command
