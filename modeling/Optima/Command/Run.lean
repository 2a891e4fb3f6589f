import Optima.Command.Arguments
import Optima.Command.ProblemFile
import Optima.Configuration.Loading
import Optima.Engine.Delivery

namespace Optima

/-!
# Carrying out a command

A command reads its configuration and its problem from a tree of files, prints,
complains, may write a file, and ends with an exit code or with a failure that it
does not know how to report.
-/

/-- Why a solution cannot be written to a file. -/
inductive OutputFailure where
  | directoryMissing
  | isDirectory
  | fileInTheWay
  deriving Repr, DecidableEq

/-- A failure that a command does not report. -/
inductive CommandFailure where
  | unconfigured (failure : LoadingFailure)
  | unknownLogLevel (name : String)
  | unknownBackend (message : String)
  | problemFile (failure : ProblemFileFailure)
  | engine (failure : EngineFailure)
  | output (failure : OutputFailure)
  deriving Repr

namespace CommandFailure

/-- The message of a failure, where it has one of its own. -/
def message? : CommandFailure → Option String
  | .unconfigured failure => failure.message?
  | .unknownBackend message => some message
  | .engine failure => failure.message?
  | .unknownLogLevel _ | .problemFile _ | .output _ => none

end CommandFailure

/-- How a command ends. -/
inductive CommandEnding where
  /-- The command line asks for nothing that can be carried out. -/
  | refused (refusal : ArgumentRefusal)
  | finished (exitCode : Nat)
  | failed (failure : CommandFailure)
  deriving Repr

/-- What a command leaves behind. -/
structure CommandReport where
  printed : List String
  complaints : List String
  tree : FileTree
  ending : CommandEnding
  deriving Repr

/-- What surrounds a command. -/
structure CommandSetting where
  tree : FileTree
  environment : List (String × String)
  stamps : Stamps
  watch : Watch Float

namespace FileTree

/-- Whether a file stands on the way from a place. -/
def isBlocked (tree : FileTree) : Place → List String → Bool
  | _, [] => false
  | place, segment :: rest => tree.isFileAt place || isBlocked tree (step place segment) rest

/-- Write a file, or say what is in the way. -/
def output (tree : FileTree) (path : FilePath) (text : String) :
    Except OutputFailure FileTree :=
  match tree.write? path text with
  | some written => .ok written
  | none =>
    if tree.isDirectory path then .error .isDirectory
    else if tree.isBlocked (tree.origin path) path.segments then .error .fileInTheWay
    else .error .directoryMissing

end FileTree

namespace Command

/-- A command that ends without having printed anything. -/
def silent (tree : FileTree) (ending : CommandEnding) : CommandReport := ⟨[], [], tree, ending⟩

/-- A command that ends with a complaint. -/
def complain (tree : FileTree) (exitCode : Nat) (complaints : List String) : CommandReport :=
  ⟨[], complaints, tree, .finished exitCode⟩

/-- A line about one issue of a problem. -/
def issueLine (issue : String) : String := "   - " ++ issue

/-- The end of a command whose problem is not solved. -/
def unsolved (tree : FileTree) : EngineFailure → CommandReport
  | .invalid issues => complain tree 2 ("❌ Invalid problem:" :: issues.map issueLine)
  | failure@(.unknownDefault _) | failure@(.uncheckable _) =>
    silent tree (.failed (.engine failure))
  | failure => complain tree 1 ["❌ Solve failed: " ++ failure.message?.getD ""]

/-- The end of a command that has a solution: print it, or write it to a file. -/
def solved (tree : FileTree) (output : Option String) (record : Record) : CommandReport :=
  let written := record.toDocument.indented
  match output.getD "" with
  | "" => ⟨[written], [], tree, .finished 0⟩
  | path =>
    match tree.output (.ofText path) written with
    | .error failure => silent tree (.failed (.output failure))
    | .ok changed =>
      ⟨["✅ " ++ label record.solution.status ++ ": solution written to " ++ path], [], changed,
        .finished 0⟩

/-- A problem whose parameters have a seed for a strategy. -/
def seeded (problem : AnyProblem Float) (algorithm : Algorithm) (seed : Int) :
    AnyProblem Float :=
  problem.mapBase fun base =>
    let usual := GivenParameters.ofSeed algorithm seed
    let chosen :=
      match base.parameters with
      | some given =>
        if given.parameters.algorithm = algorithm then given.withSeed seed else usual
      | none => usual
    { base with parameters := some chosen }

/-- The problem of an order, with the seed that the order gives it. -/
def problemFor (configuration : Configuration) (file : ProblemFile) (order : SolveOrder) :
    Except EngineFailure (AnyProblem Float) :=
  match order.seed, file.allocation with
  | none, _ => .ok file.problem
  | some seed, some _ => .ok (seeded file.problem .linearProgramming seed)
  | some seed, none => do
    let requested? := order.algorithm.map label
    let algorithm ←
      (Selection.choose configuration.defaultAlgorithm file.problem requested?).mapError
        .ofSelection
    return seeded file.problem algorithm seed

/-- Solve what a problem file holds, and keep the solution. -/
def solveFile (configuration : Configuration) (archive : Archive) (file : ProblemFile)
    (order : SolveOrder) (stamps : Stamps) (watch : Watch Float) : CommandReport :=
  match problemFor configuration file order with
  | .error failure => unsolved archive.tree failure
  | .ok problem =>
    let format := RecordFormat.documents stamps.supply (stamps.moments stamps.used)
    let recipients := Recipients.archiving format
    let outcome :=
      match file.allocation with
      | some input =>
        Engine.solveAllocation configuration recipients problem input.suppliers
          input.requisitions watch stamps archive
      | none =>
        Engine.solve configuration recipients problem (order.algorithm.map label) watch stamps
          archive
    match outcome.result with
    | .error failure => unsolved outcome.state.tree failure
    | .ok record => solved outcome.state.tree order.output record

/-- Carry out an order to solve. -/
def solve (configuration : Configuration) (archive : Archive) (order : SolveOrder)
    (stamps : Stamps) (watch : Watch Float) : CommandReport :=
  match ProblemFile.load stamps.supply archive.tree (.ofText order.problem) with
  | .error .unloadable => complain archive.tree 2 ["❌ Could not load " ++ order.problem]
  | .error failure => silent archive.tree (.failed (.problemFile failure))
  | .ok (file, supply) =>
    solveFile configuration archive file order { stamps with supply := supply } watch

/-- The line on one strategy. -/
def algorithmLine (configuration : Configuration) (algorithm : Algorithm) : String :=
  let name := label algorithm
  let mark := if name == configuration.defaultAlgorithm then " (default)" else ""
  name ++ mark ++ ": " ++ algorithm.description

/-- The lines on all strategies. -/
def listing (configuration : Configuration) (tree : FileTree) : CommandReport :=
  ⟨(Labelled.all (β := Algorithm)).map (algorithmLine configuration), [], tree, .finished 0⟩

/-- Carry out an order under a configuration. -/
def carryOut (configuration : Configuration) (archive : Archive) (setting : CommandSetting) :
    CommandOrder → CommandReport
  | .solve order => solve configuration archive order setting.stamps setting.watch
  | .listAlgorithms => listing configuration archive.tree

/-- Load a configuration and set up what it names. -/
def prepare (path? : Option String) (setting : CommandSetting) :
    Except CommandFailure (Configuration × Archive) := do
  let configuration ←
    (Configuration.ofPath ((path?.filter (· != "")).map .ofText) setting.tree setting.environment).mapError
      .unconfigured
  if configuration.logThreshold?.isNone then .error (.unknownLogLevel configuration.logLevel)
  else
    let store ← (ResultStore.ofNames configuration.storageBackend configuration.storagePath).mapError
      .unknownBackend
    return (configuration, ⟨store, setting.tree⟩)

/-- Carry out what the words of a command line ask for. -/
def run (words : List String) (setting : CommandSetting) : CommandReport :=
  match Invocation.ofWords words with
  | .error refusal => silent setting.tree (.refused refusal)
  | .ok invocation =>
    match prepare invocation.configuration setting with
    | .error failure => silent setting.tree (.failed failure)
    | .ok (configuration, archive) => carryOut configuration archive setting invocation.order

end Command

end Optima
