import Optima.Command.Run
import Std.Time.DateTime

namespace Optima

/-!
# The program

The words of the command line decide which files matter.  They are read into a tree,
the command is carried out on the tree, and the files that have changed in it are
written.  Time is not measured and nobody cancels a search.
-/

namespace Program

/-- The paths that a command line may lead to. -/
def pathsOf (invocation : Invocation) (environment : List (String × String)) : List FilePath :=
  let names := ConfigurationSource.usualFile
    :: (ConfigurationSource.layerName? environment).toList
  let configuration :=
    match invocation.configuration with
    | none => []
    | some written =>
      let path := FilePath.ofText written
      path :: names.flatMap fun name => [path.child name, path.parent.child name]
  let order :=
    match invocation.order with
    | .listAlgorithms => []
    | .solve order =>
      let output := (order.output.map FilePath.ofText).toList
      .ofText order.problem :: output.flatMap fun path => [path.parent, path]
  configuration ++ order

/-- Add what a path leads to. -/
def visit (tree : FileTree) (path : FilePath) : IO FileTree := do
  let place := (← IO.currentDir) / path.render
  if ← place.isDir then return (tree.makeDirectories path).getD tree
  else if ← place.pathExists then return tree.place path (← IO.FS.readFile place)
  else return tree

/-- Write the files of a tree that are not the same in another one. -/
def store (before after : FileTree) : IO Unit :=
  for (place, text) in after.files do
    if before.textAt? place != some text then
      IO.FS.createDirAll ("/" ++ "/".intercalate place.dropLast)
      IO.FS.writeFile ("/" ++ "/".intercalate place) text

/-- The variables of the environment that matter. -/
def environment : IO (List (String × String)) := do
  let names := "ENVIRONMENT" :: Layers.overrides.map (·.name)
  let values ← names.mapM fun name => return (name, ← IO.getEnv name)
  return values.filterMap fun (name, value?) => value?.map (name, ·)

/-- Identifiers that nobody else gives out. -/
def supply : IO Supply := do
  let bytes ← IO.getRandomBytes 16
  let base := bytes.toList.foldl (fun value byte => value * 256 + byte.toNat) 0
  return ⟨fun index => String.ofList (Nat.toDigits 16 (base + index)), 0⟩

/-- The moments from now on. -/
def moments : IO (Nat → Timestamp) := do
  let now ← Std.Time.Timestamp.now
  let epoch : Timestamp := ⟨1970, 1, 1, 0, 0, 0, 0, some 0⟩
  let start := (now.toNanosecondsSinceUnixEpoch.val / 1000).toNat
  return fun index => epoch.after (start + index)

/-- Say how a command ended, and give its exit code. -/
def conclude : CommandEnding → IO UInt32
  | .refused refusal => do
    IO.eprintln Invocation.usage
    return refusal.exitCode.toUInt32
  | .finished exitCode => return exitCode.toUInt32
  | .failed failure => do
    IO.eprintln (failure.message?.getD "failed")
    return 1

/-- Carry out a command line. -/
def run (words : List String) : IO UInt32 := do
  let settings ← environment
  let working := FilePath.ofText (← IO.currentDir).toString
  let paths :=
    match Invocation.ofWords words with
    | .ok invocation => pathsOf invocation settings
    | .error _ => []
  let tree ← paths.foldlM visit (.empty working.segments)
  let stamps : Stamps := ⟨← supply, ← moments, 0⟩
  let report := Command.run words ⟨tree, settings, stamps, .start (fun _ => 0) fun _ => false⟩
  store tree report.tree
  report.printed.forM IO.println
  report.complaints.forM IO.eprintln
  conclude report.ending

end Program

end Optima

/-- Carry out the words of the command line. -/
def main (words : List String) : IO UInt32 :=
  Optima.Program.run words
