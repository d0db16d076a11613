import TypeCatalog.Command.Run
import TypeCatalog.Text.Timestamp

/-! # The command line

Takes what a command may look at from the file system, runs the command, and puts back what it wrote
and printed. -/

namespace TypeCatalog.CommandLine

/-- Whether the content of a file matters to a command. -/
def isLookedInto (name : String) : Bool := isSourceName name || name == Environment.settingsFile

/-- The content of a file; one that cannot be read is no better than a directory. -/
def readContent (path : String) : IO FileNode := do
  try
    return .file (← IO.FS.readBinFile path)
  catch _ => return .directory []

/-- What stands at an entry of a directory, with everything below it. -/
partial def readEntry (entry : IO.FS.DirEntry) : IO (String × FileNode) := do
  if ← entry.path.isDir then
    let entries ← entry.path.readDir
    return (entry.fileName, .directory (← entries.toList.mapM readEntry))
  else if isLookedInto entry.fileName then
    return (entry.fileName, ← readContent entry.path.toString)
  else return (entry.fileName, .file .empty)

/-- What stands at an absolute path, with everything below it when asked for. -/
def readAt? (deep : Bool) (names : List String) : IO (Option FileNode) := do
  let path := (← IO.currentDir) / (Path.absolute names).text
  if ← path.isDir then
    if deep then
      return some (.directory (← (← path.readDir).toList.mapM readEntry))
    else return some (.directory [])
  else if ← path.pathExists then return some (← readContent path.toString)
  else return none

/-- Take what stands at a path into a file system, unless it is there already. -/
def take (deep : Bool) (root : FileNode) (names : List String) : IO FileNode := do
  match ← readAt? deep names with
  | some node => return if (root.at? names).isSome && !deep then root else root.put names node
  | none => return root

def sourceOf : Command → String
  | .extract options _ _ | .types options => options.source

/-- Whether a command reports everything. -/
def isVerbose : Command → Bool
  | .extract options _ _ | .types options => options.verbose

/-- The places that a command may write to, from the outermost directory on. -/
def writtenPlaces (current : List String) : Command → List (List String)
  | .types _ => []
  | .extract _ out _ =>
      let names := (Path.ofText out).resolve current
      (List.range names.length).map (fun count => names.take (count + 1)) ++
        [names ++ [recordsFile], names ++ [manifestFile]]

/-- The file system as far as a command may look at it. -/
def readRoot (current : List String) (searchPath : List (List String)) (command : Command) :
    IO FileNode := do
  let source := (Path.ofText (sourceOf command)).resolve current
  let found ← readAt? false source
  let trees := match found with
    | some (.directory _) => [source]
    | some (.file _) => [source.dropLast]
    | none => searchPath
  let root ← trees.foldlM (take true) (FileNode.directory [])
  let settings := trees.flatMap fun tree =>
    (Environment.settingsDirectories tree).map (· ++ [Environment.settingsFile])
  let root ← settings.foldlM (take false) root
  (writtenPlaces current command).foldlM (take false) root

/-- Whether a file stands at an absolute path that cannot be opened for writing. -/
def isWriteProtected (names : List String) : IO Bool := do
  let path := (← IO.currentDir) / (Path.absolute names).text
  if !(← path.pathExists) || (← path.isDir) then return false
  try
    IO.FS.withFile path .readWrite fun _ => return false
  catch _ => return true

/-- The present time. -/
def now : IO String := do
  let (_, path) ← IO.FS.createTempFile
  let changed := (← path.metadata).modified
  IO.FS.removeFile path
  return Text.timestamp (changed.1.toNat) (changed.2.toNat)

/-- The directories in which modules are looked for by name. -/
def readSearchPath (current : List String) : IO (List (List String)) := do
  let listed := ((← IO.getEnv "PYTHONPATH").getD "").splitOn ":"
  return (listed.filter (· ≠ "")).map fun path => (Path.ofText path).resolve current

def bytesAt? (root : FileNode) (path : List String) : Option (List UInt8) :=
  match root.at? path with
  | some (.file content) => some content.toList
  | _ => none

/-- Put the files that a command wrote into the file system. -/
def writeBack (current : List String) (before after : FileNode) (out : String) : IO Unit := do
  let directory := (Path.ofText out).resolve current
  for name in [recordsFile, manifestFile] do
    let path := directory ++ [name]
    match after.at? path with
    | some (.file content) =>
        if bytesAt? before path ≠ some content.toList then
          IO.FS.createDirAll (Path.absolute directory).text
          IO.FS.writeBinFile (Path.absolute path).text content
    | _ => pure ()

/-- How the tool is called. -/
def usage : String :=
  "usage: extract SOURCE [--package NAME] [--out DIR] [--workers N] [--serializable-only] " ++
    "[--verbose]\n       types SOURCE [--package NAME] [--serializable-only] [--verbose]"

/-- The words for a failure without a message of its own. -/
def crashText : Crash → String
  | .noWorkers => "the number of workers must be greater than 0"
  | .settingsUndecodable => "the settings are no UTF-8 text"
  | .settingsIntegerTooLong => "the settings hold an integer of too many digits"

/-- Print what a command prints. -/
def report (verbose : Bool) (result : CommandResult) : IO Unit := do
  for notice in result.notices do
    if verbose || notice.level = .warning then
      IO.eprintln (notice.level.word ++ " " ++ toolName ++ ": " ++ notice.message)
  IO.print (result.printed fun line => line ++ "\n")
  for line in result.errors do
    IO.eprintln line
  match result.ending with
  | .crash crash => IO.eprintln (crashText crash)
  | _ => return

/-- Run a command in the current directory. -/
def runHere (command : Command) : IO Ending := do
  let current := (Path.ofText (← IO.currentDir).toString).names
  let searchPath ← readSearchPath current
  let locked ← (writtenPlaces current command).filterM isWriteProtected
  let environment : Environment :=
    { root := ← readRoot current searchPath command
      current := current
      searchPath := searchPath
      time := ← now
      locked := locked.contains }
  let result := environment.run command
  match command with
  | .extract _ out _ => writeBack current environment.root result.root out
  | .types _ => pure ()
  report (isVerbose command) result
  return result.ending

end TypeCatalog.CommandLine

/-- Run the command that the arguments spell. -/
def main (arguments : List String) : IO UInt32 := do
  match TypeCatalog.Command.ofArguments? arguments with
  | some command =>
      let ending ← TypeCatalog.CommandLine.runHere command
      return UInt32.ofNat ending.exitCode
  | none =>
      IO.eprintln TypeCatalog.CommandLine.usage
      return 2
