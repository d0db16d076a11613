import TypeCatalog.Command.Basic
import TypeCatalog.Files.ModuleSearch
import TypeCatalog.Loading
import TypeCatalog.Output
import TypeCatalog.Record.Describe
import TypeCatalog.Record.Validate
import TypeCatalog.Settings.Reader

/-! # Running commands

A command is run on a file system, and gives the file system after it, the lines that it prints, and
how it ends. -/

namespace TypeCatalog

/-- What a command sees. -/
structure Environment where
  root : FileNode
  /-- The names of the path of the current directory. -/
  current : List String
  /-- The directories in which modules are looked for by name. -/
  searchPath : List (List String)
  /-- When records are written. -/
  time : String
  /-- The places at which the file system lets no directory be made and no file be written. -/
  locked : List String → Bool := fun _ => false

/-- How a command fails without a message of its own. -/
inductive Crash where
  | noWorkers
  | settingsUndecodable
  | settingsIntegerTooLong
  deriving DecidableEq, Repr

/-- How a command ends. -/
inductive Ending where
  | success
  | failure
  /-- The command line is no command. -/
  | misuse
  | crash (crash : Crash)
  deriving DecidableEq, Repr

namespace Ending

def exitCode : Ending → Nat
  | .success => 0
  | .failure => 1
  | .misuse => 2
  | .crash _ => 1

end Ending

/-- What a command leaves behind. -/
structure CommandResult where
  ending : Ending
  output : List String := []
  errors : List String := []
  notices : List Notice := []
  root : FileNode

/-- What a command prints, for a way to write one line. -/
def CommandResult.printed (result : CommandResult) (write : String → String) : String :=
  String.join (result.output.map write)

/-- Why an extraction fails. -/
inductive ExtractionFault where
  | unloaded (failure : LoadFailure)
  | invalid (faults : List RecordFault)
  /-- A place to write to cannot be used. -/
  | unwritable

/-- What an extraction leaves behind: the files, and its notices unless it fails. -/
structure Extraction where
  root : FileNode
  outcome : Except ExtractionFault (List Notice)

namespace Environment

variable (environment : Environment)

/-! ## Sources -/

/-- Where the source tree of a command is, and the package that its place suggests. -/
structure SourcePlace where
  root : List String
  package : Option String

/-- The place of a source given as a path, if there is anything at the path. -/
def placeOfPath? (source : String) : Option SourcePlace :=
  let path := (Path.ofText source).resolve environment.current
  match environment.root.at? path with
  | none => none
  | some (.file _) => some ⟨path.dropLast, none⟩
  | some (.directory entries) =>
      let isPackage := (entries.lookup (packageModule ++ sourceSuffix)).isSome
      some ⟨path, if isPackage then some (path.getLastD "") else none⟩

/-- The place of a source: a path, or else the name of a module. -/
def placeOf (source : String) : Except String SourcePlace :=
  match environment.placeOfPath? source with
  | some place => .ok place
  | none =>
      match environment.root.findModule environment.searchPath source with
      | .error _ => .error ("Could not resolve module or path: " ++ source)
      | .ok none => .error ("Could not find module or path: " ++ source)
      | .ok (some found) => .ok ⟨found.directory, some (Text.firstPart source)⟩

/-! ## Settings -/

def settingsFile : String := "pyproject.toml"

/-- The directories in which settings are looked for: the root of a tree and two above it. -/
def settingsDirectories (root : List String) : List (List String) :=
  [root, root.dropLast, root.dropLast.dropLast]

/-- The settings of a directory, with the path of their file. -/
def settingsIn? (directory : List String) :
    Option (String × Except SettingsFault (Settings × List Notice)) :=
  let path := directory ++ [settingsFile]
  match environment.root.at? path with
  | some (.file content) =>
      let text := (Path.absolute path).text
      some (text, Settings.ofBytes text content)
  | _ => none

/-- The settings of a tree: those of the first directory that has any, else the defaults. -/
def settingsFor (root : List String) :
    String × Except SettingsFault (Settings × List Notice) :=
  ((settingsDirectories root).findSome? environment.settingsIn?).getD ("", .ok ({}, []))

/-! ## Preparation -/

/-- What a command works on. -/
structure Prepared where
  root : List String
  package : String
  settings : Settings
  notices : List Notice

/-- The result of a command that fails with lines on the error output. -/
def failWith (errors : List String) : CommandResult where
  ending := .failure
  errors := errors
  root := environment.root

/-- The result of a command that fails without a message. -/
def crashWith (crash : Crash) : CommandResult where
  ending := .crash crash
  root := environment.root

/-- The result of a command whose settings cannot be read. -/
def failSettings (path : String) (fault : SettingsFault) : CommandResult :=
  match fault with
  | .undecodable => environment.crashWith .settingsUndecodable
  | .integerTooLong => environment.crashWith .settingsIntegerTooLong
  | fault => environment.failWith ["settings:" ++ path ++ ":" ++ fault.message?.getD ""]

/-- Find the source tree, the package and the settings of a command. -/
def prepare (options : CommandOptions) : Except CommandResult Prepared := do
  let place ← (environment.placeOf options.source).mapError fun message =>
    environment.failWith [message]
  match options.package <|> place.package with
  | none =>
      .error (environment.failWith
        ["Could not determine package name, please specify with --package"])
  | some package =>
      let (path, settings) := environment.settingsFor place.root
      let (settings, notices) ← settings.mapError (environment.failSettings path)
      return ⟨place.root, package, settings, notices⟩

/-- The result of a command whose program is not loaded. -/
def failLoading : LoadFailure → CommandResult
  | .noWorkers => environment.crashWith .noWorkers
  | .faults faults =>
      { environment.failWith [] with
        output := faults.map fun fault => fault.1.code ++ ":" ++ fault.2 ++ ":" }

/-- The program of a source tree, read by a number of workers. -/
def load (prepared : Prepared) (workers : Int) : Except LoadFailure Program :=
  let tree := (environment.root.at? prepared.root).getD (.directory [])
  loadProgram (.absolute prepared.root) tree prepared.package workers

/-! ## Extraction -/

/-- The valid records of a source tree, with the notices of its program. -/
def records (prepared : Prepared) (workers : Int) (serializableOnly : Bool) :
    Except ExtractionFault (List Json × List Notice) := do
  let program ← (environment.load prepared workers).mapError .unloaded
  let described := program.index.describe prepared.settings serializableOnly
  let records ← (validate (described.map TypeRecord.toJson)).mapError .invalid
  return (records, program.notices)

/-- Write the records of a source tree to a directory. -/
def extract (prepared : Prepared) (workers : Int) (serializableOnly : Bool) (out : Path) :
    Extraction :=
  match environment.records prepared workers serializableOnly with
  | .error fault => ⟨environment.root, .error fault⟩
  | .ok (records, notices) =>
      let manifest : Manifest := ⟨prepared.package, environment.time, records.length⟩
      let written :=
        emit environment.locked environment.root environment.current out records manifest
      if written.complete then
        ⟨written.root, .ok (notices ++ [.wrote records.length out.text])⟩
      else ⟨written.root, .error .unwritable⟩

def faultLine : RecordFault → String
  | .duplicate key => "duplicate:" ++ key ++ ":duplicate fqn"
  | .nonconforming key => "schema:" ++ key ++ ":"

/-- The result of a command whose extraction fails. -/
def failExtraction (out : Path) : ExtractionFault → CommandResult
  | .unloaded failure => environment.failLoading failure
  | .invalid faults => { environment.failWith [] with output := faults.map faultLine }
  | .unwritable => { environment.failWith [] with output := ["emit:" ++ out.text ++ ":"] }

/-! ## Commands -/

/-- Write the records of a source tree. -/
def runExtract (options : CommandOptions) (out : String) (workers : Int) :
    Except CommandResult CommandResult := do
  let prepared ← environment.prepare options
  let out := Path.ofText out
  let extraction := environment.extract prepared workers options.serializableOnly out
  match extraction.outcome with
  | .ok notices => return {
      ending := .success
      notices := prepared.notices ++ notices
      root := extraction.root }
  | .error fault => .error { environment.failExtraction out fault with root := extraction.root }

/-- List the types of a source tree. -/
def runTypes (options : CommandOptions) : Except CommandResult CommandResult := do
  let prepared ← environment.prepare options
  let program ← (environment.load prepared 1).mapError environment.failLoading
  let listed := program.index.describedTypes prepared.settings options.serializableOnly
  return {
    ending := .success
    output := listed.map TypeSymbol.fqn
    notices := prepared.notices ++ program.notices
    root := environment.root }

def run (command : Command) : CommandResult :=
  let result := match command with
    | .extract options out workers => environment.runExtract options out workers
    | .types options => environment.runTypes options
  match result with
  | .ok result => result
  | .error result => result

/-- Run the command that the arguments of a command line spell. -/
def runArguments (arguments : List String) : CommandResult :=
  match Command.ofArguments? arguments with
  | some command => environment.run command
  | none => { ending := .misuse, root := environment.root }

end Environment

end TypeCatalog
