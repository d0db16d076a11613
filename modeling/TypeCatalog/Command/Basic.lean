import TypeCatalog.Text.Digits

/-! # Commands

A command line names a command and its source, with options that may stand anywhere behind the name
of the command. A repeated option counts by its last value, and two dashes end the options. -/

namespace TypeCatalog

/-- What the commands have in common. -/
structure CommandOptions where
  source : String
  package : Option String
  serializableOnly : Bool
  verbose : Bool
  deriving DecidableEq, Repr

/-- A command. -/
inductive Command where
  /-- Write the records of a source tree to a directory. -/
  | extract (options : CommandOptions) (out : String) (workers : Int)
  /-- List the types of a source tree. -/
  | types (options : CommandOptions)
  deriving DecidableEq, Repr

namespace Command

/-- The options of a command with the arguments that are no options. -/
structure Given where
  arguments : List String := []
  package : Option String := none
  out : String := "build"
  workers : String := "1"
  serializableOnly : Bool := false
  verbose : Bool := false

/-- The options that take a value. -/
inductive ValueOption where
  | package
  | out
  | workers

/-- An option of a command. -/
inductive CommandOption where
  | value (option : ValueOption)
  | serializableOnly (on : Bool)
  | verbose (on : Bool)

/-- Whether a character may stand around a number. -/
def isNumberBlank (c : Char) : Bool := c == ' ' || (decide (9 ≤ c.toNat) && decide (c.toNat ≤ 13))

/-- Whether digits have single underscores at most between them. -/
def isDigitRun : List Char → Bool
  | [digit] => digit.isDigit
  | digit :: '_' :: rest => digit.isDigit && isDigitRun rest
  | digit :: rest => digit.isDigit && isDigitRun rest
  | [] => false

/-- The number that a text spells: digits with a sign, with single underscores between digits and
blanks around them. -/
def numberOf? (text : String) : Option Int :=
  let trimmed :=
    ((text.toList.dropWhile isNumberBlank).reverse.dropWhile isNumberBlank).reverse
  let (negative, digits) := match trimmed with
    | '-' :: rest => (true, rest)
    | '+' :: rest => (false, rest)
    | rest => (false, rest)
  if isDigitRun digits then
    let value := Int.ofNat (Text.numberOfDigits 10 (digits.filter Char.isDigit))
    some (if negative then -value else value)
  else none

/-- The option with a name, for a command that writes files or one that does not. -/
def optionNamed? (writes : Bool) (name : String) : Option CommandOption :=
  match name with
  | "--package" => some (.value .package)
  | "--serializable-only" => some (.serializableOnly true)
  | "--no-serializable-only" => some (.serializableOnly false)
  | "--verbose" => some (.verbose true)
  | "--no-verbose" => some (.verbose false)
  | "--out" => if writes then some (.value .out) else none
  | "--workers" => if writes then some (.value .workers) else none
  | _ => none

def Given.setValue (given : Given) (option : ValueOption) (value : String) : Given :=
  match option with
  | .package => { given with package := some value }
  | .out => { given with out := value }
  | .workers => { given with workers := value }

/-- The name of an option and the value that an equals sign attaches to it. -/
def splitOption (argument : String) : String × Option String :=
  let characters := argument.toList
  match characters.dropWhile (· != '=') with
  | [] => (argument, none)
  | _ :: value => (String.ofList (characters.takeWhile (· != '=')), some (String.ofList value))

def isOption (argument : String) : Bool :=
  match argument.toList with
  | '-' :: _ :: _ => true
  | _ => false

def Given.addArgument (given : Given) (argument : String) : Given :=
  { given with arguments := given.arguments ++ [argument] }

/-- Read the arguments behind the name of a command. -/
def readArguments? (writes : Bool) (given : Given) : List String → Option Given
  | [] => some given
  | "--" :: rest => some (rest.foldl Given.addArgument given)
  | argument :: rest =>
      if isOption argument then
        let (name, attached) := splitOption argument
        match optionNamed? writes name, attached, rest with
        | some (.value option), some value, rest =>
            readArguments? writes (given.setValue option value) rest
        | some (.value option), none, value :: rest =>
            readArguments? writes (given.setValue option value) rest
        | some (.serializableOnly on), none, rest =>
            readArguments? writes { given with serializableOnly := on } rest
        | some (.verbose on), none, rest =>
            readArguments? writes { given with verbose := on } rest
        | _, _, _ => none
      else readArguments? writes (given.addArgument argument) rest

/-- The common options, with the only argument as the source. -/
def Given.options? (given : Given) : Option CommandOptions :=
  match given.arguments with
  | [source] => some {
      source := source, package := given.package
      serializableOnly := given.serializableOnly, verbose := given.verbose }
  | _ => none

/-- The command with a name and the arguments behind it. -/
def named? (name : String) (arguments : List String) : Option Command :=
  match name with
  | "extract" => do
      let given ← readArguments? true {} arguments
      let workers ← numberOf? given.workers
      return .extract (← given.options?) given.out workers
  | "types" => do
      let given ← readArguments? false {} arguments
      return .types (← given.options?)
  | _ => none

/-- The command that the arguments of a command line spell. -/
def ofArguments? : List String → Option Command
  | "--" :: name :: arguments | name :: arguments => named? name arguments
  | [] => none

end Command

end TypeCatalog
