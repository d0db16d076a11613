import TypeCatalog.Text.Quoted

/-! # Notices

What the library reports besides its results, in the order in which it happens: entries that are
skipped, bases that are dropped, and what has been read, built and written. -/

namespace TypeCatalog

/-- The importance of a notice. -/
inductive NoticeLevel where
  | debug
  | info
  | warning
  deriving DecidableEq, Repr

/-- An event worth reporting. -/
inductive Notice where
  /-- A class statement repeats the name of an earlier one. -/
  | redeclared (fqn path : String)
  /-- An argument of an attribute annotation is not a literal. -/
  | skippedArgument (fullName target : String)
  /-- A chain of bases runs into itself through a type, and a class loses its base. -/
  | cycleCut (through dropped : String)
  | built (units types : Nat)
  | parsed (path : String)
  | ignoredSettings (keys : List String) (path : String)
  | wrote (count : Nat) (directory : String)
  deriving DecidableEq, Repr

namespace Notice

/-- The importance of an event. -/
def level : Notice → NoticeLevel
  | .cycleCut _ _ => .warning
  | .wrote _ _ => .info
  | _ => .debug

/-- The wording of an event. -/
def message : Notice → String
  | .redeclared fqn path => "skipping redeclaration of " ++ fqn ++ " in " ++ path
  | .skippedArgument fullName target =>
      "skipping non-literal argument of " ++ fullName ++ " on " ++ target
  | .cycleCut through dropped =>
      "inheritance cycle through " ++ through ++ "; dropping base of " ++ dropped
  | .built units types =>
      "built program with " ++ toString units ++ " units and " ++ toString types ++ " types"
  | .parsed path => "parsed " ++ path
  | .ignoredSettings keys path =>
      "ignoring unknown settings [" ++ ", ".intercalate (keys.map Text.display) ++ "] in " ++ path
  | .wrote count directory =>
      "wrote " ++ toString count ++ " type descriptions to " ++ directory

end Notice

def NoticeLevel.word : NoticeLevel → String
  | .debug => "DEBUG"
  | .info => "INFO"
  | .warning => "WARNING"

end TypeCatalog
