import TypeCatalog.Notice
import TypeCatalog.Program.AttributeReading
import TypeCatalog.Program.Source
import TypeCatalog.Program.TypeExpr

/-! # Declared classes and functions

Every class statement of a program declares a type, wherever it stands: its qualified name is that of
the innermost class, function or module around it followed by its own. The first statement of each
qualified name counts; a later one is dropped with everything inside it. -/

namespace TypeCatalog

open Syntax

/-- A declared class: its statement and the qualified name of the scope it stands in. -/
structure ClassEntry where
  unit : SourceUnit
  scope : String
  header : ClassHeader
  body : Suite

namespace ClassEntry

def fqn (entry : ClassEntry) : String := entry.scope ++ "." ++ entry.header.name.text

/-- The scopes around the statements in the body of a class, innermost first. -/
def bodyScopes (entry : ClassEntry) : List String := [entry.fqn, entry.scope]

end ClassEntry

/-- A declared function; it is owned by the class in whose body it stands. -/
structure FunctionEntry where
  unit : SourceUnit
  scope : String
  owner : Option String
  header : FunctionHeader

namespace FunctionEntry

def fqn (entry : FunctionEntry) : String := entry.scope ++ "." ++ entry.header.name.text

def declaration (entry : FunctionEntry) : Declaration where
  kind := if entry.owner.isSome then .method else .function
  fqn := entry.fqn
  owner := entry.owner
  decorators := entry.header.decorators.map Expr.text
  location := some (entry.unit.locationOf entry.header.place)

end FunctionEntry

/-- What the modules of a program declare. -/
structure Declarations where
  classes : List ClassEntry
  fqns_nodup : (classes.map ClassEntry.fqn).Nodup
  functions : List FunctionEntry
  notices : List Notice

namespace Declarations

def empty : Declarations := ⟨[], by simp, [], []⟩

instance : Inhabited Declarations := ⟨empty⟩

/-- The qualified names of the declared classes. -/
def fqns (found : Declarations) : List String := found.classes.map ClassEntry.fqn

/-- Declare a class whose name is new. -/
def addClass (found : Declarations) (entry : ClassEntry) (fresh : entry.fqn ∉ found.fqns) :
    Declarations :=
  { found with
    classes := found.classes ++ [entry]
    fqns_nodup := by
      rw [List.map_append, List.nodup_append]
      refine ⟨found.fqns_nodup, by simp, ?_⟩
      intro left member right single same
      simp only [List.map_cons, List.map_nil, List.mem_singleton] at single
      exact fresh (single ▸ same ▸ member) }

def addFunction (found : Declarations) (entry : FunctionEntry) : Declarations :=
  { found with functions := found.functions ++ [entry] }

/-- Note that a class statement repeats a name. -/
def addRepeated (found : Declarations) (entry : ClassEntry) : Declarations :=
  { found with notices := found.notices ++ [.redeclared entry.fqn entry.unit.path] }

mutual

/-- Declare what a statement declares in a scope; the owner is the class around it, if the scope is
the body of one. -/
def addStatement (unit : SourceUnit) (scope : String) (owner : Option String)
    (found : Declarations) : Statement → Declarations
  | .line _ => found
  | .classStatement header body =>
      let entry : ClassEntry := ⟨unit, scope, header, body⟩
      if fresh : entry.fqn ∉ found.fqns then
        addSuite unit entry.fqn (some entry.fqn) (found.addClass entry fresh) body
      else found.addRepeated entry
  | .functionStatement header body =>
      let entry : FunctionEntry := ⟨unit, scope, owner, header⟩
      addSuite unit entry.fqn none (found.addFunction entry) body
  | .compound clauses => addClauses unit scope owner found clauses

def addClauses (unit : SourceUnit) (scope : String) (owner : Option String)
    (found : Declarations) : List Clause → Declarations
  | [] => found
  | .clause _ _ body :: rest =>
      addClauses unit scope owner (addSuite unit scope owner found body) rest

def addSuite (unit : SourceUnit) (scope : String) (owner : Option String)
    (found : Declarations) : Suite → Declarations
  | .inline _ => found
  | .indented body => addStatements unit scope owner found body

def addStatements (unit : SourceUnit) (scope : String) (owner : Option String)
    (found : Declarations) : List Statement → Declarations
  | [] => found
  | statement :: rest =>
      addStatements unit scope owner (addStatement unit scope owner found statement) rest

end

def addUnit (found : Declarations) (unit : SourceUnit) : Declarations :=
  addStatements unit unit.name none found unit.module.body

def ofUnits (units : List SourceUnit) : Declarations := units.foldl addUnit empty

/-- What the names of a unit are resolved against. -/
def nameScope (found : Declarations) (unit : SourceUnit) : NameScope where
  declared := found.fqns
  imports := unit.imports
  moduleName := unit.name

/-- What type expressions of a unit are read against. -/
def typeScope (found : Declarations) (types : Table TypeSymbol) (unit : SourceUnit) : TypeScope :=
  { toNameScope := found.nameScope unit, types := types }

def declaredType (found : Declarations) (entry : ClassEntry) : TypeSymbol :=
  .plain entry.fqn
    ((found.nameScope entry.unit).decoratorAttributes [entry.scope] entry.unit.locate
      entry.header.decorators)
    (entry.unit.locate entry.header.place) false

/-- The declared types by qualified name. -/
def types (found : Declarations) : Table TypeSymbol where
  entries := found.classes.map fun entry => (entry.fqn, found.declaredType entry)
  keys_nodup := by
    rw [List.map_map]
    exact found.fqns_nodup

/-- The notices of reading the decorators of a class. -/
def decoratorNotices (found : Declarations) (entry : ClassEntry) : List Notice :=
  (found.nameScope entry.unit).decoratorNotices [entry.scope] entry.fqn entry.header.decorators

end Declarations

end TypeCatalog
