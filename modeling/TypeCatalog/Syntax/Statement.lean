import TypeCatalog.Syntax.Expr

/-! # Statements

A module is a list of statements. A compound statement is a sequence of clauses, each with a suite;
class and function statements stand apart because they open scopes. A suite is either an indented
block of statements or a line of simple statements behind the colon. -/

namespace TypeCatalog.Syntax

/-- A name bound by an import, with the name it is given. Dotted names keep their source text. -/
structure ImportedName where
  name : String
  alternative : Option Identifier
  deriving DecidableEq, Inhabited

/-- What an import from a module binds. -/
inductive ImportedNames where
  | all
  | names (names : List ImportedName)

/-- The kinds of simple statements that neither import nor annotate. -/
inductive SimpleKind where
  | assertion
  | assignment
  | break
  | continue
  | delete
  | expression
  | global
  | pass
  | raise
  | return
  | typeAlias
  deriving DecidableEq, Repr

/-- A simple statement. -/
inductive SimpleStatement where
  | importModules (names : List ImportedName)
  /-- An import from a module, relative by as many levels as there are dots before its name. -/
  | importFrom (level : Nat) (module : Option String) (names : ImportedNames)
  | annotated (target annotation : Expr) (value : Option Expr)
  | other (kind : SimpleKind) (parts : List Expr)

/-- What stands before the body of a class. -/
structure ClassHeader where
  place : Place
  name : Identifier
  decorators : List Expr
  arguments : List (Argument Expr)

/-- What stands before the body of a function. -/
structure FunctionHeader where
  place : Place
  name : Identifier
  decorators : List Expr
  returns : Option Expr

/-- The kinds of clauses of compound statements. -/
inductive ClauseKind where
  | ifClause
  | elifClause
  | elseClause
  | forClause
  | whileClause
  | withClause
  | tryClause
  | exceptClause
  | finallyClause
  | caseClause
  deriving DecidableEq, Repr

mutual

/-- A statement. -/
inductive Statement where
  | line (parts : List SimpleStatement)
  | classStatement (header : ClassHeader) (body : Suite)
  | functionStatement (header : FunctionHeader) (body : Suite)
  | compound (clauses : List Clause)

/-- A clause of a compound statement: its head and its suite. -/
inductive Clause where
  | clause (kind : ClauseKind) (head : List Expr) (body : Suite)

/-- The body of a clause, class or function. -/
inductive Suite where
  | inline (parts : List SimpleStatement)
  | indented (body : List Statement)

end

namespace Suite

/-- The statements of an indented block; simple statements behind a colon are no statement lines. -/
def statements : Suite → List Statement
  | .inline _ => []
  | .indented body => body

end Suite

end TypeCatalog.Syntax
