import TypeCatalog.Syntax.Grammar.Statement
import TypeCatalog.Syntax.Lexer

/-! # Modules

A module is read from a source text. Every class, function and annotated assignment of a module is a
site, known by the place where it begins; the sites of a module stand at different places, so a
place names at most one of them. -/

namespace TypeCatalog.Syntax

/-! ## Sites -/

namespace SimpleStatement

/-- The place of an annotated assignment; other simple statements are no sites. -/
def site? : SimpleStatement → Option Place
  | .annotated target _ _ => some target.place
  | _ => none

end SimpleStatement

mutual

/-- The places of the sites of a statement, in source order. -/
def Statement.sites : Statement → List Place
  | .line parts => parts.filterMap SimpleStatement.site?
  | .classStatement header body => header.place :: body.sites
  | .functionStatement header body => header.place :: body.sites
  | .compound clauses => clauseSites clauses

def clauseSites : List Clause → List Place
  | [] => []
  | .clause _ _ body :: rest => body.sites ++ clauseSites rest

def Suite.sites : Suite → List Place
  | .inline parts => parts.filterMap SimpleStatement.site?
  | .indented body => statementSites body

def statementSites : List Statement → List Place
  | [] => []
  | statement :: rest => statement.sites ++ statementSites rest

end

/-- A module: statements whose sites stand at different places. -/
structure Module where
  body : List Statement
  sites_nodup : (statementSites body).Nodup

namespace Module

def empty : Module := ⟨[], by simp [statementSites]⟩

instance : Inhabited Module := ⟨empty⟩

/-- The module of a list of statements, if their sites stand at different places. -/
def ofStatements? (body : List Statement) : Option Module :=
  if nodup : (statementSites body).Nodup then some ⟨body, nodup⟩ else none

/-- A text without the byte order mark that it may begin with. -/
def dropMark (text : String) : String :=
  match text.toList with
  | '\ufeff' :: rest => String.ofList rest
  | _ => text

/-- Read something from a whole token list. -/
def readAll? {α : Type} (item : Parser α) (tokens : List Token) : Option α := do
  let (result, rest) ← item tokens
  match rest with
  | [token] => if token.kind = .finish then some result else none
  | _ => none

/-- The module that a source text writes. -/
def read? (text : String) : Option Module := do
  let tokens ← Lexer.tokens? (dropMark text)
  let depth := tokens.length
  let grammar := ExprGrammar.ofDepth depth
  let suite := grammar.suiteOfDepth depth
  let body ← readAll? (Parser.many (grammar.statementOf suite depth)) tokens
  ofStatements? body

/-- Behind what is read from a whole token list the last token is left. -/
theorem readAll?_eq_some {α : Type} {item : Parser α} {tokens : List Token} {result : α}
    (isRead : readAll? item tokens = some result) :
    ∃ finish, item tokens = some (result, [finish]) := by
  obtain ⟨⟨found, rest⟩, parsed, isLast⟩ := Option.bind_eq_some_iff.mp isRead
  dsimp only at isLast
  split at isLast
  · split at isLast
    · exact ⟨_, Option.some.inj isLast ▸ parsed⟩
    · simp at isLast
  · simp at isLast

/-- What a module that is read consists of: its statements are read from all tokens of its text but
the last. -/
theorem body_of_read? {text : String} {module : Module} (isRead : read? text = some module) :
    ∃ tokens finish, Lexer.tokens? (dropMark text) = some tokens ∧
      Parser.many ((ExprGrammar.ofDepth tokens.length).statementOf
        ((ExprGrammar.ofDepth tokens.length).suiteOfDepth tokens.length) tokens.length) tokens =
          some (module.body, [finish]) := by
  obtain ⟨tokens, divided, fromTokens⟩ := Option.bind_eq_some_iff.mp isRead
  obtain ⟨body, fromAll, whole⟩ := Option.bind_eq_some_iff.mp fromTokens
  obtain ⟨finish, parsed⟩ := readAll?_eq_some fromAll
  rw [ofStatements?] at whole
  split at whole
  · exact ⟨tokens, finish, divided, Option.some.inj whole ▸ parsed⟩
  · simp at whole

end Module

/-- The expression that a whole text writes: items of a tuple need no brackets. -/
def Expr.read? (text : String) : Option Expr := do
  let tokens ← Lexer.tokens? text
  let grammar := ExprGrammar.ofDepth tokens.length
  Module.readAll? (do
    let value ← grammar.expressions
    let _ ← Parser.ofKind .lineEnd
    return value) tokens

end TypeCatalog.Syntax
