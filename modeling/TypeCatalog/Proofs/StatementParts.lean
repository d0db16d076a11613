import TypeCatalog.Proofs.ParserTexts
import TypeCatalog.Syntax.Module

/-! # Parts of statements

A statement is put together from simple statements and the headers of its classes and functions. In
a module that is read from a text each of these parts is one that the grammar gives
(`TypeCatalog.Syntax.Module.exists_writtenBy_of_read?`), so what holds of all results of the parsers
of parts holds of all parts of the module.
-/

namespace TypeCatalog.Syntax

/-! ## Parts -/

/-- What a statement is put together from. -/
inductive Part where
  | simple (statement : SimpleStatement)
  | classHeader (header : ClassHeader)
  | functionHeader (header : FunctionHeader)

mutual

/-- The parts of a statement, in source order. -/
def Statement.parts : Statement → List Part
  | .line parts => parts.map Part.simple
  | .classStatement header body => .classHeader header :: body.parts
  | .functionStatement header body => .functionHeader header :: body.parts
  | .compound clauses => clauseParts clauses

def clauseParts : List Clause → List Part
  | [] => []
  | .clause _ _ body :: rest => body.parts ++ clauseParts rest

def Suite.parts : Suite → List Part
  | .inline parts => parts.map Part.simple
  | .indented body => statementParts body

def statementParts : List Statement → List Part
  | [] => []
  | statement :: rest => statement.parts ++ statementParts rest

end

/-- The parts of a module, in source order. -/
def Module.parts (module : Module) : List Part := statementParts module.body

open TypeCatalog.Syntax.Parser

/-- A part that a grammar gives. The names of functions and the decorators play no role. -/
def Part.WrittenBy (grammar : ExprGrammar) : Part → Prop
  | .simple statement => grammar.simpleStatement.CanGive statement
  | .classHeader header => header.name.text ∉ reservedWords ∧
      (header.arguments = [] ∨ grammar.arguments.CanGive header.arguments)
  | .functionHeader header => ∀ annotation ∈ header.returns, grammar.expression.CanGive annotation

variable (grammar : ExprGrammar)

/-- The parts of a statement are those that a grammar gives. -/
def Statement.WrittenBy (statement : Statement) : Prop :=
  ∀ part ∈ statement.parts, part.WrittenBy grammar

def Suite.WrittenBy (suite : Suite) : Prop := ∀ part ∈ suite.parts, part.WrittenBy grammar

def Clause.WrittenBy : Clause → Prop
  | .clause _ _ body => body.WrittenBy grammar

def Clause.EachWrittenBy (clauses : List Clause) : Prop :=
  ∀ clause ∈ clauses, clause.WrittenBy grammar

variable {grammar}

theorem writtenBy_of_statements {statements : List Statement}
    (each : ∀ statement ∈ statements, statement.WrittenBy grammar) :
    ∀ part ∈ statementParts statements, part.WrittenBy grammar := by
  induction statements with
  | nil => simp [statementParts]
  | cons statement rest ih =>
      obtain ⟨first, others⟩ := List.forall_mem_cons.mp each
      rw [statementParts]
      exact List.forall_mem_append.mpr ⟨first, ih others⟩

theorem Statement.writtenBy_compound {clauses : List Clause}
    (each : Clause.EachWrittenBy grammar clauses) : (compound clauses).WrittenBy grammar := by
  rw [Statement.WrittenBy, parts]
  induction clauses with
  | nil => simp [clauseParts]
  | cons clause rest ih =>
      obtain ⟨kind, head, body⟩ := clause
      obtain ⟨first, others⟩ := List.forall_mem_cons.mp each
      rw [clauseParts]
      exact List.forall_mem_append.mpr ⟨first, ih others⟩

theorem Statement.writtenBy_line {parts : List SimpleStatement}
    (each : ∀ part ∈ parts, grammar.simpleStatement.CanGive part) :
    (line parts).WrittenBy grammar := by
  rw [Statement.WrittenBy, Statement.parts]
  exact List.forall_mem_map.mpr each

theorem Suite.writtenBy_inline {parts : List SimpleStatement}
    (each : ∀ part ∈ parts, grammar.simpleStatement.CanGive part) :
    (inline parts).WrittenBy grammar := by
  rw [Suite.WrittenBy, Suite.parts]
  exact List.forall_mem_map.mpr each

theorem Statement.writtenBy_classStatement {header : ClassHeader} {body : Suite}
    (isHeader : (Part.classHeader header).WrittenBy grammar) (inside : body.WrittenBy grammar) :
    (classStatement header body).WrittenBy grammar := by
  rw [Statement.WrittenBy, parts]
  exact List.forall_mem_cons.mpr ⟨isHeader, inside⟩

theorem Statement.writtenBy_functionStatement {header : FunctionHeader} {body : Suite}
    (isHeader : (Part.functionHeader header).WrittenBy grammar) (inside : body.WrittenBy grammar) :
    (functionStatement header body).WrittenBy grammar := by
  rw [Statement.WrittenBy, parts]
  exact List.forall_mem_cons.mpr ⟨isHeader, inside⟩

/-! ## The grammar of statements -/

namespace ExprGrammar

/-- The simple statements of a line are those that the grammar gives. -/
theorem gives_statementLine (grammar : ExprGrammar) : grammar.statementLine.Gives fun parts =>
    ∀ part ∈ parts, grammar.simpleStatement.CanGive part :=
  ((gives_canGive _).separated _).bind fun _ each => .behind fun _ => .behind fun _ => .pure each

theorem gives_compound {clauses : Parser (List Clause)}
    (gives : clauses.Gives (Clause.EachWrittenBy grammar)) :
    Gives (do return .compound (← clauses)) (Statement.WrittenBy grammar) :=
  gives.bind fun _ each => .pure (Statement.writtenBy_compound each)

section

variable {suite : Parser Suite} (bodies : suite.Gives (Suite.WrittenBy grammar))

include bodies

theorem gives_clauseOf (kind : ClauseKind) (head : Parser (List Expr)) :
    (clauseOf suite kind head).Gives (Clause.WrittenBy grammar) :=
  .behind fun _ => .behind fun _ => bodies.bind fun _ inside => .pure inside

theorem gives_wordClause? (text : String) (kind : ClauseKind) :
    (wordClause? suite text kind).Gives (Clause.EachWrittenBy grammar) := by
  refine .behind fun _ => .ite ?_ (.pure (List.forall_mem_nil _))
  exact (gives_clauseOf bodies kind _).bind fun _ clause =>
    .pure (List.forall_mem_singleton.mpr clause)

/-- A first clause with an optional clause behind it. -/
theorem gives_clauses (kind : ClauseKind) (head : Parser (List Expr)) :
    Gives (do
        let first ← clauseOf suite kind head
        let last ← wordClause? suite "else" .elseClause
        return first :: last) (Clause.EachWrittenBy grammar) :=
  (gives_clauseOf bodies kind head).bind fun _ first =>
    (gives_wordClause? bodies _ _).bind fun _ last => .pure (List.forall_mem_cons.mpr ⟨first, last⟩)

theorem gives_ifStatement : (grammar.ifStatement suite).Gives (Clause.EachWrittenBy grammar) :=
  .behind fun _ => (gives_clauseOf bodies _ _).bind fun _ first =>
    (Gives.many (.behind fun _ => gives_clauseOf bodies _ _)).bind fun _ others =>
      (gives_wordClause? bodies _ _).bind fun _ last => .pure <|
        List.forall_mem_append.mpr ⟨List.forall_mem_cons.mpr ⟨first, others⟩, last⟩

theorem gives_whileStatement :
    (grammar.whileStatement suite).Gives (Clause.EachWrittenBy grammar) :=
  .behind fun _ => gives_clauses bodies _ _

theorem gives_forStatement : (grammar.forStatement suite).Gives (Clause.EachWrittenBy grammar) :=
  .behind fun _ => gives_clauses bodies _ _

theorem gives_withStatement : (grammar.withStatement suite).Gives (Clause.EachWrittenBy grammar) :=
  .behind fun _ => (gives_clauseOf bodies _ _).bind fun _ clause =>
    .pure (List.forall_mem_singleton.mpr clause)

theorem gives_handler : (grammar.handler suite).Gives fun found => found.2.WrittenBy grammar :=
  .behind fun _ => .behind fun _ => (gives_clauseOf bodies _ _).bind fun _ clause => .pure clause

theorem gives_tryStatement : (grammar.tryStatement suite).Gives (Clause.EachWrittenBy grammar) := by
  refine .behind fun _ => (gives_clauseOf bodies _ _).bind fun first isFirst =>
    (gives_handler bodies).many.bind fun handlers handled => ?_
  have front : Clause.EachWrittenBy grammar (first :: handlers.map Prod.snd) :=
    List.forall_mem_cons.mpr ⟨isFirst, List.forall_mem_map.mpr handled⟩
  have nothing : Gives (pure []) (Clause.EachWrittenBy grammar) := .pure (List.forall_mem_nil _)
  refine .ite (nothing.bind ?_) ((gives_wordClause? bodies _ _).bind ?_) <;>
    exact fun _ otherwise => (gives_wordClause? bodies _ _).bind fun _ last =>
      .behind fun _ => .behind fun _ => .pure <|
        List.forall_mem_append.mpr ⟨List.forall_mem_append.mpr ⟨front, otherwise⟩, last⟩

theorem gives_matchStatement (depth : Nat) :
    (grammar.matchStatement suite depth).Gives (Clause.EachWrittenBy grammar) :=
  .behind fun _ => .behind fun _ => .behind fun _ => .behind fun _ => .behind fun _ =>
    (Gives.many1 (.behind fun _ => gives_clauseOf bodies _ _)).bind fun _ cases =>
      .behind fun _ => .pure cases

theorem gives_classStatement (decorators : List Expr) :
    (grammar.classStatement suite decorators).Gives (Statement.WrittenBy grammar) := by
  have header : ∀ {place : Place} {name : Identifier} {arguments : List (Argument Expr)},
      name.text ∉ reservedWords → (arguments = [] ∨ grammar.arguments.CanGive arguments) →
      Gives (do
        operator ":"
        let body ← suite
        return .classStatement ⟨place, name, decorators, arguments⟩ body)
          (Statement.WrittenBy grammar) := fun name given =>
    .behind fun _ => bodies.bind fun _ inside =>
      .pure (Statement.writtenBy_classStatement ⟨name, given⟩ inside)
  refine .behind fun _ => gives_identifier.bind fun _ name => .behind fun _ => .behind fun _ =>
    .ite ?_ (header name (Or.inl rfl))
  exact (gives_canGive _).bind fun _ given => .behind fun _ => header name (Or.inr given)

theorem gives_functionStatement (decorators : List Expr) :
    (grammar.functionStatement suite decorators).Gives (Statement.WrittenBy grammar) := by
  have header : ∀ {place : Place} {name : Identifier} {returns : Option Expr},
      (∀ annotation ∈ returns, grammar.expression.CanGive annotation) →
      Gives (do
        operator ":"
        let body ← suite
        return .functionStatement ⟨place, name, decorators, returns⟩ body)
          (Statement.WrittenBy grammar) := fun given =>
    .behind fun _ => bodies.bind fun _ inside =>
      .pure (Statement.writtenBy_functionStatement given inside)
  refine .behind fun _ => .behind fun _ => .behind fun _ => .behind fun _ => .behind fun _ =>
    .behind fun _ => .behind fun _ => .ite ?_ (header nofun)
  refine (gives_canGive _).bind fun annotation given => header ?_
  rintro _ ⟨⟩
  exact given

theorem gives_decorated : (grammar.decorated suite).Gives (Statement.WrittenBy grammar) :=
  .behind fun _ => .behind fun _ =>
    .ite (gives_classStatement bodies _) (gives_functionStatement bodies _)

theorem gives_asynchronous : (grammar.asynchronous suite).Gives (Statement.WrittenBy grammar) :=
  .orElse
    (.behind fun _ => .behind fun _ => .ite (gives_compound (gives_forStatement bodies))
      (gives_compound (gives_withStatement bodies)))
    (gives_functionStatement bodies _)

theorem gives_statementOf (depth : Nat) :
    (grammar.statementOf suite depth).Gives (Statement.WrittenBy grammar) := by
  have lines : grammar.lineStatement.Gives (Statement.WrittenBy grammar) :=
    (gives_statementLine grammar).bind fun _ each => .pure (Statement.writtenBy_line each)
  refine .behind fun token? => ?_
  cases token? with
  | none => exact .failure
  | some token =>
      refine .ite (gives_decorated bodies) (.ite lines ?_)
      split
      · exact gives_classStatement bodies []
      · exact gives_functionStatement bodies []
      · exact gives_asynchronous bodies
      · exact gives_compound (gives_ifStatement bodies)
      · exact gives_compound (gives_whileStatement bodies)
      · exact gives_compound (gives_forStatement bodies)
      · exact gives_compound (gives_withStatement bodies)
      · exact gives_compound (gives_tryStatement bodies)
      · exact .orElse (gives_compound (gives_matchStatement bodies depth)) lines
      · exact lines

end

theorem gives_suiteOfDepth (grammar : ExprGrammar) (depth : Nat) :
    (grammar.suiteOfDepth depth).Gives (Suite.WrittenBy grammar) := by
  induction depth with
  | zero => exact .failure
  | succ depth ih =>
      refine .behind fun _ => .ite ?_ ?_
      · refine .behind fun _ => .behind fun _ =>
          (gives_statementOf ih depth).many1.bind fun body inside => .behind fun _ => .pure ?_
        rw [Suite.WrittenBy, Suite.parts]
        exact writtenBy_of_statements inside
      · exact (gives_statementLine grammar).bind fun _ each => .pure (Suite.writtenBy_inline each)

end ExprGrammar

/-- **Parts of modules.** Every part of a module that is read from a text is given by the grammar of
expressions up to some depth. -/
theorem Module.exists_writtenBy_of_read? {text : String} {module : Module}
    (isRead : read? text = some module) :
    ∃ depth, ∀ part ∈ module.parts, part.WrittenBy (ExprGrammar.ofDepth depth) := by
  obtain ⟨tokens, _, _, parsed⟩ := body_of_read? isRead
  exact ⟨tokens.length, writtenBy_of_statements ((ExprGrammar.gives_statementOf
    (ExprGrammar.gives_suiteOfDepth _ tokens.length) tokens.length).many parsed)⟩

end TypeCatalog.Syntax
