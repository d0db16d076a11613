import TypeCatalog.Program.Bases
import TypeCatalog.Proofs.ExpressionTexts
import TypeCatalog.Proofs.StatementParts

/-! # Type expressions

Types are written in three places of a module: as bases of classes, as annotations of assignments,
and as what functions return. In a module that is read from a text all these expressions taper
(`TypeCatalog.Syntax.Module.tapers_of_mem_typeExprs`): the parts of an expression that have types of
their own are shorter than what they stand in.
-/

namespace TypeCatalog.Syntax

/-- The expressions of a part that stand for types. -/
def Part.typeExprs : Part → List Expr
  | .simple (.annotated _ type _) => [type]
  | .simple _ => []
  | .classHeader header => header.baseExprs
  | .functionHeader header => header.returns.toList

/-- The expressions of a module that stand for types, in source order. -/
def Module.typeExprs (module : Module) : List Expr := module.parts.flatMap Part.typeExprs

theorem mem_baseExprs {header : ClassHeader} {expr : Expr} :
    expr ∈ header.baseExprs ↔ .positional expr ∈ header.arguments := by
  rw [ClassHeader.baseExprs, List.mem_filterMap]
  refine ⟨?_, fun listed => ⟨_, listed, rfl⟩⟩
  rintro ⟨argument, listed, isPositional⟩
  split at isPositional
  · exact Option.some.inj isPositional ▸ listed
  · simp at isPositional

namespace ExprGrammar

open TypeCatalog.Syntax.Parser

/-! ## Annotations -/

/-- What a simple statement is annotated with tapers, if it is annotated. -/
def AnnotatedTapers (statement : SimpleStatement) : Prop :=
  ∀ expr ∈ (Part.simple statement).typeExprs, expr.Tapers

theorem annotatedTapers_other (kind : SimpleKind) (parts : List Expr) :
    AnnotatedTapers (.other kind parts) := nofun

theorem annotatedTapers_annotated (target : Expr) {type : Expr} (value : Option Expr)
    (tapers : type.Tapers) : AnnotatedTapers (.annotated target type value) :=
  List.forall_mem_singleton.mpr tapers

theorem gives_wordStatement (text : String) (kind : SimpleKind) (parts : Parser (List Expr)) :
    (wordStatement text kind parts).Gives AnnotatedTapers :=
  .behind fun _ => .behind fun _ => .pure (annotatedTapers_other _ _)

theorem gives_importModules : importModules.Gives AnnotatedTapers :=
  .behind fun _ => .behind fun _ => .pure nofun

theorem gives_importFrom : importFrom.Gives AnnotatedTapers := by
  refine .behind fun _ => .behind fun _ => .behind fun _ =>
    .ite (.behind fun _ => .behind ?_) (.behind fun _ => .behind ?_) <;>
    exact fun _ => .behind fun _ => .behind fun _ => .ite (.pure nofun) <| .behind fun _ =>
      .ite (.behind fun _ => .behind fun _ => .pure nofun) (.behind fun _ => .pure nofun)

section

variable {grammar : ExprGrammar} (expression : grammar.expression.Gives Expr.Tapers)

theorem gives_typeAlias : grammar.typeAlias.Gives AnnotatedTapers :=
  .behind fun _ => .behind fun _ => .behind fun _ => .behind fun _ => .behind fun _ =>
    .pure (annotatedTapers_other _ _)

include expression

theorem gives_expressionStatement : grammar.expressionStatement.Gives AnnotatedTapers := by
  refine .behind fun target => .behind fun _ => .ite ?_ <| .behind fun _ => .ite ?_ ?_
  · exact .behind fun _ => .behind fun _ => expression.bind fun type tapers =>
      .behind fun _ => .ite (.behind fun _ => .pure (annotatedTapers_annotated _ _ tapers))
        (.pure (annotatedTapers_annotated _ _ tapers))
  · exact .behind fun _ => .behind fun _ => .pure (annotatedTapers_other _ _)
  · refine .behind fun operator => ?_
    cases operator with
    | none => exact .pure (annotatedTapers_other _ _)
    | some _ => exact .behind fun _ => .behind fun _ => .pure (annotatedTapers_other _ _)

theorem gives_simpleStatement : grammar.simpleStatement.Gives AnnotatedTapers := by
  have expressions := gives_expressionStatement expression
  refine .behind fun token? => ?_
  cases token? with
  | none => exact .failure
  | some token =>
      refine .ite expressions ?_
      split
      · exact gives_importModules
      · exact gives_importFrom
      all_goals first
        | exact gives_wordStatement _ _ _
        | exact .orElse gives_typeAlias expressions
        | exact expressions

end

/-! ## Bases -/

/-- What is read as a positional argument tapers. -/
def PositionalTapers (argument : Argument Expr) : Prop :=
  ∀ expr, argument = .positional expr → expr.Tapers

section

variable {grammar : ExprGrammar} (named : grammar.named.Gives Expr.Tapers)

include named

theorem gives_argument : grammar.argument.Gives PositionalTapers := by
  refine .behind fun _ => .ite (.behind fun _ => .pure nofun) <|
    .behind fun _ => .ite (.behind fun _ => .pure nofun) <|
    .behind fun _ => .ite (.behind fun _ => .behind fun _ => .behind fun _ => .pure nofun) ?_
  refine named.bind fun value tapers => .pure ?_
  rintro _ ⟨⟩
  exact tapers

theorem gives_arguments : grammar.arguments.Gives fun arguments =>
    ∀ argument ∈ arguments, PositionalTapers argument :=
  .behind fun _ => .ite (.pure (List.forall_mem_nil _)) <|
    (gives_argument named).commaList.bind fun _ each => .behind fun _ => .pure each

end

end ExprGrammar

/-! ## Parts -/

open ExprGrammar in
/-- The types of a part that the grammar gives taper. -/
theorem Part.tapers_of_writtenBy {depth : Nat} {part : Part}
    (written : part.WrittenBy (ofDepth depth)) : ∀ expr ∈ part.typeExprs, expr.Tapers := by
  have expression := (takesText_ofDepth depth).gives fun _ _ inside => inside.tapers
  have named := (takesText_named (bounded_ofDepth depth) (takesText_ofDepth depth)).gives
    fun _ _ inside => inside.tapers
  cases part with
  | simple statement => exact (gives_simpleStatement expression).of_canGive written
  | classHeader header =>
      intro expr listed
      have positional := mem_baseExprs.mp listed
      rcases written.2 with empty | given
      · simp [empty] at positional
      · exact (gives_arguments named).of_canGive given _ positional expr rfl
  | functionHeader header =>
      intro type listed
      exact expression.of_canGive (written type (Option.mem_toList.mp listed))

/-- **Type expressions.** Every expression of a module that stands for a type tapers, if the module
is read from a text. -/
theorem Module.tapers_of_mem_typeExprs {text : String} {module : Module}
    (isRead : read? text = some module) : ∀ expr ∈ module.typeExprs, expr.Tapers := by
  intro expr listed
  obtain ⟨part, isPart, inPart⟩ := List.mem_flatMap.mp listed
  obtain ⟨depth, written⟩ := exists_writtenBy_of_read? isRead
  exact part.tapers_of_writtenBy (written part isPart) expr inPart

end TypeCatalog.Syntax
