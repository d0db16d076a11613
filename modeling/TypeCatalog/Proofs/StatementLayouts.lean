import TypeCatalog.Proofs.ClassSites
import TypeCatalog.Proofs.ImportLayouts

/-! # Statements in different layouts

On tokens of the same layout the parsers of statements find statements that import the same and whose
class statements have the same names in the same places
(`TypeCatalog.Syntax.ExprGrammar.parallel_statementOf`). The grammars of two texts have different
depths, which are as many as their tokens; both suffice. So two texts with the same tokens are read
as modules that import and declare the same (`TypeCatalog.Syntax.Module.body_same_of_sameTokens`).
-/

namespace TypeCatalog

open Syntax

/-! ## Statements that declare and import alike -/

namespace ClassSite

/-- A class statement without its unit, with nothing but a name and where it stands. -/
def bare (site : ClassSite) : ClassSite where
  unit := default
  around := site.around
  depth := site.depth
  header := ⟨.start, site.header.name, [], []⟩
  body := .inline []

end ClassSite

namespace Syntax

/-- Statements with the same imports and with class statements of the same names. -/
structure Statement.Same (statement other : Statement) : Prop where
  imports : List.Forall₂ SimpleStatement.Same statement.imports other.imports
  classes (unit otherUnit : SourceUnit) (around : List String) (depth : Nat) :
    (ClassSite.ofStatement unit around depth statement).map ClassSite.bare =
      (ClassSite.ofStatement otherUnit around depth other).map ClassSite.bare

/-- Suites with the same imports and with class statements of the same names. -/
structure Suite.Same (suite other : Suite) : Prop where
  imports : List.Forall₂ SimpleStatement.Same suite.imports other.imports
  classes (unit otherUnit : SourceUnit) (around : List String) (depth : Nat) :
    (ClassSite.ofSuite unit around depth suite).map ClassSite.bare =
      (ClassSite.ofSuite otherUnit around depth other).map ClassSite.bare

/-- Clauses with suites that are the same. -/
inductive Clause.Same : Clause → Clause → Prop
  | clause (kind otherKind : ClauseKind) (head otherHead : List Expr) {body other : Suite}
      (same : body.Same other) : Same (.clause kind head body) (.clause otherKind otherHead other)

theorem statementImports_same {statements others : List Statement}
    (each : List.Forall₂ Statement.Same statements others) :
    List.Forall₂ SimpleStatement.Same (statementImports statements) (statementImports others) := by
  induction each with
  | nil => exact .nil
  | cons first _ ih => exact List.rel_append first.imports ih

theorem classes_same {statements others : List Statement}
    (each : List.Forall₂ Statement.Same statements others) (unit otherUnit : SourceUnit)
    (around : List String) (depth : Nat) :
    (ClassSite.ofStatements unit around depth statements).map ClassSite.bare =
      (ClassSite.ofStatements otherUnit around depth others).map ClassSite.bare := by
  induction each with
  | nil => rw [ClassSite.ofStatements, ClassSite.ofStatements]
  | cons first _ ih =>
      rw [ClassSite.ofStatements, ClassSite.ofStatements, List.map_append, List.map_append,
        first.classes unit otherUnit, ih]

namespace Suite.Same

/-- What stands on the line of a colon neither declares nor imports. -/
theorem inline (parts others : List SimpleStatement) :
    (Suite.inline parts).Same (.inline others) where
  imports := .nil
  classes unit otherUnit around depth := by
    rw [ClassSite.ofSuite, ClassSite.ofSuite]

theorem indented {body others : List Statement} (each : List.Forall₂ Statement.Same body others) :
    (Suite.indented body).Same (.indented others) where
  imports := statementImports_same each
  classes unit otherUnit around depth := by
    rw [ClassSite.ofSuite, ClassSite.ofSuite]
    exact classes_same each unit otherUnit around depth

end Suite.Same

namespace Statement.Same

theorem line {parts others : List SimpleStatement}
    (each : List.Forall₂ SimpleStatement.Same parts others) :
    (Statement.line parts).Same (.line others) where
  imports := by
    rw [Statement.imports, Statement.imports]
    induction each with
    | nil => exact .nil
    | cons first _ ih =>
        cases first with
        | modules names => exact .cons (.modules names) ih
        | source level same names => exact .cons (.source level same names) ih
        | other isOther twinIsOther =>
            rw [List.filter_cons_of_neg (by rw [isOther]; decide),
              List.filter_cons_of_neg (by rw [twinIsOther]; decide)]
            exact ih
  classes unit otherUnit around depth := by
    rw [ClassSite.ofStatement, ClassSite.ofStatement]

theorem classStatement {header otherHeader : ClassHeader} {body other : Suite}
    (named : header.name = otherHeader.name) (same : body.Same other) :
    (Statement.classStatement header body).Same (.classStatement otherHeader other) where
  imports := .nil
  classes unit otherUnit around depth := by
    rw [ClassSite.ofStatement, ClassSite.ofStatement, List.map_cons, List.map_cons,
      same.classes unit otherUnit, ClassSite.bare, ClassSite.bare, named]

theorem functionStatement {header otherHeader : FunctionHeader} {body other : Suite}
    (named : header.name = otherHeader.name) (same : body.Same other) :
    (Statement.functionStatement header body).Same (.functionStatement otherHeader other) where
  imports := .nil
  classes unit otherUnit around depth := by
    rw [ClassSite.ofStatement, ClassSite.ofStatement, same.classes unit otherUnit, named]

theorem compound {clauses others : List Clause} (each : List.Forall₂ Clause.Same clauses others) :
    (Statement.compound clauses).Same (.compound others) where
  imports := by
    rw [Statement.imports, Statement.imports]
    induction each with
    | nil => exact .nil
    | cons first _ ih =>
        cases first with
        | clause kind otherKind head otherHead same => exact List.rel_append same.imports ih
  classes unit otherUnit around depth := by
    rw [ClassSite.ofStatement, ClassSite.ofStatement]
    induction each with
    | nil => rw [ClassSite.ofClauses, ClassSite.ofClauses]
    | cons first _ ih =>
        cases first with
        | clause kind otherKind head otherHead same =>
            rw [ClassSite.ofClauses, ClassSite.ofClauses, List.map_append, List.map_append,
              same.classes unit otherUnit, ih]

end Statement.Same

end Syntax

namespace Syntax.ExprGrammar

open TypeCatalog.Syntax.Parser

variable {strict before : Bool} {room : Room} {grammar twin : ExprGrammar}

/-! ## Patterns -/

theorem parallel_numberPattern :
    Parallel true before true room Eq numberPattern numberPattern := by
  refine (parallel_operator? "-").bind_eq fun _ =>
    (parallel_ofKind .number (by decide)).loosen.step fun first other same =>
    (parallel_ahead fun _ _ alike => by rw [alike.isOperator, alike.isOperator]).bind_eq fun _ =>
    .ite ((parallel_oneOf _).bind_eq fun _ =>
      (parallel_ofKind .number (by decide)).loosen.bind fun second further sameSecond => ?_)
      (.pure rfl)
  have text : first.text = other.text := same.1.text_eq (by rw [same.2]; decide)
  have secondText : second.text = further.text :=
    sameSecond.1.text_eq (by rw [sameSecond.2]; decide)
  rw [text, secondText]
  exact parallel_guard_self _

theorem parallel_dottedPattern :
    Parallel true before true room Eq dottedPattern dottedPattern :=
  parallel_identifier.step_eq fun _ =>
    (Parallel.manyAfter (parallel_operator ".") parallel_identifier).bind
    fun members others each => .pure (by
      obtain rfl : members = others := List.forall₂_eq_eq_eq ▸ each
      rfl)

theorem parallel_literalPattern (aligned : Aligned room grammar twin) :
    Parallel true before true room.grow Eq grammar.literalPattern twin.literalPattern := by
  refine parallel_peek?.bind fun found matched same => ?_
  cases same with
  | none => exact .failure
  | @some token other alike =>
      dsimp only
      rw [← alike.kind]
      refine .ite ?_ (.ite ?_ parallel_numberPattern)
      · exact (parallel_satisfyText (fun text => constantWords.contains text) (by decide) false
          (by decide)).step fun _ _ _ => .pure rfl
      · exact (parallel_strings aligned).step fun _ _ _ => .pure rfl

theorem parallel_starPattern : Parallel true before true room Eq starPattern starPattern :=
  (parallel_operator "*").step_eq fun _ => parallel_identifier.bind_eq fun _ => .pure rfl

section

variable {pattern twinPattern : Parser Unit}

theorem parallel_patternItems
    (nested : ∀ {before : Bool}, Parallel true before true room Eq pattern twinPattern) :
    Parallel true before true room Eq (patternItems pattern) (patternItems twinPattern) := by
  have items : ∀ {before : Bool}, Parallel true before true room Eq
      ((do starPattern; return true) <|> (do pattern; return false))
      ((do starPattern; return true) <|> (do twinPattern; return false)) :=
    .orElse (parallel_starPattern.step_eq fun _ => .pure rfl) (nested.step_eq fun _ => .pure rfl)
  refine (Parallel.commaList items items).step ?_
  rintro ⟨stars, isSequence⟩ ⟨otherStars, _⟩ ⟨each, rfl⟩
  obtain rfl : stars = otherStars := List.forall₂_eq_eq_eq ▸ each
  exact .pure rfl

theorem parallel_roundPattern
    (nested : ∀ {before : Bool}, Parallel true before true room Eq pattern twinPattern) :
    Parallel true before true room.grow Eq (roundPattern pattern) (roundPattern twinPattern) :=
  (parallel_operator "(").enter_eq fun _ => .ifOperator ")" room.enters_self (.pure rfl) <|
    (parallel_patternItems nested).bind_eq fun _ => (parallel_guard_self _).bind_eq fun _ =>
    (parallel_operator ")").weaken

theorem parallel_squarePattern
    (nested : ∀ {before : Bool}, Parallel true before true room Eq pattern twinPattern) :
    Parallel true before true room.grow Eq (squarePattern pattern) (squarePattern twinPattern) :=
  (parallel_operator "[").enter_eq fun _ => .ifOperator "]" room.enters_self (.pure rfl) <|
    (parallel_patternItems nested).bind_eq fun _ => (parallel_operator "]").weaken

theorem parallel_mappingEntry (aligned : Aligned room grammar twin)
    (nested : ∀ {before : Bool}, Parallel true before true room Eq pattern twinPattern) :
    Parallel true before true room Eq (grammar.mappingEntry pattern)
      (twin.mappingEntry twinPattern) := by
  have literal : Parallel true before true room Eq grammar.literalPattern twin.literalPattern :=
    (parallel_literalPattern aligned).narrow (Nat.le_succ _) (Nat.le_succ _)
  exact .ifOperator "**" room.enters_self (parallel_identifier.bind_eq fun _ => .pure rfl) <|
    (literal.orElse (parallel_dottedPattern.step_eq fun _ => parallel_guard_self _)).step_eq
      fun _ => (parallel_operator ":").bind_eq fun _ => nested.bind_eq fun _ => .pure rfl

theorem parallel_mappingPattern (aligned : Aligned room grammar twin)
    (nested : ∀ {before : Bool}, Parallel true before true room Eq pattern twinPattern) :
    Parallel true before true room.grow Eq (grammar.mappingPattern pattern)
      (twin.mappingPattern twinPattern) := by
  refine (parallel_operator "\x7b").enter_eq fun _ =>
    .ifOperator "\x7d" room.enters_self (.pure rfl) <|
    ((parallel_mappingEntry aligned nested).commaList (parallel_mappingEntry aligned nested)).bind ?_
  rintro ⟨entries, several⟩ ⟨others, otherSeveral⟩ ⟨each, _⟩
  obtain rfl : entries = others := List.forall₂_eq_eq_eq ▸ each
  exact (parallel_guard_self _).bind_eq fun _ => (parallel_operator "\x7d").weaken

theorem parallel_classArgument
    (nested : ∀ {before : Bool}, Parallel true before true room Eq pattern twinPattern) :
    Parallel true before true room Eq (classArgument pattern) (classArgument twinPattern) :=
  parallel_startsKeyword.bind_eq fun _ => .ite
    (parallel_identifier.step_eq fun _ => (parallel_operator "=").bind_eq fun _ =>
      nested.bind_eq fun _ => .pure rfl)
    (nested.step_eq fun _ => .pure rfl)

theorem parallel_classArguments
    (nested : ∀ {before : Bool}, Parallel true before true room Eq pattern twinPattern) :
    Parallel true before true room.grow Eq (classArguments pattern)
      (classArguments twinPattern) := by
  refine (parallel_operator "(").enter_eq fun _ => .ifOperator ")" room.enters_self (.pure rfl) <|
    ((parallel_classArgument nested).commaList (parallel_classArgument nested)).bind ?_
  rintro ⟨keywords, several⟩ ⟨others, otherSeveral⟩ ⟨each, _⟩
  obtain rfl : keywords = others := List.forall₂_eq_eq_eq ▸ each
  exact (parallel_guard_self _).bind_eq fun _ => (parallel_operator ")").weaken

theorem parallel_closedPattern (aligned : Aligned room grammar twin)
    (nested : ∀ {before : Bool}, Parallel true before true room Eq pattern twinPattern) :
    Parallel true before true room.grow Eq (grammar.closedPattern pattern)
      (twin.closedPattern twinPattern) :=
  (parallel_aheadOperator "(").bind_eq fun _ => .ite (parallel_roundPattern nested) <|
    (parallel_aheadOperator "[").bind_eq fun _ => .ite (parallel_squarePattern nested) <|
    (parallel_aheadOperator "\x7b").bind_eq fun _ =>
    .ite (parallel_mappingPattern aligned nested) <|
    (parallel_literalPattern aligned).orElse <| parallel_dottedPattern.step_eq fun _ =>
    (parallel_aheadOperator "(").bind_eq fun _ =>
    .ite (parallel_classArguments nested).weaken (.pure rfl)

theorem parallel_alternativesPattern (aligned : Aligned room grammar twin)
    (nested : ∀ {before : Bool}, Parallel true before true room Eq pattern twinPattern) :
    Parallel true before true room.grow Eq (grammar.alternativesPattern pattern)
      (twin.alternativesPattern twinPattern) :=
  (Parallel.separated (parallel_operator "|") (parallel_closedPattern aligned nested)
    (parallel_closedPattern aligned nested)).step fun _ _ _ =>
    .ifWord "as" (by decide) room.grow.enters_self
      (parallel_identifier.bind_eq fun _ => parallel_guard_self _) (.pure rfl)

end

/-- Patterns nested up to two depths are read alike on tokens that are no more than the depths. -/
theorem parallel_patternOfDepth (aligned : Aligned room grammar twin) (depth other : Nat)
    (left : depth ≤ room.left) (right : other ≤ room.right) :
    Parallel true before true ⟨depth, other⟩ Eq (grammar.patternOfDepth depth)
      (twin.patternOfDepth other) := by
  induction depth generalizing before other with
  | zero =>
      refine .of_noTokens rfl ?_ (Or.inl rfl)
      cases other <;> rfl
  | succ depth ih =>
      cases other with
      | zero => exact .of_noTokens rfl rfl (Or.inr rfl)
      | succ other =>
          exact parallel_alternativesPattern
            (aligned.narrow (Nat.le_of_succ_le left) (Nat.le_of_succ_le right))
            (ih other (Nat.le_of_succ_le left) (Nat.le_of_succ_le right))

theorem parallel_casePattern (aligned : Aligned room grammar twin) :
    Parallel false before true room Eq (grammar.casePattern room.left)
      (twin.casePattern room.right) :=
  (parallel_patternItems (parallel_patternOfDepth aligned room.left room.right (Nat.le_refl _)
    (Nat.le_refl _))).bind_eq fun _ => (parallel_guard_self _).mono fun _ _ => id

/-! ## Simple statements -/

theorem forall₂_dropLast {values others : List Expr}
    (each : List.Forall₂ Expr.SameUse values others) :
    values.dropLast.all isTarget = others.dropLast.all isTarget := by
  have all : ∀ {values others : List Expr}, List.Forall₂ Expr.SameUse values others →
      values.all isTarget = others.all isTarget := by
    intro values others each
    induction each with
    | nil => rfl
    | cons first _ ih => rw [List.all_cons, List.all_cons, first.target, ih]
  rw [List.dropLast_eq_take, List.dropLast_eq_take, each.length_eq]
  exact all (List.forall₂_take _ each)

theorem parallel_assignedValues (aligned : Aligned room grammar twin) :
    Parallel true before true room (List.Forall₂ Expr.SameUse) grammar.assignedValues
      twin.assignedValues := by
  have value : ∀ {before : Bool}, Parallel true before true room Expr.SameUse
      (do operator "="; grammar.yieldingOrExpressions)
      (do operator "="; twin.yieldingOrExpressions) :=
    (parallel_operator "=").step_eq fun _ => (parallel_yieldingOrExpressions aligned).weaken
  exact (Parallel.many1 value value).step fun _ _ each =>
    (parallel_guard (by rw [forall₂_dropLast each])).bind_eq fun _ => .pure each

/-- A statement that imports nothing. -/
theorem parallel_other {statement other : SimpleStatement} (isOther : statement.isImport = false)
    (twinIsOther : other.isImport = false) :
    Parallel false before true room SimpleStatement.Same (pure statement) (pure other) :=
  .pure (.other isOther twinIsOther)

theorem parallel_expressionStatement (aligned : Aligned room grammar twin) :
    Parallel true before true room SimpleStatement.Same grammar.expressionStatement
      twin.expressionStatement := by
  refine (parallel_yieldingOrExpressions aligned).step fun first other same =>
    (parallel_aheadOperator ":").bind_eq fun _ => .ite ?_ <|
    (parallel_aheadOperator "=").bind_eq fun _ => .ite ?_ <|
    (parallel_oneOf augmentedOperators).optionally.bind ?_
  · exact (parallel_guard (by rw [same.single])).bind_eq fun _ =>
      (parallel_operator ":").bind_eq fun _ => aligned.expression.bind fun _ _ _ =>
      .ifOperator "=" room.enters_self
        ((parallel_yieldingOrExpressions aligned).bind fun _ _ _ => parallel_other rfl rfl)
        (parallel_other rfl rfl)
  · exact (parallel_guard (by rw [same.target])).bind_eq fun _ =>
      (parallel_assignedValues aligned).bind fun _ _ _ => parallel_other rfl rfl
  · intro sign otherSign signs
    cases signs with
    | none => exact parallel_other rfl rfl
    | some =>
        exact (parallel_guard (by rw [same.single])).bind_eq fun _ =>
          (parallel_yieldingOrExpressions aligned).bind fun _ _ _ => parallel_other rfl rfl

theorem parallel_typeParameter (aligned : Aligned room grammar twin) :
    Parallel true before true room Eq grammar.typeParameter twin.typeParameter := by
  have expression : ∀ {before : Bool} (mark : String), Parallel false before true room Eq
      (do if ← operator? mark then let _ ← grammar.expression)
      (do if ← operator? mark then let _ ← twin.expression) := fun mark =>
    .ifOperator mark room.enters_self (aligned.expression.bind fun _ _ _ => .pure rfl) (.pure rfl)
  exact .ifOperator "**" room.enters_self
      (parallel_identifier.bind_eq fun _ => expression "=") <|
    .ifOperator "*" room.enters_self
      (parallel_identifier.bind_eq fun _ => .ifOperator "=" room.enters_self
        ((parallel_plainItem aligned).bind fun _ _ _ => .pure rfl) (.pure rfl)) <|
    parallel_identifier.step_eq fun _ => .ifOperator ":" room.enters_self
      (aligned.expression.bind fun _ _ _ => expression "=") (expression "=")

theorem parallel_typeParameters (aligned : Aligned room grammar twin) :
    Parallel false before true room Eq grammar.typeParameters twin.typeParameters :=
  .ifOperator "[" room.enters_self
    (((parallel_typeParameter aligned).commaList (parallel_typeParameter aligned)).bind
      fun _ _ _ => (parallel_operator "]").weaken) (.pure rfl)

theorem parallel_typeAlias (aligned : Aligned room grammar twin) :
    Parallel true before true room SimpleStatement.Same grammar.typeAlias twin.typeAlias :=
  (parallel_word "type" (by decide)).step_eq fun _ => parallel_identifier.bind_eq fun _ =>
    (parallel_typeParameters aligned).bind_eq fun _ => (parallel_operator "=").bind_eq fun _ =>
    aligned.expression.bind fun _ _ _ => parallel_other rfl rfl

theorem parallel_wordStatement (text : String) (noImport : text ≠ "import") (kind : SimpleKind)
    {parts otherParts : Parser (List Expr)}
    (parallel : Parallel false true true room (fun _ _ => True) parts otherParts) :
    Parallel true before true room SimpleStatement.Same (wordStatement text kind parts)
      (wordStatement text kind otherParts) :=
  (parallel_word text noImport).step_eq fun _ => parallel.bind fun _ _ _ => parallel_other rfl rfl

theorem parallel_deletedTargets (aligned : Aligned room grammar twin) :
    Parallel false true true room (fun _ _ => True) grammar.deletedTargets twin.deletedTargets :=
  (aligned.primary.commaList aligned.primary).bind fun _ _ each =>
    (parallel_guard (by rw [Expr.SameUse.areDeletable each.1])).bind_eq fun _ => .pure trivial

theorem parallel_raisedParts (aligned : Aligned room grammar twin) :
    Parallel false true true room (fun _ _ => True) grammar.raisedParts twin.raisedParts := by
  refine aligned.expression.optionally.bind fun exception other same => ?_
  cases same with
  | none => exact .pure trivial
  | some _ =>
      exact .ifWord "from" (by decide) room.enters_self
        (aligned.expression.bind fun _ _ _ => .pure trivial) (.pure trivial)

theorem parallel_assertedParts (aligned : Aligned room grammar twin) :
    Parallel false true true room (fun _ _ => True) grammar.assertedParts twin.assertedParts := by
  have parts : Parallel true true true room (fun _ _ => True)
      (do
        let condition ← grammar.expression
        if ← operator? "," then
          let message ← grammar.expression
          return ([condition, message], true)
        else return ([condition], false))
      (do
        let condition ← twin.expression
        if ← operator? "," then
          let message ← twin.expression
          return ([condition, message], true)
        else return ([condition], false)) :=
    aligned.expression.step fun _ _ _ => .ifOperator "," room.enters_self
      (aligned.expression.bind fun _ _ _ => .pure trivial) (.pure trivial)
  exact parts.bind fun _ _ _ => .pure trivial

theorem parallel_scopedNames :
    Parallel false true true room (fun _ _ => True) scopedNames scopedNames :=
  (Parallel.separated (parallel_operator ",") parallel_identifier parallel_identifier).bind
    fun _ _ _ => .pure trivial

theorem parallel_simpleStatement (aligned : Aligned room grammar twin) :
    Parallel true false true room SimpleStatement.Same grammar.simpleStatement
      twin.simpleStatement := by
  refine parallel_peek?.bind fun found matched same => ?_
  cases same with
  | none => exact .failure
  | @some token other alike =>
      dsimp only
      rw [← alike.kind]
      by_cases isName : token.kind = .name
      · rw [if_neg (not_not_intro isName), if_neg (not_not_intro isName),
          ← alike.text_eq (by rw [isName]; decide)]
        -- both sides branch on one text
        generalize token.text = text
        split
        · exact parallel_importModules
        · exact parallel_importFrom
        · exact parallel_wordStatement "return" (by decide) _
            ((parallel_expressions aligned).optionally.bind fun _ _ _ => .pure trivial)
        · exact parallel_wordStatement "raise" (by decide) _ (parallel_raisedParts aligned)
        · exact parallel_wordStatement "pass" (by decide) _ (.pure trivial)
        · exact parallel_wordStatement "del" (by decide) _ (parallel_deletedTargets aligned)
        · exact parallel_wordStatement "assert" (by decide) _ (parallel_assertedParts aligned)
        · exact parallel_wordStatement "break" (by decide) _ (.pure trivial)
        · exact parallel_wordStatement "continue" (by decide) _ (.pure trivial)
        · exact parallel_wordStatement "global" (by decide) _ parallel_scopedNames
        · exact parallel_wordStatement "nonlocal" (by decide) _ parallel_scopedNames
        · exact (parallel_typeAlias aligned).orElse (parallel_expressionStatement aligned)
        · exact parallel_expressionStatement aligned
      · rw [if_pos isName, if_pos isName]
        exact parallel_expressionStatement aligned

/-- The line of statements ends with a line end, behind which no source of imports ends. -/
theorem parallel_statementLine (aligned : Aligned room grammar twin) :
    Parallel true false false room (List.Forall₂ SimpleStatement.Same) grammar.statementLine
      twin.statementLine :=
  (Parallel.separated (parallel_mark ";" (by decide)) (parallel_simpleStatement aligned)
    (parallel_simpleStatement aligned)).step fun _ _ each => (parallel_operator? ";").bind_eq fun _ =>
    (parallel_ofKind .lineEnd (by decide)).bind fun _ _ _ => .pure_here each

/-! ## Compound statements -/

section

variable {suite otherSuite : Parser Suite}

theorem parallel_clauseOf (bodies : Parallel strict false false room Suite.Same suite otherSuite)
    (kind : ClauseKind) {head otherHead : Parser (List Expr)}
    (heads : Parallel false before true room (fun _ _ => True) head otherHead) :
    Parallel false before false room Clause.Same (clauseOf suite kind head)
      (clauseOf otherSuite kind otherHead) :=
  heads.bind fun _ _ _ => (parallel_mark ":" (by decide)).bind_eq fun _ =>
    bodies.bind fun _ _ same => .pure_here (.clause _ _ _ _ same)

theorem parallel_wordClause? (bodies : Parallel strict false false room Suite.Same suite otherSuite)
    (text : String) (noImport : text ≠ "import") (kind : ClauseKind) :
    Parallel false false false room (List.Forall₂ Clause.Same) (wordClause? suite text kind)
      (wordClause? otherSuite text kind) :=
  .ifWord text noImport room.enters_self
    ((parallel_clauseOf bodies kind (.pure trivial)).bind fun _ _ same =>
      .pure_here (.cons same .nil))
    (.pure_here .nil)

/-- An expression as the head of a clause. -/
theorem parallel_namedHead (aligned : Aligned room grammar twin) :
    Parallel false before true room (fun _ _ => True) (do return [← grammar.named])
      (do return [← twin.named]) :=
  (parallel_named aligned).bind fun _ _ _ => .pure trivial

theorem parallel_ifStatement (aligned : Aligned room grammar twin)
    (bodies : Parallel strict false false room Suite.Same suite otherSuite) :
    Parallel true before false room.grow (List.Forall₂ Clause.Same) (grammar.ifStatement suite)
      (twin.ifStatement otherSuite) := by
  have others : Parallel true false false room Clause.Same
      (do
        word "elif"
        clauseOf suite .elifClause (do return [← grammar.named]))
      (do
        word "elif"
        clauseOf otherSuite .elifClause (do return [← twin.named])) :=
    (parallel_word "elif" (by decide)).step_eq fun _ =>
      parallel_clauseOf bodies _ (parallel_namedHead aligned)
  exact (parallel_word "if" (by decide)).enter_eq fun _ =>
    (parallel_clauseOf bodies _ (parallel_namedHead aligned)).bind fun _ _ first =>
    others.many.bind fun _ _ each =>
    (parallel_wordClause? bodies "else" (by decide) .elseClause).bind fun _ _ last =>
    .pure_here (List.rel_append (.cons first each) last)

theorem parallel_whileStatement (aligned : Aligned room grammar twin)
    (bodies : Parallel strict false false room Suite.Same suite otherSuite) :
    Parallel true before false room.grow (List.Forall₂ Clause.Same) (grammar.whileStatement suite)
      (twin.whileStatement otherSuite) :=
  (parallel_word "while" (by decide)).enter_eq fun _ =>
    (parallel_clauseOf bodies _ (parallel_namedHead aligned)).bind fun _ _ first =>
    (parallel_wordClause? bodies "else" (by decide) .elseClause).bind fun _ _ last =>
    .pure_here (.cons first last)

theorem parallel_forStatement (aligned : Aligned room grammar twin)
    (bodies : Parallel strict false false room Suite.Same suite otherSuite) :
    Parallel true before false room.grow (List.Forall₂ Clause.Same) (grammar.forStatement suite)
      (twin.forStatement otherSuite) :=
  (parallel_word "for" (by decide)).enter_eq fun _ =>
    (parallel_clauseOf bodies _ ((parallel_targets aligned).bind fun _ _ _ =>
      (parallel_word "in" (by decide)).bind_eq fun _ => (parallel_expressions aligned).bind
        fun _ _ _ => .pure trivial)).bind fun _ _ first =>
    (parallel_wordClause? bodies "else" (by decide) .elseClause).bind fun _ _ last =>
    .pure_here (.cons first last)

theorem parallel_contextItem (aligned : Aligned room grammar twin) :
    Parallel true before true room (fun _ _ => True) grammar.contextItem twin.contextItem :=
  aligned.expression.step fun _ _ _ => .ifWord "as" (by decide) room.enters_self
    ((parallel_target aligned).bind fun _ _ _ => .pure trivial) (.pure trivial)

theorem parallel_contexts (aligned : Aligned room grammar twin) :
    Parallel false before true room (fun _ _ => True) grammar.contexts twin.contexts :=
  .orElse
    ((parallel_operator "(").step_eq fun _ =>
      ((parallel_contextItem aligned).commaList (parallel_contextItem aligned)).bind fun _ _ _ =>
      (parallel_operator ")").bind_eq fun _ => (parallel_aheadOperator ":").bind_eq fun _ =>
      (parallel_guard_self _).bind_eq fun _ => .pure trivial)
    ((Parallel.separated (parallel_operator ",") (parallel_contextItem aligned)
      (parallel_contextItem aligned)).bind fun _ _ _ => .pure trivial)

theorem parallel_withStatement (aligned : Aligned room grammar twin)
    (bodies : Parallel strict false false room Suite.Same suite otherSuite) :
    Parallel true before false room.grow (List.Forall₂ Clause.Same) (grammar.withStatement suite)
      (twin.withStatement otherSuite) :=
  (parallel_word "with" (by decide)).enter_eq fun _ =>
    (parallel_clauseOf bodies _ (parallel_contexts aligned)).bind fun _ _ same =>
    .pure_here (.cons same .nil)

theorem parallel_handler (aligned : Aligned room grammar twin)
    (bodies : Parallel strict false false room Suite.Same suite otherSuite) :
    Parallel true before false room
      (fun found matched => found.1 = matched.1 ∧ found.2.Same matched.2)
      (grammar.handler suite) (twin.handler otherSuite) := by
  refine (parallel_word "except" (by decide)).step_eq fun _ =>
    (parallel_operator? "*").bind_eq fun group =>
    (parallel_clauseOf bodies _ ?_).bind fun _ _ same => .pure_here ⟨rfl, same⟩
  exact (parallel_aheadOperator ":").bind_eq fun _ => .ite
    ((parallel_guard_self _).bind_eq fun _ => .pure trivial)
    (aligned.expression.bind fun _ _ _ => .ifWord "as" (by decide) room.enters_self
      (parallel_identifier.bind_eq fun _ => .pure trivial) (.pure trivial))

/-- The clauses behind a `try` and its handlers. -/
theorem parallel_afterHandlers
    (bodies : Parallel strict false false room Suite.Same suite otherSuite)
    {first matched : Clause} (same : first.Same matched) {handlers others : List (Bool × Clause)}
    (each : List.Forall₂ (fun found matched => found.1 = matched.1 ∧ found.2.Same matched.2)
      handlers others) {otherwise otherOtherwise : List Clause}
    (sameOtherwise : List.Forall₂ Clause.Same otherwise otherOtherwise) :
    Parallel false false false room (List.Forall₂ Clause.Same)
      (do
        let finally_ ← wordClause? suite "finally" .finallyClause
        guard (!handlers.isEmpty || !finally_.isEmpty)
        guard (handlers.all Prod.fst || !handlers.any Prod.fst)
        return first :: handlers.map Prod.snd ++ otherwise ++ finally_)
      (do
        let finally_ ← wordClause? otherSuite "finally" .finallyClause
        guard (!others.isEmpty || !finally_.isEmpty)
        guard (others.all Prod.fst || !others.any Prod.fst)
        return matched :: others.map Prod.snd ++ otherOtherwise ++ finally_) := by
  have isEmpty : handlers.isEmpty = others.isEmpty := by cases each <;> rfl
  have groups : handlers.map Prod.fst = others.map Prod.fst :=
    List.forall₂_eq_eq_eq ▸ List.rel_map (fun _ _ both => both.1) each
  have clauses : List.Forall₂ Clause.Same (handlers.map Prod.snd) (others.map Prod.snd) :=
    List.rel_map (fun _ _ both => both.2) each
  have all : handlers.all Prod.fst = others.all Prod.fst := by
    rw [← Function.id_comp (Prod.fst : Bool × Clause → Bool), ← List.all_map, ← List.all_map,
      groups]
  have any : handlers.any Prod.fst = others.any Prod.fst := by
    rw [← Function.id_comp (Prod.fst : Bool × Clause → Bool), ← List.any_map, ← List.any_map,
      groups]
  refine (parallel_wordClause? bodies "finally" (by decide) .finallyClause).bind
    fun last otherLast sameLast => ?_
  have lastIsEmpty : last.isEmpty = otherLast.isEmpty := by cases sameLast <;> rfl
  rw [isEmpty, all, any, lastIsEmpty]
  exact (parallel_guard_self _).bind_eq fun _ => (parallel_guard_self _).bind_eq fun _ =>
    .pure_here (List.rel_append (List.rel_append (.cons same clauses) sameOtherwise) sameLast)

theorem parallel_tryStatement (aligned : Aligned room grammar twin)
    (bodies : Parallel strict false false room Suite.Same suite otherSuite) :
    Parallel true before false room.grow (List.Forall₂ Clause.Same) (grammar.tryStatement suite)
      (twin.tryStatement otherSuite) := by
  refine (parallel_word "try" (by decide)).enter_eq fun _ =>
    (parallel_clauseOf bodies _ (.pure trivial)).bind fun first matched same =>
    (parallel_handler aligned bodies).many.bind fun handlers others each => ?_
  exact .ite_iff (by cases each <;> rfl)
    (Parallel.bind (.pure_here (.nil : List.Forall₂ Clause.Same [] [])) fun _ _ otherwise =>
      parallel_afterHandlers bodies same each otherwise)
    ((parallel_wordClause? bodies "else" (by decide) .elseClause).bind fun _ _ otherwise =>
      parallel_afterHandlers bodies same each otherwise)

theorem parallel_caseClause (aligned : Aligned room grammar twin)
    (bodies : Parallel strict false false room Suite.Same suite otherSuite) :
    Parallel true before false room Clause.Same (grammar.caseClause suite room.left)
      (twin.caseClause otherSuite room.right) :=
  (parallel_word "case" (by decide)).step_eq fun _ => parallel_clauseOf bodies _ <|
    (parallel_casePattern aligned).bind_eq fun _ => .ifWord "if" (by decide) room.enters_self
      ((parallel_named aligned).bind fun _ _ _ => .pure trivial) (.pure trivial)

theorem parallel_matchStatement (aligned : Aligned room grammar twin)
    (bodies : Parallel strict false false room Suite.Same suite otherSuite) :
    Parallel true before false room.grow (List.Forall₂ Clause.Same)
      (grammar.matchStatement suite room.left) (twin.matchStatement otherSuite room.right) :=
  (parallel_word "match" (by decide)).enter_eq fun _ =>
    (parallel_itemsOrTuple (parallel_item aligned) (parallel_item aligned)).bind fun _ _ _ =>
    (parallel_operator ":").bind_eq fun _ =>
    (parallel_ofKind .lineEnd (by decide)).bind fun _ _ _ =>
    (parallel_ofKind .indent (by decide)).bind fun _ _ _ =>
    (Parallel.many1 (parallel_caseClause aligned bodies)
      (parallel_caseClause aligned bodies)).bind fun _ _ cases =>
    (parallel_ofKind .dedent (by decide)).bind fun _ _ _ => .pure_here cases

/-! ## Classes and functions -/

theorem parallel_decorators (aligned : Aligned room grammar twin) :
    Parallel false false false room (fun _ _ => True) grammar.decorators twin.decorators := by
  refine (Parallel.many (?_ : Parallel true false false room (fun _ _ => True) _ _)).mono
    fun _ _ _ => trivial
  exact (parallel_operator "@").step_eq fun _ => (parallel_named aligned).bind fun _ _ _ =>
    (parallel_ofKind .lineEnd (by decide)).bind fun _ _ _ => .pure_here trivial

theorem parallel_classStatement (aligned : Aligned room grammar twin)
    (bodies : Parallel strict false false room Suite.Same suite otherSuite)
    (decorators others : List Expr) :
    Parallel true before false room.grow Statement.Same (grammar.classStatement suite decorators)
      (twin.classStatement otherSuite others) := by
  refine (parallel_word "class" (by decide)).spanned.enter fun _ _ _ =>
    parallel_identifier.bind_eq fun name => (parallel_typeParameters aligned).bind_eq fun _ => ?_
  -- with a list of arguments or without, a colon and the body are behind
  have behind : ∀ (place otherPlace : Place) (arguments otherArguments : List (Argument Expr)),
      Parallel false true false room Statement.Same
        (do
          operator ":"
          let body ← suite
          return .classStatement ⟨place, name, decorators, arguments⟩ body)
        (do
          operator ":"
          let body ← otherSuite
          return .classStatement ⟨otherPlace, name, others, otherArguments⟩ body) :=
    fun _ _ _ _ => (parallel_mark ":" (by decide)).bind_eq fun _ =>
      bodies.bind fun _ _ same => .pure_here (.classStatement rfl same)
  exact .ifOperator "(" room.enters_self
    ((parallel_arguments aligned).bind fun _ _ _ => (parallel_operator ")").bind_eq fun _ =>
      behind _ _ _ _)
    (behind _ _ _ _)

theorem parallel_parameterType {value otherValue : Parser Expr}
    (values : Parallel true true true room Expr.SameUse value otherValue) :
    Parallel false before true room Eq (parameterType value) (parameterType otherValue) :=
  .ifOperator ":" room.enters_self (values.bind fun _ _ _ => .pure rfl) (.pure rfl)

theorem parallel_functionStatement (aligned : Aligned room grammar twin)
    (bodies : Parallel strict false false room Suite.Same suite otherSuite)
    (decorators others : List Expr) :
    Parallel true before false room.grow Statement.Same
      (grammar.functionStatement suite decorators) (twin.functionStatement otherSuite others) := by
  have words : Parallel true before true room.grow Eq
      (do
        let _ ← word? "async"
        word "def")
      (do
        let _ ← word? "async"
        word "def") :=
    (parallel_word? "async" (by decide)).bind_eq fun _ => parallel_word "def" (by decide)
  refine words.spanned.enter fun _ _ _ => parallel_identifier.bind_eq fun name =>
    (parallel_typeParameters aligned).bind_eq fun _ => (parallel_operator "(").bind_eq fun _ =>
    (parallel_parameters aligned (parallel_parameterType aligned.expression)
      (parallel_parameterType (parallel_plainItem aligned)) ")").bind_eq fun _ =>
    (parallel_operator ")").bind_eq fun _ => ?_
  have behind : ∀ (place otherPlace : Place) (returns otherReturns : Option Expr),
      Parallel false true false room Statement.Same
        (do
          operator ":"
          let body ← suite
          return .functionStatement ⟨place, name, decorators, returns⟩ body)
        (do
          operator ":"
          let body ← otherSuite
          return .functionStatement ⟨otherPlace, name, others, otherReturns⟩ body) :=
    fun _ _ _ _ => (parallel_mark ":" (by decide)).bind_eq fun _ =>
      bodies.bind fun _ _ same => .pure_here (.functionStatement rfl same)
  exact .ifOperator "->" room.enters_self
    (aligned.expression.bind fun _ _ _ => behind _ _ _ _) (behind _ _ _ _)

theorem parallel_compound {clauses otherClauses : Parser (List Clause)}
    (parallel : Parallel true before false room (List.Forall₂ Clause.Same) clauses otherClauses) :
    Parallel true before false room Statement.Same (do return .compound (← clauses))
      (do return .compound (← otherClauses)) :=
  parallel.step fun _ _ each => .pure_here (.compound each)

theorem parallel_decorated {inner : Room} (enters : room.Enters inner)
    (aligned : Aligned room grammar twin) (within : Aligned inner grammar twin)
    (bodies : Parallel strict false false inner Suite.Same suite otherSuite) :
    Parallel true false false room Statement.Same (grammar.decorated suite)
      (twin.decorated otherSuite) :=
  (parallel_decorators aligned).bind fun decorators others _ =>
    (parallel_aheadWord "class").bind_eq fun _ => .ite
      ((parallel_classStatement within bodies decorators others).narrow enters.left enters.right)
      ((parallel_functionStatement within bodies decorators others).narrow enters.left enters.right)

theorem parallel_asynchronous (aligned : Aligned room grammar twin)
    (bodies : Parallel strict false false room Suite.Same suite otherSuite) :
    Parallel true before false room.grow Statement.Same (grammar.asynchronous suite)
      (twin.asynchronous otherSuite) := by
  refine .orElse ?_ (parallel_functionStatement aligned bodies [] [])
  exact (parallel_word "async" (by decide)).step_eq fun _ =>
    (parallel_aheadWord "for").bind_eq fun _ => .ite
      (parallel_compound (parallel_forStatement aligned bodies)).weaken
      (parallel_compound (parallel_withStatement aligned bodies)).weaken

theorem parallel_lineStatement (aligned : Aligned room grammar twin) :
    Parallel true false false room Statement.Same grammar.lineStatement twin.lineStatement :=
  (parallel_statementLine aligned).step fun _ _ each => .pure_here (.line each)

/-- The bodies in a statement stand behind its first word, in a room that may be smaller. -/
theorem parallel_statementOf {inner : Room} (enters : room.Enters inner)
    (aligned : Aligned room grammar twin) (within : Aligned inner grammar twin)
    (bodies : Parallel strict false false inner Suite.Same suite otherSuite) :
    Parallel true false false room Statement.Same (grammar.statementOf suite inner.left)
      (twin.statementOf otherSuite inner.right) := by
  have lines : Parallel true false false room Statement.Same grammar.lineStatement
    twin.lineStatement := parallel_lineStatement aligned
  have compound {clauses otherClauses : Parser (List Clause)} (parallel : Parallel true false false
      inner.grow (List.Forall₂ Clause.Same) clauses otherClauses) :
      Parallel true false false room Statement.Same (do return .compound (← clauses))
        (do return .compound (← otherClauses)) :=
    (parallel_compound parallel).narrow enters.left enters.right
  refine parallel_peek?.bind fun found matched same => ?_
  cases same with
  | none => exact .failure
  | @some token other alike =>
      dsimp only
      rw [← alike.kind, ← alike.isOperator]
      refine .ite (parallel_decorated enters aligned within bodies) ?_
      by_cases isName : token.kind = .name
      · rw [if_neg (not_not_intro isName), if_neg (not_not_intro isName),
          ← alike.text_eq (by rw [isName]; decide)]
        generalize token.text = text
        split
        · exact (parallel_classStatement within bodies [] []).narrow enters.left enters.right
        · exact (parallel_functionStatement within bodies [] []).narrow enters.left enters.right
        · exact (parallel_asynchronous within bodies).narrow enters.left enters.right
        · exact compound (parallel_ifStatement within bodies)
        · exact compound (parallel_whileStatement within bodies)
        · exact compound (parallel_forStatement within bodies)
        · exact compound (parallel_withStatement within bodies)
        · exact compound (parallel_tryStatement within bodies)
        · exact (compound (parallel_matchStatement within bodies)).orElse lines
        · exact lines
      · rw [if_pos isName, if_pos isName]
        exact lines

theorem parallel_suiteOf (aligned : Aligned room grammar twin) {statement other : Parser Statement}
    (statements : Parallel true false false room Statement.Same statement other) :
    Parallel true false false room Suite.Same (grammar.suiteOf statement)
      (twin.suiteOf other) := by
  refine (parallel_ahead (agrees_kind .lineEnd)).bind_eq fun _ => .ite ?_ ?_
  · exact (parallel_ofKind .lineEnd (by decide)).step fun _ _ _ =>
      (parallel_ofKind .indent (by decide)).bind fun _ _ _ =>
      (Parallel.many1 statements statements).weaken.bind fun _ _ each =>
      (parallel_ofKind .dedent (by decide)).weaken.bind fun _ _ _ => .pure_here (.indented each)
  · exact (parallel_statementLine aligned).step fun parts others _ =>
      .pure_here (.inline parts others)

end

/-- Bodies nested up to two depths are read alike on tokens that are no more than the depths. -/
theorem parallel_suiteOfDepth (aligned : Aligned room grammar twin) (depth other : Nat)
    (left : depth ≤ room.left) (right : other ≤ room.right) :
    Parallel true false false ⟨depth, other⟩ Suite.Same (grammar.suiteOfDepth depth)
      (twin.suiteOfDepth other) := by
  induction depth generalizing other with
  | zero =>
      -- a grammar without depth reads nothing, and in its room there are no tokens
      refine .of_noTokens rfl ?_ (Or.inl rfl)
      cases other <;> rfl
  | succ depth ih =>
      cases other with
      | zero => exact .of_noTokens rfl rfl (Or.inr rfl)
      | succ other =>
          have within : Aligned ⟨depth, other⟩ grammar twin :=
            aligned.narrow (Nat.le_of_succ_le left) (Nat.le_of_succ_le right)
          have around : Aligned ⟨depth + 1, other + 1⟩ grammar twin := aligned.narrow left right
          have statements := parallel_statementOf (Room.enters_grow ⟨depth, other⟩) around within
            (ih other (Nat.le_of_succ_le left) (Nat.le_of_succ_le right))
          exact parallel_suiteOf around statements

end Syntax.ExprGrammar

namespace Syntax

open TypeCatalog.Syntax.Parser

/-! ## Modules -/

/-- Texts whose tokens are the same but for their layout and for brackets around imported names. -/
def SameTokens (text other : String) : Prop :=
  ∃ tokens others, Lexer.tokens? (Module.dropMark text) = some tokens ∧
    Lexer.tokens? (Module.dropMark other) = some others ∧ Layout false tokens others

namespace Module

/-- **Modules in different layouts.** Modules whose texts have the same tokens consist of the same
statements, as far as these import and declare classes. -/
theorem body_same_of_sameTokens {text otherText : String} {module other : Module}
    (sameTokens : SameTokens text otherText) (isRead : read? text = some module)
    (otherIsRead : read? otherText = some other) :
    List.Forall₂ Statement.Same module.body other.body := by
  obtain ⟨tokens, finish, divided, found⟩ := body_of_read? isRead
  obtain ⟨others, otherFinish, otherDivided, matched⟩ := body_of_read? otherIsRead
  obtain ⟨_, _, isTokens, isOthers, layout⟩ := sameTokens
  obtain rfl := Option.some.inj (divided.symm.trans isTokens)
  obtain rfl := Option.some.inj (otherDivided.symm.trans isOthers)
  -- each grammar is as deep as its text has tokens, so neither gives out before they do
  let room : Room := ⟨tokens.length, others.length⟩
  have aligned := ExprGrammar.aligned_ofDepth room.left room.right
  have bodies := ExprGrammar.parallel_suiteOfDepth aligned room.left room.right (Nat.le_refl _)
    (Nat.le_refl _)
  have statements := ExprGrammar.parallel_statementOf room.enters_self aligned aligned bodies
  have rel := statements.many tokens others layout
    ⟨Nat.le_refl _, Lexer.spaced_of_tokens? divided⟩
    ⟨Nat.le_refl _, Lexer.spaced_of_tokens? otherDivided⟩
  obtain ⟨result, isResult, beside⟩ := exists_of_rel rel found
  obtain rfl := Option.some.inj (isResult.symm.trans matched)
  exact beside.same

end Module

end Syntax

end TypeCatalog
