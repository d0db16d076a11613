import TypeCatalog.Proofs.ParserLayouts
import TypeCatalog.Syntax.Module

/-! # Expressions in different layouts

On tokens of the same layout the grammar of expressions reads expressions of the same use: what may
be assigned to or deleted is the same for both (`TypeCatalog.Syntax.Expr.SameUse`). The levels of the
grammar have this property together (`TypeCatalog.Syntax.ExprGrammar.Aligned`), up to the depth that
the number of tokens bounds, and every step inwards is behind a token.
-/

namespace TypeCatalog.Syntax

open ExprGrammar (isTarget areTargets isSingleTarget isDeletable areDeletable)

/-! ## Uses of expressions -/

/-- Expressions that may be assigned to, annotated or deleted alike. -/
structure Expr.SameUse (expr other : Expr) : Prop where
  target : isTarget expr = isTarget other
  single : isSingleTarget expr = isSingleTarget other
  deletable : isDeletable expr = isDeletable other

namespace Expr.SameUse

variable {expr other : Expr} {parts others : List Expr}

theorem areTargets (each : List.Forall₂ SameUse parts others) :
    areTargets parts = areTargets others := by
  induction each with
  | nil => rfl
  | cons first _ ih => rw [ExprGrammar.areTargets, ExprGrammar.areTargets, first.target, ih]

theorem areDeletable (each : List.Forall₂ SameUse parts others) :
    areDeletable parts = areDeletable others := by
  induction each with
  | nil => rfl
  | cons first _ ih => rw [ExprGrammar.areDeletable, ExprGrammar.areDeletable, first.deletable, ih]

theorem name (extent otherExtent : Extent) {identifier twin : Identifier}
    (same : identifier = twin) :
    (Expr.name extent identifier).SameUse (.name otherExtent twin) := by
  subst same
  exact ⟨rfl, rfl, rfl⟩

/-- Items that may be assigned to make a tuple that may be. -/
theorem tuple (extent otherExtent : Extent) (each : List.Forall₂ SameUse parts others) :
    (Expr.tuple extent parts).SameUse (.tuple otherExtent others) :=
  ⟨areTargets each, rfl, areDeletable each⟩

theorem list (extent otherExtent : Extent) (each : List.Forall₂ SameUse parts others) :
    (Expr.list extent parts).SameUse (.list otherExtent others) :=
  ⟨areTargets each, rfl, areDeletable each⟩

/-- Of the forms without a meaning of their own only the starred one looks at its parts. -/
theorem compound (extent otherExtent : Extent) (form : Form)
    (each : List.Forall₂ SameUse parts others) :
    (Expr.compound extent form parts).SameUse (.compound otherExtent form others) := by
  cases form with
  | starred => exact ⟨areTargets each, rfl, rfl⟩
  | _ => exact ⟨rfl, rfl, rfl⟩

theorem withText (same : expr.SameUse other) (text otherText : String) :
    (expr.withText text).SameUse (other.withText otherText) := by
  have kept : ∀ (text : String) (expr : Expr), (expr.withText text).SameUse expr := by
    intro text expr
    cases expr with
    | compound extent form parts => cases form <;> exact ⟨rfl, rfl, rfl⟩
    | _ => exact ⟨rfl, rfl, rfl⟩
  have front := kept text expr
  have back := kept otherText other
  exact ⟨front.target.trans (same.target.trans back.target.symm),
    front.single.trans (same.single.trans back.single.symm),
    front.deletable.trans (same.deletable.trans back.deletable.symm)⟩

end Expr.SameUse

/-- Arguments of the same form. -/
inductive Argument.SameForm : Argument Expr → Argument Expr → Prop
  | positional {value other : Expr} (same : value.SameUse other) :
      SameForm (.positional value) (.positional other)
  | keyword (name otherName : Identifier) (value other : Expr) :
      SameForm (.keyword name value) (.keyword otherName other)
  | starred (values others : Expr) : SameForm (.starred values) (.starred others)
  | doubleStarred (mapping other : Expr) :
      SameForm (.doubleStarred mapping) (.doubleStarred other)

/-- What may follow an argument depends on its form. -/
theorem Argument.SameForm.after?_eq {argument other : Argument Expr}
    (same : argument.SameForm other) (phase : ExprGrammar.ArgumentPhase) :
    phase.after? argument = phase.after? other := by
  cases same <;> rfl

namespace ExprGrammar

open TypeCatalog.Syntax.Parser

/-- The levels of two grammars read expressions of the same use. -/
structure Aligned (room : Room) (grammar twin : ExprGrammar) : Prop where
  primary {before : Bool} : Parallel true before true room Expr.SameUse grammar.primary twin.primary
  factor {before : Bool} : Parallel true before true room Expr.SameUse grammar.factor twin.factor
  bitOr {before : Bool} : Parallel true before true room Expr.SameUse grammar.bitOr twin.bitOr
  inversion {before : Bool} :
    Parallel true before true room Expr.SameUse grammar.inversion twin.inversion
  disjunction {before : Bool} :
    Parallel true before true room Expr.SameUse grammar.disjunction twin.disjunction
  expression {before : Bool} :
    Parallel true before true room Expr.SameUse grammar.expression twin.expression
  field {before : Bool} : Parallel true before true room Expr.SameUse grammar.field twin.field

variable {strict before : Bool} {room inner : Room} {grammar twin : ExprGrammar}

theorem parallel_compoundOf (form : Form) {parts twinParts : Parser (List Expr)}
    (parallel : Parallel strict before true room (List.Forall₂ Expr.SameUse) parts twinParts) :
    Parallel strict before true room Expr.SameUse (compoundOf form parts)
      (compoundOf form twinParts) :=
  parallel.spanned.lead fun _ _ each => .pure (.compound _ _ form each)

/-- Something with an operator or a word in front of it. -/
theorem parallel_prefixed {back : Bool} (enters : room.Enters inner) {front : Parser Unit}
    (inFront : Parallel true before true room Eq front front) {item itemTwin : Parser Expr}
    (parallel : Parallel back true true inner Expr.SameUse item itemTwin) :
    Parallel strict before true room (List.Forall₂ Expr.SameUse)
      (do front; let value ← item; return [value])
      (do front; let value ← itemTwin; return [value]) :=
  inFront.bindIn enters fun _ _ _ => parallel.bind fun _ _ same => .pure (.cons same .nil)

/-! ## Lists -/

theorem parallel_starred (aligned : Aligned room grammar twin) :
    Parallel true before true room Expr.SameUse grammar.starred twin.starred :=
  parallel_compoundOf _ (parallel_prefixed room.enters_self (parallel_operator "*") aligned.bitOr)

theorem notSign {text : String} (noBracket : text ≠ "(") {second : Token}
    (begins : second.kind = .name ∨ isOperator "(" second = true) :
    isOperator text second = false := by
  rcases begins with isName | isOp
  · rw [isOperator, isName]
    rfl
  · rw [isOperator, Bool.and_eq_true, beq_iff_eq] at isOp
    rw [isOperator, isOp.2, beq_eq_false_iff_ne.mpr noBracket.symm, Bool.and_false]

/-- Looking for a name with a sign behind it. -/
theorem parallel_namedSign (text : String) (noBracket : text ≠ "(") :
    let look : List Token → Bool := fun tokens => match tokens with
      | name :: sign :: _ => decide (name.kind = .name) && isOperator text sign
      | _ => false
    Parallel false before before room Eq (fun tokens => some (look tokens, tokens))
      (fun tokens => some (look tokens, tokens)) := by
  refine parallel_lookahead (fun name sign : Token =>
    decide (name.kind = .name) && isOperator text sign) ?_ ?_
  · intro first other second further alike secondAlike
    rw [alike.kind, secondAlike.isOperator]
  · intro word second _ begins
    rw [notSign noBracket begins, Bool.and_false]

theorem parallel_startsAssignment :
    Parallel false before before room Eq startsAssignment startsAssignment :=
  parallel_namedSign ":=" (by decide)

theorem parallel_assignment (aligned : Aligned room grammar twin) :
    Parallel true before true room Expr.SameUse grammar.assignment twin.assignment :=
  parallel_compoundOf _ <| parallel_identifier.spanned.step fun _ _ same =>
    (parallel_operator _).bind_eq fun _ => aligned.expression.bind fun _ _ value =>
    .pure (.cons (Expr.SameUse.name _ _ same) (.cons value .nil))

theorem parallel_named (aligned : Aligned room grammar twin) :
    Parallel true before true room Expr.SameUse grammar.named twin.named :=
  parallel_startsAssignment.bind_eq fun _ =>
    .ite (parallel_assignment aligned) aligned.expression

theorem parallel_item (aligned : Aligned room grammar twin) :
    Parallel true before true room Expr.SameUse grammar.item twin.item :=
  (parallel_aheadOperator "*").bind_eq fun _ =>
    .ite (parallel_starred aligned) (parallel_named aligned)

theorem parallel_plainItem (aligned : Aligned room grammar twin) :
    Parallel true before true room Expr.SameUse grammar.plainItem twin.plainItem :=
  (parallel_aheadOperator "*").bind_eq fun _ =>
    .ite (parallel_starred aligned) aligned.expression

/-- A single item is the expression itself. -/
theorem parallel_itemsOrTuple {back : Bool} {item itemTwin : Parser Expr}
    (first : Parallel strict before true room Expr.SameUse item itemTwin)
    (others : Parallel back true true room Expr.SameUse item itemTwin) :
    Parallel strict before true room Expr.SameUse (itemsOrTuple item) (itemsOrTuple itemTwin) := by
  refine (first.commaList others).spanned.lead ?_
  rintro ⟨extent, items, isTuple⟩ ⟨twinExtent, twinItems, _⟩ ⟨each, rfl⟩
  cases each with
  | nil => exact .pure (.tuple _ _ .nil)
  | cons first rest =>
      cases rest with
      | cons second more => exact .pure (.tuple _ _ (.cons first (.cons second more)))
      | nil =>
          cases isTuple with
          | true => exact .pure (.tuple _ _ (.cons first .nil))
          | false => exact .pure first

theorem parallel_expressions (aligned : Aligned room grammar twin) :
    Parallel true before true room Expr.SameUse grammar.expressions twin.expressions :=
  parallel_itemsOrTuple (parallel_plainItem aligned) (parallel_plainItem aligned)

theorem forall₂_toList {found matched : Option Expr} (same : Option.Rel Expr.SameUse found matched) :
    List.Forall₂ Expr.SameUse found.toList matched.toList := by
  cases same with
  | none => exact .nil
  | some isSame => exact .cons isSame .nil

theorem parallel_yielding (aligned : Aligned room grammar twin) :
    Parallel true before true room Expr.SameUse grammar.yielding twin.yielding :=
  parallel_compoundOf _ <| (parallel_word "yield" (by decide)).step_eq fun _ =>
    .ifWord "from" (by decide) room.enters_self
      (aligned.expression.bind fun _ _ same => .pure (.cons same .nil))
      ((parallel_expressions aligned).optionally.bind fun _ _ same => .pure (forall₂_toList same))

theorem parallel_yieldingOrExpressions (aligned : Aligned room grammar twin) :
    Parallel true before true room Expr.SameUse grammar.yieldingOrExpressions
      twin.yieldingOrExpressions :=
  (parallel_aheadWord "yield").bind_eq fun _ =>
    .ite (parallel_yielding aligned) (parallel_expressions aligned)

/-! ## Comprehensions -/

theorem parallel_guarded {test : Expr → Bool}
    (agree : ∀ expr other, Expr.SameUse expr other → test expr = test other) {expr other : Expr}
    (same : expr.SameUse other) :
    Parallel false true true room Expr.SameUse (do guard (test expr = true); return expr)
      (do guard (test other = true); return other) :=
  (parallel_guard (by rw [agree expr other same])).bind_eq fun _ => .pure same

theorem parallel_target (aligned : Aligned room grammar twin) :
    Parallel true before true room Expr.SameUse grammar.target twin.target :=
  (parallel_aheadOperator "*").bind_eq fun _ => .ite
    ((parallel_compoundOf .starred
      (parallel_prefixed room.enters_self (parallel_operator "*") aligned.primary)).step
        fun _ _ same => parallel_guarded (fun _ _ same => same.target) same)
    (aligned.primary.step fun _ _ same => parallel_guarded (fun _ _ same => same.target) same)

theorem parallel_targets (aligned : Aligned room grammar twin) :
    Parallel true before true room Expr.SameUse grammar.targets twin.targets :=
  parallel_itemsOrTuple (parallel_target aligned) (parallel_target aligned)

theorem parallel_startsComprehension :
    Parallel false before before room Eq startsComprehension startsComprehension := by
  refine parallel_lookahead (fun first second =>
    isWord "for" first || (isWord "async" first && isWord "for" second)) ?_ ?_
  · intro first other second further alike secondAlike
    rw [alike.isWord, alike.isWord, secondAlike.isWord]
  · intro word second isImport _
    have noWord : ∀ text, "import" ≠ text → isWord text word = false := fun text differ =>
      isWord_eq_false differ isImport
    rw [noWord "for" (by decide), noWord "async" (by decide)]
    rfl

theorem parallel_comprehensionClause (aligned : Aligned room grammar twin) :
    Parallel true before true room (List.Forall₂ Expr.SameUse) grammar.comprehensionClause
      twin.comprehensionClause :=
  (parallel_word? "async" (by decide)).bind_eq fun _ =>
    (parallel_word "for" (by decide)).step_eq fun _ =>
    (parallel_targets aligned).bind fun _ _ targets =>
    (parallel_word "in" (by decide)).bind_eq fun _ => aligned.disjunction.bind fun _ _ source =>
    (Parallel.manyAfter (parallel_word "if" (by decide)) aligned.disjunction).bind
      fun _ _ conditions => .pure (.cons targets (.cons source conditions))

theorem parallel_comprehension (aligned : Aligned room grammar twin) :
    Parallel true before true room (List.Forall₂ Expr.SameUse) grammar.comprehension
      twin.comprehension :=
  (Parallel.many1 (parallel_comprehensionClause aligned)
    (parallel_comprehensionClause aligned)).lead fun _ _ each => .pure (List.rel_flatten each)

/-! ## Displays -/

/-- Displays of the same use, whatever their extents are. -/
def SameDisplay (form other : Extent → Expr) : Prop :=
  ∀ extent otherExtent, (form extent).SameUse (other otherExtent)

theorem sameDisplay_comprehension (parts others : List Expr) :
    SameDisplay (fun extent => .compound extent .comprehension parts)
      (fun extent => .compound extent .comprehension others) := fun _ _ => ⟨rfl, rfl, rfl⟩

/-- A display at its closing bracket. -/
theorem parallel_closing (closing : String) {form other : Extent → Expr}
    (same : SameDisplay form other) :
    Parallel false before true room SameDisplay (do operator closing; return form)
      (do operator closing; return other) :=
  (parallel_operator closing).bind_eq fun _ => .pure same

/-- The clauses of a comprehension up to its closing bracket. -/
theorem parallel_comprehensionRest (aligned : Aligned room grammar twin) (closing : String)
    (front otherFront : List Expr) : Parallel false before true room SameDisplay
      (do
        let clauses ← grammar.comprehension
        operator closing
        return fun extent => Expr.compound extent .comprehension (front ++ clauses))
      (do
        let clauses ← twin.comprehension
        operator closing
        return fun extent => Expr.compound extent .comprehension (otherFront ++ clauses)) :=
  (parallel_comprehension aligned).bind fun _ _ _ =>
    parallel_closing closing (sameDisplay_comprehension _ _)

/-- An expression in round brackets. -/
theorem parallel_enclosed (closing : String) {expr other : Expr} (same : expr.SameUse other) :
    Parallel false before true room SameDisplay
      (do operator closing; return fun extent : Extent => expr.withText extent.text)
      (do operator closing; return fun extent : Extent => other.withText extent.text) :=
  parallel_closing closing fun _ _ => same.withText _ _

/-- Further items behind the first. -/
theorem forall₂_several {found matched : Option (List Expr × Bool)}
    (same : Option.Rel (fun found matched : List Expr × Bool =>
      List.Forall₂ Expr.SameUse found.1 matched.1 ∧ found.2 = matched.2) found matched) :
    List.Forall₂ Expr.SameUse ((found.map Prod.fst).getD []) ((matched.map Prod.fst).getD []) := by
  cases same with
  | none => exact .nil
  | some isSame => exact isSame.1

theorem parallel_parenthesized (aligned : Aligned room grammar twin) :
    Parallel true before true room.grow SameDisplay grammar.parenthesized twin.parenthesized := by
  refine (parallel_operator "(").enter_eq fun _ =>
    .ifOperator ")" room.enters_self (.pure fun _ _ => .tuple _ _ .nil) <|
    (parallel_aheadWord "yield").bind_eq fun _ =>
    .ite ((parallel_yielding aligned).bind fun _ _ same => parallel_enclosed _ same) <|
    (parallel_aheadOperator "*").bind_eq fun isStarred =>
    (parallel_item aligned).bind fun first other same =>
    parallel_startsComprehension.bind_eq fun _ =>
    .ite (parallel_comprehensionRest aligned _ [first] [other]) <|
    .ifOperator "," room.enters_self ?_ <|
    (parallel_guard_self _).bind_eq fun _ => parallel_enclosed _ same
  exact ((parallel_item aligned).commaList (parallel_item aligned)).optionally.bind fun _ _ rest =>
    parallel_closing _ fun _ _ => .tuple _ _ (.cons same (forall₂_several rest))

theorem parallel_bracketed (aligned : Aligned room grammar twin) :
    Parallel true before true room.grow SameDisplay grammar.bracketed twin.bracketed :=
  (parallel_operator "[").enter_eq fun _ =>
    .ifOperator "]" room.enters_self (.pure fun _ _ => .list _ _ .nil) <|
    (parallel_aheadOperator "*").bind_eq fun _ =>
    (parallel_item aligned).bind fun first other same =>
    parallel_startsComprehension.bind_eq fun _ =>
    .ite (parallel_comprehensionRest aligned _ [first] [other]) <|
    (Parallel.manyAfter (parallel_operator ",") (parallel_item aligned)).bind fun _ _ rest =>
    (parallel_operator? ",").bind_eq fun _ =>
    parallel_closing _ fun _ _ => .list _ _ (.cons same rest)

theorem parallel_entry (aligned : Aligned room grammar twin) :
    Parallel true before true room (fun _ _ => True) grammar.entry twin.entry :=
  .ifOperator "**" room.enters_self (aligned.bitOr.bind fun _ _ _ => .pure trivial) <|
    aligned.expression.step fun _ _ _ => (parallel_operator ":").bind_eq fun _ =>
    aligned.expression.bind fun _ _ _ => .pure trivial

theorem parallel_dictRest (aligned : Aligned room grammar twin) (first other : Entry Expr) :
    Parallel false true true room SameDisplay (grammar.dictRest first) (twin.dictRest other) :=
  (Parallel.manyAfter (parallel_operator ",") (parallel_entry aligned)).bind fun _ _ _ =>
    (parallel_operator? ",").bind_eq fun _ => parallel_closing _ fun _ _ => ⟨rfl, rfl, rfl⟩

theorem parallel_setRest (aligned : Aligned room grammar twin) (first other : Expr) :
    Parallel false true true room SameDisplay (grammar.setRest first) (twin.setRest other) :=
  (Parallel.manyAfter (parallel_operator ",") (parallel_item aligned)).bind fun _ _ _ =>
    (parallel_operator? ",").bind_eq fun _ => parallel_closing _ fun _ _ => ⟨rfl, rfl, rfl⟩

/-- What stands behind the first key of a dictionary. -/
theorem parallel_firstValue (aligned : Aligned room grammar twin) (first other : Expr) :
    Parallel false true true room SameDisplay
      (do
        operator ":"
        let value ← grammar.expression
        if ← startsComprehension then
          let clauses ← grammar.comprehension
          operator "\x7d"
          return fun extent => Expr.compound extent .comprehension (first :: value :: clauses)
        else grammar.dictRest (.pair first value))
      (do
        operator ":"
        let value ← twin.expression
        if ← startsComprehension then
          let clauses ← twin.comprehension
          operator "\x7d"
          return fun extent => Expr.compound extent .comprehension (other :: value :: clauses)
        else twin.dictRest (.pair other value)) :=
  (parallel_operator ":").bind_eq fun _ => aligned.expression.bind fun value otherValue _ =>
    parallel_startsComprehension.bind_eq fun _ =>
    .ite (parallel_comprehensionRest aligned _ [first, value] [other, otherValue])
      (parallel_dictRest aligned _ _)

theorem parallel_braced (aligned : Aligned room grammar twin) :
    Parallel true before true room.grow SameDisplay grammar.braced twin.braced :=
  (parallel_operator "\x7b").enter_eq fun _ =>
    .ifOperator "\x7d" room.enters_self (.pure fun _ _ => ⟨rfl, rfl, rfl⟩) <|
    (parallel_aheadOperator "**").bind_eq fun _ =>
    .ite ((parallel_entry aligned).bind fun _ _ _ => parallel_dictRest aligned _ _) <|
    (parallel_aheadOperator "*").bind_eq fun _ =>
    .ite ((parallel_starred aligned).bind fun _ _ _ => parallel_setRest aligned _ _) <|
    parallel_startsAssignment.bind_eq fun _ =>
    (parallel_named aligned).bind fun first other _ =>
    (parallel_aheadOperator ":").bind_eq fun _ =>
    .ite (parallel_firstValue aligned first other) <|
    parallel_startsComprehension.bind_eq fun _ =>
    .ite (parallel_comprehensionRest aligned _ [first] [other]) (parallel_setRest aligned _ _)

/-! ## Strings -/

theorem parallel_formattedParts (aligned : Aligned room grammar twin) :
    Parallel false true true room (List.Forall₂ Expr.SameUse) grammar.formattedParts
      twin.formattedParts := by
  refine (Parallel.many ?_ : Parallel false true true room
    (List.Forall₂ (List.Forall₂ Expr.SameUse)) _ _).bind fun _ _ each =>
    .pure (List.rel_flatten each)
  exact (parallel_ahead (agrees_kind .formattedText)).bind_eq fun _ =>
    .ite ((parallel_ofKind .formattedText (by decide)).step fun _ _ _ => .pure .nil)
      (aligned.field.step fun _ _ same => .pure (.cons same .nil))

theorem parallel_replacementField (aligned : Aligned room grammar twin) :
    Parallel true before true room.grow Expr.SameUse grammar.replacementField
      twin.replacementField := by
  have closed : ∀ {values others : List Expr}, List.Forall₂ Expr.SameUse values others →
      Parallel false true true room (List.Forall₂ Expr.SameUse)
        (do operator "\x7d"; return values) (do operator "\x7d"; return others) :=
    fun each => (parallel_operator _).bind_eq fun _ => .pure each
  have specified : ∀ {value other : Expr}, value.SameUse other →
      Parallel false true true room (List.Forall₂ Expr.SameUse)
        (do
          let specification ← if ← operator? ":" then grammar.formattedParts else pure []
          operator "\x7d"
          return value :: specification)
        (do
          let specification ← if ← operator? ":" then twin.formattedParts else pure []
          operator "\x7d"
          return other :: specification) :=
    fun same => .ifOperator ":" room.enters_self
      ((parallel_formattedParts aligned).bind fun _ _ each => closed (.cons same each))
      (Parallel.bind (.pure .nil) fun _ _ each => closed (.cons same each))
  exact parallel_compoundOf _ <| (parallel_operator _).enter_eq fun _ =>
    (parallel_yieldingOrExpressions aligned).bind fun _ _ same =>
    (parallel_operator? "=").bind_eq fun _ => .ifOperator "!" room.enters_self
      (parallel_identifier.bind_eq fun _ => (parallel_guard_self _).bind_eq fun _ => specified same)
      (specified same)

theorem parallel_formatted (aligned : Aligned room grammar twin) :
    Parallel true before true room.grow Expr.SameUse grammar.formatted twin.formatted :=
  parallel_compoundOf _ <| (parallel_ofKind .formattedOpen (by decide)).loosen.enter fun _ _ _ =>
    (parallel_formattedParts aligned).bind fun _ _ each =>
    (parallel_ofKind .formattedClose (by decide)).bind fun _ _ _ => .pure each

theorem parallel_plainString :
    Parallel true before true room Expr.SameUse plainString plainString :=
  (parallel_ofKind .string (by decide)).spanned.step fun _ _ _ => .pure ⟨rfl, rfl, rfl⟩

theorem parallel_strings (aligned : Aligned room grammar twin) :
    Parallel true before true room.grow Expr.SameUse grammar.strings twin.strings := by
  refine (Parallel.many1 (parallel_plainString.orElse (parallel_formatted aligned))
    (parallel_plainString.orElse (parallel_formatted aligned))).spanned.step ?_
  rintro ⟨extent, parts⟩ ⟨otherExtent, others⟩ each
  cases each with
  | nil => exact .pure ⟨rfl, rfl, rfl⟩
  | cons first rest =>
      cases rest with
      | nil => exact .pure first
      | cons => exact .pure ⟨rfl, rfl, rfl⟩

/-! ## Arguments and elements -/

theorem argumentsInOrder_eq {arguments others : List (Argument Expr)}
    (each : List.Forall₂ Argument.SameForm arguments others) :
    argumentsInOrder arguments = argumentsInOrder others := by
  have folded : ∀ phase : ArgumentPhase,
      arguments.foldlM ArgumentPhase.after? phase = others.foldlM ArgumentPhase.after? phase := by
    induction each with
    | nil => exact fun _ => rfl
    | cons first _ ih =>
        intro phase
        rw [List.foldlM_cons, List.foldlM_cons, first.after?_eq phase]
        cases phase.after? _ with
        | none => rfl
        | some next => exact ih next
  rw [argumentsInOrder, argumentsInOrder, folded]

theorem parallel_startsKeyword :
    Parallel false before before room Eq startsKeyword startsKeyword :=
  parallel_namedSign "=" (by decide)

theorem parallel_argument (aligned : Aligned room grammar twin) :
    Parallel true before true room Argument.SameForm grammar.argument twin.argument :=
  .ifOperator "**" room.enters_self
    (aligned.expression.bind fun _ _ _ => .pure (.doubleStarred _ _)) <|
  .ifOperator "*" room.enters_self (aligned.expression.bind fun _ _ _ => .pure (.starred _ _)) <|
  parallel_startsKeyword.bind_eq fun _ => .ite
    (parallel_identifier.step_eq fun _ => (parallel_operator "=").bind_eq fun _ =>
      aligned.expression.bind fun _ _ _ => .pure (.keyword _ _ _ _))
    ((parallel_named aligned).step fun _ _ same => .pure (.positional same))

theorem parallel_arguments (aligned : Aligned room grammar twin) :
    Parallel false before true room (List.Forall₂ Argument.SameForm) grammar.arguments
      twin.arguments :=
  (parallel_aheadOperator ")").bind_eq fun _ => .ite (.pure .nil) <|
    ((parallel_argument aligned).commaList (parallel_argument aligned)).bind fun _ _ each =>
    (parallel_guard (by rw [argumentsInOrder_eq each.1])).bind_eq fun _ => .pure each.1

/-- An argument with the clauses of a generator behind it. -/
theorem parallel_generator (aligned : Aligned room grammar twin) :
    Parallel true before true room
      (fun found matched => found.1.SameForm matched.1 ∧
        List.Forall₂ Expr.SameUse found.2 matched.2)
      (do
        let first ← grammar.argument
        if ← startsComprehension then
          let clauses ← grammar.comprehension
          return (first, clauses)
        else return (first, []))
      (do
        let first ← twin.argument
        if ← startsComprehension then
          let clauses ← twin.comprehension
          return (first, clauses)
        else return (first, [])) :=
  (parallel_argument aligned).step fun _ _ same => parallel_startsComprehension.bind_eq fun _ =>
    .ite ((parallel_comprehension aligned).bind fun _ _ clauses => .pure ⟨same, clauses⟩)
      (.pure ⟨same, .nil⟩)

/-- The arguments behind the first. -/
theorem parallel_furtherArguments (aligned : Aligned room grammar twin)
    {first other : Argument Expr} (same : first.SameForm other) :
    Parallel false true true room (List.Forall₂ Argument.SameForm)
      (do
        let rest ← many (do operator ","; grammar.argument)
        let _ ← operator? ","
        operator ")"
        guard (argumentsInOrder (first :: rest))
        return first :: rest)
      (do
        let rest ← many (do operator ","; twin.argument)
        let _ ← operator? ","
        operator ")"
        guard (argumentsInOrder (other :: rest))
        return other :: rest) :=
  (Parallel.manyAfter (parallel_operator ",") (parallel_argument aligned)).bind fun _ _ rest =>
    (parallel_operator? ",").bind_eq fun _ => (parallel_operator ")").bind_eq fun _ =>
    (parallel_guard (by rw [argumentsInOrder_eq (.cons same rest)])).bind_eq fun _ =>
    .pure (.cons same rest)

theorem parallel_callArguments (aligned : Aligned room grammar twin) :
    Parallel false before true room (List.Forall₂ Argument.SameForm) grammar.callArguments
      twin.callArguments := by
  refine .ifOperator ")" room.enters_self (.pure .nil) <|
    (parallel_generator aligned).spanned.bind ?_
  rintro ⟨extent, first, clauses⟩ ⟨otherExtent, other, others⟩ ⟨same, each⟩
  cases each with
  | nil =>
      cases same with
      | positional same => exact parallel_furtherArguments aligned (.positional same)
      | keyword => exact parallel_furtherArguments aligned (.keyword _ _ _ _)
      | starred => exact parallel_furtherArguments aligned (.starred _ _)
      | doubleStarred => exact parallel_furtherArguments aligned (.doubleStarred _ _)
  | cons =>
      cases same with
      | positional =>
          exact (parallel_operator ")").bind_eq fun _ =>
            .pure (.cons (.positional ⟨rfl, rfl, rfl⟩) .nil)
      | keyword => exact .failure
      | starred => exact .failure
      | doubleStarred => exact .failure

theorem parallel_elementEnds :
    Parallel false before before room Eq elementEnds elementEnds :=
  parallel_ahead fun _ _ alike => by rw [alike.isOperator, alike.isOperator, alike.isOperator]

theorem parallel_bound (aligned : Aligned room grammar twin) :
    Parallel false before true room (List.Forall₂ Expr.SameUse) grammar.bound twin.bound :=
  parallel_elementEnds.bind_eq fun _ =>
    .ite (.pure .nil) (aligned.expression.bind fun _ _ same => .pure (.cons same .nil))

theorem parallel_element (aligned : Aligned room grammar twin) :
    Parallel false before true room (fun _ _ => True) grammar.element twin.element := by
  refine .ifOperator "*" room.enters_self
    (aligned.expression.bind fun _ _ _ => .pure trivial) <|
    parallel_startsAssignment.bind_eq fun _ =>
    .ite ((parallel_assignment aligned).bind fun _ _ _ => .pure trivial) <|
    (parallel_bound aligned).bind fun lower other each =>
    .ifOperator ":" room.enters_self ?_ ?_
  · exact (parallel_bound aligned).bind fun _ _ _ => .ifOperator ":" room.enters_self
      ((parallel_bound aligned).bind fun _ _ _ => .pure trivial)
      (Parallel.bind_eq (.pure rfl) fun _ => .pure trivial)
  · cases each with
    | nil => exact .failure
    | cons first rest =>
        cases rest with
        | nil => exact .pure trivial
        | cons => exact .failure

theorem parallel_elements (aligned : Aligned room grammar twin) :
    Parallel false before true room (fun _ _ => True) grammar.elements twin.elements :=
  ((parallel_element aligned).commaList (parallel_element aligned)).bind fun _ _ _ => .pure trivial

/-! ## Operators -/

theorem parallel_oneOf {α : Type} (operators : List (String × α)) :
    Parallel true before true room Eq (oneOf operators) (oneOf operators) := by
  induction operators with
  | nil => exact .failure
  | cons operator rest ih => exact .ifOperator operator.1 room.enters_self (.pure rfl) ih

/-- Operands that are joined from left to right may be used where a single one may be. -/
theorem sameUse_foldl_binary (start otherStart : List Token)
    {rest others : List (BinaryOperator × Expr × List Token)} {first other : Expr}
    (same : first.SameUse other) (each : List.Forall₂ (fun _ _ => True) rest others) :
    (rest.foldl (fun left (operator, right, stop) =>
      .binary (extentBetween start stop) operator left right) first).SameUse
    (others.foldl (fun left (operator, right, stop) =>
      .binary (extentBetween otherStart stop) operator left right) other) := by
  induction each generalizing first other with
  | nil => exact same
  | cons _ _ ih => exact ih ⟨rfl, rfl, rfl⟩

theorem parallel_leftAssociative {operand otherOperand : Parser Expr}
    (parallel : ∀ {before : Bool},
      Parallel true before true room Expr.SameUse operand otherOperand)
    (operators : List (String × BinaryOperator)) :
    Parallel true before true room Expr.SameUse (leftAssociative operand operators)
      (leftAssociative otherOperand operators) := by
  refine parallel_get.bind fun start otherStart _ => parallel.step fun _ _ same =>
    (Parallel.many ?_ : Parallel false true true room (List.Forall₂ fun _ _ => True) _ _).bind
    fun _ _ each => .pure (sameUse_foldl_binary start otherStart same each)
  exact (parallel_oneOf operators).step_eq fun _ => parallel.bind fun _ _ _ =>
    parallel_get.bind fun _ _ _ => .pure trivial

/-- Operands between separators; a single one is the expression itself. -/
theorem parallel_operands {form : Form} {operand otherOperand : Parser Expr}
    (parallel : ∀ {before : Bool},
      Parallel true before true room Expr.SameUse operand otherOperand)
    {separator : Parser Unit} (between : Parallel true true true room Eq separator separator) :
    Parallel true before true room Expr.SameUse
      (do
        let (extent, operands) ← spanned (separated operand separator)
        match operands with
        | [single] => return single
        | operands => return .compound extent form operands)
      (do
        let (extent, operands) ← spanned (separated otherOperand separator)
        match operands with
        | [single] => return single
        | operands => return .compound extent form operands) := by
  refine (Parallel.separated between parallel parallel).spanned.step ?_
  rintro ⟨extent, operands⟩ ⟨otherExtent, others⟩ each
  cases each with
  | nil => exact .pure (.compound _ _ _ .nil)
  | cons first rest =>
      cases rest with
      | nil => exact .pure first
      | cons second more => exact .pure (.compound _ _ _ (.cons first (.cons second more)))

theorem parallel_joinedBy (form : Form) (text : String) (noImport : text ≠ "import")
    {operand otherOperand : Parser Expr}
    (parallel : ∀ {before : Bool},
      Parallel true before true room Expr.SameUse operand otherOperand) :
    Parallel true before true room Expr.SameUse (joinedBy form text operand)
      (joinedBy form text otherOperand) :=
  parallel_operands parallel (parallel_word text noImport)

theorem parallel_comparisonOperator :
    Parallel true before true room Eq comparisonOperator comparisonOperator :=
  .ifWord "not" (by decide) room.enters_self (parallel_word "in" (by decide)).weaken <|
  .ifWord "in" (by decide) room.enters_self (.pure rfl) <|
  .ifWord "is" (by decide) room.enters_self
    ((parallel_word? "not" (by decide)).bind_eq fun _ => .pure rfl) (parallel_oneOf _)

theorem parallel_comparisonOf {operand otherOperand : Parser Expr}
    (parallel : ∀ {before : Bool},
      Parallel true before true room Expr.SameUse operand otherOperand) :
    Parallel true before true room Expr.SameUse (comparisonOf operand)
      (comparisonOf otherOperand) :=
  parallel_operands parallel parallel_comparisonOperator

/-! ## Parameters of lambdas -/

section

variable {annotate otherAnnotate annotateStarred otherStarred : Parser Unit}

theorem parallel_parameter (aligned : Aligned room grammar twin)
    (mark : Parallel false true true room Eq annotate otherAnnotate)
    (starredMark : Parallel false true true room Eq annotateStarred otherStarred) :
    Parallel true before true room Eq (grammar.parameter annotate annotateStarred)
      (twin.parameter otherAnnotate otherStarred) :=
  .ifOperator "/" room.enters_self (.pure rfl) <|
  .ifOperator "**" room.enters_self
    (parallel_identifier.bind_eq fun _ => mark.bind_eq fun _ => .pure rfl) <|
  .ifOperator "*" room.enters_self
    ((parallel_aheadOperator ",").bind_eq fun _ => .ite (.pure rfl) <|
      parallel_identifier.bind_eq fun _ => starredMark.bind_eq fun _ => .pure rfl) <|
  parallel_identifier.step_eq fun _ => mark.bind_eq fun _ => .ifOperator "=" room.enters_self
    (aligned.expression.bind fun _ _ _ => .pure rfl) (.pure rfl)

theorem parallel_parameters (aligned : Aligned room grammar twin)
    (mark : Parallel false true true room Eq annotate otherAnnotate)
    (starredMark : Parallel false true true room Eq annotateStarred otherStarred)
    (closing : String) :
    Parallel false true true room Eq (grammar.parameters closing annotate annotateStarred)
      (twin.parameters closing otherAnnotate otherStarred) := by
  refine (parallel_aheadOperator closing).bind_eq fun _ => .ite (.pure rfl) <|
    ((parallel_parameter aligned mark starredMark).commaList
      (parallel_parameter aligned mark starredMark)).bind ?_
  rintro ⟨kinds, several⟩ ⟨otherKinds, otherSeveral⟩ ⟨each, _⟩
  obtain rfl : kinds = otherKinds := List.forall₂_eq_eq_eq ▸ each
  exact parallel_guard_self _

end

/-! ## The levels -/

/-- What an operator begins that begins an expression. -/
theorem parallel_bracketsOf (aligned : Aligned room grammar twin) (text : String) :
    Parallel true before true room.grow SameDisplay
      (if text == "(" then grammar.parenthesized
        else if text == "[" then grammar.bracketed
        else if text == "\x7b" then grammar.braced
        else do
          operator "..."
          return fun extent => Expr.ellipsis extent)
      (if text == "(" then twin.parenthesized
        else if text == "[" then twin.bracketed
        else if text == "\x7b" then twin.braced
        else do
          operator "..."
          return fun extent => Expr.ellipsis extent) :=
  .ite (parallel_parenthesized aligned) <| .ite (parallel_bracketed aligned) <|
    .ite (parallel_braced aligned) <|
    (parallel_operator "...").step_eq fun _ => .pure fun _ _ => ⟨rfl, rfl, rfl⟩

/-- A name that is read as an expression. -/
theorem parallel_nameAtom :
    Parallel true before true room Expr.SameUse
      (do
        let (extent, token) ← spanned (satisfy fun token =>
          constantWords.contains token.text || !reservedWords.contains token.text)
        let identifier ← ofOption (Identifier.ofString? token.text)
        return .name extent identifier)
      (do
        let (extent, token) ← spanned (satisfy fun token =>
          constantWords.contains token.text || !reservedWords.contains token.text)
        let identifier ← ofOption (Identifier.ofString? token.text)
        return .name extent identifier) := by
  refine (parallel_satisfyText (fun text => constantWords.contains text ||
    !reservedWords.contains text) (by decide) true (by decide)).spanned.step ?_
  rintro ⟨extent, token⟩ ⟨otherExtent, other⟩ alike
  have same : Identifier.ofString? token.text = Identifier.ofString? other.text :=
    Token.Alike.congr_text alike Identifier.ofString? none (by decide +kernel)
  dsimp only
  rw [same]
  exact (parallel_ofOption _).bind_eq fun _ => .pure (.name _ _ rfl)

theorem parallel_atom (aligned : Aligned room grammar twin) :
    Parallel true before true room.grow Expr.SameUse grammar.atom twin.atom := by
  refine parallel_peek?.bind fun found matched same => ?_
  cases same with
  | none => exact .failure
  | @some token other alike =>
      have text : token.kind ≠ .lineEnd → other.text = token.text := fun inLine =>
        (alike.text_eq inLine).symm
      dsimp only
      rw [← alike.kind]
      generalize token.kind = kind at text
      cases kind with
      | name => exact parallel_nameAtom
      | number =>
          exact (parallel_ofKind .number (by decide)).spanned.step fun _ _ _ =>
            .pure ⟨rfl, rfl, rfl⟩
      | string => exact parallel_strings aligned
      | formattedOpen => exact parallel_strings aligned
      | operator =>
          dsimp only
          rw [text (by decide)]
          exact (parallel_bracketsOf aligned token.text).spanned.step fun _ _ same =>
            .pure (same _ _)
      | _ => exact .failure

/-- What stands behind a primary makes expressions of the same use. -/
def SameTrailer (trailer other : Extent → Expr → Expr) : Prop :=
  ∀ extent otherExtent expr otherExpr, (trailer extent expr).SameUse (other otherExtent otherExpr)

theorem parallel_trailer (aligned : Aligned room grammar twin) :
    Parallel true before true room.grow SameTrailer grammar.trailer twin.trailer :=
  .ifOperator "." room.enters_grow
    (parallel_identifier.bind_eq fun _ => .pure fun _ _ _ _ => ⟨rfl, rfl, rfl⟩) <|
  .ifOperator "(" room.enters_grow
    ((parallel_callArguments aligned).bind fun _ _ _ => .pure fun _ _ _ _ => ⟨rfl, rfl, rfl⟩) <|
  (parallel_operator "[").enter_eq fun _ => (parallel_elements aligned).bind fun _ _ _ =>
    (parallel_operator "]").bind_eq fun _ => .pure fun _ _ _ _ => ⟨rfl, rfl, rfl⟩

theorem sameUse_foldl_trailers (start otherStart : List Token)
    {trailers others : List ((Extent → Expr → Expr) × List Token)} {first other : Expr}
    (same : first.SameUse other)
    (each : List.Forall₂ (fun found matched => SameTrailer found.1 matched.1) trailers others) :
    (trailers.foldl (fun object (trailer, stop) =>
      trailer (extentBetween start stop) object) first).SameUse
    (others.foldl (fun object (trailer, stop) =>
      trailer (extentBetween otherStart stop) object) other) := by
  induction each generalizing first other with
  | nil => exact same
  | cons trails _ ih => exact ih (trails _ _ _ _)

theorem parallel_primaryOf (aligned : Aligned room grammar twin) :
    Parallel true before true room.grow Expr.SameUse grammar.primaryOf twin.primaryOf := by
  refine parallel_get.bind fun start otherStart _ => (parallel_atom aligned).step fun _ _ same =>
    (Parallel.many ?_ : Parallel false true true room.grow
      (List.Forall₂ fun found matched => SameTrailer found.1 matched.1) _ _).bind
    fun _ _ each => .pure (sameUse_foldl_trailers start otherStart same each)
  exact (parallel_trailer aligned).step fun _ _ trails => parallel_get.bind fun _ _ _ =>
    .pure trails

theorem parallel_awaitOf (aligned : Aligned room grammar twin) :
    Parallel true before true room.grow Expr.SameUse grammar.awaitOf twin.awaitOf :=
  (parallel_aheadWord "await").bind_eq fun _ => .ite
    (parallel_compoundOf _ (parallel_prefixed room.grow.enters_self
      (parallel_word "await" (by decide)) (parallel_primaryOf aligned)))
    (parallel_primaryOf aligned)

theorem parallel_powerOf (aligned : Aligned room grammar twin) :
    Parallel true before true room.grow Expr.SameUse grammar.powerOf twin.powerOf := by
  have powered : Parallel true before true room.grow
      (fun found matched => found.1.SameUse matched.1 ∧
        found.2.isSome = matched.2.isSome)
      (do
        let base ← grammar.awaitOf
        if ← operator? "**" then
          let exponent ← grammar.factor
          return (base, some exponent)
        else return (base, none))
      (do
        let base ← twin.awaitOf
        if ← operator? "**" then
          let exponent ← twin.factor
          return (base, some exponent)
        else return (base, none)) :=
    (parallel_awaitOf aligned).step fun _ _ same => .ifOperator "**" room.enters_grow
      (aligned.factor.bind fun _ _ _ => .pure ⟨same, rfl⟩) (.pure ⟨same, rfl⟩)
  refine powered.spanned.step ?_
  rintro ⟨extent, base, exponent⟩ ⟨otherExtent, other, otherExponent⟩ ⟨same, powers⟩
  cases exponent with
  | none =>
      cases otherExponent with
      | none => exact .pure same
      | some _ => exact absurd powers (by simp)
  | some _ =>
      cases otherExponent with
      | none => exact absurd powers (by simp)
      | some _ => exact .pure ⟨rfl, rfl, rfl⟩

theorem parallel_factorOf (aligned : Aligned room grammar twin) :
    Parallel true before true room.grow Expr.SameUse grammar.factorOf twin.factorOf := by
  have signed : Parallel true before true room.grow
      (fun found matched => found.1 = matched.1 ∧ found.2.SameUse matched.2)
      (do
        let sign ← optional (oneOf [("+", UnaryOperator.plus), ("-", .minus), ("~", .invert)])
        let operand ← if sign.isSome then grammar.factor else grammar.powerOf
        return (sign, operand))
      (do
        let sign ← optional (oneOf [("+", UnaryOperator.plus), ("-", .minus), ("~", .invert)])
        let operand ← if sign.isSome then twin.factor else twin.powerOf
        return (sign, operand)) := by
    refine .ifOptional room.enters_grow (parallel_oneOf _) ?_ ?_
    · intro sign _ isSame
      subst isSame
      exact aligned.factor.bind fun _ _ same => .pure ⟨rfl, same⟩
    · exact (parallel_powerOf aligned).step fun _ _ same => .pure ⟨rfl, same⟩
  refine signed.spanned.step ?_
  rintro ⟨extent, sign, operand⟩ ⟨otherExtent, _, other⟩ ⟨rfl, same⟩
  cases sign with
  | none => exact .pure same
  | some sign => exact .pure ⟨rfl, rfl, rfl⟩

theorem parallel_bitOrOf (aligned : Aligned room grammar twin) :
    Parallel true before true room.grow Expr.SameUse grammar.bitOrOf twin.bitOrOf :=
  parallel_leftAssociative (parallel_leftAssociative (parallel_leftAssociative
    (parallel_leftAssociative (parallel_leftAssociative (parallel_leftAssociative
      (parallel_factorOf aligned) _) _) _) _) _) _

theorem parallel_inversionOf (aligned : Aligned room grammar twin) :
    Parallel true before true room.grow Expr.SameUse grammar.inversionOf twin.inversionOf :=
  (parallel_aheadWord "not").bind_eq fun _ => .ite
    (parallel_compoundOf _ (parallel_prefixed room.enters_grow
      (parallel_word "not" (by decide)) aligned.inversion))
    (parallel_comparisonOf (parallel_bitOrOf aligned))

theorem parallel_disjunctionOf (aligned : Aligned room grammar twin) :
    Parallel true before true room.grow Expr.SameUse grammar.disjunctionOf twin.disjunctionOf :=
  parallel_joinedBy _ _ (by decide) <| parallel_joinedBy _ _ (by decide) <|
    parallel_inversionOf aligned

theorem parallel_lambdaOf (aligned : Aligned room grammar twin) :
    Parallel true before true room.grow Expr.SameUse grammar.lambdaOf twin.lambdaOf :=
  parallel_compoundOf _ <| (parallel_word "lambda" (by decide)).enter_eq fun _ =>
    (parallel_parameters aligned (.pure rfl) (.pure rfl) ":").bind_eq fun _ =>
    (parallel_prefixed room.enters_self (parallel_operator ":") aligned.expression)

theorem parallel_expressionOf (aligned : Aligned room grammar twin) :
    Parallel true before true room.grow Expr.SameUse grammar.expressionOf twin.expressionOf := by
  have conditional : Parallel true before true room.grow
      (fun found matched => found.1.SameUse matched.1 ∧ found.2.length = matched.2.length)
      (do
        let value ← grammar.disjunctionOf
        if ← word? "if" then
          let condition ← grammar.disjunctionOf
          word "else"
          let otherwise ← grammar.expression
          return (value, [condition, otherwise])
        else return (value, []))
      (do
        let value ← twin.disjunctionOf
        if ← word? "if" then
          let condition ← twin.disjunctionOf
          word "else"
          let otherwise ← twin.expression
          return (value, [condition, otherwise])
        else return (value, [])) :=
    (parallel_disjunctionOf aligned).step fun _ _ same =>
      .ifWord "if" (by decide) room.grow.enters_self
        ((parallel_disjunctionOf aligned).step fun _ _ _ =>
          (parallel_word "else" (by decide)).enter_eq fun _ =>
          aligned.expression.bind fun _ _ _ => .pure ⟨same, rfl⟩)
        (.pure ⟨same, rfl⟩)
  refine (parallel_aheadWord "lambda").bind_eq fun _ =>
    .ite (parallel_lambdaOf aligned) (conditional.spanned.step ?_)
  rintro ⟨extent, value, condition⟩ ⟨otherExtent, other, otherCondition⟩ ⟨same, lengths⟩
  cases condition with
  | nil =>
      obtain rfl := List.length_eq_zero_iff.mp lengths.symm
      exact .pure same
  | cons =>
      cases otherCondition with
      | nil => exact absurd lengths (by simp)
      | cons => exact .pure ⟨rfl, rfl, rfl⟩

theorem Aligned.around (aligned : Aligned room grammar twin) :
    Aligned room.grow grammar.around twin.around where
  primary := parallel_primaryOf aligned
  factor := parallel_factorOf aligned
  bitOr := parallel_bitOrOf aligned
  inversion := parallel_inversionOf aligned
  disjunction := parallel_disjunctionOf aligned
  expression := parallel_expressionOf aligned
  field := parallel_replacementField aligned

/-- Without tokens no level of the grammar reads anything. -/
structure Starved (grammar : ExprGrammar) : Prop where
  primary : grammar.primary [] = none
  factor : grammar.factor [] = none
  bitOr : grammar.bitOr [] = none
  inversion : grammar.inversion [] = none
  disjunction : grammar.disjunction [] = none
  expression : grammar.expression [] = none
  field : grammar.field [] = none

theorem starved_ofDepth (depth : Nat) : (ofDepth depth).Starved := by
  cases depth with
  | zero => exact ⟨rfl, rfl, rfl, rfl, rfl, rfl, rfl⟩
  | succ depth => exact ⟨rfl, rfl, rfl, rfl, rfl, rfl, rfl⟩

theorem Starved.aligned (starved : grammar.Starved) (twinStarved : twin.Starved)
    (noTokens : room.left = 0 ∨ room.right = 0) : Aligned room grammar twin where
  primary := .of_noTokens starved.primary twinStarved.primary noTokens
  factor := .of_noTokens starved.factor twinStarved.factor noTokens
  bitOr := .of_noTokens starved.bitOr twinStarved.bitOr noTokens
  inversion := .of_noTokens starved.inversion twinStarved.inversion noTokens
  disjunction := .of_noTokens starved.disjunction twinStarved.disjunction noTokens
  expression := .of_noTokens starved.expression twinStarved.expression noTokens
  field := .of_noTokens starved.field twinStarved.field noTokens

theorem Aligned.narrow (aligned : Aligned room grammar twin) (left : inner.left ≤ room.left)
    (right : inner.right ≤ room.right) : Aligned inner grammar twin where
  primary := aligned.primary.narrow left right
  factor := aligned.factor.narrow left right
  bitOr := aligned.bitOr.narrow left right
  inversion := aligned.inversion.narrow left right
  disjunction := aligned.disjunction.narrow left right
  expression := aligned.expression.narrow left right
  field := aligned.field.narrow left right

/-- **Expressions in different layouts.** Two depths of the grammar of expressions read alike on
tokens that are no more than the depths. -/
theorem aligned_ofDepth (depth other : Nat) :
    Aligned ⟨depth, other⟩ (ofDepth depth) (ofDepth other) := by
  induction depth generalizing other with
  | zero => exact (starved_ofDepth 0).aligned (starved_ofDepth other) (Or.inl rfl)
  | succ depth ih =>
      cases other with
      | zero => exact (starved_ofDepth _).aligned (starved_ofDepth 0) (Or.inr rfl)
      | succ other => exact (ih other).around

end ExprGrammar

end TypeCatalog.Syntax
