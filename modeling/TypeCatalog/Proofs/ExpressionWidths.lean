import TypeCatalog.Program.TypeExpr
import TypeCatalog.Proofs.ParserWidths
import TypeCatalog.Syntax.Module

/-! # Widths of expressions

The strings in the expression that a text writes are no longer than the text
(`TypeCatalog.Syntax.Expr.within_of_read?`). The levels of the grammar have this property together:
where strings count, the width of an expression is followed through its parser, and elsewhere it is
enough that the parser takes its tokens from the front.
-/

namespace TypeCatalog.Syntax

/-! ## Strings in expressions -/

mutual

/-- The number of characters that the strings of an expression are written with. -/
def Expr.spelledWidth : Expr → Nat
  | .string _ spelling => spelling.length
  | .joined _ parts => spelledWidths parts
  | _ => 0

def spelledWidths : List Expr → Nat
  | [] => 0
  | expr :: rest => expr.spelledWidth + spelledWidths rest

end

open TypeScope (longestString longestStringAmong)

/-- The strings of an expression fit a width. -/
structure Expr.Within (expr : Expr) (width : Nat) : Prop where
  longest : longestString expr ≤ width
  spelled : expr.spelledWidth ≤ width

theorem Expr.widens_within : Parser.Widens Expr.Within := fun _ _ _ within wider =>
  ⟨Nat.le_trans within.longest wider, Nat.le_trans within.spelled wider⟩

namespace Expr.Within

/-- An expression whose strings are not looked at. -/
theorem of_zero {expr : Expr} (noLongest : longestString expr = 0)
    (noSpelled : expr.spelledWidth = 0) (width : Nat) : expr.Within width :=
  ⟨noLongest ▸ Nat.zero_le _, noSpelled ▸ Nat.zero_le _⟩

theorem binary {left right : Expr} {width : Nat} (leftWithin : left.Within width)
    (rightWithin : right.Within width) (extent : Extent) (operator : BinaryOperator) :
    (Expr.binary extent operator left right).Within width := by
  cases operator with
  | bitOr => exact ⟨Nat.max_le.mpr ⟨leftWithin.longest, rightWithin.longest⟩, Nat.zero_le _⟩
  | _ => exact .of_zero rfl rfl _

/-- Brackets around an expression make it as wide as they are. -/
theorem withText {expr : Expr} {width : Nat} (within : expr.Within width) {text : String}
    (fits : text.length ≤ width) : (expr.withText text).Within width := by
  obtain ⟨longest, spelled⟩ := within
  cases expr with
  | string extent spelling => exact ⟨fits, spelled⟩
  | binary extent operator left right => cases operator <;> exact ⟨longest, spelled⟩
  | _ => exact ⟨longest, spelled⟩

end Expr.Within

theorem spelledWidths_le_of_fitAll {parts : List Expr} {width : Nat}
    (within : Parser.FitAll Expr.Within parts width) : spelledWidths parts ≤ width := by
  induction parts generalizing width with
  | nil => exact Nat.zero_le _
  | cons part rest ih =>
      obtain ⟨first, behind, bound, fit, others⟩ := within
      rw [spelledWidths]
      exact Nat.le_trans (Nat.add_le_add fit.spelled (ih others)) bound

theorem Expr.Within.of_single {expr : Expr} {width : Nat}
    (within : Parser.FitAll Expr.Within [expr] width) : expr.Within width := by
  obtain ⟨first, behind, bound, fit, _⟩ := within
  exact Expr.widens_within fit (by omega)

/-- The index of an element fits a width. -/
def Element.Within (element : Element Expr) (width : Nat) : Prop :=
  ∀ value ∈ element.index?, value.Within width

theorem Element.widens_within : Parser.Widens Element.Within :=
  fun _ _ _ within wider value isIndex => Expr.widens_within (within value isIndex) wider

theorem longestStringAmong_le_of_fitAll {elements : List (Element Expr)} {width : Nat}
    (within : Parser.FitAll Element.Within elements width) :
    longestStringAmong elements ≤ width := by
  induction elements generalizing width with
  | nil => exact Nat.zero_le _
  | cons element rest ih =>
      obtain ⟨first, behind, bound, fit, others⟩ := within
      cases element with
      | index value =>
          rw [longestStringAmong]
          exact Nat.max_le.mpr ⟨Nat.le_trans (fit value rfl).longest (by omega),
            Nat.le_trans (ih others) (by omega)⟩
      | slice bounds => exact Nat.le_trans (ih others) (by omega)

namespace ExprGrammar

open TypeCatalog.Syntax.Parser

/-- The expressions that the levels of a grammar read fit the tokens that they take. -/
structure Bounded (grammar : ExprGrammar) : Prop where
  primary : grammar.primary.Takes Expr.Within
  factor : grammar.factor.Takes Expr.Within
  bitOr : grammar.bitOr.Takes Expr.Within
  inversion : grammar.inversion.Takes Expr.Within
  disjunction : grammar.disjunction.Takes Expr.Within
  expression : grammar.expression.Takes Expr.Within
  field : grammar.field.Takes Expr.Within

variable {grammar : ExprGrammar}

/-- The strings of a compound expression are not looked at. -/
theorem takes_compoundOf (form : Form) {parts : Parser (List Expr)} (advances : parts.Advances) :
    (compoundOf form parts).Takes Expr.Within :=
  Takes.bind (advances_spanned advances) fun _ _ _ => .pure (.of_zero rfl rfl _)

/-- Something with an operator or a word in front of it. -/
theorem advances_prefixed {front : Parser Unit} (frontAdvances : front.Advances)
    {item : Parser Expr} (advances : item.Advances) :
    Advances (do front; let value ← item; return [value]) :=
  frontAdvances.bind fun _ => advances.bind fun _ => .pure _

/-! ## Lists -/

theorem takes_starred (bounded : grammar.Bounded) : grammar.starred.Takes Expr.Within :=
  takes_compoundOf _ (advances_prefixed (advances_operator _) bounded.bitOr.advances)

theorem advances_startsAssignment : startsAssignment.Advances := .of_state fun _ => rfl

theorem takes_assignment (bounded : grammar.Bounded) : grammar.assignment.Takes Expr.Within :=
  takes_compoundOf _ <| (advances_spanned advances_identifier).bind fun _ =>
    (advances_operator _).bind fun _ => bounded.expression.advances.bind fun _ => .pure _

theorem takes_named (bounded : grammar.Bounded) : grammar.named.Takes Expr.Within :=
  .behind Expr.widens_within advances_startsAssignment fun _ =>
    .ite (takes_assignment bounded) bounded.expression

theorem takes_item (bounded : grammar.Bounded) : grammar.item.Takes Expr.Within :=
  .behind Expr.widens_within (advances_ahead _) fun _ =>
    .ite (takes_starred bounded) (takes_named bounded)

theorem takes_plainItem (bounded : grammar.Bounded) : grammar.plainItem.Takes Expr.Within :=
  .behind Expr.widens_within (advances_ahead _) fun _ =>
    .ite (takes_starred bounded) bounded.expression

/-- A single item is the expression itself. -/
theorem takes_itemsOrTuple {item : Parser Expr} (takes : item.Takes Expr.Within) :
    (itemsOrTuple item).Takes Expr.Within := by
  refine (takes_spanned (takes_commaList Expr.widens_within takes)).bind ?_
  rintro ⟨extent, items, isTuple⟩ width ⟨_, fitAll⟩
  dsimp only
  split
  · exact .pure (.of_single fitAll)
  · exact .pure (.of_zero rfl rfl _)

theorem takes_expressions (bounded : grammar.Bounded) : grammar.expressions.Takes Expr.Within :=
  takes_itemsOrTuple (takes_plainItem bounded)

theorem takes_yielding (bounded : grammar.Bounded) : grammar.yielding.Takes Expr.Within := by
  have values := advances_optional (takes_expressions bounded).advances
  exact takes_compoundOf _ <| (advances_word _).bind fun _ => (advances_word? _).bind fun _ =>
    .ite (bounded.expression.advances.bind fun _ => .pure _) (values.bind fun _ => .pure _)

theorem takes_yieldingOrExpressions (bounded : grammar.Bounded) :
    grammar.yieldingOrExpressions.Takes Expr.Within :=
  .behind Expr.widens_within (advances_ahead _) fun _ =>
    .ite (takes_yielding bounded) (takes_expressions bounded)

/-! ## Comprehensions -/

theorem takes_target (bounded : grammar.Bounded) : grammar.target.Takes Expr.Within := by
  have starredTarget := takes_compoundOf .starred
    (advances_prefixed (advances_operator "*") bounded.primary.advances)
  have guarded : ∀ expr width, expr.Within width →
      Takes (do guard (isTarget expr = true); return expr) fun final more =>
        final.Within (width + more) := by
    intro expr width within
    refine Takes.bind (advances_guard _) fun _ more _ => .pure ?_
    exact Expr.widens_within within (by omega)
  exact .behind Expr.widens_within (advances_ahead _) fun _ =>
    .ite (starredTarget.bind guarded) (bounded.primary.bind guarded)

theorem advances_startsComprehension : startsComprehension.Advances := .of_state fun _ => rfl

theorem advances_comprehensionClause (bounded : grammar.Bounded) :
    grammar.comprehensionClause.Advances := by
  have targets := (takes_itemsOrTuple (takes_target bounded)).advances
  have conditions := advances_manyAfter (advances_word "if") bounded.disjunction.advances
  exact (advances_word? _).bind fun _ => (advances_word _).bind fun _ => targets.bind fun _ =>
    (advances_word _).bind fun _ => bounded.disjunction.advances.bind fun _ =>
    conditions.bind fun _ => .pure _

theorem advances_comprehension (bounded : grammar.Bounded) : grammar.comprehension.Advances :=
  (advances_many1 (advances_comprehensionClause bounded)).bind fun _ => .pure _

/-! ## Displays -/

/-- An expression in brackets fits the width of what stands between them or their extent. -/
def Encloses (form : Extent → Expr) (width : Nat) : Prop :=
  ∀ extent, (form extent).Within (max width extent.text.length)

theorem widens_encloses : Widens Encloses := fun _ _ _ encloses wider extent =>
  Expr.widens_within (encloses extent) (by omega)

/-- A display behind tokens that count for nothing. -/
theorem takes_displayBehind {α : Type} {front : Parser α} (advances : front.Advances)
    {next : α → Parser (Extent → Expr)} (takes : ∀ result, (next result).Takes Encloses) :
    (front >>= next).Takes Encloses := .behind widens_encloses advances takes

/-- The strings of a display are not looked at. -/
structure Hides (form : Extent → Expr) : Prop where
  noLongest : ∀ extent, longestString (form extent) = 0
  noSpelled : ∀ extent, (form extent).spelledWidth = 0

theorem Hides.encloses {form : Extent → Expr} (hides : Hides form) (width : Nat) :
    Encloses form width :=
  fun extent => .of_zero (hides.noLongest extent) (hides.noSpelled extent) _

theorem hides_compound (form : Form) (parts : List Expr) :
    Hides fun extent => .compound extent form parts := ⟨fun _ => rfl, fun _ => rfl⟩

theorem hides_tuple (items : List Expr) : Hides fun extent => .tuple extent items :=
  ⟨fun _ => rfl, fun _ => rfl⟩

theorem hides_list (items : List Expr) : Hides fun extent => .list extent items :=
  ⟨fun _ => rfl, fun _ => rfl⟩

theorem hides_set (items : List Expr) : Hides fun extent => .set extent items :=
  ⟨fun _ => rfl, fun _ => rfl⟩

theorem hides_dict (entries : List (Entry Expr)) : Hides fun extent => .dict extent entries :=
  ⟨fun _ => rfl, fun _ => rfl⟩

/-- A display at its closing bracket. -/
theorem takes_closing (closing : String) {form : Extent → Expr} (hides : Hides form) :
    Takes (do operator closing; return form) Encloses :=
  takes_displayBehind (advances_operator closing) fun _ => .pure (hides.encloses _)

/-- The clauses of a comprehension up to its closing bracket. -/
theorem takes_comprehensionRest (bounded : grammar.Bounded) (closing : String)
    (front : List Expr) : Takes (do
      let clauses ← grammar.comprehension
      operator closing
      return fun extent => Expr.compound extent .comprehension (front ++ clauses)) Encloses :=
  takes_displayBehind (advances_comprehension bounded) fun _ =>
    takes_closing closing (hides_compound _ _)

/-- An expression in round brackets. -/
theorem takes_enclosed (closing : String) {expr : Expr} {width : Nat} (within : expr.Within width) :
    Takes (do operator closing; return fun extent : Extent => expr.withText extent.text)
      fun form more => Encloses form (width + more) :=
  Takes.bind (advances_operator closing) fun _ more _ => .pure fun extent =>
    .withText (Expr.widens_within within (by omega)) (by omega)

theorem takes_parenthesized (bounded : grammar.Bounded) : grammar.parenthesized.Takes Encloses := by
  have several := advances_optional (advances_commaList (takes_item bounded).advances)
  refine takes_displayBehind (advances_operator _) fun _ =>
    takes_displayBehind (advances_operator? _) fun _ =>
    .ite (.pure ((hides_tuple _).encloses _)) <| takes_displayBehind (advances_ahead _) fun _ =>
    .ite ((takes_yielding bounded).bind fun _ _ within => takes_enclosed _ within) <|
    takes_displayBehind (advances_ahead _) fun isStarred =>
    (takes_item bounded).bind fun first width within => ?_
  have wide : Widens fun form more => Encloses form (width + more) := fun _ _ _ encloses wider =>
    widens_encloses encloses (Nat.add_le_add_left wider _)
  have hidden : ∀ {parser : Parser (Extent → Expr)}, parser.Takes Encloses →
      parser.Takes fun form more => Encloses form (width + more) := fun takes =>
    takes.mono fun _ _ encloses => widens_encloses encloses (Nat.le_add_left _ _)
  refine .behind wide advances_startsComprehension fun _ =>
    .ite (hidden (takes_comprehensionRest bounded _ [first])) <|
    .behind wide (advances_operator? _) fun _ =>
    .ite (.behind wide several fun _ => hidden (takes_closing _ (hides_tuple _))) <|
    .behind wide ?_ fun _ => takes_enclosed _ within
  exact advances_guard _

theorem takes_bracketed (bounded : grammar.Bounded) : grammar.bracketed.Takes Encloses := by
  have item := (takes_item bounded).advances
  have behind := advances_manyAfter (advances_operator ",") item
  exact takes_displayBehind (advances_operator _) fun _ =>
    takes_displayBehind (advances_operator? _) fun _ =>
    .ite (.pure ((hides_list _).encloses _)) <| takes_displayBehind (advances_ahead _) fun _ =>
    takes_displayBehind item fun first =>
    takes_displayBehind advances_startsComprehension fun _ =>
    .ite (takes_comprehensionRest bounded _ [first]) <| takes_displayBehind behind fun _ =>
    takes_displayBehind (advances_operator? _) fun _ => takes_closing _ (hides_list _)

theorem advances_entry (bounded : grammar.Bounded) : grammar.entry.Advances := by
  have expression := bounded.expression.advances
  exact (advances_operator? _).bind fun _ => .ite (bounded.bitOr.advances.bind fun _ => .pure _) <|
    expression.bind fun _ => (advances_operator _).bind fun _ => expression.bind fun _ => .pure _

theorem takes_dictRest (bounded : grammar.Bounded) (first : Entry Expr) :
    (grammar.dictRest first).Takes Encloses :=
  takes_displayBehind (advances_manyAfter (advances_operator ",") (advances_entry bounded)) fun _ =>
    takes_displayBehind (advances_operator? _) fun _ => takes_closing _ (hides_dict _)

theorem takes_setRest (bounded : grammar.Bounded) (first : Expr) :
    (grammar.setRest first).Takes Encloses :=
  takes_displayBehind (advances_manyAfter (advances_operator ",") (takes_item bounded).advances)
    fun _ => takes_displayBehind (advances_operator? _) fun _ => takes_closing _ (hides_set _)

/-- What stands behind the first key of a dictionary. -/
theorem takes_firstValue (bounded : grammar.Bounded) (first : Expr) : Takes (do
    operator ":"
    let value ← grammar.expression
    if ← startsComprehension then
      let clauses ← grammar.comprehension
      operator "\x7d"
      return fun extent => Expr.compound extent .comprehension (first :: value :: clauses)
    else grammar.dictRest (.pair first value)) Encloses :=
  takes_displayBehind (advances_operator _) fun _ =>
    takes_displayBehind bounded.expression.advances fun value =>
    takes_displayBehind advances_startsComprehension fun _ =>
    .ite (takes_comprehensionRest bounded _ [first, value]) (takes_dictRest bounded _)

theorem takes_braced (bounded : grammar.Bounded) : grammar.braced.Takes Encloses :=
  takes_displayBehind (advances_operator _) fun _ =>
    takes_displayBehind (advances_operator? _) fun _ =>
    .ite (.pure ((hides_dict _).encloses _)) <| takes_displayBehind (advances_ahead _) fun _ =>
    .ite (takes_displayBehind (advances_entry bounded) (takes_dictRest bounded)) <|
    takes_displayBehind (advances_ahead _) fun _ =>
    .ite (takes_displayBehind (takes_starred bounded).advances (takes_setRest bounded)) <|
    takes_displayBehind advances_startsAssignment fun _ =>
    takes_displayBehind (takes_named bounded).advances fun first =>
    takes_displayBehind (advances_ahead _) fun _ => .ite (takes_firstValue bounded _) <|
    takes_displayBehind advances_startsComprehension fun _ =>
    .ite (takes_comprehensionRest bounded _ [first]) (takes_setRest bounded _)

/-! ## Strings -/

theorem advances_formattedParts (bounded : grammar.Bounded) : grammar.formattedParts.Advances := by
  have field := bounded.field.advances
  refine Advances.bind (advances_many ?_) fun _ => .pure _
  exact (advances_ahead _).bind fun _ =>
    .ite ((advances_ofKind _).bind fun _ => .pure _) (field.bind fun _ => .pure _)

theorem takes_replacementField (bounded : grammar.Bounded) :
    grammar.replacementField.Takes Expr.Within := by
  have parts := advances_formattedParts bounded
  have closed : ∀ values : List Expr, Advances (do operator "\x7d"; return values) :=
    fun _ => (advances_operator _).bind fun _ => .pure _
  have specified : ∀ value : Expr, Advances (do
      let specification ← if ← operator? ":" then grammar.formattedParts else pure []
      operator "\x7d"
      return value :: specification) :=
    fun _ => (advances_operator? _).bind fun _ =>
      .ite (parts.bind fun _ => closed _) ((Advances.pure _).bind fun _ => closed _)
  exact takes_compoundOf _ <| (advances_operator _).bind fun _ =>
    (takes_yieldingOrExpressions bounded).advances.bind fun _ =>
    (advances_operator? _).bind fun _ => (advances_operator? _).bind fun _ => .ite
      (advances_identifier.bind fun _ => (advances_guard _).bind fun _ => specified _)
      (specified _)

theorem takes_formatted (bounded : grammar.Bounded) : grammar.formatted.Takes Expr.Within :=
  takes_compoundOf _ <| (advances_ofKind _).bind fun _ =>
    (advances_formattedParts bounded).bind fun _ => (advances_ofKind _).bind fun _ => .pure _

/-- A string literal is its token. -/
theorem takes_plainString : plainString.Takes Expr.Within := by
  refine (takes_spanned (takes_satisfy _)).bind ?_
  rintro ⟨extent, token⟩ width ⟨short, rfl⟩
  refine .pure ⟨short, ?_⟩
  rw [Expr.spelledWidth, Token.width]
  exact Nat.le_add_left _ _

theorem takes_strings (bounded : grammar.Bounded) : grammar.strings.Takes Expr.Within := by
  have parts := takes_many1 (takes_plainString.orElse (takes_formatted bounded))
  refine (takes_spanned parts).bind ?_
  rintro ⟨extent, parts⟩ width ⟨_, fitAll⟩
  dsimp only
  split
  · exact .pure (.of_single fitAll)
  · refine .pure ⟨Nat.zero_le _, ?_⟩
    rw [Expr.spelledWidth]
    exact spelledWidths_le_of_fitAll fitAll

/-! ## Arguments and elements -/

theorem advances_startsKeyword : startsKeyword.Advances := .of_state fun _ => rfl

theorem advances_argument (bounded : grammar.Bounded) : grammar.argument.Advances := by
  have expression := bounded.expression.advances
  exact (advances_operator? _).bind fun _ => .ite (expression.bind fun _ => .pure _) <|
    (advances_operator? _).bind fun _ => .ite (expression.bind fun _ => .pure _) <|
    advances_startsKeyword.bind fun _ => .ite
      (advances_identifier.bind fun _ => (advances_operator _).bind fun _ =>
        expression.bind fun _ => .pure _)
      ((takes_named bounded).advances.bind fun _ => .pure _)

theorem advances_callArguments (bounded : grammar.Bounded) : grammar.callArguments.Advances := by
  have argument := advances_argument bounded
  have more := advances_manyAfter (advances_operator ",") argument
  have first : Advances (do
      let first ← grammar.argument
      if ← startsComprehension then
        let clauses ← grammar.comprehension
        return (first, clauses)
      else return (first, [])) :=
    argument.bind fun _ => advances_startsComprehension.bind fun _ =>
      .ite ((advances_comprehension bounded).bind fun _ => .pure _) (.pure _)
  refine (advances_operator? _).bind fun _ =>
    .ite (.pure _) <| (advances_spanned first).bind fun (extent, first, clauses) => ?_
  dsimp only
  split
  · exact (advances_operator _).bind fun _ => .pure _
  · exact more.bind fun _ => (advances_operator? _).bind fun _ =>
      (advances_operator _).bind fun _ => (advances_guard _).bind fun _ => .pure _
  · exact .failure

theorem takes_bound (bounded : grammar.Bounded) :
    grammar.bound.Takes (FitAll Expr.Within) := by
  refine Takes.bind (advances_ahead _) fun _ _ _ => .ite (.pure trivial) ?_
  refine bounded.expression.bind fun value width within => .pure ?_
  exact ⟨width, 0, by omega, within, trivial⟩

/-- An index fits what is taken for it. -/
theorem takes_index {item : Parser Expr} (takes : item.Takes Expr.Within) :
    Takes (do let value ← item; return Element.index value) Element.Within := by
  refine takes.bind fun value width within => .pure ?_
  intro index isIndex
  obtain rfl := Option.some.inj isIndex
  exact Expr.widens_within within (Nat.le_add_right _ _)

theorem takes_slice (bounds : List Expr) :
    Takes (pure (Element.slice bounds) : Parser (Element Expr)) Element.Within := .pure nofun

theorem takes_element (bounded : grammar.Bounded) : grammar.element.Takes Element.Within := by
  have bound := (takes_bound bounded).advances
  have sliced : ∀ lower upper : List Expr, Takes (do
      let step ← if ← operator? ":" then grammar.bound else pure []
      return Element.slice (lower ++ upper ++ step)) Element.Within := fun _ _ =>
    .behind Element.widens_within (advances_operator? _) fun _ =>
      .ite (.behind Element.widens_within bound fun _ => takes_slice _)
        (.behind Element.widens_within (.pure _) fun _ => takes_slice _)
  refine .behind Element.widens_within (advances_operator? _) fun _ =>
    .ite (takes_index bounded.expression) <|
    .behind Element.widens_within advances_startsAssignment fun _ =>
    .ite (takes_index (takes_assignment bounded)) <|
    (takes_bound bounded).bind fun lower width fitAll => ?_
  have wide : Widens fun element more => Element.Within element (width + more) :=
    fun _ _ _ within wider => Element.widens_within within (Nat.add_le_add_left wider _)
  refine .behind wide (advances_operator? _) fun _ => .ite ?_ ?_
  · refine .behind wide bound fun _ => (sliced _ _).mono fun _ _ within => ?_
    exact Element.widens_within within (Nat.le_add_left _ _)
  · split
    · refine .pure fun value isIndex => ?_
      obtain rfl := Option.some.inj isIndex
      exact Expr.widens_within (.of_single fitAll) (Nat.le_add_right _ _)
    · exact .failure

theorem takes_elements (bounded : grammar.Bounded) :
    grammar.elements.Takes (FitAll Element.Within) :=
  (takes_commaList Element.widens_within (takes_element bounded)).bind fun _ _ fitAll =>
    .pure (fitAll.mono (Nat.le_add_right _ _))

/-! ## Operators -/

theorem advances_oneOf {α : Type} (operators : List (String × α)) :
    (oneOf operators).Advances := by
  induction operators with
  | nil => exact .failure
  | cons operator rest ih => exact (advances_operator? _).bind fun _ => .ite (.pure _) ih

/-- Operands that are joined from left to right fit the sum of their widths. -/
theorem within_foldl_binary (start : List Token)
    (rest : List (BinaryOperator × Expr × List Token)) {first : Expr} {width more : Nat}
    (within : first.Within width) (fitAll : FitAll (fun found => found.2.1.Within) rest more) :
    (rest.foldl (fun left (operator, right, stop) =>
      .binary (extentBetween start stop) operator left right) first).Within (width + more) := by
  induction rest generalizing first width more with
  | nil => exact Expr.widens_within within (Nat.le_add_right _ _)
  | cons found rest ih =>
      obtain ⟨here, behind, bound, fit, others⟩ := fitAll
      have joined := Expr.Within.binary (Expr.widens_within within (Nat.le_add_right width here))
        (Expr.widens_within fit (Nat.le_add_left here width))
        (extentBetween start found.2.2) found.1
      exact Expr.widens_within (ih joined others) (by omega)

theorem takes_leftAssociative {operand : Parser Expr} (takes : operand.Takes Expr.Within)
    (operators : List (String × BinaryOperator)) :
    (leftAssociative operand operators).Takes Expr.Within := by
  have behind : Takes (do
      let operator ← oneOf operators
      let right ← operand
      let stop ← get
      return (operator, right, stop)) fun found width => found.2.1.Within width :=
    Takes.bind (advances_oneOf _) fun _ _ _ => takes.bind fun _ _ within =>
      Takes.bind advances_get fun _ _ _ => .pure (Expr.widens_within within (by omega))
  exact .behind Expr.widens_within advances_get fun start => takes.bind fun _ _ within =>
    (takes_many behind).bind fun rest _ fitAll =>
    .pure (within_foldl_binary start rest within fitAll)

/-- Operands between separators; a single one is the expression itself. -/
theorem takes_operands (form : Form) {operand : Parser Expr} (takes : operand.Takes Expr.Within)
    {separator : Parser Unit} (between : separator.Advances) :
    Takes (do
      let (extent, operands) ← spanned (separated operand separator)
      match operands with
      | [single] => return single
      | operands => return .compound extent form operands) Expr.Within := by
  refine (takes_spanned (takes_separated Expr.widens_within between takes)).bind ?_
  rintro ⟨extent, operands⟩ width ⟨_, fitAll⟩
  dsimp only
  split
  · exact .pure (.of_single fitAll)
  · exact .pure (.of_zero rfl rfl _)

theorem takes_joinedBy (form : Form) (text : String) {operand : Parser Expr}
    (takes : operand.Takes Expr.Within) : (joinedBy form text operand).Takes Expr.Within :=
  takes_operands form takes (advances_word text)

theorem advances_comparisonOperator : comparisonOperator.Advances :=
  (advances_word? _).bind fun _ => .ite (advances_word _) <| (advances_word? _).bind fun _ =>
    .ite (.pure _) <| (advances_word? _).bind fun _ =>
    .ite ((advances_word? _).bind fun _ => .pure _) (advances_oneOf _)

theorem takes_comparisonOf {operand : Parser Expr} (takes : operand.Takes Expr.Within) :
    (comparisonOf operand).Takes Expr.Within :=
  takes_operands .comparison takes advances_comparisonOperator

/-! ## Parameters of lambdas -/

theorem advances_parameter (bounded : grammar.Bounded) {annotate annotateStarred : Parser Unit}
    (mark : annotate.Advances) (starredMark : annotateStarred.Advances) :
    (grammar.parameter annotate annotateStarred).Advances := by
  have defaulted : Advances (do
      if ← operator? "=" then
        let _ ← grammar.expression
        return ParameterKind.positional true
      else return .positional false) :=
    (advances_operator? _).bind fun _ =>
      .ite (bounded.expression.advances.bind fun _ => .pure _) (.pure _)
  exact (advances_operator? _).bind fun _ => .ite (.pure _) <| (advances_operator? _).bind fun _ =>
    .ite (advances_identifier.bind fun _ => mark.bind fun _ => .pure _) <|
    (advances_operator? _).bind fun _ => .ite
      ((advances_ahead _).bind fun _ =>
        .ite (.pure _) (advances_identifier.bind fun _ => starredMark.bind fun _ => .pure _))
      (advances_identifier.bind fun _ => mark.bind fun _ => defaulted)

theorem advances_parameters (bounded : grammar.Bounded) {annotate annotateStarred : Parser Unit}
    (mark : annotate.Advances) (starredMark : annotateStarred.Advances)
    (closing : String) : (grammar.parameters closing annotate annotateStarred).Advances :=
  (advances_ahead _).bind fun _ => .ite (.pure _) <|
    (advances_commaList (advances_parameter bounded mark starredMark)).bind fun _ =>
    advances_guard _

/-! ## The levels -/

/-- What an operator begins that begins an expression. -/
theorem takes_bracketsOf (bounded : grammar.Bounded) (text : String) : Takes (
    if text == "(" then grammar.parenthesized
    else if text == "[" then grammar.bracketed
    else if text == "\x7b" then grammar.braced
    else do
      operator "..."
      return fun extent => Expr.ellipsis extent) Encloses :=
  .ite (takes_parenthesized bounded) <| .ite (takes_bracketed bounded) <|
    .ite (takes_braced bounded) (takes_closing _ ⟨fun _ => rfl, fun _ => rfl⟩)

theorem takes_atom (bounded : grammar.Bounded) : grammar.atom.Takes Expr.Within := by
  refine .behind Expr.widens_within advances_peek? fun found => ?_
  cases found with
  | none => exact .failure
  | some token =>
      dsimp only
      split
      · exact Takes.bind (advances_spanned (advances_satisfy _)) fun _ _ _ =>
          Takes.bind (advances_ofOption _) fun _ _ _ => .pure (.of_zero rfl rfl _)
      · exact Takes.bind (advances_spanned (advances_ofKind _)) fun _ _ _ =>
          .pure (.of_zero rfl rfl _)
      · exact takes_strings bounded
      · exact takes_strings bounded
      · refine (takes_spanned (takes_bracketsOf bounded token.text)).bind ?_
        rintro ⟨extent, form⟩ width ⟨short, encloses⟩
        exact .pure (Expr.widens_within (encloses extent) (Nat.max_le.mpr ⟨Nat.le_refl _, short⟩))
      · exact .failure

/-- What stands behind a primary fits a width, whatever the primary is. -/
def Trails (trailer : Extent → Expr → Expr) (width : Nat) : Prop :=
  ∀ extent object, (trailer extent object).Within width

theorem takes_trailer (bounded : grammar.Bounded) : grammar.trailer.Takes Trails := by
  refine Takes.bind (advances_operator? _) fun _ _ _ => .ite ?_ ?_
  · exact Takes.bind advances_identifier fun _ _ _ => .pure fun _ _ => .of_zero rfl rfl _
  refine Takes.bind (advances_operator? _) fun _ _ _ => .ite ?_ ?_
  · exact Takes.bind (advances_callArguments bounded) fun _ _ _ =>
      .pure fun _ _ => .of_zero rfl rfl _
  refine Takes.bind (advances_operator _) fun _ _ _ => (takes_elements bounded).bind ?_
  intro elements width fitAll
  refine Takes.bind (advances_operator _) fun _ _ _ => .pure fun extent object =>
    ⟨?_, Nat.zero_le _⟩
  rw [longestString]
  exact Nat.le_trans (longestStringAmong_le_of_fitAll fitAll) (by omega)

theorem within_foldl_trailers (start : List Token)
    (trailers : List ((Extent → Expr → Expr) × List Token)) {first : Expr} {width more : Nat}
    (within : first.Within width) (fitAll : FitAll (fun found => Trails found.1) trailers more) :
    (trailers.foldl (fun object (trailer, stop) =>
      trailer (extentBetween start stop) object) first).Within (width + more) := by
  induction trailers generalizing first width more with
  | nil => exact Expr.widens_within within (Nat.le_add_right _ _)
  | cons found rest ih =>
      obtain ⟨here, behind, bound, trails, others⟩ := fitAll
      exact Expr.widens_within (ih (trails (extentBetween start found.2) first) others) (by omega)

theorem takes_primaryOf (bounded : grammar.Bounded) : grammar.primaryOf.Takes Expr.Within := by
  have behind : Takes (do
      let trailer ← grammar.trailer
      let stop ← get
      return (trailer, stop)) fun found width => Trails found.1 width :=
    (takes_trailer bounded).bind fun _ _ trails => Takes.bind advances_get fun _ _ _ =>
      .pure fun extent object => Expr.widens_within (trails extent object) (by omega)
  exact .behind Expr.widens_within advances_get fun start =>
    (takes_atom bounded).bind fun _ _ within => (takes_many behind).bind fun trailers _ fitAll =>
    .pure (within_foldl_trailers start trailers within fitAll)

theorem takes_awaitOf (bounded : grammar.Bounded) : grammar.awaitOf.Takes Expr.Within := by
  have primary := takes_primaryOf bounded
  exact .behind Expr.widens_within (advances_ahead _) fun _ =>
    .ite (takes_compoundOf _ (advances_prefixed (advances_word _) primary.advances)) primary

theorem takes_powerOf (bounded : grammar.Bounded) : grammar.powerOf.Takes Expr.Within := by
  have powered : Takes (do
      let base ← grammar.awaitOf
      if ← operator? "**" then
        let exponent ← grammar.factor
        return (base, some exponent)
      else return (base, none)) fun found width =>
        found.1.Within width ∧ ∀ exponent ∈ found.2, exponent.Within width := by
    refine (takes_awaitOf bounded).bind fun base width within =>
      Takes.bind (advances_operator? _) fun _ more _ => .ite ?_ ?_
    · refine bounded.factor.bind fun exponent rest exponentWithin => .pure ⟨?_, ?_⟩
      · exact Expr.widens_within within (by omega)
      · rintro _ ⟨⟩
        exact Expr.widens_within exponentWithin (by omega)
    · exact .pure ⟨Expr.widens_within within (by omega), nofun⟩
  refine (takes_spanned powered).bind ?_
  rintro ⟨extent, base, exponent⟩ width ⟨_, baseWithin, exponentWithin⟩
  cases exponent with
  | none => exact .pure baseWithin
  | some exponent => exact .pure (baseWithin.binary (exponentWithin exponent rfl) extent .power)

theorem takes_factorOf (bounded : grammar.Bounded) : grammar.factorOf.Takes Expr.Within := by
  have signed : Takes (do
      let sign ← optional (oneOf [("+", UnaryOperator.plus), ("-", .minus), ("~", .invert)])
      let operand ← if sign.isSome then grammar.factor else grammar.powerOf
      return (sign, operand)) fun found width => found.2.Within width := by
    have wide : Widens fun (found : Option UnaryOperator × Expr) width => found.2.Within width :=
      fun _ _ _ within wider => Expr.widens_within within wider
    have paired : ∀ (sign : Option UnaryOperator) {operand : Parser Expr},
        operand.Takes Expr.Within →
        Takes (do let operand ← operand; return (sign, operand)) fun found width =>
          found.2.Within width := fun _ _ takes =>
      takes.bind fun _ _ within => .pure within
    exact .behind wide (advances_optional (advances_oneOf _)) fun sign =>
      .ite (paired sign bounded.factor) (paired sign (takes_powerOf bounded))
  refine (takes_spanned signed).bind ?_
  rintro ⟨extent, sign, operand⟩ width ⟨_, within⟩
  cases sign with
  | none => exact .pure within
  | some sign => exact .pure (.of_zero rfl rfl _)

theorem takes_bitOrOf (bounded : grammar.Bounded) : grammar.bitOrOf.Takes Expr.Within := by
  have term := takes_leftAssociative (takes_factorOf bounded)
    [("*", .multiply), ("//", .floorDivide), ("/", .divide), ("%", .modulo), ("@", .matrixMultiply)]
  have sum := takes_leftAssociative term [("+", .add), ("-", .subtract)]
  have shift := takes_leftAssociative sum [("<<", .shiftLeft), (">>", .shiftRight)]
  have bitXor := takes_leftAssociative (takes_leftAssociative shift [("&", .bitAnd)])
    [("^", .bitXor)]
  exact takes_leftAssociative bitXor [("|", .bitOr)]

theorem takes_inversionOf (bounded : grammar.Bounded) :
    grammar.inversionOf.Takes Expr.Within :=
  .behind Expr.widens_within (advances_ahead _) fun _ =>
    .ite (takes_compoundOf _ (advances_prefixed (advances_word _) bounded.inversion.advances))
      (takes_comparisonOf (takes_bitOrOf bounded))

theorem takes_disjunctionOf (bounded : grammar.Bounded) :
    grammar.disjunctionOf.Takes Expr.Within :=
  takes_joinedBy _ _ (takes_joinedBy _ _ (takes_inversionOf bounded))

theorem takes_lambdaOf (bounded : grammar.Bounded) : grammar.lambdaOf.Takes Expr.Within :=
  takes_compoundOf _ <| (advances_word _).bind fun _ =>
    (advances_parameters bounded (.pure _) (.pure _) _).bind fun _ =>
    advances_prefixed (advances_operator _) bounded.expression.advances

theorem takes_expressionOf (bounded : grammar.Bounded) :
    grammar.expressionOf.Takes Expr.Within := by
  have disjunction := takes_disjunctionOf bounded
  have conditional : Takes (do
      let value ← grammar.disjunctionOf
      if ← word? "if" then
        let condition ← grammar.disjunctionOf
        word "else"
        let otherwise ← grammar.expression
        return (value, [condition, otherwise])
      else return (value, [])) fun found width => found.1.Within width := by
    refine disjunction.bind fun value width within =>
      Takes.bind (advances_word? _) fun _ _ _ => .ite ?_ ?_
    · exact Takes.bind disjunction.advances fun _ _ _ => Takes.bind (advances_word _) fun _ _ _ =>
        Takes.bind bounded.expression.advances fun _ _ _ =>
        .pure (Expr.widens_within within (by omega))
    · exact .pure (Expr.widens_within within (by omega))
  refine .behind Expr.widens_within (advances_ahead _) fun _ =>
    .ite (takes_lambdaOf bounded) ((takes_spanned conditional).bind ?_)
  rintro ⟨extent, value, condition⟩ width ⟨_, within⟩
  dsimp only
  split
  · exact .pure within
  · exact .pure (.of_zero rfl rfl _)

theorem Bounded.around (bounded : grammar.Bounded) : grammar.around.Bounded where
  primary := takes_primaryOf bounded
  factor := takes_factorOf bounded
  bitOr := takes_bitOrOf bounded
  inversion := takes_inversionOf bounded
  disjunction := takes_disjunctionOf bounded
  expression := takes_expressionOf bounded
  field := takes_replacementField bounded

theorem bounded_empty : empty.Bounded :=
  ⟨.failure, .failure, .failure, .failure, .failure, .failure, .failure⟩

/-- Every depth of the grammar is bounded: the inner levels carry the property outwards. -/
theorem bounded_ofDepth (depth : Nat) : (ofDepth depth).Bounded := by
  induction depth with
  | zero => exact bounded_empty
  | succ depth ih => exact ih.around

end ExprGrammar

/-- What the expressions of every grammar fit by the width of their tokens, the expression that a
text writes fits by the length of the text. -/
theorem Expr.fits_of_read? {fits : Expr → Nat → Prop} (wide : Parser.Widens fits)
    (takes : ∀ depth, (ExprGrammar.ofDepth depth).expressions.Takes fits) {text : String}
    {expr : Expr} (isRead : Expr.read? text = some expr) : fits expr text.length := by
  obtain ⟨tokens, divided, parsed⟩ := Option.bind_eq_some_iff.mp isRead
  obtain ⟨⟨result, rest⟩, written, finished⟩ := Option.bind_eq_some_iff.mp parsed
  obtain ⟨⟨value, behind⟩, read, ended⟩ := Option.bind_eq_some_iff.mp written
  obtain ⟨⟨ending, left⟩, isEnding, same⟩ := Option.bind_eq_some_iff.mp ended
  obtain ⟨rfl, rfl⟩ := Prod.mk.inj (Option.some.inj same)
  obtain ⟨taken, rfl, fit⟩ := takes tokens.length read
  obtain ⟨rfl, lineEnd⟩ := Parser.satisfy_eq_some isEnding
  -- behind the end of the line only the end of the text is left
  dsimp only at finished
  split at finished
  · split_ifs at finished
    obtain rfl := Option.some.inj finished
    exact wide fit (Lexer.widthOf_tokens? divided (of_decide_eq_true lineEnd))
  · simp at finished

/-- **Widths of expressions.** The strings of the expression that a text writes are no longer than
the text: neither the longest that its type is read from, nor all that it is joined from. -/
theorem Expr.within_of_read? {text : String} {expr : Expr} (isRead : Expr.read? text = some expr) :
    expr.Within text.length :=
  fits_of_read? widens_within
    (fun depth => ExprGrammar.takes_expressions (ExprGrammar.bounded_ofDepth depth)) isRead

end TypeCatalog.Syntax
