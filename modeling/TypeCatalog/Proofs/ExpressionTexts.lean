import TypeCatalog.Proofs.ExpressionWidths
import TypeCatalog.Proofs.ParserTexts

/-! # Texts of expressions

The operands of a union are shorter than the union, and what stands between the brackets of a
subscript is shorter than the subscript (`TypeCatalog.Syntax.Expr.Tapers`). Every expression that
the grammar reads has this property, at every depth, and its text is no longer than that of the
tokens that are taken for it.
-/

namespace TypeCatalog.Syntax

/-! ## Parts of expressions -/

mutual

/-- The parts of an expression that have types of their own are shorter than the expression: the
operands of a union and the indices of a subscript, and again their parts. -/
def Expr.Tapers : Expr → Prop
  | .binary extent .bitOr left right =>
      (left.text.length < extent.text.length ∧ left.Tapers) ∧
        right.text.length < extent.text.length ∧ right.Tapers
  | .subscript extent _ elements => indicesTaper extent.text.length elements
  | _ => True

/-- The indices of a subscript are shorter than a bound, and they taper. -/
def indicesTaper (bound : Nat) : List (Element Expr) → Prop
  | [] => True
  | .index value :: rest =>
      (value.text.length < bound ∧ value.Tapers) ∧ indicesTaper bound rest
  | .slice _ :: rest => indicesTaper bound rest

end

theorem indicesTaper_iff {bound : Nat} {elements : List (Element Expr)} :
    indicesTaper bound elements ↔ ∀ value ∈ elements.filterMap Element.index?,
      value.text.length < bound ∧ value.Tapers := by
  induction elements with
  | nil => simp [indicesTaper]
  | cons element rest ih =>
      cases element with
      | index value => simp [indicesTaper, ih, Element.index?]
      | slice bounds => simp [indicesTaper, ih, Element.index?]

/-- An expression that tapers and whose text fits a number of characters. -/
structure Expr.TapersIn (expr : Expr) (width : Nat) : Prop where
  short : expr.text.length ≤ width
  tapers : expr.Tapers

namespace Expr

theorem widens_tapersIn : Parser.Widens TapersIn := fun _ _ _ inside wider =>
  ⟨Nat.le_trans inside.short wider, inside.tapers⟩

@[simp] theorem text_withText (text : String) (expr : Expr) : (expr.withText text).text = text := by
  rw [Expr.text, extent_withText]

/-- Brackets around an expression leave what is in it. -/
theorem TapersIn.withText {expr : Expr} {text : String} (inside : expr.TapersIn text.length) :
    (expr.withText text).TapersIn text.length := by
  obtain ⟨short, tapers⟩ := inside
  refine ⟨Nat.le_of_eq (congrArg String.length (text_withText text expr)), ?_⟩
  cases expr with
  | binary extent operator left right =>
      cases operator with
      | bitOr =>
          obtain ⟨⟨leftShorter, leftTapers⟩, rightShorter, rightTapers⟩ := tapers
          exact ⟨⟨Nat.lt_of_lt_of_le leftShorter short, leftTapers⟩,
            Nat.lt_of_lt_of_le rightShorter short, rightTapers⟩
      | _ => trivial
  | subscript extent object elements =>
      refine indicesTaper_iff.mpr fun value listed => ?_
      obtain ⟨shorter, inner⟩ := indicesTaper_iff.mp tapers value listed
      exact ⟨Nat.lt_of_lt_of_le shorter short, inner⟩
  | _ => trivial

end Expr

/-- The index of an element tapers. -/
def Element.TapersIn (element : Element Expr) (width : Nat) : Prop :=
  ∀ value ∈ element.index?, value.TapersIn width

theorem Element.widens_tapersIn : Parser.Widens Element.TapersIn :=
  fun _ _ _ inside wider value isIndex => Expr.widens_tapersIn (inside value isIndex) wider

namespace ExprGrammar

open TypeCatalog.Syntax.Parser

/-! ## Extents -/

/-- A compound expression has the text of its tokens. -/
theorem takesText_compoundOf (form : Form) {parts : Parser (List Expr)}
    (advances : (compoundOf form parts).Advances) :
    (compoundOf form parts).TakesText Expr.TapersIn := by
  intro tokens expr rest parsed
  obtain ⟨taken, rfl, _⟩ := advances parsed
  obtain ⟨⟨extent, found⟩, left, isSpanned, same⟩ := exists_of_bind_eq_some parsed
  obtain ⟨rfl, rfl⟩ := Prod.mk.inj (Option.some.inj same)
  obtain ⟨_, isExtent⟩ := spanned_eq_some isSpanned
  dsimp only at isExtent
  rw [isExtent]
  exact ⟨taken, rfl, Nat.le_of_eq (congrArg String.length (text_extentBetween taken left)), trivial⟩

/-- Something in brackets fits their extent. -/
def EnclosesText (form : Extent → Expr) (width : Nat) : Prop :=
  ∀ extent, width ≤ extent.text.length → (form extent).TapersIn extent.text.length

theorem widens_enclosesText : Widens EnclosesText := fun _ _ _ encloses wider extent fits =>
  encloses extent (Nat.le_trans wider fits)

/-- No part of a display has a type of its own. -/
def IsOpaque (form : Extent → Expr) : Prop := ∀ extent, (form extent).TapersIn extent.text.length

theorem IsOpaque.enclosesText {form : Extent → Expr} (isOpaque : IsOpaque form) (width : Nat) :
    EnclosesText form width := fun extent _ => isOpaque extent

theorem isOpaque_tuple (items : List Expr) : IsOpaque fun extent => .tuple extent items :=
  fun _ => ⟨Nat.le_refl _, trivial⟩

theorem isOpaque_list (items : List Expr) : IsOpaque fun extent => .list extent items :=
  fun _ => ⟨Nat.le_refl _, trivial⟩

theorem isOpaque_set (items : List Expr) : IsOpaque fun extent => .set extent items :=
  fun _ => ⟨Nat.le_refl _, trivial⟩

theorem isOpaque_dict (entries : List (Entry Expr)) :
    IsOpaque fun extent => .dict extent entries := fun _ => ⟨Nat.le_refl _, trivial⟩

theorem isOpaque_compound (form : Form) (parts : List Expr) :
    IsOpaque fun extent => .compound extent form parts := fun _ => ⟨Nat.le_refl _, trivial⟩

section

variable (grammar : ExprGrammar)

theorem gives_bracketed : grammar.bracketed.Gives IsOpaque :=
  .behind fun _ => .behind fun _ => .ite (.pure (isOpaque_list _)) <|
    .behind fun _ => .behind fun _ => .behind fun _ => .ite
      (.behind fun _ => .behind fun _ => .pure (isOpaque_compound _ _))
      (.behind fun _ => .behind fun _ => .behind fun _ => .pure (isOpaque_list _))

theorem gives_dictRest (first : Entry Expr) : (grammar.dictRest first).Gives IsOpaque :=
  .behind fun _ => .behind fun _ => .behind fun _ => .pure (isOpaque_dict _)

theorem gives_setRest (first : Expr) : (grammar.setRest first).Gives IsOpaque :=
  .behind fun _ => .behind fun _ => .behind fun _ => .pure (isOpaque_set _)

theorem gives_braced : grammar.braced.Gives IsOpaque := by
  refine .behind fun _ => .behind fun _ => .ite (.pure (isOpaque_dict _)) <|
    .behind fun _ => .ite (.behind (grammar.gives_dictRest)) <|
    .behind fun _ => .ite (.behind (grammar.gives_setRest)) <|
    .behind fun _ => .behind fun _ => .behind fun _ => .ite ?_ ?_
  · exact .behind fun _ => .behind fun _ => .behind fun _ => .ite
      (.behind fun _ => .behind fun _ => .pure (isOpaque_compound _ _)) (grammar.gives_dictRest _)
  · exact .behind fun _ => .ite
      (.behind fun _ => .behind fun _ => .pure (isOpaque_compound _ _)) (grammar.gives_setRest _)

end

/-! ## Lists and brackets -/

section

variable {grammar : ExprGrammar} (bounded : grammar.Bounded)
  (expression : grammar.expression.TakesText Expr.TapersIn)

include bounded

theorem takesText_starred : grammar.starred.TakesText Expr.TapersIn :=
  takesText_compoundOf _ (takes_starred bounded).advances

theorem takesText_assignment : grammar.assignment.TakesText Expr.TapersIn :=
  takesText_compoundOf _ (takes_assignment bounded).advances

theorem takesText_yielding : grammar.yielding.TakesText Expr.TapersIn :=
  takesText_compoundOf _ (takes_yielding bounded).advances

include expression

theorem takesText_named : grammar.named.TakesText Expr.TapersIn :=
  .behind Expr.widens_tapersIn advances_startsAssignment fun _ =>
    .ite (takesText_assignment bounded) expression

theorem takesText_item : grammar.item.TakesText Expr.TapersIn :=
  .behind Expr.widens_tapersIn (advances_ahead _) fun _ =>
    .ite (takesText_starred bounded) (takesText_named bounded expression)

theorem takesText_plainItem : grammar.plainItem.TakesText Expr.TapersIn :=
  .behind Expr.widens_tapersIn (advances_ahead _) fun _ =>
    .ite (takesText_starred bounded) expression

theorem takesText_expressions : grammar.expressions.TakesText Expr.TapersIn := by
  have items := takesText_commaList Expr.widens_tapersIn (takesText_plainItem bounded expression)
  refine .bind Expr.widens_tapersIn (takesText_spanned items) ?_
  rintro ⟨extent, items, isTuple⟩ width ⟨text, each⟩
  dsimp only
  split
  · exact .pure (each _ List.mem_cons_self)
  · exact .pure ⟨Nat.le_of_eq text, trivial⟩

theorem takesText_parenthesized : grammar.parenthesized.TakesText EnclosesText := by
  have wide := widens_enclosesText
  have closed : ∀ {expr : Expr} {width : Nat}, expr.TapersIn width → TakesText (do
      operator ")"
      return fun extent : Extent => expr.withText extent.text)
        fun form more => EnclosesText form (width + more) := by
    intro expr width inside
    refine .behind (wide.behind width) (advances_operator _) fun _ => .pure fun extent fits => ?_
    exact (Expr.widens_tapersIn inside fits).withText
  refine .behind wide (advances_operator _) fun _ => .behind wide (advances_operator? _) fun _ =>
    .ite (.pure ((isOpaque_tuple _).enclosesText _)) <| .behind wide (advances_ahead _) fun _ =>
    .ite (.bind wide (takesText_yielding bounded) fun _ _ inside => closed inside) <|
    .behind wide (advances_ahead _) fun isStarred =>
    .bind wide (takesText_item bounded expression) fun first width inside => ?_
  have innerWide := wide.behind width
  have several := advances_optional (advances_commaList (takes_item bounded).advances)
  refine .behind innerWide advances_startsComprehension fun _ => .ite ?_ <|
    .behind innerWide (advances_operator? _) fun _ => .ite ?_ ?_
  · exact .behind innerWide (advances_comprehension bounded) fun _ =>
      .behind innerWide (advances_operator _) fun _ =>
      .pure ((isOpaque_compound _ _).enclosesText _)
  · exact .behind innerWide several fun _ => .behind innerWide (advances_operator _) fun _ =>
      .pure ((isOpaque_tuple _).enclosesText _)
  · exact .behind innerWide (advances_guard _) fun _ => closed inside

end

/-! ## Strings -/

theorem takesText_plainString : plainString.TakesText Expr.TapersIn := by
  refine .bind Expr.widens_tapersIn (takesText_spanned (.of_advances (advances_ofKind _))) ?_
  rintro ⟨extent, token⟩ width ⟨text, _⟩
  exact .pure ⟨Nat.le_of_eq text, trivial⟩

theorem takesText_strings {grammar : ExprGrammar} (bounded : grammar.Bounded) :
    grammar.strings.TakesText Expr.TapersIn := by
  have formatted := takesText_compoundOf _ (takes_formatted bounded).advances
  have parts := takesText_many1 Expr.widens_tapersIn (takesText_plainString.orElse formatted)
  refine .bind Expr.widens_tapersIn (takesText_spanned parts) ?_
  rintro ⟨extent, parts⟩ width ⟨text, each⟩
  dsimp only
  split
  · exact .pure (each _ List.mem_cons_self)
  · exact .pure ⟨Nat.le_of_eq text, trivial⟩

/-! ## Elements and trailers -/

/-- What stands behind a primary has parts that are shorter than both together. -/
def TrailsText (trailer : Extent → Expr → Expr) (width : Nat) : Prop :=
  ∀ extent object, width ≤ extent.text.length → (trailer extent object).TapersIn extent.text.length

theorem widens_trailsText : Widens TrailsText := fun _ _ _ trails wider extent object fits =>
  trails extent object (Nat.le_trans wider fits)

section

variable {grammar : ExprGrammar} (bounded : grammar.Bounded)
  (expression : grammar.expression.TakesText Expr.TapersIn)

include expression

theorem takesText_bound : grammar.bound.TakesText (EachFits Expr.TapersIn) := by
  have eachWide := widens_eachFits Expr.widens_tapersIn
  refine .behind eachWide (advances_ahead _) fun _ => .ite (.pure (List.forall_mem_nil _)) ?_
  exact .bind eachWide expression fun _ _ inside => .pure (List.forall_mem_singleton.mpr inside)

include bounded

theorem takesText_element : grammar.element.TakesText Element.TapersIn := by
  have wide := Element.widens_tapersIn
  have index : ∀ {value : Expr} {width : Nat}, value.TapersIn width →
      (Element.index value).TapersIn width := by
    rintro value width inside _ ⟨⟩
    exact inside
  have slice : ∀ lower upper : List Expr, TakesText (do
      let step ← if ← operator? ":" then grammar.bound else pure []
      return Element.slice (lower ++ upper ++ step)) Element.TapersIn := by
    intro lower upper
    have step := (takes_bound bounded).advances
    exact .behind wide (advances_operator? _) fun _ =>
      .ite (.behind wide step fun _ => .pure nofun) (.behind wide (.pure _) fun _ => .pure nofun)
  refine .behind wide (advances_operator? _) fun _ => .ite ?_ <|
    .behind wide advances_startsAssignment fun _ => .ite ?_ <|
    .bind wide (takesText_bound expression) fun lower width each => ?_
  · exact .bind wide expression fun _ _ inside => .pure (index inside)
  · exact .bind wide (takesText_assignment bounded) fun _ _ inside => .pure (index inside)
  have innerWide := wide.behind width
  refine .behind innerWide (advances_operator? _) fun _ => .ite ?_ ?_
  · refine .behind innerWide (takes_bound bounded).advances fun upper => ?_
    exact (slice lower upper).mono fun _ _ inside => wide inside (Nat.le_add_left _ _)
  · split
    · exact .pure (index (each _ List.mem_cons_self))
    · exact .failure

theorem takesText_elements : grammar.elements.TakesText (EachFits Element.TapersIn) := by
  have wide := Element.widens_tapersIn
  refine .bind (widens_eachFits wide)
    (takesText_commaList wide (takesText_element bounded expression)) fun _ _ each => ?_
  exact .pure each

theorem takesText_trailer : grammar.trailer.TakesText TrailsText := by
  have wide := widens_trailsText
  refine .behind wide (advances_operator? _) fun _ => .ite ?_ <|
    .behind wide (advances_operator? _) fun _ => .ite ?_ ?_
  · exact .behind wide advances_identifier fun _ => .pure fun _ _ _ => ⟨Nat.le_refl _, trivial⟩
  · exact .behind wide (advances_callArguments bounded) fun _ =>
      .pure fun _ _ _ => ⟨Nat.le_refl _, trivial⟩
  -- the opening bracket makes a subscript longer than what stands behind it
  refine .bind wide (takesText_operator "[") fun _ opening written => ?_
  have innerWide := wide.behind opening
  refine .bind innerWide (takesText_elements bounded expression) fun elements width each => ?_
  refine .behind (innerWide.behind width) (advances_operator _) fun _ =>
    .pure fun extent object fits => ?_
  refine ⟨Nat.le_refl _, indicesTaper_iff.mpr fun value listed => ?_⟩
  obtain ⟨element, inElements, isIndex⟩ := List.mem_filterMap.mp listed
  obtain ⟨short, tapers⟩ := each element inElements value isIndex
  have bracket : 1 ≤ opening := written
  exact ⟨by omega, tapers⟩

/-! ## Atoms and primaries -/

/-- What an operator begins that begins an expression. -/
theorem takesText_bracketsOf (text : String) : TakesText (
    if text == "(" then grammar.parenthesized
    else if text == "[" then grammar.bracketed
    else if text == "\x7b" then grammar.braced
    else do
      operator "..."
      return fun extent => Expr.ellipsis extent) EnclosesText := by
  have hidden : ∀ {display : Parser (Extent → Expr)}, display.Advances → display.Gives IsOpaque →
      display.TakesText EnclosesText := fun advances gives =>
    (TakesText.of_gives advances gives).mono fun _ width isOpaque => isOpaque.enclosesText width
  refine .ite (takesText_parenthesized bounded expression) <|
    .ite (hidden (takes_bracketed bounded).advances grammar.gives_bracketed) <|
    .ite (hidden (takes_braced bounded).advances grammar.gives_braced) ?_
  exact .behind widens_enclosesText (advances_operator _) fun _ =>
    .pure fun _ _ => ⟨Nat.le_refl _, trivial⟩

theorem takesText_atom : grammar.atom.TakesText Expr.TapersIn := by
  have wide := Expr.widens_tapersIn
  refine .behind wide advances_peek? fun found => ?_
  cases found with
  | none => exact .failure
  | some token =>
      dsimp only
      split
      · refine .bind wide (takesText_spanned (.of_advances (advances_satisfy _))) ?_
        rintro ⟨extent, token⟩ width ⟨text, _⟩
        exact .behind (wide.behind width) (advances_ofOption _) fun _ =>
          .pure ⟨Nat.le_of_eq text, trivial⟩
      · refine .bind wide (takesText_spanned (.of_advances (advances_ofKind _))) ?_
        rintro ⟨extent, token⟩ width ⟨text, _⟩
        exact .pure ⟨Nat.le_of_eq text, trivial⟩
      · exact takesText_strings bounded
      · exact takesText_strings bounded
      · refine .bind wide (takesText_spanned (takesText_bracketsOf bounded expression _)) ?_
        rintro ⟨extent, form⟩ width ⟨text, encloses⟩
        exact .pure (text ▸ encloses extent (Nat.le_of_eq text.symm))
      · exact .failure

theorem takesText_primaryOf : grammar.primaryOf.TakesText Expr.TapersIn := by
  have wide : Widens fun (found : (Extent → Expr → Expr) × List Token) width =>
    TrailsText found.1 width := fun _ _ _ trails wider => widens_trailsText trails wider
  have reads : TakesText (do
      let trailer ← grammar.trailer
      let stop ← get
      return (trailer, stop)) fun found width => TrailsText found.1 width :=
    .bind wide (takesText_trailer bounded expression) fun _ width trails =>
      .behind (wide.behind width) advances_get fun _ => .pure trails
  refine takesText_foldl (β := (Extent → Expr → Expr) × List Token) Prod.snd
    (fun extent object found => found.1 extent object) reads ?_ ?_
    (takesText_atom bounded expression)
  · intro tokens found rest parsed
    obtain ⟨trailer, left, _, followed⟩ := exists_of_bind_eq_some parsed
    obtain ⟨rfl, rfl⟩ := Prod.mk.inj (Option.some.inj followed)
    rfl
  · intro extent object found width more _ trails fits
    exact trails extent object (by omega)

theorem takesText_awaitOf : grammar.awaitOf.TakesText Expr.TapersIn := by
  have awaiting := advances_prefixed (advances_word "await") (takes_primaryOf bounded).advances
  exact .behind Expr.widens_tapersIn (advances_ahead _) fun _ =>
    .ite (takesText_compoundOf _ (takes_compoundOf _ awaiting).advances)
      (takesText_primaryOf bounded expression)

/-- A power has no parts with types of their own. -/
theorem takesText_powerOf : grammar.powerOf.TakesText Expr.TapersIn := by
  have wide : Widens fun (found : Expr × Option Expr) width => found.1.TapersIn width :=
    fun _ _ _ inside wider => Expr.widens_tapersIn inside wider
  have powered : TakesText (do
      let base ← grammar.awaitOf
      if ← operator? "**" then
        let exponent ← grammar.factor
        return (base, some exponent)
      else return (base, none)) fun found width => found.1.TapersIn width := by
    refine .bind wide (takesText_awaitOf bounded expression) fun base width inside =>
      .behind (wide.behind width) (advances_operator? _) fun _ => .ite ?_ (.pure inside)
    exact .behind (wide.behind width) bounded.factor.advances fun _ => .pure inside
  refine .bind Expr.widens_tapersIn (takesText_spanned powered) ?_
  rintro ⟨extent, base, exponent⟩ width ⟨text, inside⟩
  cases exponent with
  | none => exact .pure inside
  | some exponent => exact .pure ⟨Nat.le_of_eq text, trivial⟩

theorem takesText_factorOf : grammar.factorOf.TakesText Expr.TapersIn := by
  have wide : Widens fun (found : Option UnaryOperator × Expr) width =>
      found.1 = none → found.2.TapersIn width :=
    fun _ _ _ inside wider unsigned => Expr.widens_tapersIn (inside unsigned) wider
  have signed : TakesText (do
      let sign ← optional (oneOf [("+", UnaryOperator.plus), ("-", .minus), ("~", .invert)])
      let operand ← if sign.isSome then grammar.factor else grammar.powerOf
      return (sign, operand)) fun found width => found.1 = none → found.2.TapersIn width := by
    refine .behind wide (advances_optional (advances_oneOf _)) fun sign => ?_
    cases sign with
    | none =>
        exact .bind wide (takesText_powerOf bounded expression) fun _ _ inside =>
          .pure fun _ => inside
    | some sign => exact .behind wide bounded.factor.advances fun _ => .pure nofun
  refine .bind Expr.widens_tapersIn (takesText_spanned signed) ?_
  rintro ⟨extent, sign, operand⟩ width ⟨text, inside⟩
  cases sign with
  | none => exact .pure (inside rfl)
  | some sign => exact .pure ⟨Nat.le_of_eq text, trivial⟩

end

/-! ## Operators -/

theorem takesText_oneOf {α : Type} {operators : List (String × α)}
    (written : ∀ entry ∈ operators, 0 < entry.1.length) :
    (oneOf operators).TakesText fun _ width => 0 < width := by
  have wide : Widens fun (_ : α) width => 0 < width :=
    fun _ _ _ positive wider => Nat.lt_of_lt_of_le positive wider
  induction operators with
  | nil => exact .failure
  | cons operator rest ih =>
      obtain ⟨first, others⟩ := List.forall_mem_cons.mp written
      refine .bind wide (takesText_operator? operator.1) fun found width isWritten => ?_
      cases found with
      | true => exact .pure (Nat.lt_of_lt_of_le first (isWritten rfl))
      | false =>
          exact (ih others).mono fun _ more positive => Nat.lt_of_lt_of_le positive (by omega)

/-- Operands that are joined from left to right are shorter than all of them with their operators.
-/
theorem takesText_leftAssociative {operand : Parser Expr}
    (takes : operand.TakesText Expr.TapersIn) {operators : List (String × BinaryOperator)}
    (written : ∀ entry ∈ operators, 0 < entry.1.length) :
    (leftAssociative operand operators).TakesText Expr.TapersIn := by
  have wide : Widens fun (found : BinaryOperator × Expr × List Token) width =>
      found.2.1.text.length < width ∧ found.2.1.Tapers :=
    fun _ _ _ inside wider => ⟨Nat.lt_of_lt_of_le inside.1 wider, inside.2⟩
  have reads : TakesText (do
      let operator ← oneOf operators
      let right ← operand
      let stop ← get
      return (operator, right, stop)) fun found width =>
        found.2.1.text.length < width ∧ found.2.1.Tapers := by
    refine .bind wide (takesText_oneOf written) fun operator width positive => ?_
    refine .bind (wide.behind width) takes fun right more inside => ?_
    refine .behind ((wide.behind width).behind more) advances_get fun stop => .pure ?_
    exact ⟨by have := inside.short; dsimp only; omega, inside.tapers⟩
  refine takesText_foldl (β := BinaryOperator × Expr × List Token) (fun found => found.2.2)
    (fun extent left found => .binary extent found.1 left found.2.1) reads ?_ ?_ takes
  · intro tokens found rest parsed
    obtain ⟨operator, _, _, behindOperator⟩ := exists_of_bind_eq_some parsed
    obtain ⟨right, left, _, followed⟩ := exists_of_bind_eq_some behindOperator
    obtain ⟨rfl, rfl⟩ := Prod.mk.inj (Option.some.inj followed)
    rfl
  · rintro extent left ⟨operator, right, stop⟩ width more ⟨leftShort, leftTapers⟩
      ⟨rightShorter, rightTapers⟩ fits
    dsimp only at rightShorter rightTapers
    have leftBelow : left.text.length < extent.text.length := by omega
    have rightBelow : right.text.length < extent.text.length := by omega
    refine ⟨Nat.le_refl _, ?_⟩
    cases operator with
    | bitOr => exact ⟨⟨leftBelow, leftTapers⟩, rightBelow, rightTapers⟩
    | _ => trivial

/-- Operands between separators; a single one is the expression itself. -/
theorem takesText_operands (form : Form) {operand : Parser Expr}
    (takes : operand.TakesText Expr.TapersIn) {separator : Parser Unit}
    (between : separator.Advances) : TakesText (do
      let (extent, operands) ← spanned (separated operand separator)
      match operands with
      | [single] => return single
      | operands => return .compound extent form operands) Expr.TapersIn := by
  have operands := takesText_separated Expr.widens_tapersIn between takes
  refine .bind Expr.widens_tapersIn (takesText_spanned operands) ?_
  rintro ⟨extent, operands⟩ width ⟨text, each⟩
  dsimp only
  split
  · exact .pure (each _ List.mem_cons_self)
  · exact .pure ⟨Nat.le_of_eq text, trivial⟩

theorem takesText_joinedBy (form : Form) (text : String) {operand : Parser Expr}
    (takes : operand.TakesText Expr.TapersIn) :
    (joinedBy form text operand).TakesText Expr.TapersIn :=
  takesText_operands form takes (advances_word text)

theorem takesText_comparisonOf {operand : Parser Expr}
    (takes : operand.TakesText Expr.TapersIn) : (comparisonOf operand).TakesText Expr.TapersIn :=
  takesText_operands .comparison takes advances_comparisonOperator

/-! ## The levels -/

section

variable {grammar : ExprGrammar} (bounded : grammar.Bounded)
  (expression : grammar.expression.TakesText Expr.TapersIn)

include bounded expression

theorem takesText_bitOrOf : grammar.bitOrOf.TakesText Expr.TapersIn := by
  have factor := takesText_factorOf bounded expression
  refine takesText_leftAssociative (takesText_leftAssociative (takesText_leftAssociative
    (takesText_leftAssociative (takesText_leftAssociative (takesText_leftAssociative factor ?_) ?_)
      ?_) ?_) ?_) ?_
  all_goals decide

theorem takesText_inversionOf : grammar.inversionOf.TakesText Expr.TapersIn :=
  .behind Expr.widens_tapersIn (advances_ahead _) fun _ => .ite
    (takesText_compoundOf _ (takes_compoundOf _
      (advances_prefixed (advances_word _) bounded.inversion.advances)).advances)
    (takesText_comparisonOf (takesText_bitOrOf bounded expression))

theorem takesText_disjunctionOf : grammar.disjunctionOf.TakesText Expr.TapersIn :=
  takesText_joinedBy _ _ (takesText_joinedBy _ _ (takesText_inversionOf bounded expression))

theorem takesText_expressionOf : grammar.expressionOf.TakesText Expr.TapersIn := by
  have wide : Widens fun (found : Expr × List Expr) width => found.1.TapersIn width :=
    fun _ _ _ inside wider => Expr.widens_tapersIn inside wider
  have disjunction := takesText_disjunctionOf bounded expression
  have conditional : TakesText (do
      let value ← grammar.disjunctionOf
      if ← word? "if" then
        let condition ← grammar.disjunctionOf
        word "else"
        let otherwise ← grammar.expression
        return (value, [condition, otherwise])
      else return (value, [])) fun found width => found.1.TapersIn width := by
    refine .bind wide disjunction fun value width inside =>
      .behind (wide.behind width) (advances_word? _) fun _ => .ite ?_ (.pure inside)
    exact .behind (wide.behind width) (takes_disjunctionOf bounded).advances fun _ =>
      .behind (wide.behind width) (advances_word _) fun _ =>
      .behind (wide.behind width) bounded.expression.advances fun _ => .pure inside
  refine .behind Expr.widens_tapersIn (advances_ahead _) fun _ => .ite ?_ ?_
  · exact takesText_compoundOf _ (takes_lambdaOf bounded).advances
  · refine .bind Expr.widens_tapersIn (takesText_spanned conditional) ?_
    rintro ⟨extent, value, condition⟩ width ⟨text, inside⟩
    dsimp only
    split
    · exact .pure inside
    · exact .pure ⟨Nat.le_of_eq text, trivial⟩

end

/-- The expressions of every depth taper: the inner levels carry the property outwards. -/
theorem takesText_ofDepth (depth : Nat) :
    (ofDepth depth).expression.TakesText Expr.TapersIn := by
  induction depth with
  | zero => exact .failure
  | succ depth ih => exact takesText_expressionOf (bounded_ofDepth depth) ih

end ExprGrammar

/-- **Texts of expressions.** The expression that a text writes is no longer than the text, and its
parts that have types of their own are shorter than what they stand in, at every depth. -/
theorem Expr.tapersIn_of_read? {text : String} {expr : Expr}
    (isRead : Expr.read? text = some expr) : expr.TapersIn text.length :=
  fits_of_read? widens_tapersIn (fun depth => (ExprGrammar.takesText_expressions
    (ExprGrammar.bounded_ofDepth depth) (ExprGrammar.takesText_ofDepth depth)).takes
      widens_tapersIn) isRead

end TypeCatalog.Syntax
