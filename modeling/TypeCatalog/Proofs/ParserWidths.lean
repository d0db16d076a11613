import Mathlib.Tactic.SplitIfs
import TypeCatalog.Proofs.TokenTexts
import TypeCatalog.Syntax.Parser

/-! # Widths of parsed tokens

A parser takes its tokens from the front of the list (`TypeCatalog.Syntax.Parser.Advances`), and
what it reads may be bounded by their width (`TypeCatalog.Syntax.Parser.Takes`). Both properties
pass from the parts of a parser to the whole, so a grammar has them as soon as its tokens do. Of
results in a list, the widths add up (`TypeCatalog.Syntax.Parser.FitAll`).
-/

namespace TypeCatalog.Syntax

namespace Parser

variable {α β : Type}

/-- Whenever a parser succeeds, it takes its tokens from the front of the list, and its result fits
their width. -/
def Takes (parser : Parser α) (fits : α → Nat → Prop) : Prop :=
  ∀ ⦃tokens result rest⦄, parser tokens = some (result, rest) →
    ∃ taken, tokens = taken ++ rest ∧ fits result (Token.widthOf taken)

/-- A result that fits a width fits every greater one. -/
def Widens (fits : α → Nat → Prop) : Prop :=
  ∀ ⦃result width more⦄, fits result width → width ≤ more → fits result more

/-- A parser takes its tokens from the front of the list. -/
def Advances (parser : Parser α) : Prop := parser.Takes fun _ _ => True

/-- What a choice reads is read by one of its parsers. -/
theorem orElse_eq_some {parser other : Parser α} {tokens : List Token} {found : α × List Token}
    (parsed : (parser <|> other) tokens = some found) :
    parser tokens = some found ∨ other tokens = some found := by
  have chosen : (parser <|> other) tokens = (parser tokens <|> other tokens) := rfl
  rw [chosen] at parsed
  cases first : parser tokens with
  | none => exact Or.inr (by rwa [first] at parsed)
  | some result => exact Or.inl (by rwa [first] at parsed)

namespace Takes

variable {parser : Parser α} {fits : α → Nat → Prop}

theorem mono (takes : parser.Takes fits) {weaker : α → Nat → Prop}
    (implied : ∀ result width, fits result width → weaker result width) :
    parser.Takes weaker := by
  intro tokens result rest parsed
  obtain ⟨taken, divided, fit⟩ := takes parsed
  exact ⟨taken, divided, implied _ _ fit⟩

theorem advances (takes : parser.Takes fits) : parser.Advances := takes.mono fun _ _ _ => trivial

theorem pure {result : α} (fit : fits result 0) :
    Takes (Pure.pure result : Parser α) fits := by
  intro tokens given rest parsed
  obtain ⟨rfl, rfl⟩ := Prod.mk.inj (Option.some.inj parsed)
  exact ⟨[], rfl, fit⟩

theorem failure : Takes (Alternative.failure : Parser α) fits := nofun

/-- The width of a sequence is the sum of the widths. -/
theorem bind (takes : parser.Takes fits) {next : α → Parser β} {after : β → Nat → Prop}
    (behind : ∀ result width, fits result width →
      (next result).Takes fun final more => after final (width + more)) :
    (parser >>= next).Takes after := by
  intro tokens final rest parsed
  obtain ⟨⟨result, middle⟩, first, second⟩ := Option.bind_eq_some_iff.mp parsed
  obtain ⟨taken, rfl, fit⟩ := takes first
  obtain ⟨more, rfl, final⟩ := behind _ _ fit second
  refine ⟨taken ++ more, (List.append_assoc _ _ _).symm, ?_⟩
  rw [Token.widthOf_append]
  exact final

theorem ite {other : Parser α} {condition : Prop} [Decidable condition]
    (takes : parser.Takes fits) (otherTakes : other.Takes fits) :
    (if condition then parser else other).Takes fits := by
  by_cases holds : condition
  · rwa [if_pos holds]
  · rwa [if_neg holds]

/-- A parser behind tokens that count for nothing. -/
theorem behind (wide : Widens fits) {front : Parser β} (advances : front.Advances)
    {next : β → Parser α} (takes : ∀ result, (next result).Takes fits) :
    (front >>= next).Takes fits :=
  Takes.bind advances fun result _ _ => (takes result).mono fun _ _ fit =>
    wide fit (Nat.le_add_left _ _)

theorem orElse (takes : parser.Takes fits) {other : Parser α} (otherTakes : other.Takes fits) :
    (parser <|> other).Takes fits := by
  intro tokens result rest parsed
  rcases orElse_eq_some parsed with first | second
  · exact takes first
  · exact otherTakes second

end Takes

namespace Advances

variable {parser : Parser α}

theorem pure (result : α) : Advances (Pure.pure result : Parser α) := Takes.pure trivial

theorem failure : Advances (Alternative.failure : Parser α) := Takes.failure

theorem bind {next : α → Parser β} (advances : parser.Advances)
    (behind : ∀ result, (next result).Advances) : (parser >>= next).Advances :=
  Takes.bind advances fun result _ _ => behind result

theorem orElse {other : Parser α} (advances : parser.Advances)
    (otherAdvances : other.Advances) : (parser <|> other).Advances :=
  Takes.orElse advances otherAdvances

theorem map {change : α → β} (advances : parser.Advances) :
    (change <$> parser).Advances := by
  rw [map_eq_pure_bind]
  exact advances.bind fun _ => .pure _

theorem ite {other : Parser α} {condition : Prop} [Decidable condition]
    (advances : parser.Advances) (otherAdvances : other.Advances) :
    (if condition then parser else other).Advances := Takes.ite advances otherAdvances

/-- A parser that leaves all tokens. -/
theorem of_state {results : List Token → α}
    (stays : ∀ tokens, parser tokens = some (results tokens, tokens)) : parser.Advances := by
  intro tokens result rest parsed
  rw [stays] at parsed
  exact ⟨[], (Prod.mk.inj (Option.some.inj parsed)).2, trivial⟩

end Advances

/-! ## Tokens -/

theorem satisfy_eq_some {test : Token → Bool} {tokens rest : List Token} {token : Token}
    (parsed : satisfy test tokens = some (token, rest)) :
    tokens = token :: rest ∧ test token = true := by
  unfold satisfy at parsed
  split at parsed
  · split_ifs at parsed with passes
    obtain ⟨rfl, rfl⟩ := Prod.mk.inj (Option.some.inj parsed)
    exact ⟨rfl, passes⟩
  · simp at parsed

theorem takes_satisfy (test : Token → Bool) :
    (satisfy test).Takes fun token width => token.width = width := by
  intro tokens token rest parsed
  obtain ⟨rfl, _⟩ := satisfy_eq_some parsed
  exact ⟨[token], rfl, by rw [Token.widthOf_cons, Token.widthOf_nil, Nat.add_zero]⟩

theorem advances_satisfy (test : Token → Bool) : (satisfy test).Advances :=
  (takes_satisfy test).advances

theorem advances_get : Advances (get : Parser (List Token)) := .of_state fun _ => rfl

theorem advances_peek? : peek?.Advances := .of_state fun _ => rfl

theorem advances_ahead (test : Token → Bool) : (ahead test).Advances :=
  .of_state fun _ => rfl

theorem advances_ofOption (value : Option α) : (ofOption value).Advances := by
  intro tokens result rest parsed
  obtain ⟨value, _, same⟩ := Option.map_eq_some_iff.mp parsed
  exact ⟨[], (Prod.mk.inj same).2, trivial⟩

theorem advances_guard (condition : Prop) [Decidable condition] :
    Advances (guard condition : Parser Unit) := .ite (.pure _) .failure

theorem advances_ofKind (kind : TokenKind) : (ofKind kind).Advances := advances_satisfy _

theorem advances_operator (text : String) : (operator text).Advances :=
  (advances_satisfy _).bind fun _ => .pure _

theorem advances_word (text : String) : (word text).Advances :=
  (advances_satisfy _).bind fun _ => .pure _

theorem advances_operator? (text : String) : (operator? text).Advances :=
  (advances_ahead _).bind fun _ => .ite ((advances_operator _).bind fun _ => .pure _) (.pure _)

theorem advances_word? (text : String) : (word? text).Advances :=
  (advances_ahead _).bind fun _ => .ite ((advances_word _).bind fun _ => .pure _) (.pure _)

theorem advances_identifier : identifier.Advances :=
  (advances_satisfy _).bind fun _ => advances_ofOption _

/-! ## Repetition -/

/-- The results of a list fit widths that add up to no more than a given width. -/
def FitAll (fits : α → Nat → Prop) : List α → Nat → Prop
  | [], _ => True
  | result :: rest, width =>
      ∃ first behind, first + behind ≤ width ∧ fits result first ∧ FitAll fits rest behind

theorem FitAll.mono {fits : α → Nat → Prop} {results : List α} {width more : Nat}
    (within : FitAll fits results width) (wider : width ≤ more) : FitAll fits results more := by
  cases results with
  | nil => trivial
  | cons result rest =>
      obtain ⟨first, behind, bound, fit, others⟩ := within
      exact ⟨first, behind, Nat.le_trans bound wider, fit, others⟩

variable {item : Parser α} {fits : α → Nat → Prop}

theorem takes_many (takes : item.Takes fits) : (many item).Takes (FitAll fits) := by
  intro tokens results rest parsed
  have same : manyFrom item tokens = (results, rest) := Option.some.inj parsed
  clear parsed
  fun_induction manyFrom item tokens generalizing results rest with
  | case1 =>
      obtain ⟨rfl, rfl⟩ := Prod.mk.inj same
      exact ⟨[], rfl, trivial⟩
  | case2 tokens result left read _ others behind isMany ih =>
      obtain ⟨rfl, rfl⟩ := Prod.mk.inj same
      obtain ⟨taken, rfl, fit⟩ := takes read
      obtain ⟨more, rfl, fitAll⟩ := ih isMany
      refine ⟨taken ++ more, (List.append_assoc _ _ _).symm, _, _, ?_, fit, fitAll⟩
      exact Nat.le_of_eq (Token.widthOf_append taken more).symm
  | case3 =>
      obtain ⟨rfl, rfl⟩ := Prod.mk.inj same
      exact ⟨[], rfl, trivial⟩

/-- A first result and what is read behind it. -/
theorem takes_cons (takes : item.Takes fits) {others : Parser (List α)}
    (othersTake : others.Takes (FitAll fits)) :
    Takes (do let first ← item; let rest ← others; return first :: rest) (FitAll fits) := by
  refine takes.bind fun first width fit => othersTake.bind fun rest more fitAll => .pure ?_
  exact ⟨width, more, Nat.le_refl _, fit, fitAll⟩

theorem takes_many1 (takes : item.Takes fits) : (many1 item).Takes (FitAll fits) :=
  takes_cons takes (takes_many takes)

/-- Items with a separator in front of each. -/
theorem takes_manyAfter (wide : Widens fits) {separator : Parser Unit}
    (between : separator.Advances) (takes : item.Takes fits) :
    (many (do separator; item)).Takes (FitAll fits) :=
  takes_many (.behind wide between fun _ => takes)

theorem takes_separated (wide : Widens fits) {separator : Parser Unit}
    (between : separator.Advances) (takes : item.Takes fits) :
    (separated item separator).Takes (FitAll fits) :=
  takes_cons takes (takes_manyAfter wide between takes)

theorem takes_commaList (wide : Widens fits) (takes : item.Takes fits) :
    (commaList item).Takes fun found width => FitAll fits found.1 width :=
  (takes_separated wide (advances_operator ",") takes).bind fun _ _ fitAll =>
    Takes.bind (advances_operator? ",") fun _ _ _ => .pure (fitAll.mono (by omega))

theorem widens_true : Widens fun (_ : α) _ => True := fun _ _ _ _ _ => trivial

theorem advances_many (advances : item.Advances) : (many item).Advances :=
  (takes_many advances).advances

theorem advances_many1 (advances : item.Advances) : (many1 item).Advances :=
  (takes_many1 advances).advances

theorem advances_manyAfter {separator : Parser Unit} (between : separator.Advances)
    (advances : item.Advances) : (many (do separator; item)).Advances :=
  (takes_manyAfter widens_true between advances).advances

theorem advances_commaList (advances : item.Advances) : (commaList item).Advances :=
  (takes_commaList widens_true advances).advances

theorem advances_optional (advances : item.Advances) : (optional item).Advances :=
  advances.map.orElse (.pure none)

/-! ## Extents -/

/-- The tokens between two states write the text of an extent. -/
theorem text_extentBetween (taken rest : List Token) :
    (extentBetween (taken ++ rest) rest).text = Token.join taken := by
  rw [extentBetween, List.length_append, Nat.add_sub_cancel, List.take_left]

/-- The extent of what a parser reads is no longer than its tokens. -/
theorem takes_spanned (takes : item.Takes fits) :
    (spanned item).Takes fun found width => found.1.text.length ≤ width ∧ fits found.2 width := by
  intro tokens found rest parsed
  obtain ⟨⟨result, left⟩, read, same⟩ := Option.bind_eq_some_iff.mp parsed
  obtain ⟨rfl, rfl⟩ := Prod.mk.inj (Option.some.inj same)
  obtain ⟨taken, rfl, fit⟩ := takes read
  refine ⟨taken, rfl, ?_, fit⟩
  rw [text_extentBetween]
  exact Token.length_join_le taken

theorem advances_spanned (advances : item.Advances) : (spanned item).Advances :=
  (takes_spanned advances).advances

end Parser

end TypeCatalog.Syntax
