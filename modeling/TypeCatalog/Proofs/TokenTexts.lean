import Mathlib.Algebra.BigOperators.Group.List.Basic
import Mathlib.Algebra.GroupWithZero.Nat
import Mathlib.Tactic.SplitIfs
import TypeCatalog.Syntax.Lexer

/-! # Texts of tokens

A source text is divided into lexemes without a gap: what a lexeme takes and what it leaves make up
the text, so the tokens of a text take no more characters than it has
(`TypeCatalog.Syntax.Lexer.widthOf_tokens?`). The end of the last line and what is behind it are
left out, because a text may end without the line end that its last line is given. -/

namespace TypeCatalog.Syntax

/-! ## Lexemes -/

/-- A lexeme and what is behind it make up a text. -/
def Cut.Divides (cut : Cut) (text : List Char) : Prop := cut.1 ++ cut.2 = text

namespace Cut.Divides

variable {cut : Cut} {text : List Char}

theorem single (c : Char) (rest : List Char) : Cut.Divides ([c], rest) (c :: rest) := rfl

theorem of_nothing (found : some ([], text) = some cut) : cut.Divides text :=
  Option.some.inj found ▸ rfl

theorem cons (inside : cut.Divides text) (front : List Char) :
    (cut.cons front).Divides (front ++ text) := by
  rw [Divides, Cut.cons, List.append_assoc, inside]

/-- A lexeme that is found behind a front, with the front. -/
theorem of_map {found : Option Cut} (inside : ∀ {cut}, found = some cut → cut.Divides text)
    (front : List Char) (behind : found.map (Cut.cons front) = some cut) :
    cut.Divides (front ++ text) := by
  obtain ⟨inner, isFound, rfl⟩ := Option.map_eq_some_iff.mp behind
  exact (inside isFound).cons front

/-- A front that a text begins with, and the rest of the text. -/
theorem of_isPrefixOf {front : List Char} (begins : front.isPrefixOf text = true) :
    Cut.Divides (front, text.drop front.length) text := by
  obtain ⟨rest, rfl⟩ := List.isPrefixOf_iff_prefix.mp begins
  rw [Divides, List.drop_left]

end Cut.Divides

theorem cutWhile_divides (property : Char → Bool) (text : List Char) :
    (cutWhile property text).Divides text := List.takeWhile_append_dropWhile

theorem cutLineEnd?_divides {text : List Char} {cut : Cut} (found : cutLineEnd? text = some cut) :
    cut.Divides text := by
  unfold cutLineEnd? at found
  split at found
  · exact Option.some.inj found ▸ rfl
  · exact Option.some.inj found ▸ rfl
  · exact Option.some.inj found ▸ rfl
  · simp at found

theorem cutLineEnd?_ne_nil {text : List Char} {cut : Cut} (found : cutLineEnd? text = some cut) :
    cut.1 ≠ [] := by
  unfold cutLineEnd? at found
  split at found
  · exact Option.some.inj found ▸ List.cons_ne_nil _ _
  · exact Option.some.inj found ▸ List.cons_ne_nil _ _
  · exact Option.some.inj found ▸ List.cons_ne_nil _ _
  · simp at found

/-! ### Numbers -/

theorem cutDigits?_divides (isDigit : Char → Bool) (fuel : Nat) (text : List Char) {cut : Cut}
    (found : cutDigits? isDigit fuel text = some cut) : cut.Divides text := by
  fun_induction cutDigits? isDigit fuel text generalizing cut with
  | case1 => simp at found
  | case2 => simp at found
  | case3 _ text digits _ rest isCut ih =>
      have whole := cutWhile_divides isDigit text
      rw [isCut, Cut.Divides] at whole
      rw [← whole, ← List.singleton_append, ← List.append_assoc]
      exact .of_map ih _ found
  | case4 _ text digits rest isCut =>
      rw [← Option.some.inj found, ← isCut]
      exact cutWhile_divides isDigit text

theorem cutDecimal?_divides {text : List Char} {cut : Cut} (found : cutDecimal? text = some cut) :
    cut.Divides text := cutDigits?_divides _ _ text found

theorem cutBased?_divides {isDigit : Char → Bool} {mark : Char} {text : List Char} {cut : Cut}
    (found : cutBased? isDigit mark text = some cut) : cut.Divides ('0' :: mark :: text) := by
  unfold cutBased? at found
  simp only [Option.bind_eq_bind] at found
  split at found
  all_goals
    obtain ⟨inner, read, isCut⟩ := Option.bind_eq_some_iff.mp found
    have same : inner.cons ['0', mark] = cut := by
      split at isCut
      · split at isCut
        · simp at isCut
        · exact Option.some.inj isCut
      · exact Option.some.inj isCut
    refine same ▸ Cut.Divides.cons ?_ ['0', mark]
  · exact .of_map (cutDigits?_divides isDigit _ _) ['_'] read
  · exact cutDigits?_divides isDigit _ _ read

theorem cutExponent?_divides {text : List Char} {cut : Cut} (found : cutExponent? text = some cut) :
    cut.Divides text := by
  unfold cutExponent? at found
  repeat' split at found
  · exact .of_map cutDecimal?_divides [_, _] found
  · exact .of_map cutDecimal?_divides [_] found
  all_goals exact .of_nothing found

theorem cutFraction?_divides {text : List Char} {cut : Cut} (found : cutFraction? text = some cut) :
    cut.Divides text := by
  unfold cutFraction? at found
  repeat' split at found
  · exact .of_map cutDecimal?_divides ['.'] found
  · exact Option.some.inj found ▸ rfl
  · exact Option.some.inj found ▸ rfl
  · exact .of_nothing found

theorem cutImaginary_divides (text : List Char) : (cutImaginary text).Divides text := by
  unfold cutImaginary
  repeat' split
  all_goals rfl

theorem cutDecimalTail?_divides {whole text : List Char} {cut : Cut}
    (found : cutDecimalTail? whole text = some cut) : cut.Divides (whole ++ text) := by
  unfold cutDecimalTail? at found
  simp only [Option.bind_eq_bind, Option.bind_eq_some_iff, Option.ite_none_left_eq_some] at found
  obtain ⟨fraction, fractionRead, exponent, exponentRead, _, isCut⟩ := found
  have fractionDivides := cutFraction?_divides fractionRead
  have exponentDivides := cutExponent?_divides exponentRead
  have markDivides := cutImaginary_divides exponent.2
  rw [Cut.Divides] at *
  rw [← Option.some.inj isCut]
  simp only [List.append_assoc]
  rw [markDivides, exponentDivides, fractionDivides]

theorem cutNumber?_divides {text : List Char} {cut : Cut} (found : cutNumber? text = some cut) :
    cut.Divides text := by
  have decimal : ∀ {text : List Char}, ((cutDecimal? text).bind fun number =>
      cutDecimalTail? number.1 number.2) = some cut → cut.Divides text := by
    intro text isCut
    obtain ⟨number, read, tail⟩ := Option.bind_eq_some_iff.mp isCut
    exact cutDecimal?_divides read ▸ cutDecimalTail?_divides tail
  unfold cutNumber? at found
  split at found
  · repeat' split at found
    · exact cutBased?_divides found
    · exact cutBased?_divides found
    · exact cutBased?_divides found
    · exact decimal found
  · exact cutDecimalTail?_divides found
  · exact decimal found

/-! ### Strings and operators -/

theorem cutQuotes?_divides {text : List Char} {cut : Cut} (found : cutQuotes? text = some cut) :
    cut.Divides text := by
  unfold cutQuotes? at found
  repeat' split at found
  · rename_i same
    simp only [Bool.and_eq_true, beq_iff_eq] at same
    rw [← Option.some.inj found, same.1, same.2]
    rfl
  · exact Option.some.inj found ▸ rfl
  · exact Option.some.inj found ▸ rfl
  · simp at found
  · simp at found

theorem cutStringBody?_divides (quotes : List Char) (fuel : Nat) (text : List Char) {cut : Cut}
    (found : cutStringBody? quotes fuel text = some cut) : cut.Divides text := by
  fun_induction cutStringBody? quotes fuel text generalizing cut with
  | case1 | case3 | case6 => simp at found
  | case2 _ text begins =>
      rw [← Option.some.inj found]
      exact .of_isPrefixOf begins
  | case4 _ _ _ ih => exact .of_map ih ['\\', '\r', '\n'] found
  | case5 _ hidden _ _ _ ih => exact .of_map ih ['\\', hidden] found
  | case7 _ c _ _ _ _ _ ih => exact .of_map ih [c] found

theorem cutOperator?_divides {text : List Char} {cut : Cut} (found : cutOperator? text = some cut) :
    cut.Divides text := by
  unfold cutOperator? at found
  split at found
  case h_1 operator begins =>
    rw [← Option.some.inj found]
    exact .of_isPrefixOf (by simpa using List.find?_some begins)
  repeat' split at found
  · exact Option.some.inj found ▸ rfl
  · simp at found
  · simp at found

namespace Lexer

theorem cutBraced_divides (text : List Char) : (cutBraced text).Divides text := by
  have name := cutWhile_divides (· != '}') text
  rw [Cut.Divides] at *
  rw [cutBraced, List.append_assoc, List.take_append_drop, name]

theorem cutFormattedText?_divides (frame : FormattedFrame) (fuel : Nat) (text : List Char)
    {cut : Cut} (found : cutFormattedText? frame fuel text = some cut) : cut.Divides text := by
  fun_induction cutFormattedText? frame fuel text generalizing cut with
  | case1 | case3 | case16 => simp at found
  | case2 | case10 | case12 | case13 | case15 => exact .of_nothing found
  | case4 _ _ _ ih | case5 _ _ _ ih => exact .of_map ih ['\\'] found
  | case6 _ _ _ _ ih => exact .of_map ih ['\\', 'N'] found
  | case7 _ text _ name rest braced _ ih =>
      have whole := cutBraced_divides text
      rw [braced, Cut.Divides] at whole
      rw [← whole]
      exact .of_map ih ('\\' :: 'N' :: '{' :: name) found
  | case8 _ _ _ ih => exact .of_map ih ['\\', '\r', '\n'] found
  | case9 _ hidden _ _ _ _ _ _ ih => exact .of_map ih ['\\', hidden] found
  | case11 _ _ _ _ ih => exact .of_map ih ['{', '{'] found
  | case14 _ _ _ _ ih => exact .of_map ih ['}', '}'] found
  | case17 _ c _ _ _ _ _ _ _ _ _ _ ih => exact .of_map ih [c] found

theorem cutMargin_divides (margins : List Margin) (text : List Char) :
    (cutMargin margins text).Divides text := by
  unfold cutMargin
  dsimp only
  split
  · rename_i begins
    exact .of_isPrefixOf begins
  · rfl

/-! ## Steps -/

/-- A step takes its characters from the front of a text, and it shows no more of them. -/
structure Step.Divides (step : Step) (text : List Char) : Prop where
  whole : step.consumed ++ step.rest = text
  shown : step.shown.length ≤ step.consumed.length

theorem skip_divides (state : LexState) {cut : Cut} {text : List Char}
    (divides : cut.Divides text) : (skip state cut).Divides text := ⟨divides, Nat.le_refl _⟩

theorem take_divides (state : LexState) (kind : TokenKind) {cut : Cut} {text : List Char}
    (divides : cut.Divides text) : (take state kind cut).Divides text := ⟨divides, Nat.zero_le _⟩

variable {state : LexState} {text : List Char} {step : Step}

theorem takeOperator?_divides {cut : Cut} (divides : cut.Divides text)
    (made : takeOperator? state cut = some step) : step.Divides text := by
  obtain ⟨after, _, isStep⟩ := Option.bind_eq_some_iff.mp made
  exact Option.some.inj isStep ▸ take_divides after .operator divides

theorem formattedStep?_divides {frame : FormattedFrame} {outer : List FormattedFrame}
    (made : formattedStep? state frame outer text = some step) : step.Divides text := by
  obtain ⟨cut, isCut, made⟩ := Option.bind_eq_some_iff.mp made
  repeat' split at made
  · exact Option.some.inj made ▸ take_divides _ _ (cutFormattedText?_divides frame _ text isCut)
  · rename_i begins
    exact Option.some.inj made ▸ take_divides _ _ (.of_isPrefixOf begins)
  · exact takeOperator?_divides (.single _ _) made
  · exact takeOperator?_divides (.single _ _) made
  · simp at made
  · simp at made

theorem stringStep?_divides {marks : List Char} (made : stringStep? state marks text = some step) :
    step.Divides (marks ++ text) := by
  obtain ⟨quotes, isQuotes, made⟩ := Option.bind_eq_some_iff.mp made
  have quotesDivides := cutQuotes?_divides isQuotes
  dsimp only at made
  split at made
  · refine Option.some.inj made ▸ take_divides _ _ ?_
    rw [Cut.Divides] at *
    rw [List.append_assoc, quotesDivides]
  · obtain ⟨body, isBody, made⟩ := Option.bind_eq_some_iff.mp made
    have bodyDivides := cutStringBody?_divides _ _ _ isBody
    refine Option.some.inj made ▸ take_divides _ _ ?_
    rw [Cut.Divides] at *
    rw [List.append_assoc, List.append_assoc, bodyDivides, quotesDivides]

theorem nameStep?_divides (made : nameStep? state text = some step) : step.Divides text := by
  have word := cutWhile_divides continuesName text
  unfold nameStep? at made
  dsimp only at made
  split_ifs at made
  · exact word ▸ stringStep?_divides made
  · exact Option.some.inj made ▸ take_divides state .name word

theorem lineEndStep?_divides {unified : List Char}
    (made : lineEndStep? state unified text = some step) : step.Divides text := by
  obtain ⟨ending, isEnding, made⟩ := Option.bind_eq_some_iff.mp made
  have endingDivides := cutLineEnd?_divides isEnding
  dsimp only at made
  have whole : ending.1 ++ (cutMargin state.margins ending.2).1 ++
      (cutMargin state.margins ending.2).2 = text := by
    rw [List.append_assoc, cutMargin_divides state.margins ending.2, endingDivides]
  have inFront : ending.1.length ≤ (ending.1 ++ (cutMargin state.margins ending.2).1).length := by
    rw [List.length_append]
    exact Nat.le_add_right _ _
  split_ifs at made with inBrackets unifiedEnd lineOpen
  · exact Option.some.inj made ▸ ⟨whole, Nat.le_trans
      (List.length_pos_iff.mpr (cutLineEnd?_ne_nil isEnding)) inFront⟩
  · exact Option.some.inj made ▸ ⟨whole, inFront⟩
  · exact Option.some.inj made ▸ ⟨endingDivides, Nat.zero_le _⟩
  · exact Option.some.inj made ▸ skip_divides _ endingDivides

theorem continuationStep?_divides (made : continuationStep? state text = some step) :
    step.Divides ('\\' :: text) := by
  obtain ⟨ending, isEnding, made⟩ := Option.bind_eq_some_iff.mp made
  have endingDivides := cutLineEnd?_divides isEnding
  dsimp only at made
  split_ifs at made
  exact Option.some.inj made ▸ skip_divides _ (endingDivides.cons ['\\'])

theorem plainStep?_divides {unified : List Char}
    (made : plainStep? state unified text = some step) : step.Divides text := by
  unfold plainStep? at made
  split at made
  · simp at made
  split_ifs at made with blank comment lineEnd continued name quote number specification
  · exact Option.some.inj made ▸ skip_divides state (cutWhile_divides isBlank _)
  · exact Option.some.inj made ▸ skip_divides state (cutWhile_divides _ _)
  · exact lineEndStep?_divides made
  · exact continued ▸ continuationStep?_divides made
  · exact nameStep?_divides made
  · exact stringStep?_divides made
  · obtain ⟨cut, isNumber, rfl⟩ := Option.map_eq_some_iff.mp made
    exact take_divides state .number (cutNumber?_divides isNumber)
  · rw [← Option.some.inj made, ← specification.1]
    exact take_divides _ _ (.single _ _)
  · obtain ⟨cut, isOperator, made⟩ := Option.bind_eq_some_iff.mp made
    exact takeOperator?_divides (cutOperator?_divides isOperator) made

/-- A reading step divides the text. -/
theorem step?_divides {unified : List Char} (made : step? state unified text = some step) :
    step.Divides text := by
  unfold step? at made
  split at made
  · split_ifs at made
    · exact plainStep?_divides made
    · exact formattedStep?_divides made
  · exact plainStep?_divides made

end Lexer

/-! ## Widths -/

namespace Token

/-- The number of characters of a token and of what is kept in front of it. -/
def width (token : Token) : Nat := token.lead.length + token.text.length

/-- The number of characters of a stretch of tokens. -/
def widthOf (tokens : List Token) : Nat := (tokens.map width).sum

@[simp] theorem widthOf_nil : widthOf [] = 0 := rfl

@[simp] theorem widthOf_cons (token : Token) (rest : List Token) :
    widthOf (token :: rest) = token.width + widthOf rest := by
  rw [widthOf, List.map_cons, List.sum_cons, widthOf]

@[simp] theorem widthOf_append (front behind : List Token) :
    widthOf (front ++ behind) = widthOf front + widthOf behind := by
  rw [widthOf, List.map_append, List.sum_append, widthOf, widthOf]

/-- The text of a stretch of tokens leaves out what stands in front of it. -/
theorem length_join_cons (token : Token) (rest : List Token) :
    (join (token :: rest)).length = token.text.length + widthOf rest := by
  have joined : ∀ (rest : List Token) (text : String),
      (rest.foldl (fun text token => text ++ token.lead ++ token.text) text).length =
        text.length + widthOf rest := by
    intro rest
    induction rest with
    | nil => intro text; rfl
    | cons token rest ih =>
        intro text
        rw [List.foldl_cons, ih, String.length_append, String.length_append, widthOf_cons, width]
        omega
  rw [join, joined]

theorem length_join_le (tokens : List Token) : (join tokens).length ≤ widthOf tokens := by
  cases tokens with
  | nil => exact Nat.zero_le _
  | cons token rest =>
      rw [length_join_cons, widthOf_cons, width]
      omega

/-- The text of a stretch of tokens has those of its parts and what stands between them. -/
theorem length_join_append_le (front behind : List Token) :
    (join front).length + (join behind).length ≤ (join (front ++ behind)).length := by
  cases front with
  | nil => exact Nat.le_of_eq (Nat.zero_add _)
  | cons token rest =>
      have shorter := length_join_le behind
      rw [List.cons_append, length_join_cons, length_join_cons, widthOf_append]
      omega

end Token

namespace Lexer

theorem lineEnd_notMem_of_changeMargin? {margins after : List Margin} {margin : Margin}
    {kinds : List TokenKind} (changed : changeMargin? margins margin = some (after, kinds)) :
    .lineEnd ∉ kinds := by
  unfold changeMargin? at changed
  dsimp only at changed
  split_ifs at changed
  all_goals
    rw [← (Prod.mk.inj (Option.some.inj changed)).2]
    simp

/-- Entering a line gives no line end. -/
theorem lineEnd_notMem_of_enterLine? {state entered : LexState} {place : Place} {text : List Char}
    {kinds : List TokenKind} (isEntered : enterLine? state place text = some (entered, kinds)) :
    .lineEnd ∉ kinds := by
  unfold enterLine? at isEntered
  dsimp only at isEntered
  split at isEntered
  · rw [← (Prod.mk.inj (Option.some.inj isEntered)).2]
    exact List.not_mem_nil
  · split_ifs at isEntered
    · rw [← (Prod.mk.inj (Option.some.inj isEntered)).2]
      exact List.not_mem_nil
    · obtain ⟨⟨margins, given⟩, changed, same⟩ := Option.bind_eq_some_iff.mp isEntered
      rw [← (Prod.mk.inj (Option.some.inj same)).2]
      exact lineEnd_notMem_of_changeMargin? changed

/-- In front of a line end that stands last but one the end of a text adds nothing. -/
theorem eq_nil_of_finish? {state : LexState} {lead : List Char} {place : Place}
    {taken : List Token} {ending last : Token}
    (finished : finish? state lead place = some (taken ++ [ending, last]))
    (lineEnd : ending.kind = .lineEnd) : taken = [] := by
  unfold finish? at finished
  dsimp only at finished
  split at finished
  case isFalse => simp at finished
  case isTrue =>
    have kinds : (if state.lineOpen then [TokenKind.lineEnd] else []) ++
        List.replicate state.margins.length .dedent ++ [.finish] =
          taken.map Token.kind ++ [.lineEnd] ++ [last.kind] := by
      have mapped := congrArg (List.map Token.kind) (Option.some.inj finished)
      rw [List.map_map] at mapped
      simpa [lineEnd, Function.comp_def, emptyToken] using mapped
    replace kinds := List.append_inj_left' kinds rfl
    -- behind the end of its last line a text ends with the blocks that are open
    cases depth : state.margins.length with
    | zero =>
        rw [depth, List.replicate_zero, List.append_nil] at kinds
        have short := congrArg List.length kinds
        rw [List.length_append, List.length_map, List.length_singleton] at short
        have single : (if state.lineOpen then [TokenKind.lineEnd] else []).length ≤ 1 := by
          split <;> simp
        exact List.length_eq_zero_iff.mp (by omega)
    | succ depth' =>
        rw [depth, List.replicate_succ', ← List.append_assoc] at kinds
        exact absurd (List.append_inj_right' kinds rfl) (by simp)

theorem widthOf_emptyTokens (place : Place) (kinds : List TokenKind) :
    Token.widthOf (kinds.map (emptyToken [] place)) = 0 := by
  induction kinds with
  | nil => rfl
  | cons kind rest ih => rw [List.map_cons, Token.widthOf_cons, ih]; rfl

/-- What entering a line gives stands in front of the last line end of a text. -/
theorem exists_behind_of_entered {kinds : List TokenKind} (noEnd : .lineEnd ∉ kinds) {place : Place}
    {tokens taken : List Token} {ending last : Token}
    (divided : kinds.map (emptyToken [] place) ++ tokens = taken ++ [ending, last])
    (lineEnd : ending.kind = .lineEnd) :
    ∃ behind, taken = kinds.map (emptyToken [] place) ++ behind ∧
      tokens = behind ++ [ending, last] := by
  rcases List.append_eq_append_iff.mp divided with found | ⟨cut, isCut, behind⟩
  · exact found
  · cases cut with
    | nil => exact ⟨[], by rw [isCut, List.append_nil, List.append_nil], behind.symm⟩
    | cons token rest =>
        obtain ⟨rfl, _⟩ := List.cons.inj behind
        obtain ⟨kind, listed, rfl⟩ := List.mem_map.mp
          (isCut ▸ List.mem_append_right taken List.mem_cons_self)
        exact absurd (lineEnd ▸ listed : TokenKind.lineEnd ∈ kinds) noEnd

/-- The tokens in front of the last line end of a text take no more characters than it has. -/
theorem widthOf_scan? (unified : List Char) (fuel : Nat) (state : LexState) (lead : List Char)
    (place : Place) (text : List Char) {taken : List Token} {ending last : Token}
    (scanned : scan? unified fuel state lead place text = some (taken ++ [ending, last]))
    (lineEnd : ending.kind = .lineEnd) :
    Token.widthOf taken ≤ lead.length + text.length := by
  fun_induction scan? unified fuel state lead place text generalizing taken with
  | case1 => simp at scanned
  | case2 _ state lead place =>
      rw [eq_nil_of_finish? scanned lineEnd]
      exact Nat.zero_le _
  | case3 fuel state lead place text _ _ ih =>
      obtain ⟨⟨entered, kinds⟩, isEntered, scanned⟩ := Option.bind_eq_some_iff.mp scanned
      obtain ⟨tokens, inLine, same⟩ := Option.bind_eq_some_iff.mp scanned
      obtain ⟨behind, isTaken, isTokens⟩ :=
        exists_behind_of_entered (lineEnd_notMem_of_enterLine? isEntered) (Option.some.inj same)
          lineEnd
      rw [isTaken, Token.widthOf_append, widthOf_emptyTokens, Nat.zero_add]
      exact ih _ (inLine.trans (congrArg some isTokens))
  | case4 fuel state lead place text _ _ ih2 ih1 =>
      obtain ⟨step, made, scanned⟩ := Option.bind_eq_some_iff.mp scanned
      have divides := step?_divides made
      have whole := congrArg List.length divides.whole
      rw [List.length_append] at whole
      have shown := divides.shown
      split at scanned
      · rename_i skipped
        have bound := ih2 step scanned
        rw [List.length_append] at bound
        omega
      · rename_i kind formed
        obtain ⟨tokens, behind, same⟩ := Option.bind_eq_some_iff.mp scanned
        cases taken with
        | nil => exact Nat.zero_le _
        | cons token rest =>
            obtain ⟨isToken, isRest⟩ := List.cons.inj (Option.some.inj same)
            have bound := ih1 step (behind.trans (congrArg some isRest))
            rw [List.length_nil] at bound
            rw [Token.widthOf_cons, ← isToken, Token.width, String.length_ofList,
              String.length_ofList]
            omega

/-- **Texts of tokens.** The tokens of a text in front of the end of its last line, with what is
kept in front of them, take no more characters than the text has. -/
theorem widthOf_tokens? {text : String} {taken : List Token} {ending last : Token}
    (divided : tokens? text = some (taken ++ [ending, last])) (lineEnd : ending.kind = .lineEnd) :
    Token.widthOf taken ≤ text.length := by
  have bound := widthOf_scan? _ _ _ _ _ _ divided lineEnd
  rw [List.length_nil, Nat.zero_add, String.length_toList] at bound
  exact bound

end Lexer

end TypeCatalog.Syntax
