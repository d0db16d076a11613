import TypeCatalog.Syntax.Lexeme
import TypeCatalog.Syntax.Token
import TypeCatalog.Text.LineEnd

/-! # Division of a source text into tokens

`Lexer.tokens?` reads a whole text. Outside brackets the margins of lines become `indent` and
`dedent` tokens and line ends become tokens; blank lines, lines with a comment alone and line ends
inside brackets are skipped. A formatted string is read in two modes that alternate: its text, and
the tokens of its replacement fields. -/

namespace TypeCatalog.Syntax

/-- A formatted string that is being read: how it is quoted, how many of its brackets are open and
how many of these hold a format specification. -/
structure FormattedFrame where
  quotes : List Char
  raw : Bool
  opened : Nat
  specifications : Nat
  deriving Repr

namespace FormattedFrame

/-- Whether tokens of a replacement field are being read. -/
def inField (frame : FormattedFrame) : Bool := decide (frame.specifications < frame.opened)

/-- Whether the text of a format specification is being read. -/
def inSpecification (frame : FormattedFrame) : Bool :=
  !frame.inField && decide (0 < frame.specifications)

def openBracket (frame : FormattedFrame) : FormattedFrame :=
  { frame with opened := frame.opened + 1 }

def closeBracket (frame : FormattedFrame) : FormattedFrame :=
  { frame with
    opened := frame.opened - 1
    specifications := frame.specifications - (if frame.inSpecification then 1 else 0) }

/-- The frame behind the colon of a format specification. -/
def openSpecification (frame : FormattedFrame) : FormattedFrame :=
  { frame with specifications := frame.specifications + 1 }

/-- Whether a colon begins a format specification. -/
def takesSpecification (frame : FormattedFrame) : Bool :=
  decide (frame.opened = frame.specifications + 1)

end FormattedFrame

/-- The blanks in front of a line, measured twice: with tab stops at every eighth column and at every
column. -/
structure Margin where
  text : List Char
  width : Nat
  tabless : Nat
  deriving Repr

/-- What the reading of the rest of a text depends on. -/
structure LexState where
  /-- The margins of the enclosing blocks, innermost first. -/
  margins : List Margin
  /-- The open brackets, innermost first. -/
  brackets : List Char
  /-- The formatted strings being read, innermost first. -/
  frames : List FormattedFrame
  atLineStart : Bool
  /-- Whether the logical line has a token. -/
  lineOpen : Bool
  /-- The place of the first token of the logical line, if it has none before. -/
  lineStart : Place
  deriving Repr

namespace Lexer

/-- The state at the beginning of a text. -/
def initial : LexState where
  margins := []
  brackets := []
  frames := []
  atLineStart := true
  lineOpen := false
  lineStart := .start

/-- One reading step: the characters consumed, the characters left, and the token they form, or the
text to keep in front of the next token. -/
structure Step where
  consumed : List Char
  rest : List Char
  state : LexState
  kind : Option TokenKind
  shown : List Char

def skip (state : LexState) (cut : Cut) : Step where
  consumed := cut.1
  rest := cut.2
  state := state
  kind := none
  shown := cut.1

def take (state : LexState) (kind : TokenKind) (cut : Cut) : Step where
  consumed := cut.1
  rest := cut.2
  state := { state with lineOpen := true }
  kind := some kind
  shown := []

/-! ## Margins -/

/-- The margin that blanks form. A form feed starts both measures again. -/
def measureMargin (blanks : List Char) : Margin :=
  blanks.foldl (fun margin c =>
    let text := margin.text ++ [c]
    if c = '\t' then ⟨text, (margin.width / 8 + 1) * 8, margin.tabless + 1⟩
    else if c = '\x0c' then ⟨text, 0, 0⟩
    else ⟨text, margin.width + 1, margin.tabless + 1⟩) ⟨[], 0, 0⟩

/-- The margin of the innermost block. -/
def currentMargin (margins : List Margin) : Margin := margins.headD ⟨[], 0, 0⟩

/-- The greatest number of blocks within each other. -/
def marginLimit : Nat := 100

/-- The margins after a line with a given margin, and the tokens that the change amounts to. The two
measures must agree on which margin is wider, and a narrower margin must be one of an enclosing
block. -/
def changeMargin? (margins : List Margin) (margin : Margin) :
    Option (List Margin × List TokenKind) :=
  let current := currentMargin margins
  if margin.width = current.width then
    if margin.tabless = current.tabless then some (margins, []) else none
  else if current.width < margin.width then
    if current.tabless < margin.tabless ∧ margins.length + 1 < marginLimit then
      some (margin :: margins, [.indent])
    else none
  else
    let kept := margins.dropWhile fun outer => decide (margin.width < outer.width)
    let outer := currentMargin kept
    if outer.width = margin.width ∧ outer.tabless = margin.tabless then
      some (kept, List.replicate (margins.length - kept.length) .dedent)
    else none

/-- The place of the first token of a line that begins at a place: it stands behind the margin of its
block, and line ends that a backslash hides in front of it count for nothing. -/
def placeInBlock (margins : List Margin) (place : Place) : Place :=
  ⟨place.linesAbove, (currentMargin margins).text.length⟩

/-- Enter a line at a place: blank lines, comments and continued lines leave the margins as they
are. -/
def enterLine? (state : LexState) (place : Place) (text : List Char) :
    Option (LexState × List TokenKind) :=
  let (blanks, rest) := cutWhile isBlank text
  let entered (margins : List Margin) : LexState :=
    { state with
      margins := margins, atLineStart := false, lineStart := placeInBlock margins place }
  match rest with
  | [] => some (entered state.margins, [])
  | c :: _ =>
      if c == '#' || c == '\\' || isLineEnd c then some (entered state.margins, [])
      else do
        let (margins, kinds) ← changeMargin? state.margins (measureMargin blanks)
        return (entered margins, kinds)

/-! ## Brackets -/

def closerOf (bracket : Char) : Char :=
  if bracket = '(' then ')' else if bracket = '[' then ']' else '}'

/-- Change the innermost formatted string. -/
def changeFrame (change : FormattedFrame → FormattedFrame) :
    List FormattedFrame → List FormattedFrame
  | [] => []
  | frame :: outer => change frame :: outer

/-- The state behind an operator, if its bracket matches. -/
def afterOperator? (state : LexState) (operator : List Char) : Option LexState :=
  match operator with
  | [c] =>
      if c == '(' || c == '[' || c == '{' then
        some { state with
          brackets := c :: state.brackets
          frames := changeFrame FormattedFrame.openBracket state.frames }
      else if c == ')' || c == ']' || c == '}' then
        match state.brackets with
        | opening :: outer =>
            if closerOf opening = c then
              some { state with
                brackets := outer
                frames := changeFrame FormattedFrame.closeBracket state.frames }
            else none
        | [] => none
      else some state
  | _ => some state

def takeOperator? (state : LexState) (cut : Cut) : Option Step := do
  let state ← afterOperator? state cut.1
  return take state .operator cut

/-! ## Formatted strings -/

/-- The rest of the braced name of a character, with its closing brace. -/
def cutBraced (text : List Char) : Cut :=
  let (name, rest) := cutWhile (· != '}') text
  (name ++ rest.take 1, rest.drop 1)

/-- The text of a formatted string up to a replacement field, the end of a format specification or
the closing quotes. Doubled braces stand for themselves outside a format specification. -/
def cutFormattedText? (frame : FormattedFrame) : (fuel : Nat) → List Char → Option Cut
  | 0, _ => none
  | fuel + 1, text =>
      if frame.quotes.isPrefixOf text then some ([], text)
      else match text with
        | [] => none
        | '\\' :: '{' :: rest => (cutFormattedText? frame fuel ('{' :: rest)).map (Cut.cons ['\\'])
        | '\\' :: '}' :: rest => (cutFormattedText? frame fuel ('}' :: rest)).map (Cut.cons ['\\'])
        | '\\' :: 'N' :: '{' :: rest =>
            if frame.raw || frame.inSpecification then
              (cutFormattedText? frame fuel ('{' :: rest)).map (Cut.cons ['\\', 'N'])
            else
              let (name, behind) := cutBraced rest
              (cutFormattedText? frame fuel behind).map (Cut.cons ('\\' :: 'N' :: '{' :: name))
        | '\\' :: '\r' :: '\n' :: rest =>
            (cutFormattedText? frame fuel rest).map (Cut.cons ['\\', '\r', '\n'])
        | '\\' :: hidden :: rest =>
            (cutFormattedText? frame fuel rest).map (Cut.cons ['\\', hidden])
        | '{' :: rest =>
            match rest with
            | '{' :: behind =>
                if frame.inSpecification then some ([], text)
                else (cutFormattedText? frame fuel behind).map (Cut.cons ['{', '{'])
            | _ => some ([], text)
        | '}' :: rest =>
            match rest with
            | '}' :: behind =>
                if frame.inSpecification then some ([], text)
                else (cutFormattedText? frame fuel behind).map (Cut.cons ['}', '}'])
            | _ => some ([], text)
        | c :: rest =>
            if isLineEnd c && frame.quotes.length == 1 then none
            else (cutFormattedText? frame fuel rest).map (Cut.cons [c])

/-- A step inside the text of a formatted string. -/
def formattedStep? (state : LexState) (frame : FormattedFrame) (outer : List FormattedFrame)
    (text : List Char) : Option Step := do
  let cut ← cutFormattedText? frame (text.length + 1) text
  if !cut.1.isEmpty then return take state .formattedText cut
  else if frame.quotes.isPrefixOf text then
    return take { state with frames := outer } .formattedClose
      (frame.quotes, text.drop frame.quotes.length)
  else match text with
    | '{' :: rest => takeOperator? state (['{'], rest)
    | '}' :: rest =>
        if frame.inSpecification then takeOperator? state (['}'], rest) else none
    | _ => none

/-! ## Ordinary text -/

/-- A string whose marks are already read. -/
def stringStep? (state : LexState) (marks : List Char) (text : List Char) : Option Step := do
  let (quotes, rest) ← cutQuotes? text
  let lower := marks.map Char.toLower
  if lower.contains 'f' then
    let frame : FormattedFrame := ⟨quotes, lower.contains 'r', 0, 0⟩
    return take { state with frames := frame :: state.frames } .formattedOpen
      (marks ++ quotes, rest)
  else
    let (body, rest) ← cutStringBody? quotes (rest.length + 1) rest
    return take state .string (marks ++ quotes ++ body, rest)

/-- A name, or a string that the letters of a name mark. -/
def nameStep? (state : LexState) (text : List Char) : Option Step :=
  let (word, rest) := cutWhile continuesName text
  let marked := match rest with
    | c :: _ => (c == '"' || c == '\'') && stringMarks.contains (String.ofList (word.map Char.toLower))
    | [] => false
  if marked then stringStep? state word rest
  else if Text.isIdentifier (String.ofList word) then some (take state .name (word, rest))
  else none

/-- The margin of the innermost block, if a text begins with it, and the rest of the text. -/
def cutMargin (margins : List Margin) (text : List Char) : Cut :=
  let margin := (currentMargin margins).text
  if margin.isPrefixOf text then (margin, text.drop margin.length) else ([], text)

/-- A step at the end of a line. Inside brackets, and on a line without tokens, a line end is
skipped. Inside brackets the next line is kept without the margin of the block around it. -/
def lineEndStep? (state : LexState) (unified : List Char) (text : List Char) : Option Step := do
  let (ending, rest) ← cutLineEnd? text
  if !state.brackets.isEmpty then
    let (margin, rest) := cutMargin state.margins rest
    return { skip state (ending ++ margin, rest) with
      shown := if ending = unified then ['\n'] else ending }
  else if state.lineOpen then
    return { take state .lineEnd (ending, rest) with
      state := { state with atLineStart := true, lineOpen := false } }
  else return skip { state with atLineStart := true } (ending, rest)

/-- A line end hidden by a backslash; a further line must follow. -/
def continuationStep? (state : LexState) (text : List Char) : Option Step := do
  let (ending, rest) ← cutLineEnd? text
  if rest.isEmpty then none else return skip state ('\\' :: ending, rest)

/-- Whether a colon begins a format specification. -/
def startsSpecification (state : LexState) : Bool :=
  match state.frames with
  | frame :: _ => frame.takesSpecification
  | [] => false

/-- The state behind the colon of a format specification. -/
def beginSpecification (state : LexState) : LexState :=
  { state with frames := changeFrame FormattedFrame.openSpecification state.frames }

/-- Whether a text begins with a number. -/
def startsNumber : List Char → Bool
  | '.' :: next :: _ => next.isDigit
  | c :: _ => c.isDigit
  | [] => false

/-- A step outside the text of formatted strings. -/
def plainStep? (state : LexState) (unified : List Char) (text : List Char) : Option Step :=
  match text with
  | [] => none
  | c :: rest =>
      if isBlank c then some (skip state (cutWhile isBlank text))
      else if c = '#' then some (skip state (cutWhile (fun c => !isLineEnd c) text))
      else if isLineEnd c then lineEndStep? state unified text
      else if c = '\\' then continuationStep? state rest
      else if beginsName c then nameStep? state text
      else if c == '"' || c == '\'' then stringStep? state [] text
      else if startsNumber text then (cutNumber? text).map (take state .number)
      else if c = ':' ∧ startsSpecification state then
        some (take (beginSpecification state) .operator ([':'], rest))
      else do
        let cut ← cutOperator? text
        takeOperator? state cut

def step? (state : LexState) (unified : List Char) (text : List Char) : Option Step :=
  match state.frames with
  | frame :: outer =>
      if frame.inField then plainStep? state unified text
      else formattedStep? state frame outer text
  | [] => plainStep? state unified text

/-- A token without text of its own. -/
def emptyToken (lead : List Char) (place : Place) (kind : TokenKind) : Token where
  kind := kind
  text := ""
  lead := String.ofList lead
  place := place

/-- The tokens at the end of a text: the end of its last line and of the blocks that are open. No
bracket or string may be open. -/
def finish? (state : LexState) (lead : List Char) (place : Place) : Option (List Token) :=
  if state.brackets.isEmpty && state.frames.isEmpty then
    let ending := if state.lineOpen then [TokenKind.lineEnd] else []
    let kinds := ending ++ List.replicate state.margins.length .dedent ++ [.finish]
    some (kinds.map (emptyToken lead place))
  else none

/-- The tokens of the rest of a text. Entering a line consumes nothing, any other step consumes a
character, so twice the number of characters bounds the number of steps. -/
def scan? (unified : List Char) :
    (fuel : Nat) → LexState → (lead : List Char) → Place → List Char → Option (List Token)
  | 0, _, _, _, _ => none
  | _ + 1, state, lead, place, [] => finish? state lead place
  | fuel + 1, state, lead, place, text =>
      if state.atLineStart then do
        let (state, kinds) ← enterLine? state place text
        let tokens ← scan? unified fuel state lead place text
        return kinds.map (emptyToken [] place) ++ tokens
      else do
        let step ← step? state unified text
        match step.kind with
        | none =>
            scan? unified fuel step.state (lead ++ step.shown) (place.advance step.consumed)
              step.rest
        | some kind => do
            let start := if state.lineOpen then place else state.lineStart
            let tokens ← scan? unified fuel step.state [] (start.advance step.consumed) step.rest
            return ⟨kind, String.ofList step.consumed, String.ofList lead, start⟩ :: tokens

/-- The tokens of a text, if it can be divided into tokens. -/
def tokens? (text : String) : Option (List Token) :=
  let characters := text.toList
  scan? (Text.firstLineEnd characters) (2 * characters.length + 2) initial [] .start characters

end Lexer

end TypeCatalog.Syntax
