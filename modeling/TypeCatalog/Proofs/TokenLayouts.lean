import TypeCatalog.Proofs.TokenTexts
import TypeCatalog.Syntax.Parser
import TypeCatalog.Syntax.Statement

/-! # Layouts of tokens

Two token lists have the same layout but for imports (`TypeCatalog.Syntax.Layout`) when their tokens
agree in kind and text, except that one of them may have brackets around the names of an import from
a module where the other has none. What stands in front of tokens is free. It never begins with a
character of a name or a dot (`TypeCatalog.Syntax.Lexer.spaced_of_tokens?`), so where tokens follow
one another it can be told from them.
-/

namespace TypeCatalog.Syntax

open TypeCatalog.Syntax.Parser (isWord isOperator)

/-! ## Tokens -/

namespace Token

/-- The texts of ends of lines. The last line of a text may end without one. -/
def lineEndTexts : List String := ["", "\n", "\r", "\r\n"]

/-- Tokens of the same kind and text, where lines may end in different ways. -/
structure Alike (token other : Token) : Prop where
  kind : token.kind = other.kind
  text : token.text = other.text ∨
    (token.kind = .lineEnd ∧ token.text ∈ lineEndTexts ∧ other.text ∈ lineEndTexts)

namespace Alike

variable {token other : Token}

theorem text_eq (alike : token.Alike other) (inLine : token.kind ≠ .lineEnd) :
    token.text = other.text := alike.text.resolve_right fun ends => inLine ends.1

theorem isOperator (alike : token.Alike other) (text : String) :
    isOperator text token = isOperator text other := by
  rw [Parser.isOperator, Parser.isOperator, ← alike.kind]
  rcases alike.text with same | ⟨lineEnd, _⟩
  · rw [same]
  · simp [lineEnd]

theorem isWord (alike : token.Alike other) (text : String) :
    isWord text token = isWord text other := by
  rw [Parser.isWord, Parser.isWord, ← alike.kind]
  rcases alike.text with same | ⟨lineEnd, _⟩
  · rw [same]
  · simp [lineEnd]

/-- A property of texts that all ends of lines have in the same way. -/
theorem congr_text {α : Type} (alike : token.Alike other) (value : String → α) (ofEnds : α)
    (constant : ∀ text ∈ lineEndTexts, value text = ofEnds) :
    value token.text = value other.text := by
  rcases alike.text with same | ⟨_, ends, otherEnds⟩
  · rw [same]
  · exact (constant _ ends).trans (constant _ otherEnds).symm

end Alike

/-- Whether a token may stand last in what an import from a module names: a name or dots. -/
def endsSource (token : Token) : Bool :=
  decide (token.kind = .name) || isOperator "." token || isOperator "..." token

/-- Whether a token ends a simple statement. -/
def endsStatement (token : Token) : Bool :=
  decide (token.kind = .lineEnd) || isOperator ";" token

theorem Alike.endsStatement {token other : Token} (alike : token.Alike other) :
    token.endsStatement = other.endsStatement := by
  rw [Token.endsStatement, Token.endsStatement, alike.isOperator, alike.kind]

/-- The token that a name is written by. -/
structure Names (token : Token) (name : Identifier) : Prop where
  kind : token.kind = .name
  text : token.text = name.text
  free : token.text ∉ reservedWords

end Token

/-! ## Imported names -/

/-- The tokens that write a name in an import from a module. -/
inductive ImportedName.Written : ImportedName → List Token → Prop
  | plain {token : Token} {name : Identifier} (isName : token.Names name) :
      Written ⟨name.text, none⟩ [token]
  | renamed {token word second : Token} {name alternative : Identifier}
      (isName : token.Names name) (isAs : isWord "as" word = true)
      (isAlternative : second.Names alternative) :
      Written ⟨name.text, some alternative⟩ [token, word, second]

/-- The tokens that write imported names with commas between them. -/
inductive NamesListed : List ImportedName → List Token → Prop
  | last {name : ImportedName} {tokens : List Token} (written : name.Written tokens) :
      NamesListed [name] tokens
  | more {name : ImportedName} {names : List ImportedName} {tokens rest : List Token} {comma : Token}
      (written : name.Written tokens) (isComma : isOperator "," comma = true)
      (others : NamesListed names rest) : NamesListed (name :: names) (tokens ++ comma :: rest)

/-- The tokens that write imported names in brackets or without. In brackets a comma may stand
behind the last. -/
inductive NamesWritten : List ImportedName → List Token → Prop
  | bare {names : List ImportedName} {tokens : List Token} (listed : NamesListed names tokens) :
      NamesWritten names tokens
  | bracketed {names : List ImportedName} {tokens : List Token} {opening closing : Token}
      (isOpening : isOperator "(" opening = true) (listed : NamesListed names tokens)
      (isClosing : isOperator ")" closing = true) :
      NamesWritten names (opening :: (tokens ++ [closing]))
  | trailed {names : List ImportedName} {tokens : List Token} {opening comma closing : Token}
      (isOpening : isOperator "(" opening = true) (listed : NamesListed names tokens)
      (isComma : isOperator "," comma = true) (isClosing : isOperator ")" closing = true) :
      NamesWritten names (opening :: (tokens ++ [comma, closing]))

theorem ImportedName.Written.begins {name : ImportedName} {tokens : List Token}
    (written : name.Written tokens) : ∃ first rest, tokens = first :: rest ∧ first.kind = .name := by
  cases written with
  | plain isName => exact ⟨_, _, rfl, isName.kind⟩
  | renamed isName => exact ⟨_, _, rfl, isName.kind⟩

theorem NamesListed.begins {names : List ImportedName} {tokens : List Token}
    (listed : NamesListed names tokens) :
    ∃ first rest, tokens = first :: rest ∧ first.kind = .name := by
  cases listed with
  | last written => exact written.begins
  | more written =>
      obtain ⟨first, rest, rfl, isName⟩ := written.begins
      exact ⟨first, _, rfl, isName⟩

/-- Imported names begin with a name or a bracket. -/
theorem NamesWritten.begins {names : List ImportedName} {tokens : List Token}
    (written : NamesWritten names tokens) : ∃ first rest, tokens = first :: rest ∧
      (first.kind = .name ∨ isOperator "(" first = true) := by
  cases written with
  | bare listed =>
      obtain ⟨first, rest, same, isName⟩ := listed.begins
      exact ⟨first, rest, same, Or.inl isName⟩
  | bracketed isOpening => exact ⟨_, _, rfl, Or.inr isOpening⟩
  | trailed isOpening => exact ⟨_, _, rfl, Or.inr isOpening⟩

/-! ## Layouts -/

/-- Token lists that agree but for the brackets around imported names. These stand behind an `import`
that ends what the import is from; the flag says whether the token before may do so. -/
inductive Layout : Bool → List Token → List Token → Prop
  | nil (behindSource : Bool) : Layout behindSource [] []
  | token (behindSource : Bool) {token other : Token} {tokens others : List Token}
      (alike : token.Alike other) (rest : Layout token.endsSource tokens others) :
      Layout behindSource (token :: tokens) (other :: others)
  | imported {word otherWord ending otherEnding : Token} {names : List ImportedName}
      {written otherWritten tokens others : List Token}
      (isImport : isWord "import" word = true) (isOtherImport : isWord "import" otherWord = true)
      (isWritten : NamesWritten names written) (isOtherWritten : NamesWritten names otherWritten)
      (isEnd : ending.endsStatement = true)
      (rest : Layout false (ending :: tokens) (otherEnding :: others)) :
      Layout true (word :: (written ++ ending :: tokens))
        (otherWord :: (otherWritten ++ otherEnding :: others))

namespace Layout

variable {behindSource : Bool} {token other : Token} {tokens others : List Token}

/-- Behind what may end a source as much is allowed as anywhere. -/
theorem loosen (layout : Layout behindSource tokens others) : Layout true tokens others := by
  cases layout with
  | nil => exact .nil true
  | token _ alike rest => exact .token true alike rest
  | imported isImport isOtherImport isWritten isOtherWritten isEnd rest =>
      exact .imported isImport isOtherImport isWritten isOtherWritten isEnd rest

theorem mono {behind : Bool} (layout : Layout behindSource tokens others)
    (implied : behindSource = true → behind = true) : Layout behind tokens others := by
  cases behind with
  | true => exact layout.loosen
  | false =>
      cases behindSource with
      | true => exact absurd (implied rfl) (by decide)
      | false => exact layout

theorem alike_of_isWord {text : String} (isWord : isWord text token = true)
    (isOtherWord : Parser.isWord text other = true) : token.Alike other := by
  rw [Parser.isWord, Bool.and_eq_true, decide_eq_true_eq, beq_iff_eq] at isWord isOtherWord
  exact ⟨isWord.1.trans isOtherWord.1.symm, Or.inl (isWord.2.trans isOtherWord.2.symm)⟩

/-- The first tokens agree. -/
theorem head (layout : Layout behindSource (token :: tokens) (other :: others)) :
    token.Alike other := by
  cases layout with
  | token _ alike _ => exact alike
  | imported isImport isOtherImport => exact alike_of_isWord isImport isOtherImport

/-- Both lists end, or both begin with tokens that agree. -/
theorem heads (layout : Layout behindSource tokens others) :
    (tokens = [] ∧ others = []) ∨ ∃ first rest second further,
      tokens = first :: rest ∧ others = second :: further ∧ first.Alike second := by
  cases layout with
  | nil => exact Or.inl ⟨rfl, rfl⟩
  | token _ alike => exact Or.inr ⟨_, _, _, _, rfl, rfl, alike⟩
  | imported isImport isOtherImport =>
      exact Or.inr ⟨_, _, _, _, rfl, rfl, alike_of_isWord isImport isOtherImport⟩

/-- Behind anything but an `import` the rest of the tokens agrees as well. -/
theorem tail (layout : Layout behindSource (token :: tokens) (other :: others))
    (notImport : isWord "import" token = false) : Layout token.endsSource tokens others := by
  cases layout with
  | token _ _ rest => exact rest
  | imported isImport => exact absurd (notImport.symm.trans isImport) (by decide)

/-- Where no source ends, the rest of the tokens agrees whatever the first is. -/
theorem tail_of_false (layout : Layout false (token :: tokens) (other :: others)) :
    Layout token.endsSource tokens others := by
  cases layout with
  | token _ _ rest => exact rest

end Layout

/-! ## What stands in front of tokens -/

/-- What stands in front of a token does not begin like a name or a dot. -/
def Token.Spaced (token : Token) : Prop :=
  ∀ c ∈ token.lead.toList.head?, c ≠ '.' ∧ Text.isIdentifierPart c = false

namespace Lexer

/-- A stretch of characters that may stand in front of a token. -/
def Separates (shown : List Char) : Prop :=
  ∀ c ∈ shown.head?, c ≠ '.' ∧ Text.isIdentifierPart c = false

theorem separates_nil : Separates [] := nofun

theorem separates_cons {c : Char} (rest : List Char) (undotted : c ≠ '.')
    (noPart : Text.isIdentifierPart c = false) : Separates (c :: rest) := by
  intro first isFirst
  obtain rfl := Option.some.inj isFirst
  exact ⟨undotted, noPart⟩

theorem Separates.append {lead shown : List Char} (before : Separates lead)
    (after : Separates shown) : Separates (lead ++ shown) := by
  cases lead with
  | nil => exact after
  | cons c rest => exact before

/-- Blanks and line ends, comments and continued lines separate. -/
theorem separates_of_mem {c : Char} (rest : List Char)
    (listed : c ∈ [' ', '\t', '\x0c', '#', '\n', '\r', '\\']) : Separates (c :: rest) := by
  have each : [' ', '\t', '\x0c', '#', '\n', '\r', '\\'].all
      (fun c => c != '.' && !Text.isIdentifierPart c) = true := by decide
  have passes := List.all_eq_true.mp each c listed
  rw [Bool.and_eq_true, bne_iff_ne, Bool.not_eq_true'] at passes
  exact separates_cons rest passes.1 passes.2

theorem separates_of_cutLineEnd? {text : List Char} {cut : Cut}
    (isEnd : cutLineEnd? text = some cut) : Separates cut.1 := by
  unfold cutLineEnd? at isEnd
  split at isEnd
  · exact Option.some.inj isEnd ▸ separates_of_mem _ (by decide)
  · exact Option.some.inj isEnd ▸ separates_of_mem _ (by decide)
  · exact Option.some.inj isEnd ▸ separates_of_mem _ (by decide)
  · simp at isEnd

theorem separates_cutWhile (property : Char → Bool) (c : Char) (rest : List Char)
    (holds : property c = true) (separates : ∀ rest, Separates (c :: rest)) :
    Separates (cutWhile property (c :: rest)).1 := by
  rw [cutWhile, List.takeWhile_cons_of_pos holds]
  exact separates _

variable {state : LexState} {text : List Char} {step : Step}

theorem separates_lineEndStep? {unified : List Char}
    (made : lineEndStep? state unified text = some step) : Separates step.shown := by
  obtain ⟨ending, isEnding, made⟩ := Option.bind_eq_some_iff.mp made
  have separates := separates_of_cutLineEnd? isEnding
  dsimp only at made
  split_ifs at made
  · exact Option.some.inj made ▸ separates_of_mem _ (by decide)
  · exact Option.some.inj made ▸ separates
  · exact Option.some.inj made ▸ separates_nil
  · exact Option.some.inj made ▸ separates

theorem kind_of_takeOperator? {cut : Cut} (made : takeOperator? state cut = some step) :
    step.kind = some .operator := by
  obtain ⟨after, _, isStep⟩ := Option.bind_eq_some_iff.mp made
  exact Option.some.inj isStep ▸ rfl

theorem kind_of_formattedStep? {frame : FormattedFrame} {outer : List FormattedFrame}
    (made : formattedStep? state frame outer text = some step) : step.kind ≠ none := by
  obtain ⟨cut, isCut, made⟩ := Option.bind_eq_some_iff.mp made
  repeat' split at made
  · exact Option.some.inj made ▸ nofun
  · exact Option.some.inj made ▸ nofun
  · rw [kind_of_takeOperator? made]; nofun
  · rw [kind_of_takeOperator? made]; nofun
  · simp at made
  · simp at made

theorem kind_of_stringStep? {marks : List Char} (made : stringStep? state marks text = some step) :
    step.kind ≠ none := by
  obtain ⟨quotes, isQuotes, made⟩ := Option.bind_eq_some_iff.mp made
  dsimp only at made
  split at made
  · exact Option.some.inj made ▸ nofun
  · obtain ⟨body, isBody, made⟩ := Option.bind_eq_some_iff.mp made
    exact Option.some.inj made ▸ nofun

theorem kind_of_nameStep? (made : nameStep? state text = some step) : step.kind ≠ none := by
  unfold nameStep? at made
  dsimp only at made
  split_ifs at made
  · exact kind_of_stringStep? made
  · exact Option.some.inj made ▸ nofun

theorem separates_continuationStep? (made : continuationStep? state text = some step) :
    Separates step.shown := by
  obtain ⟨ending, _, made⟩ := Option.bind_eq_some_iff.mp made
  dsimp only at made
  split_ifs at made
  exact Option.some.inj made ▸ separates_of_mem _ (by decide)

theorem separates_plainStep? {unified : List Char}
    (made : plainStep? state unified text = some step) (skipped : step.kind = none) :
    Separates step.shown := by
  unfold plainStep? at made
  split at made
  · simp at made
  split_ifs at made with blank comment lineEnd continued name quote number specification
  · rw [← Option.some.inj made]
    refine separates_cutWhile isBlank _ _ blank fun rest => separates_of_mem rest ?_
    rw [isBlank, Bool.or_eq_true, Bool.or_eq_true, beq_iff_eq, beq_iff_eq, beq_iff_eq] at blank
    rcases blank with (rfl | rfl) | rfl <;> decide
  · subst comment
    rw [← Option.some.inj made]
    exact separates_cutWhile (fun c => !isLineEnd c) '#' _ rfl fun rest =>
      separates_of_mem rest (by decide)
  · exact separates_lineEndStep? made
  · exact separates_continuationStep? made
  · exact absurd skipped (kind_of_nameStep? made)
  · exact absurd skipped (kind_of_stringStep? made)
  · obtain ⟨cut, _, rfl⟩ := Option.map_eq_some_iff.mp made
    exact absurd skipped nofun
  · exact absurd skipped (Option.some.inj made ▸ nofun)
  · obtain ⟨cut, _, made⟩ := Option.bind_eq_some_iff.mp made
    exact absurd (skipped.symm.trans (kind_of_takeOperator? made)) nofun

/-- What a step keeps in front of the next token separates. -/
theorem separates_step? {unified : List Char} (made : step? state unified text = some step)
    (skipped : step.kind = none) : Separates step.shown := by
  unfold step? at made
  split at made
  · split_ifs at made
    · exact separates_plainStep? made skipped
    · exact absurd skipped (kind_of_formattedStep? made)
  · exact separates_plainStep? made skipped

theorem spaced_emptyToken {lead : List Char} (separates : Separates lead) (place : Place)
    (kind : TokenKind) : (emptyToken lead place kind).Spaced := by
  intro c isFirst
  exact separates c (by simpa [emptyToken] using isFirst)

theorem spaced_of_finish? {lead : List Char} (separates : Separates lead) {place : Place}
    {tokens : List Token} (finished : finish? state lead place = some tokens) :
    ∀ token ∈ tokens, token.Spaced := by
  unfold finish? at finished
  dsimp only at finished
  split at finished
  · rw [← Option.some.inj finished]
    exact List.forall_mem_map.mpr fun kind _ => spaced_emptyToken separates place kind
  · simp at finished

theorem spaced_of_scan? (unified : List Char) (fuel : Nat) (state : LexState) (lead : List Char)
    (place : Place) (text : List Char) {tokens : List Token} (separates : Separates lead)
    (scanned : scan? unified fuel state lead place text = some tokens) :
    ∀ token ∈ tokens, token.Spaced := by
  fun_induction scan? unified fuel state lead place text generalizing tokens with
  | case1 => simp at scanned
  | case2 => exact spaced_of_finish? separates scanned
  | case3 fuel state lead place text _ _ ih =>
      obtain ⟨⟨entered, kinds⟩, _, scanned⟩ := Option.bind_eq_some_iff.mp scanned
      obtain ⟨behind, inLine, same⟩ := Option.bind_eq_some_iff.mp scanned
      rw [← Option.some.inj same]
      exact List.forall_mem_append.mpr
        ⟨List.forall_mem_map.mpr fun kind _ => spaced_emptyToken separates_nil place kind,
          ih _ separates inLine⟩
  | case4 fuel state lead place text _ _ ih2 ih1 =>
      obtain ⟨step, made, scanned⟩ := Option.bind_eq_some_iff.mp scanned
      split at scanned
      · rename_i skipped
        -- what makes no token is kept in front of the next
        exact ih2 step (separates.append (separates_step? made skipped)) scanned
      · obtain ⟨behind, inRest, same⟩ := Option.bind_eq_some_iff.mp scanned
        rw [← Option.some.inj same]
        refine List.forall_mem_cons.mpr ⟨?_, ih1 step separates_nil inRest⟩
        intro c isFirst
        exact separates c (by simpa using isFirst)

/-- **What stands in front of tokens.** In front of the tokens of a text stands nothing that begins
like a name or a dot. -/
theorem spaced_of_tokens? {text : String} {tokens : List Token}
    (divided : tokens? text = some tokens) : ∀ token ∈ tokens, token.Spaced :=
  spaced_of_scan? _ _ _ _ _ _ separates_nil divided

end Lexer

end TypeCatalog.Syntax
