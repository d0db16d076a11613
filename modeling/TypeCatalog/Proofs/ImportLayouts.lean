import TypeCatalog.Proofs.Names
import TypeCatalog.Proofs.ExpressionLayouts
import TypeCatalog.Program.Imports

/-! # Imports in different layouts

A dotted name is kept as it is written, and it is the texts of its tokens where no gap is within it
(`TypeCatalog.Text.Compact`). So on tokens of the same layout the parsers of imports find the same
names, as far as these are written without gaps
(`TypeCatalog.Syntax.ExprGrammar.parallel_importFrom`). The names that an import from a module lists
are read off their tokens, in brackets and without.
-/

namespace TypeCatalog

/-! ## Names without gaps -/

namespace Text

/-- A dotted name is written without gaps: it consists of characters of names and dots. -/
def Compact (name : String) : Prop := ∀ c ∈ name.toList, c = '.' ∨ isIdentifierPart c = true

instance (name : String) : Decidable (Compact name) :=
  List.decidableBAll (fun c => c = '.' ∨ isIdentifierPart c = true) name.toList

theorem toList_dotted_cons (first : String) (rest : List String) :
    (dotted (first :: rest)).toList =
      first.toList ++ rest.flatMap fun part => '.' :: part.toList := by
  induction rest using List.reverseRecOn with
  | nil => rw [dotted, String.intercalate_singleton, List.flatMap_nil, List.append_nil]
  | append_singleton front last ih =>
      rw [← List.cons_append, dotted_concat (List.cons_ne_nil _ _), String.toList_append,
        String.toList_append, ih, List.flatMap_append, List.flatMap_singleton, List.append_assoc,
        List.append_assoc]
      rfl

end Text

open Text (Compact)

namespace Syntax

namespace Token

theorem toList_join (first : Token) (rest : List Token) :
    (join (first :: rest)).toList =
      first.text.toList ++ rest.flatMap fun token => token.lead.toList ++ token.text.toList := by
  have joined : ∀ (rest : List Token) (text : String),
      (rest.foldl (fun text token => text ++ token.lead ++ token.text) text).toList =
        text.toList ++ rest.flatMap fun token => token.lead.toList ++ token.text.toList := by
    intro rest
    induction rest with
    | nil => simp
    | cons token rest ih =>
        intro text
        rw [List.foldl_cons, ih, List.flatMap_cons, String.toList_append, String.toList_append]
        simp only [List.append_assoc]
  exact joined rest first.text

/-- Nothing but characters of names and dots stands in front of a token only if nothing does. -/
theorem Spaced.lead_eq_nil {token : Token} (spaced : token.Spaced)
    (compact : ∀ c ∈ token.lead.toList, c = '.' ∨ Text.isIdentifierPart c = true) :
    token.lead.toList = [] := by
  cases chars : token.lead.toList with
  | nil => rfl
  | cons c rest =>
      obtain ⟨undotted, noPart⟩ := spaced c (by rw [chars]; rfl)
      rcases compact c (by rw [chars]; exact List.mem_cons_self) with isDot | isPart
      · exact absurd isDot undotted
      · exact absurd (noPart.symm.trans isPart) (by decide)

/-- Tokens that are written without gaps are written as their texts. -/
theorem toList_join_of_compact {first : Token} {rest : List Token}
    (spaced : ∀ token ∈ rest, token.Spaced) (compact : Compact (join (first :: rest))) :
    (join (first :: rest)).toList = first.text.toList ++ (rest.map text).flatMap String.toList := by
  rw [Compact, toList_join] at compact
  rw [toList_join, List.flatMap_map]
  refine congrArg _ (List.flatMap_congr fun token listed => ?_)
  rw [(spaced token listed).lead_eq_nil, List.nil_append]
  intro c member
  exact compact c (List.mem_append_right _ (List.mem_flatMap.mpr
    ⟨token, listed, List.mem_append_left _ member⟩))

end Token

/-! ## Statements -/

/-- Two spellings of a dotted name: they are equal where both are written without gaps. -/
def SameDotted (name other : String) : Prop := Compact name → Compact other → name = other

/-- Imports of the same module under the same name, as far as they are written without gaps. -/
structure ImportedName.Same (imported other : ImportedName) : Prop where
  name : SameDotted imported.name other.name
  alternative : imported.alternative = other.alternative

/-- Imports of the same names from the same modules, or statements that import nothing. -/
inductive SimpleStatement.Same : SimpleStatement → SimpleStatement → Prop
  | modules {names others : List ImportedName} (each : List.Forall₂ ImportedName.Same names others) :
      Same (.importModules names) (.importModules others)
  | source (level : Nat) {module other : Option String} (same : Option.Rel SameDotted module other)
      (names : ImportedNames) :
      Same (.importFrom level module names) (.importFrom level other names)
  | other {statement other : SimpleStatement} (isOther : statement.isImport = false)
      (twinIsOther : other.isImport = false) : Same statement other

namespace ExprGrammar

open TypeCatalog.Syntax.Parser

variable {before : Bool} {room : Room}

/-! ## Dotted names -/

theorem identifier_eq_some {tokens rest : List Token} {name : Identifier}
    (parsed : identifier tokens = some (name, rest)) :
    ∃ token, tokens = token :: rest ∧ token.text = name.text := by
  obtain ⟨⟨token, behind⟩, taken, spelled⟩ := Option.bind_eq_some_iff.mp parsed
  obtain ⟨rfl, _⟩ := satisfy_eq_some taken
  obtain ⟨found, isFound, same⟩ := Option.map_eq_some_iff.mp spelled
  obtain ⟨rfl, rfl⟩ := Prod.mk.inj same
  refine ⟨token, rfl, ?_⟩
  rw [Identifier.ofString?] at isFound
  split at isFound
  · rw [← Option.some.inj isFound]
  · simp at isFound

theorem operator_eq_some {text : String} {tokens rest : List Token} {result : Unit}
    (parsed : operator text tokens = some (result, rest)) :
    ∃ token, tokens = token :: rest ∧ token.text = text := by
  obtain ⟨⟨token, behind⟩, taken, same⟩ := Option.bind_eq_some_iff.mp parsed
  obtain ⟨rfl, passes⟩ := satisfy_eq_some taken
  rw [isOperator, Bool.and_eq_true, beq_iff_eq] at passes
  exact ⟨token, congrArg (token :: ·) (Prod.mk.inj (Option.some.inj same)).2, passes.2⟩

/-- The names behind the first are written with a dot in front of each. -/
theorem texts_of_members {tokens rest : List Token} {members : List Identifier}
    (parsed : manyFrom (do operator "."; identifier) tokens = (members, rest)) :
    ∃ taken, tokens = taken ++ rest ∧
      taken.map Token.text = members.flatMap fun member => [".", member.text] := by
  fun_induction manyFrom (do operator "."; identifier) tokens generalizing members rest with
  | case1 =>
      obtain ⟨rfl, rfl⟩ := Prod.mk.inj parsed
      exact ⟨[], rfl, rfl⟩
  | case2 tokens member left found _ others behind isMany ih =>
      obtain ⟨rfl, rfl⟩ := Prod.mk.inj parsed
      obtain ⟨⟨_, middle⟩, dotted, named⟩ := Option.bind_eq_some_iff.mp found
      obtain ⟨dot, rfl, isDot⟩ := operator_eq_some dotted
      obtain ⟨name, rfl, isName⟩ := identifier_eq_some named
      obtain ⟨taken, rfl, texts⟩ := ih isMany
      exact ⟨dot :: name :: taken, rfl, by
        rw [List.map_cons, List.map_cons, isDot, isName, texts, List.flatMap_cons]; rfl⟩
  | case3 =>
      obtain ⟨rfl, rfl⟩ := Prod.mk.inj parsed
      exact ⟨[], rfl, rfl⟩

/-- A dotted name that is written without gaps is the dotted name of its parts. -/
theorem text_of_compact {tokens rest : List Token} {extent : Extent} {names : List Identifier}
    (parsed : spanned (separated identifier (operator ".")) tokens =
      some ((extent, names), rest))
    (spaced : ∀ token ∈ tokens, token.Spaced) (compact : Compact extent.text) :
    extent.text = Text.dotted (names.map Identifier.text) := by
  obtain ⟨⟨found, behind⟩, read, whole⟩ := Option.bind_eq_some_iff.mp parsed
  obtain ⟨result, rfl⟩ := Prod.mk.inj (Option.some.inj whole)
  obtain ⟨rfl, rfl⟩ := Prod.mk.inj result
  obtain ⟨⟨name, middle⟩, named, behindFirst⟩ := Option.bind_eq_some_iff.mp read
  have opened : (many (do operator "."; identifier) middle).bind
      (fun more => some (name :: more.1, more.2)) = some (found, behind) := behindFirst
  obtain ⟨⟨members, left⟩, isMany, all⟩ := Option.bind_eq_some_iff.mp opened
  obtain ⟨rfl, rfl⟩ := Prod.mk.inj (Option.some.inj all)
  obtain ⟨first, rfl, isName⟩ := identifier_eq_some named
  obtain ⟨taken, rfl, texts⟩ := texts_of_members (Option.some.inj isMany)
  have text : (extentBetween (first :: (taken ++ left)) left).text =
      Token.join (first :: taken) := text_extentBetween (first :: taken) left
  rw [text] at compact ⊢
  apply String.toList_inj.mp
  calc (Token.join (first :: taken)).toList
      = first.text.toList ++ (taken.map Token.text).flatMap String.toList :=
        Token.toList_join_of_compact (fun token listed => spaced token
          (List.mem_cons_of_mem _ (List.mem_append_left _ listed))) compact
    _ = name.text.toList ++ (members.map Identifier.text).flatMap fun part => '.' :: part.toList := by
        rw [isName, texts, List.flatMap_assoc, List.flatMap_map]
        simp only [List.flatMap_cons, List.flatMap_nil, List.append_nil]
        rfl
    _ = (Text.dotted ((name :: members).map Identifier.text)).toList :=
        (Text.toList_dotted_cons _ _).symm

theorem parallel_dottedName : Parallel true before true room SameDotted dottedName dottedName := by
  have names : Parallel true before true room (fun found matched => found.2 = matched.2)
      (spanned (separated identifier (operator ".")))
      (spanned (separated identifier (operator "."))) :=
    (Parallel.separated (parallel_operator ".") parallel_identifier
      parallel_identifier).spanned.mono fun _ _ each => List.forall₂_eq_eq_eq ▸ each
  intro tokens others layout fits twinFits
  have rel := names tokens others layout fits twinFits
  have opened : ∀ tokens, dottedName tokens =
      (spanned (separated identifier (operator ".")) tokens).bind fun found =>
        some (found.1.1.text, found.2) := fun _ => rfl
  rw [opened, opened]
  cases found : spanned (separated identifier (operator ".")) tokens with
  | none =>
      rw [eq_none_of_rel rel found]
      exact .none
  | some result =>
      obtain ⟨other, matched, beside⟩ := exists_of_rel rel found
      rw [matched]
      refine .some ⟨fun compact otherCompact => ?_, beside.layout, beside.left, beside.right⟩
      calc result.1.1.text
          = Text.dotted (result.1.2.map Identifier.text) :=
            text_of_compact found fits.spaced compact
        _ = Text.dotted (other.1.2.map Identifier.text) := by rw [beside.same]
        _ = other.1.1.text := (text_of_compact matched twinFits.spaced otherCompact).symm

/-! ## Imported names -/

theorem parallel_alternativeName :
    Parallel false before true room Eq alternativeName alternativeName :=
  .ifWord "as" (by decide) room.enters_self (parallel_identifier.bind_eq fun _ => .pure rfl)
    (.pure rfl)

theorem parallel_importedName :
    Parallel true before true room Eq importedName importedName :=
  parallel_identifier.step_eq fun _ => parallel_alternativeName.bind_eq fun _ => .pure rfl

theorem identifier_of_names {token : Token} {name : Identifier} (isName : token.Names name)
    (rest : List Token) : identifier (token :: rest) = some (name, rest) := by
  have passes : (decide (token.kind = .name) && !reservedWords.contains token.text) = true := by
    rw [isName.kind, Bool.and_eq_true, Bool.not_eq_true', List.contains_eq_mem,
      decide_eq_false_iff_not]
    exact ⟨rfl, isName.free⟩
  have taken : satisfy (fun token => decide (token.kind = .name) &&
      !reservedWords.contains token.text) (token :: rest) = some (token, rest) := by
    rw [satisfy, if_pos passes]
  have spelled : Identifier.ofString? token.text = some name := by
    rw [isName.text, Identifier.ofString?, dif_pos name.valid]
  refine Option.bind_eq_some_iff.mpr ⟨_, taken, ?_⟩
  exact Option.map_eq_some_iff.mpr ⟨name, spelled, rfl⟩

theorem importedName_of_written {name : ImportedName} {tokens : List Token}
    (written : name.Written tokens) {rest : List Token}
    (ends : ∀ token ∈ rest.head?, isWord "as" token = false) :
    importedName (tokens ++ rest) = some (name, rest) := by
  cases written with
  | plain isName =>
      refine Option.bind_eq_some_iff.mpr ⟨_, identifier_of_names isName _, ?_⟩
      refine Option.bind_eq_some_iff.mpr ⟨(none, rest), ?_, rfl⟩
      cases rest with
      | nil => exact (takesIf_word? "as").ite_nil _ _
      | cons token rest =>
          refine ((takesIf_word? "as").ite_cons _ _ token rest).trans ?_
          rw [ends token rfl]
          rfl
  | renamed isName isAs isAlternative =>
      refine Option.bind_eq_some_iff.mpr ⟨_, identifier_of_names isName _, ?_⟩
      refine Option.bind_eq_some_iff.mpr ⟨(some _, rest), ?_, rfl⟩
      refine ((takesIf_word? "as").ite_cons _ _ _ _).trans ?_
      rw [if_pos isAs]
      exact Option.bind_eq_some_iff.mpr ⟨_, identifier_of_names isAlternative _, rfl⟩

theorem operator_cons {text : String} {token : Token} (isOp : isOperator text token = true)
    (rest : List Token) : operator text (token :: rest) = some ((), rest) :=
  (take_cons _ token rest).trans (if_pos isOp)

theorem operator_cons_of_false {text : String} {token : Token}
    (isOther : isOperator text token = false) (rest : List Token) :
    operator text (token :: rest) = none :=
  (take_cons _ token rest).trans (if_neg (by rw [isOther]; decide))

/-- Tokens behind a list of names: no further name is read from them, and no alternative of the
last. -/
structure EndsNames (rest : List Token) : Prop where
  noAlternative : ∀ token ∈ rest.head?, isWord "as" token = false
  noFurther : (do operator ","; importedName) rest = none

theorem noFurther_of_other {token : Token} (isOther : isOperator "," token = false)
    (rest : List Token) : (do operator ","; importedName) (token :: rest) = none :=
  Option.bind_eq_none_iff.mpr fun _ taken =>
    absurd ((operator_cons_of_false isOther rest).symm.trans taken) nofun

theorem isOperator_eq_false {text other : String} (differ : text ≠ other) {token : Token}
    (isText : isOperator text token = true) : isOperator other token = false := by
  rw [isOperator, Bool.and_eq_true, beq_iff_eq] at isText
  rw [isOperator, isText.2, beq_eq_false_iff_ne.mpr differ, Bool.and_false]

theorem isOperator_of_name {token : Token} (isName : token.kind = .name) (text : String) :
    isOperator text token = false := by
  rw [isOperator, isName]
  rfl

theorem endsNames_operator {text : String} (noComma : text ≠ ",") {token : Token}
    (isText : isOperator text token = true) (rest : List Token) : EndsNames (token :: rest) where
  noAlternative first isFirst := by
    obtain rfl := Option.some.inj isFirst
    exact isWord_eq_false_of_isOperator isText
  noFurther := noFurther_of_other (isOperator_eq_false noComma isText) rest

theorem endsNames_of_endsStatement {ending : Token} (isEnd : ending.endsStatement = true)
    (rest : List Token) : EndsNames (ending :: rest) := by
  rw [Token.endsStatement, Bool.or_eq_true, decide_eq_true_eq] at isEnd
  rcases isEnd with lineEnd | semicolon
  · refine ⟨?_, noFurther_of_other (by rw [isOperator, lineEnd]; rfl) rest⟩
    intro first isFirst
    obtain rfl := Option.some.inj isFirst
    rw [isWord, lineEnd]
    rfl
  · exact endsNames_operator (by decide) semicolon rest

/-- A comma in front of the closing bracket stands behind the last name. -/
theorem endsNames_trailing {comma closing : Token} (isComma : isOperator "," comma = true)
    (isClosing : isOperator ")" closing = true) (rest : List Token) :
    EndsNames (comma :: closing :: rest) := by
  refine ⟨?_, ?_⟩
  · intro first isFirst
    obtain rfl := Option.some.inj isFirst
    exact isWord_eq_false_of_isOperator isComma
  · -- the comma would be taken, but no name is behind it
    have noName : identifier (closing :: rest) = none := by
      refine Option.bind_eq_none_iff.mpr fun found taken => ?_
      have noKind : decide (closing.kind = .name) = false := by
        rw [isOperator, Bool.and_eq_true, decide_eq_true_eq] at isClosing
        rw [isClosing.1]
        rfl
      rw [satisfy, if_neg (by rw [noKind, Bool.false_and]; decide)] at taken
      simp at taken
    refine Option.bind_eq_none_iff.mpr fun found taken => ?_
    obtain rfl := Option.some.inj ((operator_cons isComma _).symm.trans taken)
    exact Option.bind_eq_none_iff.mpr fun name named => by simp [noName] at named

section

variable {names : List ImportedName} {tokens rest : List Token}

theorem manyFrom_of_listed (listed : NamesListed names tokens) (ends : EndsNames rest)
    {comma : Token} (isComma : isOperator "," comma = true) :
    manyFrom (do operator ","; importedName) (comma :: (tokens ++ rest)) = (names, rest) := by
  have further : ∀ {name : ImportedName} {written behind : List Token} {comma : Token},
      isOperator "," comma = true → name.Written written →
      (∀ token ∈ behind.head?, isWord "as" token = false) →
      (do operator ","; importedName) (comma :: (written ++ behind)) = some (name, behind) :=
    fun isComma written ends => Option.bind_eq_some_iff.mpr
      ⟨_, operator_cons isComma _, importedName_of_written written ends⟩
  have shorter : ∀ (comma : Token) (written behind : List Token),
      behind.length < (comma :: (written ++ behind)).length := by
    intro comma written behind
    rw [List.length_cons, List.length_append]
    omega
  induction listed generalizing comma with
  | last written =>
      rw [manyFrom, further isComma written ends.noAlternative]
      dsimp only
      rw [if_pos (shorter _ _ _), manyFrom, ends.noFurther]
  | more written isNext _ ih =>
      rw [List.append_assoc, List.cons_append, manyFrom, further isComma written (by
        intro token isFirst
        obtain rfl := Option.some.inj isFirst
        exact isWord_eq_false_of_isOperator isNext)]
      dsimp only
      rw [if_pos (shorter _ _ _), ih isNext]

theorem separated_of_listed (listed : NamesListed names tokens) (ends : EndsNames rest) :
    separated importedName (operator ",") (tokens ++ rest) = some (names, rest) := by
  have opened : ∀ {name : ImportedName} {behind left : List Token} {others : List ImportedName},
      importedName (tokens ++ rest) = some (name, behind) →
      manyFrom (do operator ","; importedName) behind = (others, left) →
      separated importedName (operator ",") (tokens ++ rest) = some (name :: others, left) := by
    intro name behind left others first further
    have behindFirst : (many (do operator ","; importedName) behind).bind
        (fun more => some (name :: more.1, more.2)) = some (name :: others, left) := by
      rw [many, further]
      rfl
    exact Option.bind_eq_some_iff.mpr ⟨_, first, behindFirst⟩
  cases listed with
  | last written =>
      refine opened (importedName_of_written written ends.noAlternative) ?_
      rw [manyFrom, ends.noFurther]
  | more written isComma others =>
      refine opened ?_ (manyFrom_of_listed others ends isComma)
      rw [List.append_assoc, List.cons_append]
      refine importedName_of_written written fun token isFirst => ?_
      obtain rfl := Option.some.inj isFirst
      exact isWord_eq_false_of_isOperator isComma

end

/-! ## Import statements -/

/-- What stands behind the `import` of an import from a module. -/
def namesImported (level : Nat) (module : Option String) : Parser SimpleStatement := do
  if ← operator? "*" then return .importFrom level module .all
  else if ← operator? "(" then
    let (names, _) ← commaList importedName
    operator ")"
    return .importFrom level module (.names names)
  else
    let names ← separated importedName (operator ",")
    return .importFrom level module (.names names)

theorem commaList_of_listed {names : List ImportedName} {tokens rest left : List Token}
    (listed : NamesListed names tokens) (ends : EndsNames rest) {trailing : Bool}
    (isTrailing : operator? "," rest = some (trailing, left)) :
    ∃ several, commaList importedName (tokens ++ rest) = some ((names, several), left) := by
  refine ⟨trailing || decide (1 < names.length), ?_⟩
  have behind : (operator? "," rest).bind (fun found =>
      some ((names, found.1 || decide (1 < names.length)), found.2)) =
        some ((names, trailing || decide (1 < names.length)), left) := by
    rw [isTrailing]
    rfl
  exact Option.bind_eq_some_iff.mpr ⟨_, separated_of_listed listed ends, behind⟩

theorem namesImported_of_opening (level : Nat) (module : Option String) {opening closing : Token}
    (isOpening : isOperator "(" opening = true) (isClosing : isOperator ")" closing = true)
    {names : List ImportedName} {several : Bool} {tokens rest : List Token}
    (read : commaList importedName tokens = some ((names, several), closing :: rest)) :
    namesImported level module (opening :: tokens) =
      some (.importFrom level module (.names names), rest) := by
  have noStar : isOperator "*" opening = false := isOperator_eq_false (by decide) isOpening
  refine ((takesIf_operator? "*").ite_cons _ _ _ _).trans ?_
  rw [noStar, if_neg (by decide)]
  refine ((takesIf_operator? "(").ite_cons _ _ _ _).trans ?_
  rw [if_pos isOpening]
  have closed : (operator ")" (closing :: rest)).bind
      (fun found => some (SimpleStatement.importFrom level module (.names names), found.2)) =
        some (.importFrom level module (.names names), rest) := by
    rw [operator_cons isClosing]
    rfl
  exact Option.bind_eq_some_iff.mpr ⟨_, read, closed⟩

/-- With brackets or without, the names that are written are read. -/
theorem namesImported_of_written (level : Nat) (module : Option String)
    {names : List ImportedName} {written rest : List Token} (isWritten : NamesWritten names written)
    (ends : EndsNames rest) :
    namesImported level module (written ++ rest) =
      some (.importFrom level module (.names names), rest) := by
  cases isWritten with
  | bare listed =>
      obtain ⟨first, behind, same, isName⟩ := listed.begins
      have read := separated_of_listed listed ends
      rw [same, List.cons_append] at read ⊢
      refine ((takesIf_operator? "*").ite_cons _ _ _ _).trans ?_
      rw [isOperator_of_name isName, if_neg (by decide)]
      refine ((takesIf_operator? "(").ite_cons _ _ _ _).trans ?_
      rw [isOperator_of_name isName, if_neg (by decide)]
      exact Option.bind_eq_some_iff.mpr ⟨_, read, rfl⟩
  | @bracketed tokens opening closing isOpening listed isClosing =>
      have noComma : operator? "," (closing :: rest) = some (false, closing :: rest) := by
        have isOther : isOperator "," closing = false := isOperator_eq_false (by decide) isClosing
        rw [takesIf_operator? "," (closing :: rest)]
        dsimp only
        rw [isOther, if_neg (by decide)]
      obtain ⟨several, read⟩ :=
        commaList_of_listed listed (endsNames_operator (by decide) isClosing rest) noComma
      have same : opening :: (tokens ++ [closing]) ++ rest =
          opening :: (tokens ++ closing :: rest) := by
        rw [List.cons_append, List.append_assoc, List.singleton_append]
      rw [same]
      exact namesImported_of_opening level module isOpening isClosing read
  | @trailed tokens opening comma closing isOpening listed isComma isClosing =>
      have takesComma : operator? "," (comma :: closing :: rest) = some (true, closing :: rest) := by
        rw [takesIf_operator? "," (comma :: closing :: rest)]
        dsimp only
        rw [if_pos isComma]
      obtain ⟨several, read⟩ :=
        commaList_of_listed listed (endsNames_trailing isComma isClosing rest) takesComma
      have same : opening :: (tokens ++ [comma, closing]) ++ rest =
          opening :: (tokens ++ comma :: closing :: rest) := by
        rw [List.cons_append, List.append_assoc]
        rfl
      rw [same]
      exact namesImported_of_opening level module isOpening isClosing read

theorem parallel_namesImported (level : Nat) {module other : Option String}
    (same : Option.Rel SameDotted module other) :
    Parallel true before true room SimpleStatement.Same (namesImported level module)
      (namesImported level other) := by
  refine .ifOperator "*" room.enters_self (.pure (.source level same .all)) <|
    .ifOperator "(" room.enters_self ?_ ?_
  · refine (Parallel.commaList parallel_importedName parallel_importedName).bind ?_
    rintro ⟨names, several⟩ ⟨others, otherSeveral⟩ ⟨each, _⟩
    obtain rfl : names = others := List.forall₂_eq_eq_eq ▸ each
    exact (parallel_operator ")").bind_eq fun _ => .pure (.source level same _)
  · refine (Parallel.separated (parallel_operator ",") parallel_importedName
      parallel_importedName).step fun names others each => ?_
    obtain rfl : names = others := List.forall₂_eq_eq_eq ▸ each
    exact .pure (.source level same _)

/-- Behind the source of an import both parsers read the same names, with brackets or without. -/
theorem parallel_importNames (level : Nat) {module other : Option String}
    (same : Option.Rel SameDotted module other) :
    Parallel true true true room SimpleStatement.Same
      (do word "import"; namesImported level module)
      (do word "import"; namesImported level other) := by
  have taken : ∀ (module : Option String) (token : Token) (rest : List Token),
      (do word "import"; namesImported level module) (token :: rest) =
        if isWord "import" token = true then namesImported level module rest else none := by
    intro module token rest
    refine (congrArg (Option.bind · fun found => namesImported level module found.2)
      (take_cons (isWord "import") token rest)).trans ?_
    by_cases isImport : isWord "import" token = true
    · rw [if_pos isImport, if_pos isImport]
      rfl
    · rw [if_neg isImport, if_neg isImport]
      rfl
  intro tokens others layout fits twinFits
  cases layout with
  | nil => exact .none
  | @token _ token otherToken tokens others alike rest =>
      rw [taken, taken, ← alike.isWord]
      by_cases isImport : isWord "import" token = true
      · rw [if_pos isImport, if_pos isImport]
        have left : Leaves true (token :: tokens) tokens := .cons token tokens
        have right : Leaves true (otherToken :: others) others := .cons otherToken others
        refine rel_mono (parallel_namesImported level same _ _ rest.loosen (fits.of_leaves left)
          (twinFits.of_leaves right)) fun _ _ beside => ?_
        exact ⟨beside.same, beside.layout, left.trans beside.left, right.trans beside.right⟩
      · rw [if_neg isImport, if_neg isImport]
        exact .none
  | @imported word otherWord ending otherEnding names written otherWritten tokens others isImport
      isOtherImport isWritten isOtherWritten isEnd rest =>
      -- the only place where brackets may differ: both sides read the names that are written
      have isOtherEnd : otherEnding.endsStatement = true := rest.head.endsStatement ▸ isEnd
      rw [taken, taken, if_pos isImport, if_pos isOtherImport,
        namesImported_of_written level module isWritten (endsNames_of_endsStatement isEnd tokens),
        namesImported_of_written level other isOtherWritten
          (endsNames_of_endsStatement isOtherEnd others)]
      have leaves : ∀ (word : Token) (written rest : List Token),
          Leaves true (word :: (written ++ rest)) rest := fun word written rest =>
        ⟨(List.suffix_append written rest).trans (List.suffix_cons word _), fun _ => by
          rw [List.length_cons, List.length_append]
          omega⟩
      exact .some ⟨.source level same _, rest.loosen, leaves _ _ _, leaves _ _ _⟩

theorem parallel_importModules :
    Parallel true false true room SimpleStatement.Same importModules importModules := by
  have named : ∀ {before : Bool}, Parallel true before true room ImportedName.Same
      (do
        let name ← dottedName
        let alternative ← alternativeName
        return (⟨name, alternative⟩ : ImportedName))
      (do
        let name ← dottedName
        let alternative ← alternativeName
        return (⟨name, alternative⟩ : ImportedName)) :=
    parallel_dottedName.step fun _ _ same => parallel_alternativeName.bind_eq fun _ =>
      .pure ⟨same, rfl⟩
  exact parallel_import.step_eq fun _ =>
    (Parallel.separated (parallel_operator ",") named named).bind fun _ _ each =>
    .pure (.modules each)

theorem parallel_importLevel : Parallel false true true room Eq importLevel importLevel :=
  (Parallel.many (parallel_oneOf _)).bind fun dots others each => by
    obtain rfl : dots = others := List.forall₂_eq_eq_eq ▸ each
    exact .pure rfl

theorem parallel_importFrom :
    Parallel true before true room SimpleStatement.Same importFrom importFrom :=
  (parallel_word "from" (by decide)).step_eq fun _ => parallel_importLevel.bind_eq fun level =>
    (parallel_aheadWord "import").bind_eq fun _ => .ite
      ((parallel_guard_self _).bind_eq fun _ =>
        Parallel.bind (.pure .none) fun _ _ same => (parallel_importNames level same).weaken)
      (parallel_dottedName.bind fun _ _ same =>
        Parallel.bind (.pure (.some same)) fun _ _ same => (parallel_importNames level same).weaken)

end ExprGrammar

end Syntax

end TypeCatalog
