import Mathlib.Data.List.Forall2
import Mathlib.Data.Option.Basic
import TypeCatalog.Proofs.ParserWidths
import TypeCatalog.Proofs.TokenLayouts

/-! # Parsers of tokens in different layouts

Two parsers are parallel (`TypeCatalog.Syntax.Parser.Parallel`) when on tokens of the same layout
they both fail, or both succeed with results that are related and leave tokens of the same layout
again. The property passes from the parts of a parser to the whole. Since brackets around imported
names are tokens too, a parser and its twin may be given lists of different lengths; how long each
list may be is said by a `Room`, which is smaller behind a token.
-/

namespace TypeCatalog.Syntax.Parser

variable {α β : Type}

/-! ## What parsers are given and leave -/

/-- How many tokens two parsers may be given. -/
structure Room where
  left : Nat
  right : Nat

namespace Room

/-- The room in front of a token. -/
def grow (room : Room) : Room := ⟨room.left + 1, room.right + 1⟩

/-- Behind a token of one room the other has room enough. -/
structure Enters (room inner : Room) : Prop where
  left : room.left ≤ inner.left + 1
  right : room.right ≤ inner.right + 1

theorem enters_self (room : Room) : room.Enters room := ⟨Nat.le_succ _, Nat.le_succ _⟩

theorem enters_grow (room : Room) : room.grow.Enters room := ⟨Nat.le_refl _, Nat.le_refl _⟩

end Room

/-- Tokens that a parser may be given. -/
structure Fits (bound : Nat) (tokens : List Token) : Prop where
  short : tokens.length ≤ bound
  spaced : ∀ token ∈ tokens, token.Spaced

/-- What a parser leaves ends the tokens that it is given, and is shorter if it takes any. -/
structure Leaves (strict : Bool) (tokens rest : List Token) : Prop where
  suffix : rest <:+ tokens
  shorter : strict = true → rest.length < tokens.length

namespace Leaves

variable {strict : Bool} {tokens rest left : List Token}

theorem refl (tokens : List Token) : Leaves false tokens tokens := ⟨List.suffix_rfl, nofun⟩

theorem cons (token : Token) (rest : List Token) : Leaves strict (token :: rest) rest :=
  ⟨List.suffix_cons token rest, fun _ => Nat.lt_succ_self _⟩

theorem behind {front : Bool} (first : Leaves front tokens rest) (second : Leaves strict rest left) :
    Leaves strict tokens left :=
  ⟨second.suffix.trans first.suffix, fun takes =>
    Nat.lt_of_lt_of_le (second.shorter takes) first.suffix.length_le⟩

theorem before {back : Bool} (first : Leaves true tokens rest) (second : Leaves back rest left) :
    Leaves strict tokens left :=
  ⟨second.suffix.trans first.suffix, fun _ =>
    Nat.lt_of_le_of_lt second.suffix.length_le (first.shorter rfl)⟩

theorem trans {back : Bool} (first : Leaves strict tokens rest) (second : Leaves back rest left) :
    Leaves strict tokens left :=
  ⟨second.suffix.trans first.suffix, fun takes =>
    Nat.lt_of_le_of_lt second.suffix.length_le (first.shorter takes)⟩

theorem weaken (leaves : Leaves strict tokens rest) : Leaves false tokens rest :=
  ⟨leaves.suffix, nofun⟩

end Leaves

namespace Fits

variable {bound inner : Nat} {tokens rest : List Token}

theorem of_leaves {strict : Bool} (fits : Fits bound tokens) (leaves : Leaves strict tokens rest) :
    Fits bound rest :=
  ⟨Nat.le_trans leaves.suffix.length_le fits.short, fun token listed =>
    fits.spaced token (leaves.suffix.subset listed)⟩

theorem enter (fits : Fits bound tokens) (leaves : Leaves true tokens rest)
    (enters : bound ≤ inner + 1) : Fits inner rest :=
  ⟨Nat.le_of_lt_succ (Nat.lt_of_lt_of_le (leaves.shorter rfl) (Nat.le_trans fits.short enters)),
    (fits.of_leaves leaves).spaced⟩

theorem mono (fits : Fits inner tokens) (wider : inner ≤ bound) : Fits bound tokens :=
  ⟨Nat.le_trans fits.short wider, fits.spaced⟩

end Fits

/-! ## Parallel parsers -/

/-- What two parsers find: related results, and tokens of the same layout that are left. -/
structure Beside (strict after : Bool) (same : α → α → Prop) (tokens others : List Token)
    (found matched : α × List Token) : Prop where
  same : same found.1 matched.1
  layout : Layout after found.2 matched.2
  left : Leaves strict tokens found.2
  right : Leaves strict others matched.2

/-- On tokens of the same layout two parsers both fail or both find the same. The flags say whether
they take tokens, and whether a source of imports may end before and behind what they read. -/
def Parallel (strict before after : Bool) (room : Room) (same : α → α → Prop)
    (parser twin : Parser α) : Prop :=
  ∀ tokens others, Layout before tokens others → Fits room.left tokens →
    Fits room.right others →
    Option.Rel (Beside strict after same tokens others) (parser tokens) (twin others)

variable {strict before mid after : Bool} {room inner : Room} {same : α → α → Prop}
  {parser twin : Parser α} {next twinNext : α → Parser β} {finally_ : β → β → Prop}

theorem rel_bind {γ δ : Type} {related : γ → γ → Prop} {final : δ → δ → Prop}
    {found matched : Option γ} {further furtherTwin : γ → Option δ}
    (first : Option.Rel related found matched)
    (second : ∀ result other, related result other →
      Option.Rel final (further result) (furtherTwin other)) :
    Option.Rel final (found.bind further) (matched.bind furtherTwin) := by
  cases first with
  | none => exact .none
  | some isRelated => exact second _ _ isRelated

theorem rel_mono {γ : Type} {related weaker : γ → γ → Prop} {found matched : Option γ}
    (rel : Option.Rel related found matched)
    (implied : ∀ result other, related result other → weaker result other) :
    Option.Rel weaker found matched := by
  cases rel with
  | none => exact .none
  | some isRelated => exact .some (implied _ _ isRelated)

theorem eq_none_of_rel {γ : Type} {related : γ → γ → Prop} {found matched : Option γ}
    (rel : Option.Rel related found matched) (isNone : found = none) : matched = none := by
  subst isNone
  cases rel
  rfl

theorem exists_of_rel {γ : Type} {related : γ → γ → Prop} {found matched : Option γ} {result : γ}
    (rel : Option.Rel related found matched) (isFound : found = some result) :
    ∃ other, matched = some other ∧ related result other := by
  subst isFound
  cases rel with
  | some isRelated => exact ⟨_, rfl, isRelated⟩

namespace Parallel

theorem pure_here {result matched : α} (isSame : same result matched) :
    Parallel false before before room same (Pure.pure result) (Pure.pure matched) :=
  fun tokens others layout _ _ => .some ⟨isSame, layout, .refl tokens, .refl others⟩

theorem pure {result matched : α} (isSame : same result matched) :
    Parallel false before true room same (Pure.pure result) (Pure.pure matched) :=
  fun tokens others layout _ _ => .some ⟨isSame, layout.loosen, .refl tokens, .refl others⟩

theorem failure :
    Parallel strict before after room same Alternative.failure Alternative.failure :=
  fun _ _ _ _ _ => .none

/-- What is read behind something. -/
theorem bind {front : Bool} (first : Parallel front before mid room same parser twin)
    (second : ∀ result matched, same result matched →
      Parallel strict mid after room finally_ (next result) (twinNext matched)) :
    Parallel strict before after room finally_ (parser >>= next) (twin >>= twinNext) := by
  intro tokens others layout fits twinFits
  refine rel_bind (first _ _ layout fits twinFits) fun found matched beside => ?_
  refine rel_mono (second _ _ beside.same _ _ beside.layout (fits.of_leaves beside.left)
    (twinFits.of_leaves beside.right)) fun _ _ behind => ?_
  exact ⟨behind.same, behind.layout, beside.left.behind behind.left,
    beside.right.behind behind.right⟩

/-- What begins by taking tokens takes tokens. -/
theorem lead (first : Parallel strict before mid room same parser twin)
    (second : ∀ result matched, same result matched →
      Parallel false mid after room finally_ (next result) (twinNext matched)) :
    Parallel strict before after room finally_ (parser >>= next) (twin >>= twinNext) := by
  intro tokens others layout fits twinFits
  refine rel_bind (first _ _ layout fits twinFits) fun found matched beside => ?_
  refine rel_mono (second _ _ beside.same _ _ beside.layout (fits.of_leaves beside.left)
    (twinFits.of_leaves beside.right)) fun _ _ behind => ?_
  exact ⟨behind.same, behind.layout, beside.left.trans behind.left,
    beside.right.trans behind.right⟩

/-- What is read behind a token, in the room that is left there. -/
theorem bindIn (enters : room.Enters inner)
    (first : Parallel true before mid room same parser twin)
    (second : ∀ result matched, same result matched →
      Parallel false mid after inner finally_ (next result) (twinNext matched)) :
    Parallel strict before after room finally_ (parser >>= next) (twin >>= twinNext) := by
  intro tokens others layout fits twinFits
  refine rel_bind (first _ _ layout fits twinFits) fun found matched beside => ?_
  refine rel_mono (second _ _ beside.same _ _ beside.layout (fits.enter beside.left enters.left)
    (twinFits.enter beside.right enters.right)) fun _ _ behind => ?_
  exact ⟨behind.same, behind.layout, beside.left.before behind.left,
    beside.right.before behind.right⟩

theorem step (first : Parallel true before mid room same parser twin)
    (second : ∀ result matched, same result matched →
      Parallel false mid after room finally_ (next result) (twinNext matched)) :
    Parallel strict before after room finally_ (parser >>= next) (twin >>= twinNext) :=
  bindIn room.enters_self first second

theorem enter (first : Parallel true before mid room.grow same parser twin)
    (second : ∀ result matched, same result matched →
      Parallel false mid after room finally_ (next result) (twinNext matched)) :
    Parallel strict before after room.grow finally_ (parser >>= next) (twin >>= twinNext) :=
  bindIn room.enters_grow first second

theorem bind_eq {front : Bool} (first : Parallel front before mid room Eq parser twin)
    (second : ∀ result,
      Parallel strict mid after room finally_ (next result) (twinNext result)) :
    Parallel strict before after room finally_ (parser >>= next) (twin >>= twinNext) :=
  first.bind fun result _ isSame => by
    subst isSame
    exact second result

theorem step_eq (first : Parallel true before mid room Eq parser twin)
    (second : ∀ result,
      Parallel false mid after room finally_ (next result) (twinNext result)) :
    Parallel strict before after room finally_ (parser >>= next) (twin >>= twinNext) :=
  first.step fun result _ isSame => by
    subst isSame
    exact second result

theorem enter_eq (first : Parallel true before mid room.grow Eq parser twin)
    (second : ∀ result,
      Parallel false mid after room finally_ (next result) (twinNext result)) :
    Parallel strict before after room.grow finally_ (parser >>= next) (twin >>= twinNext) :=
  first.enter fun result _ isSame => by
    subst isSame
    exact second result

theorem ite_iff {other twinOther : Parser α} {condition twinCondition : Prop}
    [Decidable condition] [Decidable twinCondition] (agree : condition ↔ twinCondition)
    (first : Parallel strict before after room same parser twin)
    (second : Parallel strict before after room same other twinOther) :
    Parallel strict before after room same (if condition then parser else other)
      (if twinCondition then twin else twinOther) := by
  by_cases holds : condition
  · rwa [if_pos holds, if_pos (agree.mp holds)]
  · rwa [if_neg holds, if_neg fun twinHolds => holds (agree.mpr twinHolds)]

theorem ite {other twinOther : Parser α} {condition : Prop} [Decidable condition]
    (first : Parallel strict before after room same parser twin)
    (second : Parallel strict before after room same other twinOther) :
    Parallel strict before after room same (if condition then parser else other)
      (if condition then twin else twinOther) :=
  ite_iff Iff.rfl first second

theorem orElse {other twinOther : Parser α}
    (first : Parallel strict before after room same parser twin)
    (second : Parallel strict before after room same other twinOther) :
    Parallel strict before after room same (parser <|> other) (twin <|> twinOther) := by
  intro tokens others layout fits twinFits
  have chosen : (parser <|> other) tokens = (parser tokens <|> other tokens) := rfl
  have twinChosen : (twin <|> twinOther) others = (twin others <|> twinOther others) := rfl
  rw [chosen, twinChosen]
  have rel := first _ _ layout fits twinFits
  -- the first parsers fail together, so both sides take the same alternative
  cases found : parser tokens with
  | none =>
      rw [eq_none_of_rel rel found]
      exact second _ _ layout fits twinFits
  | some result =>
      obtain ⟨other, matched, beside⟩ := exists_of_rel rel found
      rw [matched]
      exact .some beside

theorem mono {weaker : α → α → Prop} (parallel : Parallel strict before after room same parser twin)
    (implied : ∀ result matched, same result matched → weaker result matched) :
    Parallel strict before after room weaker parser twin :=
  fun _ _ layout fits twinFits => rel_mono (parallel _ _ layout fits twinFits) fun _ _ beside =>
    ⟨implied _ _ beside.same, beside.layout, beside.left, beside.right⟩

/-- That a parser takes tokens may be forgotten. -/
theorem weaken (parallel : Parallel strict before after room same parser twin) :
    Parallel false before after room same parser twin :=
  fun _ _ layout fits twinFits => rel_mono (parallel _ _ layout fits twinFits) fun _ _ beside =>
    ⟨beside.same, beside.layout, beside.left.weaken, beside.right.weaken⟩

/-- Behind what is read a source of imports may end. -/
theorem loosen (parallel : Parallel strict before after room same parser twin) :
    Parallel strict before true room same parser twin :=
  fun _ _ layout fits twinFits => rel_mono (parallel _ _ layout fits twinFits) fun _ _ beside =>
    ⟨beside.same, beside.layout.loosen, beside.left, beside.right⟩

/-- Parsers that are parallel in a room are so in a smaller one. -/
theorem narrow (parallel : Parallel strict before after room same parser twin)
    (left : inner.left ≤ room.left) (right : inner.right ≤ room.right) :
    Parallel strict before after inner same parser twin :=
  fun _ _ layout fits twinFits => parallel _ _ layout (fits.mono left) (twinFits.mono right)

/-- Where one of two parsers may be given no tokens, it is enough that both fail without any. -/
theorem of_noTokens (fails : parser [] = none) (twinFails : twin [] = none)
    (noTokens : room.left = 0 ∨ room.right = 0) :
    Parallel strict before after room same parser twin := by
  intro tokens others layout fits twinFits
  -- tokens of the same layout are none on both sides or on neither
  have empty : tokens = [] ∧ others = [] := by
    rcases layout.heads with both | ⟨first, rest, second, further, rfl, rfl, _⟩
    · exact both
    · have short := fits.short
      have twinShort := twinFits.short
      rw [List.length_cons] at short twinShort
      omega
  rw [empty.1, empty.2, fails, twinFails]
  exact .none

/-- Parsers that look at the tokens and take none. -/
theorem of_state {results : List Token → α}
    (stays : ∀ tokens, parser tokens = some (results tokens, tokens))
    (agree : ∀ tokens others, Layout before tokens others →
      same (results tokens) (results others)) :
    Parallel false before before room same parser parser := by
  intro tokens others layout _ _
  rw [stays, stays]
  exact .some ⟨agree tokens others layout, layout, .refl tokens, .refl others⟩

end Parallel

/-! ## Tokens -/

/-- A test of a token that does not look at its layout. -/
def Agrees (test : Token → Bool) : Prop :=
  ∀ ⦃token other⦄, Token.Alike token other → test token = test other

theorem agrees_isOperator (text : String) : Agrees (isOperator text) :=
  fun _ _ alike => alike.isOperator text

theorem agrees_isWord (text : String) : Agrees (isWord text) := fun _ _ alike => alike.isWord text

theorem agrees_kind (kind : TokenKind) : Agrees fun token => decide (token.kind = kind) :=
  fun _ _ alike => congrArg (fun found => decide (found = kind)) alike.kind

/-- A test of a name. -/
theorem agrees_name (property : String → Bool) :
    Agrees fun token => decide (token.kind = .name) && property token.text := by
  intro token other alike
  dsimp only
  rw [← alike.kind]
  by_cases isName : token.kind = .name
  · rw [alike.text_eq (by rw [isName]; decide)]
  · simp [isName]

/-- Taking a token that passes a test. An `import` is taken only where no source of imports ends. -/
theorem parallel_satisfy {test : Token → Bool} (agrees : Agrees test)
    (passing : ∀ token, test token = true → (before = true → isWord "import" token = false) ∧
      (token.endsSource = true → after = true)) :
    Parallel true before after room (fun token other => token.Alike other ∧ test token = true)
      (satisfy test) (satisfy test) := by
  intro tokens others layout _ _
  match tokens, others, layout with
  | [], [], _ => exact .none
  | token :: tokens, other :: others, layout =>
      rw [satisfy, satisfy, ← agrees layout.head]
      by_cases passes : test token = true
      · obtain ⟨noImport, ends⟩ := passing token passes
        rw [if_pos passes, if_pos passes]
        have rest : Layout token.endsSource tokens others := by
          cases before with
          | false => exact layout.tail_of_false
          | true => exact layout.tail (noImport rfl)
        exact .some ⟨⟨layout.head, passes⟩, rest.mono ends, .cons token tokens, .cons other others⟩
      · rw [if_neg passes, if_neg passes]
        exact .none

theorem isWord_eq_false_of_isOperator {text word : String} {token : Token}
    (isOp : isOperator text token = true) : isWord word token = false := by
  rw [isOperator, Bool.and_eq_true, decide_eq_true_eq] at isOp
  rw [isWord, isOp.1]
  rfl

theorem isWord_eq_false {text word : String} (differ : text ≠ word) {token : Token}
    (isText : isWord text token = true) : isWord word token = false := by
  rw [isWord, Bool.and_eq_true, beq_iff_eq] at isText
  rw [isWord, isText.2, beq_eq_false_iff_ne.mpr differ, Bool.and_false]

theorem endsSource_eq_false {text : String} (noDot : text ≠ ".") (noDots : text ≠ "...")
    {token : Token} (isOp : isOperator text token = true) : token.endsSource = false := by
  rw [isOperator, Bool.and_eq_true, decide_eq_true_eq, beq_iff_eq] at isOp
  rw [Token.endsSource, isOperator, isOperator, isOp.1, isOp.2, beq_eq_false_iff_ne.mpr noDot,
    beq_eq_false_iff_ne.mpr noDots]
  rfl

theorem parallel_operator (text : String) :
    Parallel true before true room Eq (operator text) (operator text) :=
  (parallel_satisfy (agrees_isOperator text) fun _ isOp =>
    ⟨fun _ => isWord_eq_false_of_isOperator isOp, fun _ => rfl⟩).step fun _ _ _ => .pure rfl

/-- Taking an operator that ends no source of imports. -/
theorem parallel_mark (text : String) (noDot : text ≠ "." ∧ text ≠ "...") :
    Parallel true before false room Eq (operator text) (operator text) := by
  refine (parallel_satisfy (agrees_isOperator text) fun token isOp => ⟨?_, ?_⟩).step
    fun _ _ _ => .pure_here rfl
  · exact fun _ => isWord_eq_false_of_isOperator isOp
  · intro ends
    exact absurd (ends.symm.trans (endsSource_eq_false noDot.1 noDot.2 isOp)) (by decide)

theorem parallel_word (text : String) (noImport : text ≠ "import") :
    Parallel true before true room Eq (word text) (word text) :=
  (parallel_satisfy (agrees_isWord text) fun _ isText =>
    ⟨fun _ => isWord_eq_false noImport isText, fun _ => rfl⟩).step fun _ _ _ => .pure rfl

/-- Taking an `import` that begins a statement. -/
theorem parallel_import :
    Parallel true false true room Eq (word "import") (word "import") :=
  (parallel_satisfy (agrees_isWord "import") fun _ _ =>
    ⟨fun behind => absurd behind (by decide), fun _ => rfl⟩).step fun _ _ _ => .pure rfl

theorem parallel_ofKind (kind : TokenKind) (other : kind ≠ .name ∧ kind ≠ .operator) :
    Parallel true before false room (fun token other => token.Alike other ∧ token.kind = kind)
      (ofKind kind) (ofKind kind) := by
  refine (parallel_satisfy (agrees_kind kind) fun token isKind => ?_).mono
    fun token other found => ⟨found.1, of_decide_eq_true found.2⟩
  rw [decide_eq_true_eq] at isKind
  have noName : decide (token.kind = .name) = false := by simp [isKind, other.1]
  have noOperator : decide (token.kind = .operator) = false := by simp [isKind, other.2]
  refine ⟨fun _ => ?_, ?_⟩
  · rw [isWord, noName, Bool.false_and]
  · intro ends
    rw [Token.endsSource, isOperator, isOperator, noName, noOperator] at ends
    exact absurd ends (by simp)

theorem parallel_ahead {test : Token → Bool} (agrees : Agrees test) :
    Parallel false before before room Eq (ahead test) (ahead test) := by
  refine .of_state (fun _ => rfl) fun tokens others layout => ?_
  match tokens, others, layout with
  | [], [], _ => rfl
  | token :: _, other :: _, layout => exact agrees layout.head

theorem parallel_aheadOperator (text : String) :
    Parallel false before before room Eq (ahead (isOperator text)) (ahead (isOperator text)) :=
  parallel_ahead (agrees_isOperator text)

theorem parallel_aheadWord (text : String) :
    Parallel false before before room Eq (ahead (isWord text)) (ahead (isWord text)) :=
  parallel_ahead (agrees_isWord text)

theorem parallel_peek? :
    Parallel false before before room (Option.Rel Token.Alike) peek? peek? := by
  refine .of_state (fun _ => rfl) fun tokens others layout => ?_
  match tokens, others, layout with
  | [], [], _ => exact .none
  | token :: _, other :: _, layout => exact .some layout.head

/-- Looking at two tokens. Of an `import` and the names behind it, no test may hold. -/
theorem parallel_lookahead (test : Token → Token → Bool)
    (agrees : ∀ ⦃first other second further⦄, Token.Alike first other →
      Token.Alike second further → test first second = test other further)
    (atImport : ∀ word second, isWord "import" word = true →
      (second.kind = .name ∨ isOperator "(" second = true) → test word second = false) :
    let look : List Token → Bool := fun tokens => match tokens with
      | first :: second :: _ => test first second
      | _ => false
    Parallel false before before room Eq (fun tokens => some (look tokens, tokens))
      (fun tokens => some (look tokens, tokens)) := by
  intro look
  refine .of_state (fun _ => rfl) fun tokens others layout => ?_
  cases layout with
  | nil => rfl
  | token _ alike rest =>
      rcases rest.heads with ⟨rfl, rfl⟩ | ⟨second, _, further, _, rfl, rfl, secondAlike⟩
      · rfl
      · exact agrees alike secondAlike
  | imported isImport isOtherImport isWritten isOtherWritten =>
      -- what is behind may differ in brackets, but of neither spelling does the test hold
      obtain ⟨first, rest, rfl, begins⟩ := isWritten.begins
      obtain ⟨other, further, rfl, otherBegins⟩ := isOtherWritten.begins
      exact (atImport _ _ isImport begins).trans (atImport _ _ isOtherImport otherBegins).symm

theorem parallel_get :
    Parallel false before before room (fun _ _ => True) (get : Parser (List Token)) get :=
  .of_state (fun _ => rfl) fun _ _ _ => trivial

theorem parallel_ofOption (value : Option α) :
    Parallel false before before room Eq (ofOption value) (ofOption value) := by
  intro tokens others layout _ _
  cases value with
  | none => exact .none
  | some value => exact .some ⟨rfl, layout, .refl tokens, .refl others⟩

theorem parallel_guard {condition other : Prop} [Decidable condition] [Decidable other]
    (agree : condition ↔ other) :
    Parallel false before before room Eq (guard condition) (guard other) := by
  by_cases holds : condition
  · rw [guard, guard, if_pos holds, if_pos (agree.mp holds)]
    exact .pure_here rfl
  · rw [guard, guard, if_neg holds, if_neg fun otherHolds => holds (agree.mpr otherHolds)]
    exact .failure

theorem parallel_guard_self (condition : Prop) [Decidable condition] :
    Parallel false before before room Eq (guard condition : Parser Unit) (guard condition) :=
  parallel_guard Iff.rfl

/-- Taking a token by its text alone. -/
theorem parallel_satisfyText (property : String → Bool) (noImport : property "import" = false)
    (ofEnds : Bool) (constant : ∀ text ∈ Token.lineEndTexts, property text = ofEnds) :
    Parallel true before true room Token.Alike (satisfy fun token => property token.text)
      (satisfy fun token => property token.text) := by
  have agrees : Agrees fun token => property token.text := fun _ _ alike =>
    alike.congr_text property ofEnds constant
  refine (parallel_satisfy agrees fun token passes => ⟨fun _ => ?_, fun _ => rfl⟩).mono
    fun _ _ found => found.1
  rw [isWord, Bool.and_eq_false_iff, beq_eq_false_iff_ne]
  right
  intro isImport
  rw [isImport, noImport] at passes
  exact absurd passes (by decide)

/-- Taking a name with a property that `import` does not have. -/
theorem parallel_satisfyName (property : String → Bool) (noImport : property "import" = false) :
    Parallel true before true room (fun token other => token.text = other.text)
      (satisfy fun token => decide (token.kind = .name) && property token.text)
      (satisfy fun token => decide (token.kind = .name) && property token.text) := by
  refine (parallel_satisfy (agrees_name property) fun token passes =>
    ⟨fun _ => ?_, fun _ => rfl⟩).mono fun token other found => ?_
  · rw [Bool.and_eq_true] at passes
    rw [isWord, Bool.and_eq_false_iff, beq_eq_false_iff_ne]
    right
    intro isImport
    rw [isImport, noImport] at passes
    exact absurd passes.2 (by decide)
  · obtain ⟨alike, passes⟩ := found
    rw [Bool.and_eq_true, decide_eq_true_eq] at passes
    exact alike.text_eq (by rw [passes.1]; decide)

theorem parallel_identifier : Parallel true before true room Eq identifier identifier :=
  (parallel_satisfyName (fun text => !reservedWords.contains text) (by decide)).step
    fun token other isSame => by
      rw [isSame]
      exact parallel_ofOption _

/-- Taking a token that passes a test, and nothing else. -/
theorem take_cons (test : Token → Bool) (token : Token) (rest : List Token) :
    (do let _ ← satisfy test : Parser Unit) (token :: rest) =
      if test token = true then some ((), rest) else none := by
  by_cases passes : test token = true
  · rw [if_pos passes]
    refine Option.bind_eq_some_iff.mpr ⟨(token, rest), ?_, rfl⟩
    rw [satisfy, if_pos passes]
  · rw [if_neg passes]
    refine Option.bind_eq_none_iff.mpr fun _ taken => ?_
    rw [satisfy, if_neg passes] at taken
    exact absurd taken nofun

/-! ## Tokens that may be there -/

/-- A parser that takes the next token if it passes a test, and says whether it does. -/
def TakesIf (test : Token → Bool) (parser : Parser Bool) : Prop :=
  ∀ tokens, parser tokens = some (match tokens with
    | token :: rest => if test token then (true, rest) else (false, token :: rest)
    | [] => (false, []))

theorem takesIf_of {test : Token → Bool} {take : Parser Unit}
    (isTake : take = do let _ ← satisfy test) :
    TakesIf test (do if ← ahead test then take; return true else return false) := by
  subst isTake
  intro tokens
  cases tokens with
  | nil => rfl
  | cons token rest =>
      refine (?_ : (if test token = true then
        (do (do let _ ← satisfy test); return true : Parser Bool) else return false)
          (token :: rest) = _)
      dsimp only
      by_cases passes : test token = true
      · rw [if_pos passes, if_pos passes]
        exact congrArg (Option.bind · fun found => some (true, found.2))
          ((take_cons test token rest).trans (if_pos passes))
      · rw [if_neg passes, if_neg passes]
        rfl

theorem takesIf_operator? (text : String) : TakesIf (isOperator text) (operator? text) :=
  takesIf_of rfl

theorem takesIf_word? (text : String) : TakesIf (isWord text) (word? text) := takesIf_of rfl

namespace TakesIf

variable {test : Token → Bool} {taking : Parser Bool}

theorem ite_nil (takes : TakesIf test taking) (inside outside : Parser α) :
    (do if ← taking then inside else outside) [] = outside [] :=
  congrArg (Option.bind · _) (takes [])

theorem ite_cons (takes : TakesIf test taking) (inside outside : Parser α) (token : Token)
    (rest : List Token) : (do if ← taking then inside else outside) (token :: rest) =
      if test token then inside rest else outside (token :: rest) := by
  refine (congrArg (Option.bind · _) (takes (token :: rest))).trans ?_
  dsimp only
  by_cases passes : test token = true
  · rw [if_pos passes, if_pos passes]
    rfl
  · rw [if_neg passes, if_neg passes]
    rfl

end TakesIf

namespace Parallel

/-- Two ways to go on, of which one is behind a token that may be there. -/
theorem ifTaken {test : Token → Bool} {taking : Parser Bool} (takes : TakesIf test taking)
    (agrees : Agrees test)
    (noImport : ∀ token, test token = true → isWord "import" token = false)
    (enters : room.Enters inner) {inside insideTwin outside outsideTwin : Parser α}
    (behind : Parallel false true after inner same inside insideTwin)
    (otherwise : Parallel strict before after room same outside outsideTwin) :
    Parallel strict before after room same
      (do if ← taking then inside else outside)
      (do if ← taking then insideTwin else outsideTwin) := by
  intro tokens others layout fits twinFits
  match tokens, others, layout with
  | [], [], layout =>
      rw [takes.ite_nil, takes.ite_nil]
      exact otherwise _ _ layout fits twinFits
  | token :: tokens, other :: others, layout =>
      rw [takes.ite_cons, takes.ite_cons, ← agrees layout.head]
      by_cases passes : test token = true
      · rw [if_pos passes, if_pos passes]
        have left : Leaves true (token :: tokens) tokens := .cons token tokens
        have right : Leaves true (other :: others) others := .cons other others
        refine rel_mono (behind _ _ (layout.tail (noImport token passes)).loosen
          (fits.enter left enters.left) (twinFits.enter right enters.right)) fun _ _ beside => ?_
        exact ⟨beside.same, beside.layout, left.before beside.left, right.before beside.right⟩
      · rw [if_neg passes, if_neg passes]
        exact otherwise _ _ layout fits twinFits

theorem ifOperator (text : String) (enters : room.Enters inner)
    {inside insideTwin outside outsideTwin : Parser α}
    (behind : Parallel false true after inner same inside insideTwin)
    (otherwise : Parallel strict before after room same outside outsideTwin) :
    Parallel strict before after room same
      (do if ← operator? text then inside else outside)
      (do if ← operator? text then insideTwin else outsideTwin) :=
  ifTaken (takesIf_operator? text) (agrees_isOperator text)
    (fun _ => isWord_eq_false_of_isOperator) enters behind otherwise

theorem ifWord (text : String) (noImport : text ≠ "import")
    (enters : room.Enters inner) {inside insideTwin outside outsideTwin : Parser α}
    (behind : Parallel false true after inner same inside insideTwin)
    (otherwise : Parallel strict before after room same outside outsideTwin) :
    Parallel strict before after room same
      (do if ← word? text then inside else outside)
      (do if ← word? text then insideTwin else outsideTwin) :=
  ifTaken (takesIf_word? text) (agrees_isWord text) (fun _ => isWord_eq_false noImport) enters
    behind otherwise

end Parallel

/-- A token that may be there comes next for both parsers or for none. -/
theorem parallel_taking {test : Token → Bool} {taking : Parser Bool} (takes : TakesIf test taking)
    (agrees : Agrees test)
    (noImport : ∀ token, test token = true → isWord "import" token = false) :
    Parallel false before true room Eq taking taking := by
  intro tokens others layout _ _
  rw [takes, takes]
  match tokens, others, layout with
  | [], [], layout => exact .some ⟨rfl, layout.loosen, .refl [], .refl []⟩
  | token :: tokens, other :: others, layout =>
      dsimp only
      rw [← agrees layout.head]
      by_cases passes : test token = true
      · rw [if_pos passes, if_pos passes]
        exact .some ⟨rfl, (layout.tail (noImport token passes)).loosen, .cons token tokens,
          .cons other others⟩
      · rw [if_neg passes, if_neg passes]
        exact .some ⟨rfl, layout.loosen, .refl _, .refl _⟩

theorem parallel_operator? (text : String) :
    Parallel false before true room Eq (operator? text) (operator? text) :=
  parallel_taking (takesIf_operator? text) (agrees_isOperator text)
    fun _ => isWord_eq_false_of_isOperator

theorem parallel_word? (text : String) (noImport : text ≠ "import") :
    Parallel false before true room Eq (word? text) (word? text) :=
  parallel_taking (takesIf_word? text) (agrees_isWord text) fun _ => isWord_eq_false noImport

/-! ## Choices and repetition -/

namespace Parallel

theorem optionally (item : Parallel true before true room same parser twin) :
    Parallel false before true room (Option.Rel same) (optional parser) (optional twin) := by
  have taken : Parallel false before true room (Option.Rel same) (some <$> parser)
      (some <$> twin) := by
    rw [map_eq_pure_bind, map_eq_pure_bind]
    exact item.step fun _ _ isSame => .pure (.some isSame)
  exact taken.orElse (.pure .none)

theorem optional_bind (parser : Parser α) (next : Option α → Parser β) (tokens : List Token) :
    (optional parser >>= next) tokens = match parser tokens with
      | some (result, rest) => next (some result) rest
      | none => next none tokens := by
  have chosen : (optional parser >>= next) tokens =
      (((parser tokens).bind fun found => some (some found.1, found.2)) <|>
        some (none, tokens)).bind fun found => next found.1 found.2 := rfl
  rw [chosen]
  cases parser tokens <;> rfl

/-- Two ways to go on, of which one is behind something that may be there. -/
theorem ifOptional (enters : room.Enters inner)
    (item : Parallel true before true room same parser twin)
    {next twinNext : Option α → Parser β}
    (behind : ∀ result matched, same result matched →
      Parallel false true after inner finally_ (next (some result)) (twinNext (some matched)))
    (otherwise : Parallel strict before after room finally_ (next none) (twinNext none)) :
    Parallel strict before after room finally_ (optional parser >>= next)
      (optional twin >>= twinNext) := by
  intro tokens others layout fits twinFits
  rw [optional_bind, optional_bind]
  have rel := item _ _ layout fits twinFits
  cases found : parser tokens with
  | none =>
      rw [eq_none_of_rel rel found]
      exact otherwise _ _ layout fits twinFits
  | some result =>
      obtain ⟨other, matched, beside⟩ := exists_of_rel rel found
      rw [matched]
      refine rel_mono (behind _ _ beside.same _ _ beside.layout (fits.enter beside.left enters.left)
        (twinFits.enter beside.right enters.right)) fun _ _ further => ?_
      exact ⟨further.same, further.layout, beside.left.before further.left,
        beside.right.before further.right⟩

theorem many (item : Parallel true before before room same parser twin) :
    Parallel false before before room (List.Forall₂ same) (many parser) (many twin) := by
  intro tokens others layout fits twinFits
  refine Option.Rel.some ?_
  -- along the items that the first parser finds: each has its twin, and both leave fewer tokens
  fun_induction manyFrom parser tokens generalizing others with
  | case1 tokens found =>
      rw [manyFrom, eq_none_of_rel (item _ _ layout fits twinFits) found]
      exact ⟨.nil, layout, .refl tokens, .refl others⟩
  | case2 tokens result rest found shorter results behind isMany ih =>
      obtain ⟨other, matched, beside⟩ := exists_of_rel (item _ _ layout fits twinFits) found
      have further := ih _ beside.layout (fits.of_leaves beside.left)
        (twinFits.of_leaves beside.right)
      rw [isMany] at further
      rw [manyFrom, matched]
      dsimp only
      rw [if_pos (beside.right.shorter rfl)]
      exact ⟨.cons beside.same further.same, further.layout,
        (beside.left.trans further.left).weaken, (beside.right.trans further.right).weaken⟩
  | case3 tokens result rest found stays =>
      obtain ⟨_, _, beside⟩ := exists_of_rel (item _ _ layout fits twinFits) found
      exact absurd (beside.left.shorter rfl) stays

theorem many1 (first : Parallel true before mid room same parser twin)
    (others : Parallel true mid mid room same parser twin) :
    Parallel true before mid room (List.Forall₂ same) (many1 parser) (many1 twin) :=
  first.step fun _ _ isFirst => others.many.bind fun _ _ areOthers =>
    .pure_here (.cons isFirst areOthers)

/-- Items with something in front of each. -/
theorem manyAfter {back : Bool} {separator : Parser Unit}
    (between : Parallel true true mid room Eq separator separator)
    (others : Parallel back mid true room same parser twin) :
    Parallel false true true room (List.Forall₂ same) (Parser.many (do separator; parser))
      (Parser.many (do separator; twin)) :=
  many (between.step_eq fun _ => others.weaken)

theorem separated {back : Bool} {separator : Parser Unit}
    (between : Parallel true true mid room Eq separator separator)
    (first : Parallel strict before true room same parser twin)
    (others : Parallel back mid true room same parser twin) :
    Parallel strict before true room (List.Forall₂ same) (separated parser separator)
      (separated twin separator) :=
  first.lead fun _ _ isFirst => (manyAfter between others).bind fun _ _ areOthers =>
    .pure (.cons isFirst areOthers)

theorem commaList {back : Bool} (first : Parallel strict before true room same parser twin)
    (others : Parallel back true true room same parser twin) :
    Parallel strict before true room
      (fun found matched => List.Forall₂ same found.1 matched.1 ∧ found.2 = matched.2)
      (commaList parser) (commaList twin) :=
  (separated (parallel_operator ",") first others).lead fun _ _ items =>
    (parallel_operator? ",").bind_eq fun _ => .pure ⟨items, by rw [items.length_eq]⟩

theorem spanned (item : Parallel strict before after room same parser twin) :
    Parallel strict before after room (fun found matched => same found.2 matched.2)
      (spanned parser) (spanned twin) := by
  intro tokens others layout fits twinFits
  refine rel_bind (item _ _ layout fits twinFits) fun found matched beside => .some ?_
  exact ⟨beside.same, beside.layout, beside.left, beside.right⟩

end Parallel

end TypeCatalog.Syntax.Parser
