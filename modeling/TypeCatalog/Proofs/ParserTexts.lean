import TypeCatalog.Proofs.ParserWidths

/-! # Results and texts of parsers

What a parser gives may have a property whatever the tokens are (`TypeCatalog.Syntax.Parser.Gives`),
or fit the text of the tokens that it takes (`TypeCatalog.Syntax.Parser.TakesText`). The text of
tokens leaves out what stands in front of the first of them, so the texts of the parts of a parser
need not add up to the text of the whole; but they are never longer together.
-/

namespace TypeCatalog.Syntax.Parser

variable {α β γ : Type}

/-! ## Results -/

/-- A parser gives a result for some tokens. -/
def CanGive (parser : Parser α) (result : α) : Prop :=
  ∃ tokens rest, parser tokens = some (result, rest)

/-- What two parsers read one behind the other. -/
theorem exists_of_bind_eq_some {parser : Parser α} {next : α → Parser β} {tokens : List Token}
    {found : β × List Token} (parsed : (parser >>= next) tokens = some found) :
    ∃ result rest, parser tokens = some (result, rest) ∧ next result rest = some found := by
  obtain ⟨⟨result, rest⟩, first, second⟩ := Option.bind_eq_some_iff.mp parsed
  exact ⟨result, rest, first, second⟩

/-- Whenever a parser succeeds, its result has a property. -/
def Gives (parser : Parser α) (holds : α → Prop) : Prop :=
  ∀ ⦃tokens result rest⦄, parser tokens = some (result, rest) → holds result

theorem gives_canGive (parser : Parser α) : parser.Gives parser.CanGive :=
  fun _ _ _ parsed => ⟨_, _, parsed⟩

theorem Gives.of_canGive {parser : Parser α} {holds : α → Prop} (gives : parser.Gives holds)
    {result : α} (given : parser.CanGive result) : holds result := by
  obtain ⟨_, _, parsed⟩ := given
  exact gives parsed

namespace Gives

variable {parser : Parser α} {holds : α → Prop}

theorem pure {result : α} (given : holds result) :
    Gives (Pure.pure result : Parser α) holds := by
  intro tokens other rest parsed
  exact (Prod.mk.inj (Option.some.inj parsed)).1 ▸ given

theorem failure : Gives (Alternative.failure : Parser α) holds := nofun

/-- What is read behind something may depend on its property. -/
theorem bind (gives : parser.Gives holds) {next : α → Parser β} {after : β → Prop}
    (behind : ∀ result, holds result → (next result).Gives after) :
    (parser >>= next).Gives after := by
  intro tokens final rest parsed
  obtain ⟨⟨result, middle⟩, first, second⟩ := Option.bind_eq_some_iff.mp parsed
  exact behind result (gives first) second

/-- What is read behind something that does not matter. -/
theorem behind {front : Parser β} {next : β → Parser α}
    (gives : ∀ result, (next result).Gives holds) : (front >>= next).Gives holds := by
  intro tokens final rest parsed
  obtain ⟨⟨result, middle⟩, _, second⟩ := Option.bind_eq_some_iff.mp parsed
  exact gives result second

theorem ite {other : Parser α} {condition : Prop} [Decidable condition]
    (gives : parser.Gives holds) (otherGives : other.Gives holds) :
    (if condition then parser else other).Gives holds := by
  by_cases taken : condition
  · rwa [if_pos taken]
  · rwa [if_neg taken]

theorem orElse (gives : parser.Gives holds) {other : Parser α} (otherGives : other.Gives holds) :
    (parser <|> other).Gives holds := by
  intro tokens result rest parsed
  rcases orElse_eq_some parsed with first | second
  · exact gives first
  · exact otherGives second

theorem many (gives : parser.Gives holds) :
    (many parser).Gives fun results => ∀ result ∈ results, holds result := by
  intro tokens results rest parsed
  have same : manyFrom parser tokens = (results, rest) := Option.some.inj parsed
  clear parsed
  fun_induction manyFrom parser tokens generalizing results rest with
  | case1 =>
      obtain ⟨rfl, rfl⟩ := Prod.mk.inj same
      simp
  | case2 tokens result left read _ others behind isMany ih =>
      obtain ⟨rfl, rfl⟩ := Prod.mk.inj same
      exact List.forall_mem_cons.mpr ⟨gives read, ih isMany⟩
  | case3 =>
      obtain ⟨rfl, rfl⟩ := Prod.mk.inj same
      simp

theorem many1 (gives : parser.Gives holds) :
    (many1 parser).Gives fun results => ∀ result ∈ results, holds result :=
  gives.bind fun _ first => gives.many.bind fun _ others =>
    .pure (List.forall_mem_cons.mpr ⟨first, others⟩)

theorem separated (gives : parser.Gives holds) (separator : Parser Unit) :
    (separated parser separator).Gives fun results => ∀ result ∈ results, holds result :=
  gives.bind fun _ first => (Gives.many (.behind fun _ => gives)).bind fun _ others =>
    .pure (List.forall_mem_cons.mpr ⟨first, others⟩)

theorem commaList (gives : parser.Gives holds) :
    (commaList parser).Gives fun found => ∀ result ∈ found.1, holds result :=
  (gives.separated _).bind fun _ each => .behind fun _ => .pure each

end Gives

theorem gives_ofOption {value : Option α} {holds : α → Prop}
    (given : ∀ result, value = some result → holds result) : (ofOption value).Gives holds := by
  intro tokens result rest parsed
  obtain ⟨found, known, same⟩ := Option.map_eq_some_iff.mp parsed
  exact (Prod.mk.inj same).1 ▸ given found known

theorem gives_satisfy (test : Token → Bool) :
    (satisfy test).Gives fun token => test token = true :=
  fun _ _ _ parsed => (satisfy_eq_some parsed).2

/-- Names that are read are not reserved. -/
theorem gives_identifier : identifier.Gives fun name => name.text ∉ reservedWords := by
  refine (gives_satisfy _).bind fun token passes => gives_ofOption fun name spelled => ?_
  rw [Bool.and_eq_true, Bool.not_eq_true', List.contains_eq_mem, decide_eq_false_iff_not] at passes
  rw [Identifier.ofString?] at spelled
  split at spelled
  · rw [← Option.some.inj spelled]
    exact passes.2
  · simp at spelled

/-! ## Texts -/

/-- Whenever a parser succeeds, it takes its tokens from the front of the list, and its result fits
the number of characters of their text. -/
def TakesText (parser : Parser α) (fits : α → Nat → Prop) : Prop :=
  ∀ ⦃tokens result rest⦄, parser tokens = some (result, rest) →
    ∃ taken, tokens = taken ++ rest ∧ fits result (Token.join taken).length

/-- What fits every greater width fits behind something else. -/
theorem Widens.behind {fits : α → Nat → Prop} (wide : Widens fits) (front : Nat) :
    Widens fun result more => fits result (front + more) :=
  fun _ _ _ fit wider => wide fit (Nat.add_le_add_left wider front)

namespace TakesText

variable {parser : Parser α} {fits : α → Nat → Prop}

/-- What fits a text fits the width of its tokens. -/
theorem takes (takes : parser.TakesText fits) (wide : Widens fits) : parser.Takes fits := by
  intro tokens result rest parsed
  obtain ⟨taken, divided, fit⟩ := takes parsed
  exact ⟨taken, divided, wide fit (Token.length_join_le taken)⟩

theorem gives (takes : parser.TakesText fits) {holds : α → Prop}
    (implied : ∀ result width, fits result width → holds result) : parser.Gives holds := by
  intro tokens result rest parsed
  obtain ⟨taken, _, fit⟩ := takes parsed
  exact implied _ _ fit

/-- A property that does not depend on the text. -/
theorem of_gives (advances : parser.Advances) {holds : α → Prop} (gives : parser.Gives holds) :
    parser.TakesText fun result _ => holds result := by
  intro tokens result rest parsed
  obtain ⟨taken, divided, _⟩ := advances parsed
  exact ⟨taken, divided, gives parsed⟩

theorem of_advances (advances : parser.Advances) : parser.TakesText fun _ _ => True :=
  of_gives advances fun _ _ _ _ => trivial

theorem pure {result : α} (fit : fits result 0) :
    TakesText (Pure.pure result : Parser α) fits := by
  intro tokens given rest parsed
  obtain ⟨rfl, rfl⟩ := Prod.mk.inj (Option.some.inj parsed)
  exact ⟨[], rfl, fit⟩

theorem failure : TakesText (Alternative.failure : Parser α) fits := nofun

/-- The text of a sequence is at least as long as the texts of its parts together. -/
theorem bind {after : β → Nat → Prop} (wide : Widens after) (takes : parser.TakesText fits)
    {next : α → Parser β} (behind : ∀ result width, fits result width →
      (next result).TakesText fun final more => after final (width + more)) :
    (parser >>= next).TakesText after := by
  intro tokens final rest parsed
  obtain ⟨⟨result, middle⟩, first, second⟩ := Option.bind_eq_some_iff.mp parsed
  obtain ⟨taken, rfl, fit⟩ := takes first
  obtain ⟨more, rfl, final⟩ := behind _ _ fit second
  refine ⟨taken ++ more, (List.append_assoc _ _ _).symm, ?_⟩
  exact wide final (Token.length_join_append_le taken more)

theorem mono (takes : parser.TakesText fits) {weaker : α → Nat → Prop}
    (implied : ∀ result width, fits result width → weaker result width) :
    parser.TakesText weaker := by
  intro tokens result rest parsed
  obtain ⟨taken, divided, fit⟩ := takes parsed
  exact ⟨taken, divided, implied _ _ fit⟩

/-- A parser behind tokens that do not matter. -/
theorem behind (wide : Widens fits) {front : Parser β} (advances : front.Advances)
    {next : β → Parser α} (takes : ∀ result, (next result).TakesText fits) :
    (front >>= next).TakesText fits :=
  bind wide (of_advances advances) fun result _ _ => (takes result).mono fun _ _ fit =>
    wide fit (Nat.le_add_left _ _)

theorem ite {other : Parser α} {condition : Prop} [Decidable condition]
    (takes : parser.TakesText fits) (otherTakes : other.TakesText fits) :
    (if condition then parser else other).TakesText fits := by
  by_cases holds : condition
  · rwa [if_pos holds]
  · rwa [if_neg holds]

theorem orElse (takes : parser.TakesText fits) {other : Parser α}
    (otherTakes : other.TakesText fits) : (parser <|> other).TakesText fits := by
  intro tokens result rest parsed
  rcases orElse_eq_some parsed with first | second
  · exact takes first
  · exact otherTakes second

end TakesText

/-! ### Operators -/

theorem takesText_operator (text : String) :
    (operator text).TakesText fun _ width => text.length ≤ width := by
  intro tokens result rest parsed
  obtain ⟨⟨token, left⟩, read, same⟩ := Option.bind_eq_some_iff.mp parsed
  obtain ⟨rfl, passes⟩ := satisfy_eq_some read
  obtain ⟨_, rfl⟩ := Prod.mk.inj (Option.some.inj same)
  obtain ⟨_, written⟩ := Bool.and_eq_true_iff.mp passes
  refine ⟨[token], rfl, ?_⟩
  rw [← eq_of_beq written]
  exact Nat.le_refl _

theorem takesText_operator? (text : String) :
    (operator? text).TakesText fun found width => found = true → text.length ≤ width := by
  have wide : Widens fun (found : Bool) width => found = true → text.length ≤ width :=
    fun _ _ _ fit wider isFound => Nat.le_trans (fit isFound) wider
  refine .behind wide (advances_ahead _) fun _ => .ite ?_ (.pure nofun)
  exact .bind wide (takesText_operator text) fun _ _ written => .pure fun _ => written

/-! ### Repetition -/

/-- All results of a list fit. -/
def EachFits (fits : α → Nat → Prop) (results : List α) (width : Nat) : Prop :=
  ∀ result ∈ results, fits result width

variable {item : Parser α} {fits : α → Nat → Prop}

theorem widens_eachFits (wide : Widens fits) : Widens (EachFits fits) :=
  fun _ _ _ each wider result listed => wide (each result listed) wider

theorem takesText_many (wide : Widens fits) (takes : item.TakesText fits) :
    (many item).TakesText (EachFits fits) := by
  intro tokens results rest parsed
  have same : manyFrom item tokens = (results, rest) := Option.some.inj parsed
  clear parsed
  fun_induction manyFrom item tokens generalizing results rest with
  | case1 =>
      obtain ⟨rfl, rfl⟩ := Prod.mk.inj same
      exact ⟨[], rfl, List.forall_mem_nil _⟩
  | case2 tokens result left read _ others behind isMany ih =>
      obtain ⟨rfl, rfl⟩ := Prod.mk.inj same
      obtain ⟨taken, rfl, fit⟩ := takes read
      obtain ⟨more, rfl, each⟩ := ih isMany
      have whole := Token.length_join_append_le taken more
      refine ⟨taken ++ more, (List.append_assoc _ _ _).symm, List.forall_mem_cons.mpr ⟨?_, ?_⟩⟩
      · exact wide fit (by omega)
      · exact widens_eachFits wide each (by omega)
  | case3 =>
      obtain ⟨rfl, rfl⟩ := Prod.mk.inj same
      exact ⟨[], rfl, List.forall_mem_nil _⟩

/-- A first result and what is read behind it. -/
theorem takesText_cons (wide : Widens fits) (takes : item.TakesText fits)
    {others : Parser (List α)} (othersTake : others.TakesText (EachFits fits)) :
    TakesText (do let first ← item; let rest ← others; return first :: rest) (EachFits fits) := by
  have eachWide := widens_eachFits wide
  exact .bind eachWide takes fun first width fit =>
    .bind (eachWide.behind width) othersTake fun rest more each =>
    .pure (List.forall_mem_cons.mpr ⟨wide fit (by omega), eachWide each (by omega)⟩)

theorem takesText_many1 (wide : Widens fits) (takes : item.TakesText fits) :
    (many1 item).TakesText (EachFits fits) :=
  takesText_cons wide takes (takesText_many wide takes)

theorem takesText_separated (wide : Widens fits) {separator : Parser Unit}
    (between : separator.Advances) (takes : item.TakesText fits) :
    (separated item separator).TakesText (EachFits fits) :=
  takesText_cons wide takes (takesText_many wide (.behind wide between fun _ => takes))

theorem takesText_commaList (wide : Widens fits) (takes : item.TakesText fits) :
    (commaList item).TakesText fun found width => EachFits fits found.1 width := by
  have eachWide := widens_eachFits wide
  have listWide : Widens fun (found : List α × Bool) width => EachFits fits found.1 width :=
    fun _ _ _ each wider => eachWide each wider
  exact .bind listWide (takesText_separated wide (advances_operator ",") takes)
    fun items width each =>
    .behind (listWide.behind width) (advances_operator? ",") fun _ => .pure each

/-! ### Extents -/

theorem spanned_eq_some {tokens rest : List Token} {found : Extent × α}
    (parsed : spanned item tokens = some (found, rest)) :
    item tokens = some (found.2, rest) ∧ found.1 = extentBetween tokens rest := by
  obtain ⟨⟨result, left⟩, read, same⟩ := Option.bind_eq_some_iff.mp parsed
  obtain ⟨rfl, rfl⟩ := Prod.mk.inj (Option.some.inj same)
  exact ⟨read, rfl⟩

/-- The text of an extent is that of the tokens that are taken for it. -/
theorem takesText_spanned (takes : item.TakesText fits) : (spanned item).TakesText
    fun found width => found.1.text.length = width ∧ fits found.2 width := by
  intro tokens found rest parsed
  obtain ⟨read, isExtent⟩ := spanned_eq_some parsed
  obtain ⟨taken, rfl, fit⟩ := takes read
  refine ⟨taken, rfl, ?_, fit⟩
  rw [isExtent, text_extentBetween]

section

variable {adds : β → Nat → Prop} {reads : Parser β} (stop : β → List Token)
  (joinTo : Extent → α → β → α) (takes : reads.TakesText adds)
  (stops : ∀ ⦃tokens found rest⦄, reads tokens = some (found, rest) → stop found = rest)
  (joins : ∀ extent left found width more, fits left width → adds found more →
    width + more ≤ extent.text.length → fits (joinTo extent left found) extent.text.length)

include takes stops joins

/-- What is joined to a result fits the text from the beginning of the result on. -/
theorem exists_taken_of_manyFrom {tokens rest taken : List Token} {found : List β} {left : α}
    (isMany : manyFrom reads tokens = (found, rest)) (fit : fits left (Token.join taken).length) :
    ∃ more, tokens = more ++ rest ∧ fits (found.foldl (fun left found =>
      joinTo (extentBetween (taken ++ tokens) (stop found)) left found) left)
        (Token.join (taken ++ more)).length := by
  fun_induction manyFrom reads tokens generalizing found rest taken left with
  | case1 =>
      obtain ⟨rfl, rfl⟩ := Prod.mk.inj isMany
      exact ⟨[], rfl, by rwa [List.append_nil]⟩
  | case2 tokens result behind read _ others last isOthers ih =>
      obtain ⟨rfl, rfl⟩ := Prod.mk.inj isMany
      obtain ⟨here, rfl, added⟩ := takes read
      have text := text_extentBetween (taken ++ here) behind
      rw [List.append_assoc] at text
      have joined := joins (extentBetween (taken ++ (here ++ behind)) behind) left result _ _ fit
        added (text ▸ Token.length_join_append_le taken here)
      rw [congrArg String.length text] at joined
      obtain ⟨more, rfl, whole⟩ := ih isOthers joined
      refine ⟨here ++ more, (List.append_assoc _ _ _).symm, ?_⟩
      rw [List.append_assoc, List.append_assoc] at whole
      rwa [List.foldl_cons, stops read]
  | case3 =>
      obtain ⟨rfl, rfl⟩ := Prod.mk.inj isMany
      exact ⟨[], rfl, by rwa [List.append_nil]⟩

/-- Results that are joined to a first one as they are read, each time with the extent of all that
is read so far. -/
theorem takesText_foldl {first : Parser α} (firstTakes : first.TakesText fits) :
    TakesText (do
      let start ← get
      let first ← first
      let rest ← many reads
      return rest.foldl (fun left found =>
        joinTo (extentBetween start (stop found)) left found) first) fits := by
  intro tokens result rest parsed
  obtain ⟨⟨left, behind⟩, read, followed⟩ := Option.bind_eq_some_iff.mp parsed
  obtain ⟨others, last, isMany, same⟩ := exists_of_bind_eq_some followed
  obtain ⟨rfl, rfl⟩ := Prod.mk.inj (Option.some.inj same)
  obtain ⟨taken, rfl, fit⟩ := firstTakes read
  obtain ⟨more, rfl, whole⟩ :=
    exists_taken_of_manyFrom stop joinTo takes stops joins (Option.some.inj isMany) fit
  exact ⟨taken ++ more, (List.append_assoc _ _ _).symm, whole⟩

end

end TypeCatalog.Syntax.Parser
