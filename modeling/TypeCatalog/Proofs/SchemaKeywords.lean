import TypeCatalog.Proofs.Rounding
import TypeCatalog.Proofs.SameValues

/-! # Keywords of schemas

A schema document constrains values by keywords. Each keyword concerns values of one kind and lets
all others pass, so a document names the kind beside the keywords for it. The document of records is
stated here keyword by keyword (`TypeCatalog.RecordDocument.typeRecord`), and the schema by which records
are judged accepts the same values (`TypeCatalog.Schema.expresses_typeRecord`).
-/

namespace TypeCatalog

/-! ## Whole numbers -/

namespace Binary64

/-- A quotient of natural numbers is whole exactly when the division leaves no rest. -/
theorem div_eq_intCast_iff {numerator denominator : Nat} (positive : 0 < denominator)
    (whole : Int) :
    (numerator / denominator : ℚ) = whole ↔
      numerator % denominator = 0 ∧ whole = ((numerator / denominator : Nat) : Int) := by
  have nonzero : (denominator : ℚ) ≠ 0 := by positivity
  rw [div_eq_iff nonzero]
  constructor
  · intro product
    have product : (numerator : Int) = whole * denominator := by exact_mod_cast product
    have divides : denominator ∣ numerator :=
      Int.natCast_dvd_natCast.mp ⟨whole, by rw [product, mul_comm]⟩
    refine ⟨Nat.mod_eq_zero_of_dvd divides, ?_⟩
    rw [Int.natCast_div, product, Int.mul_ediv_cancel _ (by exact_mod_cast positive.ne')]
  · rintro ⟨exact, rfl⟩
    have whole := Nat.div_mul_cancel (Nat.dvd_of_mod_eq_zero exact)
    exact_mod_cast whole.symm

/-- The value of a finite number. -/
def value (number : Binary64) : ℚ :=
  if number.negative then -number.magnitude else number.magnitude

theorem magnitude_eq_intCast_iff (number : Binary64) (whole : Int) :
    number.magnitude = whole ↔
      number.significand % twoTo (-number.exponent).toNat = 0 ∧
        whole = Int.ofNat (number.significand / twoTo (-number.exponent).toNat *
          twoTo number.exponent.toNat) := by
  have scaled := zpow_eq_div 2 (by decide) number.exponent
  rw [Nat.cast_ofNat] at scaled
  rw [magnitude, scaled]
  -- one of the two powers is one
  rcases Int.le_total 0 number.exponent with upwards | downwards
  · rw [Int.toNat_of_nonpos (Int.neg_nonpos_of_nonneg upwards)]
    have product : ((number.significand * 2 ^ number.exponent.toNat : Nat) : ℚ) = whole ↔
        whole = ((number.significand * 2 ^ number.exponent.toNat : Nat) : Int) := by
      rw [eq_comm, ← Int.cast_natCast, Int.cast_inj]
    simpa [twoTo, Nat.mod_one] using product
  · rw [Int.toNat_of_nonpos downwards]
    have quotient : (number.significand / (2 ^ (-number.exponent).toNat : Nat) : ℚ) = whole ↔ _ :=
      div_eq_intCast_iff (Nat.pow_pos Nat.two_pos) whole
    simpa [twoTo, div_eq_mul_inv] using quotient

/-- A number is read as an integer exactly when it is finite and has the value of the integer. -/
theorem toInt?_eq_some_iff (number : Binary64) (whole : Int) :
    number.toInt? = some whole ↔ number.isFinite = true ∧ number.value = whole := by
  have signed : number.value = whole ↔
      number.magnitude = ((if number.negative then -whole else whole : Int) : ℚ) := by
    rw [value]
    cases number.negative with
    | false => simp
    | true => simp [neg_eq_iff_eq_neg]
  rw [signed, magnitude_eq_intCast_iff, toInt?]
  by_cases known : number.isFinite = true ∧
      number.significand % twoTo (-number.exponent).toNat = 0
  · rw [if_pos (by simpa using known)]
    cases number.negative with
    | false => simp [known, eq_comm]
    | true => simp [known, neg_eq_iff_eq_neg, eq_comm]
  · rw [if_neg (by simpa using known)]
    exact iff_of_false nofun fun ⟨finite, exact, _⟩ => known ⟨finite, exact⟩

end Binary64

/-! ## Keywords -/

/-- The kinds of values that schema documents name. -/
inductive JsonKind where
  | null
  | boolean
  | integer
  | string
  | array
  | object

/-- A value stands for a whole number. A number without a fraction does, however it is written. -/
def Json.IsWhole : Json → Int → Prop
  | .int number, whole => number = whole
  | .float number, whole => number.isFinite = true ∧ number.value = whole
  | _, _ => False

theorem Json.integer?_eq_some_iff (value : Json) (whole : Int) :
    value.integer? = some whole ↔ value.IsWhole whole := by
  cases value with
  | int number => exact Option.some_inj
  | float number => exact number.toInt?_eq_some_iff whole
  | _ => exact iff_of_false nofun id

namespace JsonKind

/-- Whether a value is of a kind. -/
def Includes : JsonKind → Json → Prop
  | .null, value => value = .null
  | .boolean, value => ∃ truth, value = .bool truth
  | .integer, value => ∃ whole, value.IsWhole whole
  | .string, value => ∃ text, value = .string text
  | .array, value => ∃ parts, value = .array parts
  | .object, value => ∃ members, value = .object members

variable (value : Json)

@[simp]
theorem includes_null : null.Includes value ↔ value = .null := Iff.rfl

@[simp]
theorem includes_boolean : boolean.Includes value ↔ ∃ truth, value = .bool truth := Iff.rfl

@[simp]
theorem includes_integer : integer.Includes value ↔ ∃ whole, value.IsWhole whole := Iff.rfl

@[simp]
theorem includes_string : string.Includes value ↔ ∃ text, value = .string text := Iff.rfl

@[simp]
theorem includes_array : array.Includes value ↔ ∃ parts, value = .array parts := Iff.rfl

@[simp]
theorem includes_object : object.Includes value ↔ ∃ members, value = .object members := Iff.rfl

end JsonKind

namespace Keyword

/-- Two keywords beside each other. -/
def both (first second : Json → Prop) (value : Json) : Prop := first value ∧ second value

def type (kinds : List JsonKind) (value : Json) : Prop := ∃ kind ∈ kinds, kind.Includes value

@[simp]
theorem type_nil (value : Json) : ¬ type [] value := nofun

@[simp]
theorem type_cons (kind : JsonKind) (kinds : List JsonKind) (value : Json) :
    type (kind :: kinds) value ↔ kind.Includes value ∨ type kinds value :=
  List.exists_mem_cons_iff _ _ _

/-- One of several texts; a single one is a constant. -/
def enum (texts : List String) (value : Json) : Prop := ∃ text ∈ texts, value = .string text

/-- Texts have at least so many characters. -/
def minLength (count : Nat) : Json → Prop
  | .string text => count ≤ text.length
  | _ => True

/-- Numbers are not less than a bound. -/
def minimum (bound : Int) : Json → Prop
  | .int number => bound ≤ number
  | .float number => (number.isFinite = true → (bound : ℚ) ≤ number.value) ∧
      (number.isInfinite = true → number.negative = false)
  | _ => True

/-- The items of arrays meet a constraint. -/
def items (constraint : Json → Prop) : Json → Prop
  | .array parts => ∀ part ∈ parts, constraint part
  | _ => True

/-- Objects have all of the given keys. -/
def required (keys : List String) : Json → Prop
  | .object members => ∀ key ∈ keys, key ∈ members.map Prod.fst
  | _ => True

/-- Objects have none but the given keys. -/
def noAdditional (keys : List String) : Json → Prop
  | .object members => ∀ key ∈ members.map Prod.fst, key ∈ keys
  | _ => True

/-- The values that objects have under the given keys meet the constraint of the key. -/
def properties (constraints : List (String × (Json → Prop))) (value : Json) : Prop :=
  ∀ entry ∈ constraints, ∀ part ∈ value.member? entry.1, entry.2 part

/-- Exactly one of two constraints. -/
def oneOf (left right : Json → Prop) (value : Json) : Prop := Xor (left value) (right value)

/-- An object that has each of the given members and no others. -/
def closedObject (constraints : List (String × (Json → Prop))) : Json → Prop :=
  both (type [.object]) (both (required (constraints.map Prod.fst))
    (both (noAdditional (constraints.map Prod.fst)) (properties constraints)))

end Keyword

/-! ## The document of records -/

namespace RecordDocument

open Keyword

def location : Json → Prop :=
  oneOf (type [.null])
    (closedObject [("path", type [.string]), ("line", both (type [.integer]) (minimum 1)),
      ("column", both (type [.integer]) (minimum 0))])

def attributeRecord : Json → Prop :=
  closedObject [("full_name", type [.string]), ("short_name", type [.string]),
    ("arguments", type [.array]), ("named_arguments", type [.object])]

def attributes : Json → Prop := both (type [.array]) (items attributeRecord)

def memberRecord : Json → Prop :=
  closedObject [("name", both (type [.string]) (minLength 1)), ("declaring_type", type [.string]),
    ("kind", enum ["field", "property"]), ("type", type [.string, .null]),
    ("optional", type [.boolean]), ("value_type", type [.string, .null]),
    ("inherited", type [.boolean]), ("overrides", type [.string, .null]),
    ("attributes", attributes), ("inherited_attributes", attributes)]

/-- What the schema document says of a record. -/
def typeRecord : Json → Prop :=
  closedObject [("kind", enum ["type"]), ("fqn", both (type [.string]) (minLength 1)),
    ("location", location), ("generic", type [.boolean]),
    ("ancestors", both (type [.array]) (items (type [.string]))), ("serializable", type [.boolean]),
    ("attributes", attributes), ("members", both (type [.array]) (items memberRecord))]

end RecordDocument

/-! ## Schemas and documents -/

namespace Schema

open Keyword

/-- A schema accepts the values that meet a constraint. -/
def Expresses (schema : Schema) (constraint : Json → Prop) : Prop :=
  ∀ value, schema.conforms value = true ↔ constraint value

theorem expresses_anyObject : anyObject.Expresses (type [.object]) := by
  intro value
  cases value <;> simp [conforms]

theorem expresses_anyArray : anyArray.Expresses (type [.array]) := by
  intro value
  cases value <;> simp [conforms, itemsConform]

theorem expresses_null : null.Expresses (type [.null]) := by
  intro value
  cases value <;> simp [conforms]

theorem expresses_bool : bool.Expresses (type [.boolean]) := by
  intro value
  cases value <;> simp [conforms]

theorem expresses_textOrNull : textOrNull.Expresses (type [.string, .null]) := by
  intro value
  cases value <;> simp [conforms]

theorem expresses_text (count : Nat) :
    (text count).Expresses (both (type [.string]) (minLength count)) := by
  intro value
  cases value <;> simp [conforms, both, type, minLength, JsonKind.Includes]

theorem expresses_anyText : (text 0).Expresses (type [.string]) := by
  intro value
  cases value <;> simp [conforms]

theorem expresses_oneOfTexts (texts : List String) : (oneOfTexts texts).Expresses (enum texts) := by
  intro value
  cases value <;> simp [conforms, enum]

/-- Bounds of whole numbers are those of the numbers that they are written as. -/
theorem minimum_of_isWhole {value : Json} {whole : Int} (stands : value.IsWhole whole) (bound : Int) :
    minimum bound value ↔ bound ≤ whole := by
  match value, stands with
  | .int _, rfl => exact Iff.rfl
  | .float number, ⟨finite, valued⟩ =>
      have bounded : number.isInfinite = false := decide_eq_false (of_decide_eq_true finite).ne
      simp [minimum, finite, bounded, valued]

theorem expresses_integer (bound : Int) :
    (integer bound).Expresses (both (type [.integer]) (minimum bound)) := by
  intro value
  have accepted : (integer bound).conforms value = true ↔
      ∃ whole, value.IsWhole whole ∧ bound ≤ whole := by
    simp [conforms, Option.any_eq_true, Json.integer?_eq_some_iff]
  rw [accepted, both, type_cons, or_iff_left (type_nil value), JsonKind.includes_integer]
  constructor
  · rintro ⟨whole, stands, low⟩
    exact ⟨⟨whole, stands⟩, (minimum_of_isWhole stands bound).mpr low⟩
  · rintro ⟨⟨whole, stands⟩, low⟩
    exact ⟨whole, stands, (minimum_of_isWhole stands bound).mp low⟩

theorem expresses_array {schema : Schema} {constraint : Json → Prop}
    (expresses : schema.Expresses constraint) :
    (array schema).Expresses (both (type [.array]) (items constraint)) := by
  intro value
  cases value with
  | array parts =>
      simp [conforms, itemsConform, both, type, items, JsonKind.Includes, expresses _]
  | _ => simp [conforms, itemsConform, both, type, JsonKind.Includes]

theorem expresses_exactlyOne {left right : Schema} {first second : Json → Prop}
    (leftExpresses : left.Expresses first) (rightExpresses : right.Expresses second) :
    (exactlyOne left right).Expresses (oneOf first second) := by
  intro value
  rw [conforms, oneOf, ← leftExpresses, ← rightExpresses, Xor]
  cases left.conforms value <;> cases right.conforms value <;> simp

section

variable {members : List (String × Schema)} {constraints : List (String × (Json → Prop))}

/-- Schemas and constraints under the same keys, each schema accepting what meets its constraint. -/
def ExpressEach (members : List (String × Schema)) (constraints : List (String × (Json → Prop))) :
    Prop :=
  List.Forall₂ (fun member constraint =>
    member.1 = constraint.1 ∧ member.2.Expresses constraint.2) members constraints

theorem ExpressEach.keys_eq (each : ExpressEach members constraints) :
    members.map Prod.fst = constraints.map Prod.fst := by
  induction each with
  | nil => rfl
  | cons first _ ih => rw [List.map_cons, List.map_cons, first.1, ih]

theorem membersConform_iff (each : ExpressEach members constraints) (value : Json) :
    membersConform members value = true ↔
      (∀ key ∈ constraints.map Prod.fst, (value.member? key).isSome = true) ∧
        properties constraints value := by
  induction each with
  | nil => simp [membersConform, properties]
  | @cons member constraint members constraints first rest ih =>
      obtain ⟨named, expresses⟩ := first
      have present : (value.member? constraint.1).any member.2.conforms = true ↔
          (value.member? constraint.1).isSome = true ∧
            ∀ part ∈ value.member? constraint.1, constraint.2 part := by
        cases value.member? constraint.1 with
        | none => simp
        | some part => simp [expresses part]
      rw [membersConform, Bool.and_eq_true, ih, named, present, properties, properties,
        List.map_cons, List.forall_mem_cons, List.forall_mem_cons]
      exact and_and_and_comm

theorem expresses_object (each : ExpressEach members constraints) :
    (object members).Expresses (closedObject constraints) := by
  intro value
  rw [conforms, Bool.and_eq_true, membersConform_iff each, each.keys_eq]
  cases value with
  | object entries =>
      have isObject : type [.object] (.object entries) := by simp
      simp only [keysAreAmong_object, closedObject, both, isObject, required, noAdditional,
        Json.mem_keys_iff, true_and]
      exact and_left_comm
  | _ => simp [keysAreAmong, closedObject, both]

end

/-! ## The schema of records -/

theorem expresses_location : location.Expresses RecordDocument.location := by
  refine expresses_exactlyOne expresses_null (expresses_object ?_)
  exact .cons ⟨rfl, expresses_anyText⟩ (.cons ⟨rfl, expresses_integer 1⟩
    (.cons ⟨rfl, expresses_integer 0⟩ .nil))

theorem expresses_attributeRecord : attributeRecord.Expresses RecordDocument.attributeRecord := by
  refine expresses_object ?_
  exact .cons ⟨rfl, expresses_anyText⟩ (.cons ⟨rfl, expresses_anyText⟩
    (.cons ⟨rfl, expresses_anyArray⟩ (.cons ⟨rfl, expresses_anyObject⟩ .nil)))

theorem expresses_memberRecord : memberRecord.Expresses RecordDocument.memberRecord := by
  have attributes := expresses_array expresses_attributeRecord
  refine expresses_object ?_
  exact .cons ⟨rfl, expresses_text 1⟩ (.cons ⟨rfl, expresses_anyText⟩
    (.cons ⟨rfl, expresses_oneOfTexts _⟩ (.cons ⟨rfl, expresses_textOrNull⟩
    (.cons ⟨rfl, expresses_bool⟩ (.cons ⟨rfl, expresses_textOrNull⟩
    (.cons ⟨rfl, expresses_bool⟩ (.cons ⟨rfl, expresses_textOrNull⟩
    (.cons ⟨rfl, attributes⟩ (.cons ⟨rfl, attributes⟩ .nil)))))))))

/-- **The schema of records is their document.** A value conforms to the schema exactly when it
meets every keyword of the document. -/
theorem expresses_typeRecord : typeRecord.Expresses RecordDocument.typeRecord := by
  refine expresses_object ?_
  exact .cons ⟨rfl, expresses_oneOfTexts _⟩ (.cons ⟨rfl, expresses_text 1⟩
    (.cons ⟨rfl, expresses_location⟩ (.cons ⟨rfl, expresses_bool⟩
    (.cons ⟨rfl, expresses_array expresses_anyText⟩ (.cons ⟨rfl, expresses_bool⟩
    (.cons ⟨rfl, expresses_array expresses_attributeRecord⟩
    (.cons ⟨rfl, expresses_array expresses_memberRecord⟩ .nil)))))))

end Schema

end TypeCatalog
