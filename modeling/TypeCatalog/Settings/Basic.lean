import TypeCatalog.Model.Optionality

/-! # Settings

What a user decides about records: which definition wraps optional values, and which types count as
serializable. -/

namespace TypeCatalog

/-- The settings of an extraction. -/
structure Settings where
  optionalWrapper : String := defaultOptionalWrapper
  /-- The definition that every serializable type derives from. -/
  rootBase : Option String := none
  /-- The short or full name of the attribute that marks serializable types. -/
  typeAttribute : Option String := none
  deriving DecidableEq, Inhabited

end TypeCatalog
