import TypeCatalog.Command.Run

/-! # Outcomes of reading settings

The content of a settings file is decoded, read as a document, and asked for three keys of one
table. `TypeCatalog.Settings.outcomes_of_bytes` says for every content what comes out: the settings
that the three keys give, a fault that is reported with the path of the file, or, where the content
cannot be converted at all, a fault that ends a command without a message.
-/

namespace TypeCatalog

open Toml (read)

namespace SettingsFault

/-- Whether a fault is caught, to be told with the path of its file. -/
def IsReported (fault : SettingsFault) : Prop := fault = .malformed ∨ ∃ key, fault = .notText key

theorem isReported_notText (key : String) : (notText key).IsReported := .inr ⟨key, rfl⟩

theorem not_isReported_undecodable : ¬ undecodable.IsReported := by simp [IsReported]

/-- Of the faults of a document, only the one of its form is reported. -/
theorem isReported_ofToml {fault : Toml.Fault} :
    (ofToml fault).IsReported ↔ fault = .malformed := by
  cases fault <;> simp [IsReported, ofToml]

end SettingsFault

open SettingsFault

namespace Environment

variable (environment : Environment) (path : String)

/-- What a command prints about a reported fault. -/
theorem failSettings_of_isReported {fault : SettingsFault} (reported : fault.IsReported) :
    environment.failSettings path fault =
      environment.failWith ["settings:" ++ path ++ ":" ++ fault.message?.getD ""] := by
  obtain rfl | ⟨key, rfl⟩ := reported <;> rfl

/-- Any other fault ends a command without a line. -/
theorem failSettings_of_not_isReported {fault : SettingsFault} (silent : ¬ fault.IsReported) :
    ∃ crash, environment.failSettings path fault = environment.crashWith crash := by
  cases fault with
  | undecodable => exact ⟨_, rfl⟩
  | integerTooLong => exact ⟨_, rfl⟩
  | malformed => exact absurd (.inl rfl) silent
  | notText key => exact absurd (isReported_notText key) silent

end Environment

namespace Settings

/-! ## What a document gives -/

/-- What a document says under a key of the table of settings. -/
def given? (document : TomlEntries) (key : String) : Option TomlValue :=
  (table? document).bind fun table => table.lookup key

/-- The text of a value, if it is one and not empty. -/
def usableText? : TomlValue → Option String
  | .string text => if text = "" then none else some text
  | _ => none

/-- Whether a document gives a key, but no text that can be used. -/
def spoils (document : TomlEntries) (key : String) : Bool :=
  (given? document key).any fun value => (usableText? value).isNone

/-- The text that a document gives under a key. -/
def textAt? (document : TomlEntries) (key : String) : Option String :=
  (given? document key).bind usableText?

/-- The settings of a document: the default wrapper unless it gives one. -/
def ofGiven (document : TomlEntries) : Settings where
  optionalWrapper := (textAt? document "optional_wrapper").getD defaultOptionalWrapper
  rootBase := textAt? document "root_base"
  typeAttribute := textAt? document "type_attribute"

/-- The first key, in the order in which they are read, that a document spoils. -/
def firstSpoilt? (document : TomlEntries) : Option String := keys.find? (spoils document)

/-- What is read of a document: its settings, or else the fault of the first key that it spoils. -/
def settingsOf (document : TomlEntries) : Except SettingsFault Settings :=
  match firstSpoilt? document with
  | none => .ok (ofGiven document)
  | some key => .error (.notText key)

variable {document table : TomlEntries}

theorem spoils_of_table?_eq_none (missing : table? document = none) (key : String) :
    spoils document key = false := by
  rw [spoils, given?, missing]
  rfl

/-- One key is read on its own: a text or nothing, or a fault that names the key. -/
theorem textOf_of_table? (found : table? document = some table) (key : String) :
    textOf table key =
      if spoils document key then .error (.notText key) else .ok (textAt? document key) := by
  unfold spoils textAt? given? textOf
  rw [found, Option.bind_some]
  cases table.lookup key with
  | none => rfl
  | some value =>
      cases value with
      | string text =>
          by_cases empty : text = ""
          · subst empty
            rfl
          · simp [usableText?, empty]
      | _ => rfl

/-- The keys of a table are read in order, up to the first one that is spoilt. -/
theorem ofTable_of_table? (found : table? document = some table) :
    ofTable table = settingsOf document := by
  unfold ofTable settingsOf firstSpoilt? keys
  rw [textOf_of_table? found, textOf_of_table? found, textOf_of_table? found, List.find?_cons,
    List.find?_cons, List.find?_cons, List.find?_nil]
  cases spoils document "optional_wrapper" with
  | true => rfl
  | false =>
      cases spoils document "root_base" with
      | true => rfl
      | false => cases spoils document "type_attribute" <;> rfl

/-- Notices apart, reading a document gives what its three keys give. -/
theorem map_fst_ofDocument (path : String) (document : TomlEntries) :
    (ofDocument path document).map Prod.fst = settingsOf document := by
  unfold ofDocument
  cases found : table? document with
  | none =>
      have unspoilt : firstSpoilt? document = none :=
        List.find?_eq_none.mpr fun key _ => by simp [spoils_of_table?_eq_none found]
      rw [settingsOf, unspoilt]
      simp [ofGiven, textAt?, given?, found, Except.map]
  | some table =>
      rw [← ofTable_of_table? found]
      cases outcome : ofTable table <;> simp [outcome, Except.map]

theorem firstSpoilt?_eq_none_iff :
    firstSpoilt? document = none ↔ ∀ key ∈ keys, spoils document key = false := by
  simp [firstSpoilt?]

theorem exists_firstSpoilt?_iff :
    (∃ key, firstSpoilt? document = some key) ↔ ∃ key ∈ keys, spoils document key = true := by
  rw [← Option.isSome_iff_exists, firstSpoilt?, List.find?_isSome]

theorem settingsOf_eq_ok_iff {settings : Settings} :
    settingsOf document = .ok settings ↔
      (∀ key ∈ keys, spoils document key = false) ∧ settings = ofGiven document := by
  rw [settingsOf, ← firstSpoilt?_eq_none_iff]
  cases firstSpoilt? document <;> simp [eq_comm]

theorem settingsOf_eq_error_iff {fault : SettingsFault} :
    settingsOf document = .error fault ↔
      ∃ key, firstSpoilt? document = some key ∧ fault = .notText key := by
  rw [settingsOf]
  cases firstSpoilt? document <;> simp [eq_comm]

/-- What is read of a document depends on the three keys only. -/
theorem settingsOf_congr {other : TomlEntries}
    (agree : ∀ key ∈ keys, given? document key = given? other key) :
    settingsOf document = settingsOf other := by
  simp only [keys, List.forall_mem_cons] at agree
  obtain ⟨wrapper, root, marker, _⟩ := agree
  have spoilt : firstSpoilt? document = firstSpoilt? other := by
    simp only [firstSpoilt?, keys, List.find?_cons, List.find?_nil, spoils, wrapper, root, marker]
  have given : ofGiven document = ofGiven other := by
    simp only [ofGiven, textAt?, wrapper, root, marker]
  rw [settingsOf, settingsOf, spoilt, given]

/-! ## What the bytes of a file give -/

/-- The document that the bytes of a file hold, or the fault of reading it. -/
def documentOf (bytes : ByteArray) : Except SettingsFault TomlEntries :=
  match String.fromUTF8? bytes with
  | none => .error .undecodable
  | some text => (read text).mapError .ofToml

/-- The content of a file can be converted: it is UTF-8 text, in which no integer is too long. -/
def Convertible (bytes : ByteArray) : Prop :=
  ∃ text, String.fromUTF8? bytes = some text ∧ read text ≠ .error .integerTooLong

theorem documentOf_cases (bytes : ByteArray) :
    (¬ Convertible bytes ∧ ∃ fault, documentOf bytes = .error fault ∧ ¬ fault.IsReported) ∨
      (Convertible bytes ∧
        (documentOf bytes = .error .malformed ∨ ∃ document, documentOf bytes = .ok document)) := by
  unfold Convertible documentOf
  cases String.fromUTF8? bytes with
  | none => exact .inl ⟨by simp, _, rfl, not_isReported_undecodable⟩
  | some text =>
      simp only [Option.some.injEq, exists_eq_left']
      cases outcome : read text with
      | ok document => exact .inr ⟨nofun, .inr ⟨document, rfl⟩⟩
      | error fault =>
          cases fault with
          | malformed => exact .inr ⟨by simp, .inl rfl⟩
          | integerTooLong => exact .inl ⟨by simp, _, rfl, by simp [isReported_ofToml]⟩

theorem documentOf_ne_notText (bytes : ByteArray) (key : String) :
    documentOf bytes ≠ .error (.notText key) := by
  intro held
  rcases documentOf_cases bytes with ⟨_, fault, same, silent⟩ | ⟨_, same | ⟨document, same⟩⟩
  · obtain rfl := Except.error.inj (held.symm.trans same)
    exact silent (isReported_notText key)
  · exact nomatch held.symm.trans same
  · exact nomatch held.symm.trans same

theorem ofBytes_eq (path : String) (bytes : ByteArray) :
    ofBytes path bytes = (documentOf bytes).bind (ofDocument path) := by
  unfold ofBytes documentOf
  cases String.fromUTF8? bytes <;> rfl

theorem map_fst_ofBytes (path : String) (bytes : ByteArray) :
    (ofBytes path bytes).map Prod.fst = (documentOf bytes).bind settingsOf := by
  rw [ofBytes_eq]
  cases documentOf bytes with
  | error fault => rfl
  | ok document => exact map_fst_ofDocument path document

variable {path : String} {bytes : ByteArray}

theorem exists_ofBytes_eq_ok_iff {settings : Settings} :
    (∃ notices, ofBytes path bytes = .ok (settings, notices)) ↔
      ∃ document, documentOf bytes = .ok document ∧ settingsOf document = .ok settings := by
  have noticesApart : (∃ notices, ofBytes path bytes = .ok (settings, notices)) ↔
      (ofBytes path bytes).map Prod.fst = .ok settings := by
    cases ofBytes path bytes <;> simp [Except.map, Prod.ext_iff]
  rw [noticesApart, map_fst_ofBytes]
  cases documentOf bytes <;> simp [Except.bind]

theorem ofBytes_eq_error_iff {fault : SettingsFault} :
    ofBytes path bytes = .error fault ↔ documentOf bytes = .error fault ∨
      ∃ document, documentOf bytes = .ok document ∧ settingsOf document = .error fault := by
  have noticesApart : ofBytes path bytes = .error fault ↔
      (ofBytes path bytes).map Prod.fst = .error fault := by
    cases ofBytes path bytes <;> simp [Except.map]
  rw [noticesApart, map_fst_ofBytes]
  cases documentOf bytes <;> simp [Except.bind]

/-- A fault that is not reported is one of converting the bytes. -/
theorem exists_silent_fault_iff :
    (∃ fault, ofBytes path bytes = .error fault ∧ ¬ fault.IsReported) ↔ ¬ Convertible bytes := by
  rcases documentOf_cases bytes with ⟨apart, fault, held, silent⟩ | ⟨convertible, held⟩
  · exact iff_of_true ⟨fault, ofBytes_eq_error_iff.mpr (.inl held), silent⟩ apart
  · refine iff_of_false ?_ (not_not_intro convertible)
    rintro ⟨fault, read, silent⟩
    refine silent ?_
    rcases ofBytes_eq_error_iff.mp read with same | ⟨document, _, spoilt⟩
    · rcases held with held | ⟨document, held⟩
      · exact .inl (Except.error.inj (same.symm.trans held))
      · exact nomatch same.symm.trans held
    · obtain ⟨key, _, rfl⟩ := settingsOf_eq_error_iff.mp spoilt
      exact isReported_notText key

/-- A reported fault is one of a text that is no document, or of a key of the document. -/
theorem exists_reported_fault_iff :
    (∃ fault, ofBytes path bytes = .error fault ∧ fault.IsReported) ↔
      documentOf bytes = .error .malformed ∨
        ∃ document, documentOf bytes = .ok document ∧
          ∃ key ∈ keys, spoils document key = true := by
  constructor
  · rintro ⟨fault, read, reported⟩
    rcases ofBytes_eq_error_iff.mp read with held | ⟨document, held, spoilt⟩
    · rcases documentOf_cases bytes with ⟨_, other, same, silent⟩ | ⟨_, found⟩
      · obtain rfl := Except.error.inj (held.symm.trans same)
        exact absurd reported silent
      · rcases found with malformed | ⟨document, same⟩
        · exact .inl malformed
        · exact nomatch held.symm.trans same
    · obtain ⟨key, first, _⟩ := settingsOf_eq_error_iff.mp spoilt
      exact .inr ⟨document, held, exists_firstSpoilt?_iff.mp ⟨key, first⟩⟩
  · rintro (malformed | ⟨document, held, spoilt⟩)
    · exact ⟨_, ofBytes_eq_error_iff.mpr (.inl malformed), .inl rfl⟩
    · obtain ⟨key, first⟩ := exists_firstSpoilt?_iff.mpr spoilt
      have fault := settingsOf_eq_error_iff.mpr ⟨key, first, rfl⟩
      exact ⟨_, ofBytes_eq_error_iff.mpr (.inr ⟨document, held, fault⟩), isReported_notText key⟩

end Settings

namespace Environment

variable {environment : Environment} {options : CommandOptions}

/-- A settings file in the directory itself comes before those further up. -/
theorem settingsFor_of_file {directory : List String} {bytes : ByteArray}
    (file : environment.root.at? (directory ++ [settingsFile]) = some (.file bytes)) :
    environment.settingsFor directory =
      let path := (Path.absolute (directory ++ [settingsFile])).text
      (path, Settings.ofBytes path bytes) := by
  simp only [settingsFor, settingsDirectories, List.findSome?_cons, settingsIn?, file,
    Option.getD_some]

/-- A command whose settings cannot be read ends with their fault, before any source is read. -/
theorem run_of_settings_fault {place : SourcePlace} {path : String} {fault : SettingsFault}
    (located : environment.placeOf options.source = .ok place)
    (named : (options.package <|> place.package) ≠ none)
    (unread : environment.settingsFor place.root = (path, .error fault)) :
    (∀ out workers, environment.run (.extract options out workers) =
        environment.failSettings path fault) ∧
      environment.run (.types options) = environment.failSettings path fault := by
  obtain ⟨package, named⟩ := Option.ne_none_iff_exists'.mp named
  have unprepared : environment.prepare options = .error (environment.failSettings path fault) := by
    have placed {ε : Type} (change : String → ε) :
        (Except.ok place).mapError change = .ok place := rfl
    have refused {α ε : Type} (change : SettingsFault → ε) :
        (Except.error fault : Except SettingsFault α).mapError change = .error (change fault) := rfl
    unfold prepare
    rw [located]
    simp only [placed, refused, bind, Except.bind, named, unread]
  refine ⟨fun out workers => ?_, ?_⟩
  · simp only [run, runExtract, unprepared, bind, Except.bind]
  · simp only [run, runTypes, unprepared, bind, Except.bind]

end Environment

namespace Settings

/-- **Outcomes of reading settings.** Whatever bytes the settings file holds:

* reading ends with a fault that is not reported exactly when the bytes cannot be converted;
* it ends with a reported fault exactly when they can be converted, but are no document, or a
  document in which one of the three keys is there without being a text that is not empty; the fault
  names the first such key;
* it gives settings exactly otherwise: each key that is given has its text, and each other key its
  default;
* documents that agree on the three keys give the same, whatever else they hold.

A command whose settings end with a reported fault prints one line with the path of their file and
fails; any other fault ends it without a line. -/
theorem outcomes_of_bytes (path : String) (bytes : ByteArray) :
    ((∃ fault, ofBytes path bytes = .error fault ∧ ¬ fault.IsReported) ↔ ¬ Convertible bytes) ∧
    ((∃ fault, ofBytes path bytes = .error fault ∧ fault.IsReported) ↔
      documentOf bytes = .error .malformed ∨
        ∃ document, documentOf bytes = .ok document ∧
          ∃ key ∈ keys, spoils document key = true) ∧
    (∀ key, ofBytes path bytes = .error (.notText key) ↔
      ∃ document, documentOf bytes = .ok document ∧ firstSpoilt? document = some key) ∧
    (∀ settings, (∃ notices, ofBytes path bytes = .ok (settings, notices)) ↔
      ∃ document, documentOf bytes = .ok document ∧
        (∀ key ∈ keys, spoils document key = false) ∧ settings = ofGiven document) ∧
    (∀ others document other, documentOf bytes = .ok document → documentOf others = .ok other →
      (∀ key ∈ keys, given? document key = given? other key) →
      (ofBytes path bytes).map Prod.fst = (ofBytes path others).map Prod.fst) ∧
    ∀ (environment : Environment) (options : CommandOptions) (place : Environment.SourcePlace),
      environment.placeOf options.source = .ok place →
      (options.package <|> place.package) ≠ none →
      environment.settingsFor place.root = (path, ofBytes path bytes) →
      ∀ fault, ofBytes path bytes = .error fault →
      ∃ result, (∀ out workers, environment.run (.extract options out workers) = result) ∧
        environment.run (.types options) = result ∧
        (fault.IsReported → result = environment.failWith
          ["settings:" ++ path ++ ":" ++ fault.message?.getD ""]) ∧
        (¬ fault.IsReported → ∃ crash, result = environment.crashWith crash) := by
  refine ⟨exists_silent_fault_iff, exists_reported_fault_iff, fun key => ?_, fun settings => ?_,
    fun others document other held holds agree => ?_, ?_⟩
  · rw [ofBytes_eq_error_iff]
    simp [documentOf_ne_notText, settingsOf_eq_error_iff]
  · simp only [exists_ofBytes_eq_ok_iff, settingsOf_eq_ok_iff]
  · rw [map_fst_ofBytes, map_fst_ofBytes, held, holds]
    exact settingsOf_congr agree
  · intro environment options place located named file fault failed
    rw [failed] at file
    obtain ⟨extracts, lists⟩ := Environment.run_of_settings_fault located named file
    exact ⟨_, extracts, lists, environment.failSettings_of_isReported path,
      environment.failSettings_of_not_isReported path⟩

namespace Sample

/-- The root base is given as the empty text. -/
def spoilt : String := "[tool.serialschema]\nroot_base = ''\n"

/-- The same among other keys and tables. -/
def crowded : String := "x = 1\n[tool]\nserialschema = \x7broot_base = '', extra = 2\x7d\n[tool.other]\n"

/-- Of the three keys, a document gives only the root base, as the empty text. -/
def givesEmptyRoot (document : TomlEntries) : Bool :=
  (given? document "optional_wrapper").isNone && (given? document "type_attribute").isNone &&
    match given? document "root_base" with
    | some (.string text) => text == ""
    | _ => false

/-- The same for the document that a text writes. -/
def writesEmptyRoot (text : String) : Bool :=
  match read text with
  | .ok document => givesEmptyRoot document
  | .error _ => false

/-- A package with a settings file of its own. -/
def environment : Environment where
  root := .directory [("p", .directory
    [("__init__.py", .file "".toUTF8), ("pyproject.toml", .file spoilt.toUTF8)])]
  current := []
  searchPath := []
  time := ""

def options : CommandOptions := ⟨"/p", none, false, false⟩

theorem exists_documentOf {text : String} (gives : writesEmptyRoot text = true) :
    ∃ document, documentOf text.toUTF8 = .ok document ∧ givesEmptyRoot document = true := by
  have decoded : String.fromUTF8? text.toUTF8 = some text := by
    rw [String.fromUTF8?, String.toUTF8_eq_toByteArray, dif_pos text.isValidUTF8]
    rfl
  unfold documentOf
  rw [decoded]
  unfold writesEmptyRoot at gives
  cases outcome : read text with
  | error fault => rw [outcome] at gives; exact absurd gives Bool.false_ne_true
  | ok document => rw [outcome] at gives; exact ⟨document, by simp only [outcome]; rfl, gives⟩

theorem given?_of_givesEmptyRoot {document : TomlEntries}
    (gives : givesEmptyRoot document = true) :
    given? document "optional_wrapper" = none ∧ given? document "type_attribute" = none ∧
      given? document "root_base" = some (.string "") := by
  simp only [givesEmptyRoot, Bool.and_eq_true, Option.isNone_iff_eq_none] at gives
  obtain ⟨⟨wrapper, marker⟩, root⟩ := gives
  refine ⟨wrapper, marker, ?_⟩
  split at root
  · rename_i text isGiven
    rw [isGiven, beq_iff_eq.mp root]
  · exact absurd root Bool.false_ne_true

end Sample

open TypeCatalog.Settings.Sample in
/-- The spoilt key is told with the place of the file, and nothing else in a document matters. -/
theorem outcomes_of_spoilt :
    Sample.environment.placeOf options.source = .ok ⟨["p"], some "p"⟩ ∧
      Sample.environment.run (.types options) = Sample.environment.failWith
        ["settings:/p/pyproject.toml:tool.serialschema.root_base must be a non-empty string"] ∧
      (ofBytes "/p/pyproject.toml" spoilt.toUTF8).map Prod.fst =
        (ofBytes "/p/pyproject.toml" crowded.toUTF8).map Prod.fst := by
  have spoiltReads : writesEmptyRoot spoilt = true := by decide +kernel
  have crowdedReads : writesEmptyRoot crowded = true := by decide +kernel
  obtain ⟨document, held, gives⟩ := exists_documentOf spoiltReads
  obtain ⟨other, holds, givesAlike⟩ := exists_documentOf crowdedReads
  obtain ⟨wrapper, marker, root⟩ := given?_of_givesEmptyRoot gives
  obtain ⟨otherWrapper, otherMarker, otherRoot⟩ := given?_of_givesEmptyRoot givesAlike
  obtain ⟨_, _, faults, _, alike, commands⟩ :=
    outcomes_of_bytes "/p/pyproject.toml" spoilt.toUTF8
  have agree : ∀ key ∈ keys, given? document key = given? other key := by
    simp [keys, wrapper, marker, root, otherWrapper, otherMarker, otherRoot]
  have first : firstSpoilt? document = some "root_base" := by
    simp [firstSpoilt?, keys, spoils, wrapper, root, usableText?]
  have fault := (faults "root_base").mpr ⟨document, held, first⟩
  have located : Sample.environment.placeOf options.source = .ok ⟨["p"], some "p"⟩ := rfl
  have place :
      (Path.absolute (["p"] ++ [Environment.settingsFile])).text = "/p/pyproject.toml" := by
    decide
  have file := Environment.settingsFor_of_file
    (show Sample.environment.root.at? (["p"] ++ [Environment.settingsFile]) =
      some (.file spoilt.toUTF8) from rfl)
  rw [place] at file
  obtain ⟨result, _, lists, reported, _⟩ := commands Sample.environment options _ located
    (by decide) file _ fault
  exact ⟨located, lists.trans (reported (isReported_notText _)),
    alike _ document other held holds agree⟩

/-- **Undecodable settings are not reported.** Text that is not UTF-8 gives neither settings nor a
reported fault. -/
theorem undecodable_settings_are_not_reported :
    ¬ ∀ path bytes, (∃ settings notices, ofBytes path bytes = .ok (settings, notices)) ∨
      ∃ fault, ofBytes path bytes = .error fault ∧ fault.IsReported := by
  intro always
  have invalid : ¬ ByteArray.IsValidUTF8 ⟨#[0xff, 0xfe]⟩ := by
    rw [← ByteArray.validateUTF8_eq_true_iff]
    decide
  have undecoded : String.fromUTF8? ⟨#[0xff, 0xfe]⟩ = none := dif_neg invalid
  have read : ofBytes "pyproject.toml" ⟨#[0xff, 0xfe]⟩ = .error .undecodable := by
    rw [ofBytes, undecoded]
  rcases always "pyproject.toml" ⟨#[0xff, 0xfe]⟩ with
    ⟨settings, notices, given⟩ | ⟨fault, other, told⟩
  · exact nomatch read.symm.trans given
  · obtain rfl := Except.error.inj (read.symm.trans other)
    exact not_isReported_undecodable told

end Settings

end TypeCatalog
