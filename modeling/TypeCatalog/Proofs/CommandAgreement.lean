import TypeCatalog.Proofs.HiddenClasses
import TypeCatalog.Proofs.StandardLines

/-! # Commands that agree

Listing the types of a source tree and extracting their records load one program and choose from it
in one way (`TypeCatalog.Environment.commands_agree`): the names that are listed are those of the
lines that are extracted, and the records of the serializable types are those records of all types
that say so. What is printed has a line for each name unless a name holds line ends itself, which it
can have from the package or from the names of files
(`TypeCatalog.Environment.packages_can_break_lines`).
-/

namespace TypeCatalog

open Syntax FileNode

/-! ## Plain texts -/

namespace Text

/-- A text without line feeds and without the character that control sequences of terminals begin
with. -/
def IsPlain (text : String) : Prop := ∀ c ∈ text.toList, c ≠ '\n' ∧ c ≠ '\x1b'

theorem IsPlain.append {left right : String} (first : IsPlain left) (second : IsPlain right) :
    IsPlain (left ++ right) := by
  intro c member
  rw [String.toList_append, List.mem_append] at member
  exact member.elim (first c) (second c)

theorem isPlain_dotted {parts : List String} (each : ∀ part ∈ parts, IsPlain part) :
    IsPlain (dotted parts) := by
  induction parts using List.reverseRecOn with
  | nil => exact fun c inNone => absurd inNone (by simp [dotted])
  | append_singleton front last ih =>
      have lastPlain := each last (by simp)
      cases front with
      | nil => rwa [List.nil_append, dotted, String.intercalate_singleton]
      | cons first front =>
          rw [dotted_concat (List.cons_ne_nil _ _)]
          have before := ih fun part member => each part (List.mem_append_left _ member)
          exact (before.append (by simp [IsPlain])).append lastPlain

/-- Plain texts that are written one to a line are the lines of what is written. -/
theorem splitAt_join {write : String → String}
    (written : ∀ text, IsPlain text → write text = text ++ "\n") {texts : List String}
    (plain : ∀ text ∈ texts, IsPlain text) :
    splitAt '\n' (String.join (texts.map write)) = texts ++ [""] := by
  induction texts with
  | nil => rfl
  | cons text rest ih =>
      have first : IsPlain text := plain text List.mem_cons_self
      rw [List.map_cons, String.join_cons, written text first, splitAt_append rfl,
        splitAt_of_notMem fun member => (first _ member).1 rfl,
        ih fun other member => plain other (List.mem_cons_of_mem _ member)]
      rfl

end Text

theorem Identifier.isPlain (identifier : Identifier) : Text.IsPlain identifier.text := by
  intro c member
  refine ⟨?_, ?_⟩
  · rintro rfl
    exact identifier.notMem (by decide) (by decide) member
  · rintro rfl
    exact identifier.notMem (by decide) (by decide) member

/-- A module has a plain name when the package and the names of its path are plain. -/
theorem isPlain_moduleName {package : String} (plain : Text.IsPlain package) {path : List String}
    (names : ∀ name ∈ path, Text.IsPlain name) : Text.IsPlain (moduleName package path) := by
  have parts : ∀ part ∈ moduleParts path, Text.IsPlain part := by
    fun_induction moduleParts path with
    | case1 => simp
    | case2 name isPackage => simp
    | case3 name other =>
        rw [List.forall_mem_singleton, stemOf]
        have isName := names name (by simp)
        split
        · exact isName
        · intro c member
          rw [String.toList_ofList] at member
          exact isName c (List.mem_of_mem_take member)
    | case4 name rest _ ih =>
        rw [List.forall_mem_cons]
        exact ⟨names name List.mem_cons_self,
          ih fun other member => names other (List.mem_cons_of_mem _ member)⟩
  refine Text.isPlain_dotted ?_
  rw [List.forall_mem_cons]
  exact ⟨plain, parts⟩

/-- A class statement has a plain name when its module has. -/
theorem ClassSite.isPlain_fqn {unit : SourceUnit} {site : ClassSite}
    (inUnit : site ∈ unit.classSites) (plain : Text.IsPlain unit.name) :
    Text.IsPlain site.fqn := by
  obtain ⟨scopes, around⟩ := exists_around_eq inUnit
  refine Text.isPlain_dotted ?_
  rw [around, List.forall_mem_append, List.forall_mem_cons, List.forall_mem_map,
    List.forall_mem_singleton]
  exact ⟨⟨plain, fun scope _ => scope.isPlain⟩, site.header.name.isPlain⟩

/-! ## Lines that say what a record is -/

namespace Json

theorem Proper.sorted {value : Json} (proper : Proper value) : Proper value.sorted := by
  induction proper with
  | null => exact .null
  | bool value => exact .bool value
  | int value => exact .int value
  | float isNumber => exact .float isNumber
  | string value => exact .string value
  | array _ sorted =>
      rw [Json.sorted, sortedItems_eq_map]
      exact .array (List.forall_mem_map.mpr sorted)
  | object distinct _ sorted =>
      rw [sorted_object]
      refine .object ?_ (List.forall_mem_map.mpr fun member listed =>
        sorted member ((sortMembers_perm _).mem_iff.mp listed))
      rw [List.map_map]
      exact ((sortMembers_perm _).map Prod.fst).nodup_iff.mpr distinct

/-- A member that is a text or a truth value is read back from the text of its object. -/
theorem member?_read_back {value : Json} (proper : Proper value) {key : String} {leaf : Json}
    (given : value.member? key = some leaf) (rigid : ∀ other, Same other leaf → other = leaf) :
    ∃ copy, read? value.sorted.write = some copy ∧ copy.member? key = some leaf := by
  refine ⟨_, read?_write proper.sorted, ?_⟩
  -- the written value is sorted, and what is read back is sorted again
  have once := (same_sorted proper).member? key
  have twice := (same_sorted proper.sorted).member? key
  rw [given] at once
  generalize value.sorted.member? key = inner at once twice
  generalize value.sorted.sorted.member? key = outer at twice ⊢
  cases once with
  | some same =>
      obtain rfl := rigid _ same
      cases twice with
      | some same => rw [rigid _ same]

end Json

namespace TypeRecord

/-- The line of a record. -/
def line (record : TypeRecord) : String := record.toJson.sorted.write

/-- The line of a record names its type. -/
theorem fqn_read_back {record : TypeRecord} (wellFormed : record.WellFormed) :
    ∃ copy, Json.read? record.line = some copy ∧
      copy.member? "fqn" = some (.string record.fqn) := by
  have given : record.toJson.member? "fqn" = some (.string record.fqn) := rfl
  exact Json.member?_read_back wellFormed.proper_toJson given fun other same => by cases same; rfl

end TypeRecord

/-- Whether a line says that its type is serializable. -/
def saysSerializable (line : String) : Bool :=
  match (Json.read? line).bind fun record => record.member? "serializable" with
  | some (.bool true) => true
  | _ => false

theorem TypeRecord.saysSerializable_line {record : TypeRecord} (wellFormed : record.WellFormed) :
    saysSerializable record.line = record.serializable := by
  have given : record.toJson.member? "serializable" = some (.bool record.serializable) := rfl
  obtain ⟨copy, read, found⟩ := Json.member?_read_back wellFormed.proper_toJson given
    fun other same => by cases same; rfl
  rw [saysSerializable, line, read, Option.bind_some, found]
  cases record.serializable <;> rfl

/-- The lines of the serializable types are those lines of all types that say so. -/
theorem Program.lines_of_serializable (sources : List SourceModule) (settings : Settings) :
    ((ofModules sources).index.describe settings true).map TypeRecord.line =
      (((ofModules sources).index.describe settings false).map TypeRecord.line).filter
        saysSerializable := by
  have wellFormed := wellFormed_describe sources settings false
  have chosen : (ofModules sources).index.describe settings true =
      ((ofModules sources).index.describe settings false).filter TypeRecord.serializable := by
    rw [Index.describe, Index.describe, List.filter_map, Index.describedTypes,
      Index.describedTypes, List.filter_filter]
    simp [Index.describeType]
  rw [chosen, List.filter_map]
  refine congrArg _ (List.filter_congr fun record described => ?_)
  exact (TypeRecord.saysSerializable_line (wellFormed record described)).symm

/-- What stands at a place is a file of lines, each with a line feed behind it. -/
def FileNode.HasLines (root : FileNode) (place lines : List String) : Prop :=
  ∃ text, root.standing place = .file text.toUTF8 ∧ Text.splitAt '\n' text = lines ++ [""]

/-- A file has its lines in one way. -/
theorem FileNode.HasLines.unique {root : FileNode} {place lines others : List String}
    (has : root.HasLines place lines) (alsoHas : root.HasLines place others) : lines = others := by
  obtain ⟨text, stands, split⟩ := has
  obtain ⟨other, alsoStands, alsoSplit⟩ := alsoHas
  have same : text = other :=
    String.toByteArray_inj.mp (Standing.file.inj (stands.symm.trans alsoStands))
  rw [same, alsoSplit] at split
  exact (List.append_cancel_right split).symm

namespace Environment

variable (environment : Environment) (options : CommandOptions)

/-! ## Runs of commands -/

/-- The tree in which a command looks for sources. -/
def sourceTree (prepared : Prepared) : FileNode :=
  (environment.root.at? prepared.root).getD (.directory [])

theorem load_eq (prepared : Prepared) (workers : Int) : environment.load prepared workers =
    loadProgram (.absolute prepared.root) (environment.sourceTree prepared) prepared.package
      workers := rfl

variable {environment options}

/-- A program that is loaded is loaded by any number of workers. -/
theorem load_of_load {prepared : Prepared} {workers others : Int} {program : Program}
    (loaded : environment.load prepared workers = .ok program) (staffed : 1 ≤ others) :
    environment.load prepared others = .ok program := by
  rw [load_eq, loadProgram_eq _ _ _ staffed, ← loadProgram_eq _ _ _ (staffed_of_loadProgram loaded)]
  exact loaded

theorem ending_failSettings (path : String) (fault : SettingsFault) :
    (environment.failSettings path fault).ending ≠ .success := by
  unfold failSettings
  split <;> simp [crashWith, failWith]

/-- What keeps a command from being prepared keeps it from succeeding. -/
theorem ending_of_prepare {result : CommandResult}
    (failed : environment.prepare options = .error result) : result.ending ≠ .success := by
  unfold prepare at failed
  cases found : environment.placeOf options.source with
  | error message =>
      rw [found] at failed
      obtain rfl := Except.error.inj failed
      simp [failWith]
  | ok place =>
      rw [found] at failed
      simp only [Except.mapError, bind, Except.bind] at failed
      -- no package is known, or the settings decide
      split at failed
      · obtain rfl := Except.error.inj failed
        simp [failWith]
      · cases read : (environment.settingsFor place.root).2 with
        | error fault =>
            simp only [read] at failed
            obtain rfl := Except.error.inj failed
            exact ending_failSettings _ fault
        | ok settings => simp [read, pure, Except.pure] at failed

theorem ending_failLoading (failure : LoadFailure) :
    (environment.failLoading failure).ending ≠ .success := by
  cases failure <;> simp [failLoading, crashWith, failWith]

theorem ending_failExtraction (out : Path) (fault : ExtractionFault) :
    (environment.failExtraction out fault).ending ≠ .success := by
  cases fault with
  | unloaded failure => exact ending_failLoading failure
  | invalid faults => simp [failExtraction, failWith]
  | unwritable => simp [failExtraction, failWith]

/-- The listing of a program that is loaded. -/
theorem run_types {prepared : Prepared} {program : Program}
    (ready : environment.prepare options = .ok prepared)
    (loaded : environment.load prepared 1 = .ok program) :
    environment.run (.types options) =
      { ending := .success
        output := (program.index.describedTypes prepared.settings options.serializableOnly).map
          TypeSymbol.fqn
        notices := prepared.notices ++ program.notices
        root := environment.root } := by
  simp only [run, runTypes, ready, loaded, Except.mapError, bind, Except.bind, pure, Except.pure]

/-- A listing succeeds when its program is loaded. -/
theorem exists_loaded_of_run_types
    (success : (environment.run (.types options)).ending = .success) :
    ∃ prepared program, environment.prepare options = .ok prepared ∧
      environment.load prepared 1 = .ok program := by
  cases ready : environment.prepare options with
  | error result =>
      simp only [run, runTypes, ready, bind, Except.bind] at success
      exact absurd success (ending_of_prepare ready)
  | ok prepared =>
      cases loaded : environment.load prepared 1 with
      | error failure =>
          simp only [run, runTypes, ready, loaded, Except.mapError, bind, Except.bind] at success
          exact absurd success (ending_failLoading failure)
      | ok program => exact ⟨prepared, program, rfl, loaded⟩

/-- A run of an extraction that succeeds. -/
theorem exists_outcome_of_run_extract {out : String} {workers : Int}
    (success : (environment.run (.extract options out workers)).ending = .success) :
    ∃ prepared notices, environment.prepare options = .ok prepared ∧
      (environment.extract prepared workers options.serializableOnly (.ofText out)).outcome =
        .ok notices ∧
      (environment.run (.extract options out workers)).root =
        (environment.extract prepared workers options.serializableOnly (.ofText out)).root := by
  cases ready : environment.prepare options with
  | error result =>
      simp only [run, runExtract, ready, bind, Except.bind] at success
      exact absurd success (ending_of_prepare ready)
  | ok prepared =>
      cases outcome : (environment.extract prepared workers options.serializableOnly
          (.ofText out)).outcome with
      | error fault =>
          simp only [run, runExtract, ready, outcome, bind, Except.bind] at success
          exact absurd success (ending_failExtraction _ fault)
      | ok notices =>
          refine ⟨prepared, notices, rfl, outcome, ?_⟩
          simp only [run, runExtract, ready, outcome, bind, Except.bind, pure, Except.pure]

/-- An extraction whose outcome is no failure is a run that succeeds. -/
theorem run_extract_ending {prepared : Prepared} {out : String} {workers : Int}
    {notices : List Notice} (ready : environment.prepare options = .ok prepared)
    (outcome : (environment.extract prepared workers options.serializableOnly
      (.ofText out)).outcome = .ok notices) :
    (environment.run (.extract options out workers)).ending = .success := by
  simp only [run, runExtract, ready, outcome, bind, Except.bind, pure, Except.pure]

/-- The file of a run of an extraction that succeeds holds the lines of the records. -/
theorem lines_of_run_extract {out : String} {workers : Int}
    (inside : environment.root.standing environment.current = .directory)
    (success : (environment.run (.extract options out workers)).ending = .success) :
    ∃ prepared program, environment.prepare options = .ok prepared ∧
      environment.load prepared workers = .ok program ∧
      (environment.run (.extract options out workers)).root.HasLines
        (environment.recordsPlace (.ofText out))
        ((program.index.describe prepared.settings options.serializableOnly).map
          TypeRecord.line) := by
  obtain ⟨prepared, notices, ready, outcome, root⟩ := exists_outcome_of_run_extract success
  obtain ⟨program, text, loaded, stands, split⟩ :=
    environment.lines_of_extract prepared workers _ _ inside outcome
  refine ⟨prepared, program, ready, loaded, text, root ▸ stands, ?_⟩
  rw [split, Index.describe, List.map_map]
  rfl

/-- The records of a program that is loaded are well-formed. -/
theorem wellFormed_of_load {prepared : Prepared} {workers : Int} {program : Program}
    (loaded : environment.load prepared workers = .ok program) (settings : Settings)
    (serializableOnly : Bool) :
    ∀ record ∈ program.index.describe settings serializableOnly, record.WellFormed := by
  obtain ⟨modules, index⟩ := exists_modules_of_load loaded
  rw [index]
  exact Program.wellFormed_describe modules settings serializableOnly

/-! ## Names that are listed -/

variable (environment options) in
/-- The package that a command works on and the names of the paths of its sources are plain. -/
def PlainNames : Prop := ∀ prepared, environment.prepare options = .ok prepared →
  Text.IsPlain prepared.package ∧
    ∀ found ∈ (environment.sourceTree prepared).discover, ∀ name ∈ found.1, Text.IsPlain name

/-- The types of a program have plain names when its package and the paths of its sources have. -/
theorem isPlain_of_mem_namedTypes {prepared : Prepared} {workers : Int} {program : Program}
    (loaded : environment.load prepared workers = .ok program)
    (plain : Text.IsPlain prepared.package)
    (names : ∀ found ∈ (environment.sourceTree prepared).discover, ∀ name ∈ found.1,
      Text.IsPlain name) {symbol : TypeSymbol} (named : symbol ∈ program.index.namedTypes) :
    Text.IsPlain symbol.fqn := by
  obtain ⟨modules, notices, rfl, -, moduleNames⟩ := exists_modules_of_loaded loaded
  obtain ⟨unit, listed, site, inUnit, fqn⟩ := Program.exists_site_of_mem_namedTypes named
  rw [fqn]
  refine ClassSite.isPlain_fqn inUnit ?_
  have isName : unit.name ∈ modules.map SourceModule.name := by
    rw [← SourceUnit.map_ofModules SourceModule.name modules]
    exact List.mem_map_of_mem listed
  rw [moduleNames] at isName
  obtain ⟨found, discovered, same⟩ := List.mem_map.mp isName
  rw [← same]
  exact isPlain_moduleName plain (names found discovered)

/-! ## Agreement -/

variable (environment options) in
/-- **The commands agree.** A listing succeeds exactly when its program is loaded. When an
extraction succeeds, so does the listing, and the lines of the records name the types that are
listed, in the same order; the lines of the serializable types are those lines of all types that say
so. What is printed has the listed names as its lines when the package and the paths of the sources
are plain, however plain texts are written one to a line. -/
theorem commands_agree (inside : environment.root.standing environment.current = .directory) :
    let listing := environment.run (.types options)
    (listing.ending = .success ↔ ∃ prepared program, environment.prepare options = .ok prepared ∧
      ∀ workers, 1 ≤ workers → environment.load prepared workers = .ok program) ∧
    (∀ out workers, let extraction := environment.run (.extract options out workers)
      extraction.ending = .success → listing.ending = .success ∧
        ∃ lines, extraction.root.HasLines (environment.recordsPlace (.ofText out)) lines ∧
          List.Forall₂ (fun line name => ∃ record, Json.read? line = some record ∧
            record.member? "fqn" = some (.string name)) lines listing.output) ∧
    (environment.PlainNames options → listing.ending = .success → ∀ write : String → String,
      (∀ text, Text.IsPlain text → write text = text ++ "\n") →
        Text.splitAt '\n' (listing.printed write) = listing.output ++ [""]) ∧
    ∀ out workers otherOut otherWorkers,
      let whole :=
        environment.run (.extract { options with serializableOnly := false } out workers)
      let chosen :=
        environment.run (.extract { options with serializableOnly := true } otherOut otherWorkers)
      whole.ending = .success → chosen.ending = .success →
        ∃ lines, whole.root.HasLines (environment.recordsPlace (.ofText out)) lines ∧
          chosen.root.HasLines (environment.recordsPlace (.ofText otherOut))
            (lines.filter saysSerializable) := by
  intro listing
  refine ⟨⟨?_, ?_⟩, ?_, ?_, ?_⟩
  · intro success
    obtain ⟨prepared, program, ready, loaded⟩ := exists_loaded_of_run_types success
    exact ⟨prepared, program, ready, fun workers staffed => load_of_load loaded staffed⟩
  · rintro ⟨prepared, program, ready, loaded⟩
    exact congrArg CommandResult.ending (run_types ready (loaded 1 (by decide)))
  · intro out workers extraction success
    obtain ⟨prepared, program, ready, loaded, lines⟩ := lines_of_run_extract inside success
    have listed : listing = _ := run_types ready (load_of_load loaded (by decide))
    rw [listed]
    refine ⟨rfl, _, lines, ?_⟩
    rw [Index.describe, List.map_map, List.forall₂_map_left_iff, List.forall₂_map_right_iff,
      List.forall₂_same]
    intro symbol described
    exact TypeRecord.fqn_read_back
      (wellFormed_of_load loaded _ _ _ (List.mem_map_of_mem described))
  · intro plain success write written
    obtain ⟨prepared, program, ready, loaded⟩ := exists_loaded_of_run_types success
    obtain ⟨package, names⟩ := plain prepared ready
    have listed : listing = _ := run_types ready loaded
    rw [listed]
    refine Text.splitAt_join written (List.forall_mem_map.mpr fun symbol described => ?_)
    exact isPlain_of_mem_namedTypes loaded package names (List.mem_filter.mp described).1
  · intro out workers otherOut otherWorkers whole chosen success chosenSuccess
    obtain ⟨prepared, program, ready, loaded, lines⟩ := lines_of_run_extract inside success
    obtain ⟨samePrepared, sameProgram, alsoReady, alsoLoaded, chosenLines⟩ :=
      lines_of_run_extract inside chosenSuccess
    -- the filter makes no difference to what is prepared and loaded
    obtain rfl : prepared = samePrepared := Except.ok.inj (ready.symm.trans alsoReady)
    obtain rfl : program = sameProgram := Except.ok.inj
      ((load_of_load loaded (staffed_of_loadProgram alsoLoaded)).symm.trans alsoLoaded)
    obtain ⟨modules, index⟩ := exists_modules_of_load loaded
    refine ⟨_, lines, ?_⟩
    rw [index, ← Program.lines_of_serializable, ← index]
    exact chosenLines

namespace Sample

/-- The name of the package of the samples. -/
def packageName : Identifier := ⟨"e", by decide +kernel⟩

/-- A preparation that does not fail, from its fields. -/
theorem eq_ok_of_fields {result : Except CommandResult Prepared} {target : Prepared}
    (fields : result.toOption.map (fun prepared =>
      (prepared.root, prepared.package, prepared.settings, prepared.notices)) =
        some (target.root, target.package, target.settings, target.notices)) :
    result = .ok target := by
  obtain ⟨prepared, given, same⟩ := Option.map_eq_some_iff.mp fields
  rw [eq_ok_of_toOption given]
  cases prepared
  cases target
  simp only [Prod.mk.injEq] at same
  simp [same]

/-- A package of two classes. -/
def twoClasses : FileNode := textFile "class A: pass\nclass B(A): pass\n"

/-- The package with settings by which the derived class is serializable. -/
def configuredTree : FileNode :=
  .directory [("__init__.py", twoClasses),
    ("pyproject.toml", textFile "[tool.serialschema]\nroot_base = \"e.A\"\n")]

def configured : Environment where
  root := .directory [("e", configuredTree)]
  current := []
  searchPath := []
  time := "2024-01-01T00:00:00+00:00"

/-- Options that choose all types or the serializable ones. -/
def optionsOf (package : Option String) (serializableOnly : Bool) : CommandOptions :=
  ⟨"e", package, serializableOnly, false⟩

/-- What the commands work on. -/
def configuredTarget : Prepared := ⟨["e"], "e", { rootBase := some "e.A" }, []⟩

theorem prepare_configured (serializableOnly : Bool) :
    configured.prepare (optionsOf none serializableOnly) = .ok configuredTarget :=
  eq_ok_of_fields (by cases serializableOnly <;> decide +kernel)

theorem discover_configuredTree :
    configuredTree.discover = [(["__init__.py"], twoClasses)] := List.mergeSort_singleton _

/-- The program of the package is loaded and lists its classes. -/
theorem exists_loaded_configured : ∃ program, configured.load configuredTarget 1 = .ok program ∧
    (program.index.describedTypes configuredTarget.settings false).map TypeSymbol.fqn =
      ["e.A", "e.B"] ∧
    (program.index.describedTypes configuredTarget.settings true).map TypeSymbol.fqn =
      ["e.B"] := by
  have evaluated : (loadProgram (.absolute ["e"]) configuredTree "e" 1).toOption.map (fun program =>
      ((program.index.describedTypes configuredTarget.settings false).map TypeSymbol.fqn,
        (program.index.describedTypes configuredTarget.settings true).map TypeSymbol.fqn)) =
      some (["e.A", "e.B"], ["e.B"]) := by
    rw [loadProgram, loadModules, readSources, discover_configuredTree]
    decide +kernel
  obtain ⟨program, found, facts⟩ := Option.map_eq_some_iff.mp evaluated
  exact ⟨program, eq_ok_of_toOption found, Prod.mk.inj facts⟩

/-- An extraction of the package does not fail. -/
theorem run_extract_configured (serializableOnly : Bool) {workers : Int} (staffed : 1 ≤ workers) :
    (configured.run (.extract (optionsOf none serializableOnly) "build" workers)).ending =
      .success := by
  obtain ⟨program, loaded, -⟩ := exists_loaded_configured
  obtain ⟨notices, outcome⟩ : ∃ notices, (configured.extract configuredTarget workers
      serializableOnly (.ofText "build")).outcome = .ok notices := by
    rw [extract, records_of_load serializableOnly (load_of_load loaded staffed)]
    exact ⟨_, rfl⟩
  exact run_extract_ending (prepare_configured serializableOnly) outcome

/-- A name of a package that holds a line feed. -/
def brokenOptions : CommandOptions := optionsOf (some "a\nb") false

def brokenTarget : Prepared := ⟨["e"], "a\nb", {}, []⟩

def broken : Environment := packageOf "class A: pass\n"

theorem prepare_broken : broken.prepare brokenOptions = .ok brokenTarget :=
  eq_ok_of_fields (by decide +kernel)

theorem exists_loaded_broken : ∃ program, broken.load brokenTarget 1 = .ok program ∧
    (program.index.describedTypes brokenTarget.settings false).map TypeSymbol.fqn =
      ["a\nb.A"] := by
  have evaluated : (loadProgram (.absolute ["e"])
      (.directory [("__init__.py", textFile "class A: pass\n")]) "a\nb" 1).toOption.map
        (fun program => (program.index.describedTypes brokenTarget.settings false).map
          TypeSymbol.fqn) = some ["a\nb.A"] := by
    rw [loadProgram, loadModules, readSources, discover_packageOf]
    decide +kernel
  obtain ⟨program, found, facts⟩ := Option.map_eq_some_iff.mp evaluated
  exact ⟨program, eq_ok_of_toOption found, facts⟩

theorem run_extract_broken :
    (broken.run (.extract brokenOptions "build" 1)).ending = .success := by
  obtain ⟨program, loaded, -⟩ := exists_loaded_broken
  obtain ⟨notices, outcome⟩ : ∃ notices, (broken.extract brokenTarget 1 false
      (.ofText "build")).outcome = .ok notices := by
    rw [extract, records_of_load false loaded]
    exact ⟨_, rfl⟩
  exact run_extract_ending prepare_broken outcome

end Sample

/-- In the sample both commands list two classes, of which the derived one is serializable. -/
theorem commands_agree_on_configured :
    let environment := Sample.configured
    let listing := environment.run (.types (Sample.optionsOf none false))
    let whole := environment.run (.extract (Sample.optionsOf none false) "build" 1)
    let chosen := environment.run (.extract (Sample.optionsOf none true) "build" 2)
    environment.root.standing environment.current = .directory ∧
      listing.ending = .success ∧ whole.ending = .success ∧ chosen.ending = .success ∧
      environment.PlainNames (Sample.optionsOf none false) ∧
      listing.output = ["e.A", "e.B"] ∧
      (environment.run (.types (Sample.optionsOf none true))).output = ["e.B"] ∧
      Text.splitAt '\n' (listing.printed fun line => line ++ "\n") = ["e.A", "e.B", ""] ∧
      ∃ lines, whole.root.HasLines ["build", "types.jsonl"] lines ∧
        chosen.root.HasLines ["build", "types.jsonl"] (lines.filter saysSerializable) := by
  intro environment listing whole chosen
  obtain ⟨program, loaded, names, chosenNames⟩ := Sample.exists_loaded_configured
  have ready := Sample.prepare_configured false
  have wholeEnds : whole.ending = .success :=
    Sample.run_extract_configured false (by decide)
  have chosenEnds : chosen.ending = .success :=
    Sample.run_extract_configured true (by decide)
  have plain : environment.PlainNames (Sample.optionsOf none false) := by
    intro prepared given
    obtain rfl := Except.ok.inj (ready.symm.trans given)
    refine ⟨Sample.packageName.isPlain, ?_⟩
    rw [show environment.sourceTree Sample.configuredTarget = Sample.configuredTree from rfl,
      Sample.discover_configuredTree]
    simp [Text.IsPlain]
  obtain ⟨ends, _, printed, filtered⟩ :=
    commands_agree Sample.configured (Sample.optionsOf none false) rfl
  have listed : listing = _ := run_types ready loaded
  have success : listing.ending = .success := congrArg CommandResult.ending listed
  have output : listing.output = ["e.A", "e.B"] :=
    (congrArg CommandResult.output listed).trans names
  have chosenOutput : (environment.run (.types (Sample.optionsOf none true))).output = ["e.B"] :=
    (congrArg CommandResult.output
      (run_types (Sample.prepare_configured true) loaded)).trans chosenNames
  refine ⟨rfl, success, wholeEnds, chosenEnds, plain, output, chosenOutput, ?_,
    filtered "build" 1 "build" 2 wholeEnds chosenEnds⟩
  rw [printed plain success (fun line => line ++ "\n") fun _ _ => rfl, output]
  rfl

/-- The lines that are printed need not be the names that the records have: a line end in the name
of the package takes a name apart. -/
theorem packages_can_break_lines :
    ¬ ∀ (environment : Environment) (options : CommandOptions) (out : String) (workers : Int),
      environment.root.standing environment.current = .directory →
      let listing := environment.run (.types options)
      let extraction := environment.run (.extract options out workers)
      extraction.ending = .success →
        ∃ lines names, extraction.root.HasLines (environment.recordsPlace (.ofText out)) lines ∧
          Text.splitAt '\n' (listing.printed fun line => line ++ "\n") = names ++ [""] ∧
          List.Forall₂ (fun line name => ∃ record, Json.read? line = some record ∧
            record.member? "fqn" = some (.string name)) lines names := by
  intro always
  obtain ⟨program, loaded, fqns⟩ := Sample.exists_loaded_broken
  have success := Sample.run_extract_broken
  obtain ⟨lines, names, hasLines, printed, named⟩ :=
    always _ Sample.brokenOptions "build" 1 rfl success
  obtain ⟨prepared, other, ready, alsoLoaded, describedLines⟩ := lines_of_run_extract rfl success
  obtain rfl := Except.ok.inj (Sample.prepare_broken.symm.trans ready)
  obtain rfl := Except.ok.inj (loaded.symm.trans alsoLoaded)
  have single : lines.length = 1 := by
    rw [hasLines.unique describedLines, List.length_map, Index.describe, List.length_map]
    exact (List.length_map _).symm.trans (congrArg List.length fqns)
  have output : (Sample.broken.run (.types Sample.brokenOptions)).output = ["a\nb.A"] := by
    rw [run_types Sample.prepare_broken loaded]
    exact fqns
  have split : names ++ [""] = ["a", "b.A", ""] := by
    rw [← printed, CommandResult.printed, output]
    rfl
  have two := congrArg List.length split
  rw [List.length_append, ← named.length_eq, single] at two
  exact absurd two (by decide)

end Environment

end TypeCatalog
