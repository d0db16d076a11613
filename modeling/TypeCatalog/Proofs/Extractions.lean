import TypeCatalog.Command.Run
import TypeCatalog.Proofs.EmittedLines

/-! # What extractions leave behind

An extraction that fails before it writes leaves all files as they are, and one that fails at
writing leaves the manifest; only when the manifest cannot be written, the records are there already
(`TypeCatalog.Environment.extract_leaves`). After an extraction that does not fail the manifest
counts the lines of the records.
-/

namespace TypeCatalog

open FileNode

/-! ## Manifests -/

namespace Manifest

theorem proper_toJson (manifest : Manifest) : manifest.toJson.Proper := by
  refine .object (by simp) ?_
  simp only [List.forall_mem_cons]
  exact ⟨.string _, .string _, .string _, .string _, .string _, .int _, List.forall_mem_nil _⟩

/-- The number of records is read back from the text of a manifest. -/
theorem typeCount_read_back (manifest : Manifest) :
    ∃ copy, Json.read? manifest.toJson.write = some copy ∧
      copy.member? "type_count" = some (.int manifest.typeCount) := by
  refine ⟨_, Json.read?_write manifest.proper_toJson, ?_⟩
  have given : manifest.toJson.member? "type_count" = some (.int manifest.typeCount) := by
    simp [toJson, Json.member?, Json.members]
  have same := (Json.same_sorted manifest.proper_toJson).member? "type_count"
  rw [given] at same
  generalize manifest.toJson.sorted.member? "type_count" = found at same ⊢
  cases same with
  | some same =>
      cases same
      rfl

end Manifest

/-! ## Places in an output directory -/

/-- What stands at a place of an output directory stays there. Only a path to the directory that
leads through the place and back can make a directory of it, where nothing stood. -/
def Stays (out : Path) (before after : FileNode) (place : List String) : Prop :=
  Kept before after place ∧ (".." ∉ out.names → after.standing place = before.standing place)

namespace Stays

variable {out : Path} {before after : FileNode} {place : List String}

theorem refl (out : Path) (root : FileNode) (place : List String) : Stays out root root place :=
  ⟨Kept.refl root place, fun _ => rfl⟩

theorem congr {later : FileNode} (stays : Stays out before after place)
    (same : later.standing place = after.standing place) : Stays out before later place :=
  ⟨stays.1.congr same, fun forward => same.trans (stays.2 forward)⟩

end Stays

theorem stays_withDirectories (locked : List String → Bool) {root : FileNode}
    {current : List String} (inside : root.standing current = .directory) (out : Path)
    (name : String) : Stays out root (withDirectories locked root current out)
      (out.resolve current ++ [name]) :=
  ⟨withDirectories_keeps inside out _, fun forward =>
    standing_withDirectories inside forward name⟩

namespace Environment

variable (environment : Environment) (prepared : Prepared) (workers : Int)
  (serializableOnly : Bool) (out : Path)

/-! ## Extractions -/

/-- Where an extraction writes the records. -/
def recordsPlace : List String := out.resolve environment.current ++ [recordsFile]

/-- Where an extraction writes the manifest. -/
def manifestPlace : List String := out.resolve environment.current ++ [manifestFile]

/-- The records of a program that is loaded, if they are valid. -/
theorem records_eq : environment.records prepared workers serializableOnly =
    match environment.load prepared workers with
    | .error failure => .error (.unloaded failure)
    | .ok program =>
        match validate
          ((program.index.describe prepared.settings serializableOnly).map TypeRecord.toJson) with
        | .error faults => .error (.invalid faults)
        | .ok records => .ok (records, program.notices) := by
  rw [records]
  cases environment.load prepared workers with
  | error failure => rfl
  | ok program =>
      cases checked : validate
        ((program.index.describe prepared.settings serializableOnly).map TypeRecord.toJson) with
      | error faults => simp [Except.mapError, checked, bind, Except.bind]
      | ok records => simp [Except.mapError, checked, bind, Except.bind, pure, Except.pure]

/-- What is there to be written before it is, or why there is nothing. -/
theorem extract_cases (inside : environment.root.standing environment.current = .directory) :
    (∃ fault, fault ≠ .unwritable ∧
      environment.extract prepared workers serializableOnly out =
        ⟨environment.root, .error fault⟩) ∨
    ∃ records notices written,
      environment.records prepared workers serializableOnly = .ok (records, notices) ∧
      Emission environment.locked
        (withDirectories environment.locked environment.root environment.current out)
        (out.resolve environment.current) records
        ⟨prepared.package, environment.time, records.length⟩ written ∧
      environment.extract prepared workers serializableOnly out = ⟨written.root,
        if written.complete then .ok (notices ++ [.wrote records.length out.text])
        else .error .unwritable⟩ := by
  rw [extract]
  cases given : environment.records prepared workers serializableOnly with
  | error fault =>
      refine Or.inl ⟨fault, ?_, rfl⟩
      rintro rfl
      rw [records_eq] at given
      split at given
      · simp at given
      · split at given <;> simp at given
  | ok found =>
      obtain ⟨records, notices⟩ := found
      refine Or.inr ⟨records, notices, _, rfl, emission_emit inside out records _, ?_⟩
      simp only []
      split <;> rfl

namespace Sample

/-- A directory of sources without any, and a directory in the place of its manifest. -/
def blocked : Environment where
  root := .directory [("e", .directory []),
    ("build", .directory [("manifest.json", .directory [])])]
  current := []
  searchPath := []
  time := "2024-01-01T00:00:00+00:00"

/-- The directory of sources, taken as a package of the same name. -/
def target : Prepared := ⟨["e"], "e", {}, []⟩

def build : Path := ⟨"", ["build"]⟩

/-- A path that leads through the place of the manifest and back. -/
def around : Path := ⟨"", ["made", "manifest.json", ".."]⟩

end Sample

theorem exists_records_blocked : ∃ notices,
    Sample.blocked.records Sample.target 1 false = .ok ([], notices) := by
  have loaded : Sample.blocked.load Sample.target 1 =
      .ok { Program.ofModules [] with notices := (Program.ofModules []).notices } := by
    have discovered : (FileNode.directory []).discover = [] := List.mergeSort_nil
    have found : Sample.blocked.root.at? ["e"] = some (.directory []) := rfl
    rw [load, show Sample.target.root = ["e"] from rfl, found, Option.getD_some,
      loadProgram, loadModules, readSources, discovered]
    rfl
  rw [records_eq, loaded]
  exact ⟨_, rfl⟩

theorem extract_blocked : Sample.blocked.extract Sample.target 1 false Sample.build =
    ⟨Sample.blocked.root.put (Sample.blocked.recordsPlace Sample.build) (textFile (linesOf [])),
      .error .unwritable⟩ := by
  obtain ⟨notices, given⟩ := exists_records_blocked
  rw [extract, given]
  rfl

theorem extract_around : ∃ after,
    Sample.blocked.extract Sample.target 1 false Sample.around = ⟨after, .error .unwritable⟩ ∧
      after.standing (Sample.blocked.manifestPlace Sample.around) = .directory := by
  obtain ⟨notices, given⟩ := exists_records_blocked
  rw [extract, given]
  exact ⟨_, rfl, rfl⟩

end Environment

end TypeCatalog
