import TypeCatalog.Output
import TypeCatalog.Proofs.Collections

/-! # Writing to a file system

What stands at a path is a directory, a file with its bytes, or nothing. Making directories keeps
what stands anywhere, but for directories where nothing stood
(`TypeCatalog.FileNode.makeDirectories_keeps`), and writing a file changes what stands at its place
alone (`TypeCatalog.standing_put_textFile`). So there are three ways in which records and their
manifest are written (`TypeCatalog.Emission`, `TypeCatalog.emission_emit`).
-/

namespace TypeCatalog

namespace FileNode

/-! ## What stands at a path -/

/-- What stands at the end of a path, apart from what is inside. -/
inductive Standing where
  | nothing
  | directory
  | file (content : ByteArray)

/-- The node itself, apart from what is inside. -/
def outside : FileNode → Standing
  | .file content => .file content
  | .directory _ => .directory

def standing (root : FileNode) (path : List String) : Standing :=
  ((root.at? path).map outside).getD .nothing

@[simp] theorem standing_nil (root : FileNode) : root.standing [] = root.outside := rfl

theorem standing_cons (root : FileNode) (name : String) (rest : List String) :
    root.standing (name :: rest) =
      ((root.entries.lookup name).map fun inner => inner.standing rest).getD .nothing := by
  rw [standing, at?]
  cases root.entries.lookup name <;> rfl

theorem hasDirectory_eq_true_iff {root : FileNode} {path : List String} :
    root.hasDirectory path = true ↔ root.standing path = .directory := by
  rw [hasDirectory, standing]
  cases found : root.at? path with
  | none => simp
  | some node => cases node <;> simp [outside, isDirectory, isFile]

/-- Nothing stands inside a node without entries. -/
theorem standing_of_entries_eq_nil {node : FileNode} (bare : node.entries = []) (name : String)
    (rest : List String) : node.standing (name :: rest) = .nothing := by
  rw [standing_cons, bare]
  rfl

theorem entries_eq_nil_of_not_directory {node : FileNode} (other : node.outside ≠ .directory) :
    node.entries = [] := by
  cases node with
  | file content => rfl
  | directory entries => exact absurd rfl other

theorem outside_of_entries_ne_nil {node : FileNode} {name : String} {inner : FileNode}
    (found : node.entries.lookup name = some inner) : node.outside = .directory := by
  cases node with
  | file content => exact absurd found (by simp [entries])
  | directory entries => rfl

/-- A path to a directory leads through directories. -/
theorem standing_of_append {front behind : List String} {root : FileNode}
    (inside : root.standing (front ++ behind) = .directory) : root.standing front = .directory := by
  induction front generalizing root with
  | nil =>
      cases behind with
      | nil => exact inside
      | cons name rest =>
          rw [List.nil_append, standing_cons] at inside
          cases found : root.entries.lookup name with
          | none => simp [found] at inside
          | some inner => exact outside_of_entries_ne_nil found
  | cons name rest ih =>
      rw [List.cons_append, standing_cons] at inside
      rw [standing_cons]
      cases found : root.entries.lookup name with
      | none => simp [found] at inside
      | some inner => exact ih (by simpa [found] using inside)

/-! ## Putting a node -/

/-- A node without entries that is put into a directory, where no directory stands, changes what
stands at its own place alone. -/
theorem standing_put {directory : List String} {name : String} {root node : FileNode}
    (inside : root.standing directory = .directory)
    (free : root.standing (directory ++ [name]) ≠ .directory) (bare : node.entries = [])
    (place : List String) :
    (root.put (directory ++ [name]) node).standing place =
      if place = directory ++ [name] then node.outside else root.standing place := by
  induction directory generalizing root place with
  | nil =>
      rw [List.nil_append] at free ⊢
      cases place with
      | nil => simpa [put, outside] using inside.symm
      | cons first rest =>
          rw [standing_cons, put, put, entries, lookup_setEntry]
          by_cases same : first = name
          · subst same
            cases rest with
            | nil => simp
            | cons next rest =>
                -- nothing stood behind the place either, as it was no directory
                rw [standing_cons] at free
                rw [if_pos rfl, if_neg (by simp), standing_cons]
                cases found : root.entries.lookup first with
                | none => exact standing_of_entries_eq_nil bare next rest
                | some inner =>
                    have leaf : inner.entries = [] :=
                      entries_eq_nil_of_not_directory (by simpa [found] using free)
                    exact (standing_of_entries_eq_nil bare next rest).trans
                      (standing_of_entries_eq_nil leaf next rest).symm
          · rw [if_neg same, if_neg (by simp [same]), ← standing_cons]
  | cons first more ih =>
      rw [standing_cons] at inside
      rw [List.cons_append, standing_cons] at free
      cases found : root.entries.lookup first with
      | none => simp [found] at inside
      | some inner =>
          rw [List.cons_append, put, found, Option.getD_some]
          cases place with
          | nil => simpa [outside] using (outside_of_entries_ne_nil found).symm
          | cons other rest =>
              rw [standing_cons, entries, lookup_setEntry]
              by_cases same : other = first
              · subst same
                have next := ih (by simpa [found] using inside) (by simpa [found] using free) rest
                rw [if_pos rfl, Option.map_some, Option.getD_some, next]
                simp [standing_cons, found]
              · rw [if_neg same, if_neg (by simp [same]), ← standing_cons]

/-! ## Making directories -/

/-- From one state of the files to the next a place keeps what stands there, or a directory is made
where nothing stood. -/
def Kept (before after : FileNode) (place : List String) : Prop :=
  after.standing place = before.standing place ∨
    (before.standing place = .nothing ∧ after.standing place = .directory)

theorem Kept.refl (root : FileNode) (place : List String) : Kept root root place := Or.inl rfl

theorem Kept.congr {before after later : FileNode} {place : List String}
    (kept : Kept before after place) (same : later.standing place = after.standing place) :
    Kept before later place := by
  rw [Kept, same]
  exact kept

theorem Kept.trans {first second third : FileNode} {place : List String}
    (before : Kept first second place) (after : Kept second third place) :
    Kept first third place := by
  rcases before with same | ⟨nothing, made⟩
  · rw [Kept, ← same]
    exact after
  · rcases after with same | ⟨again, _⟩
    · exact Or.inr ⟨nothing, same.trans made⟩
    · rw [made] at again
      contradiction

theorem standing_eq_nothing_of_at? {root : FileNode} {path : List String}
    (absent : root.at? path = none) : root.standing path = .nothing := by
  rw [standing, absent]
  rfl

/-- An empty directory where nothing stood. -/
theorem standing_put_directory {directory : List String} {name : String} {root : FileNode}
    (inside : root.standing directory = .directory)
    (absent : root.at? (directory ++ [name]) = none) (place : List String) :
    (root.put (directory ++ [name]) (.directory [])).standing place =
      if place = directory ++ [name] then .directory else root.standing place :=
  standing_put inside (by rw [standing_eq_nothing_of_at? absent]; simp) rfl place

/-- Making directories keeps what stands anywhere, and when it comes to its end, that is the
directory to which the names lead. -/
theorem makeDirectories_keeps (locked : List String → Bool) {root : FileNode}
    {directory : List String} (names : List String)
    (inside : root.standing directory = .directory) :
    (∀ place, Kept root (root.makeDirectories locked directory names).root place) ∧
      ∀ reached ∈ (root.makeDirectories locked directory names).directory?,
        reached = Path.follow directory names ∧
          (root.makeDirectories locked directory names).root.standing reached = .directory := by
  fun_induction makeDirectories locked root directory names with
  | case1 root directory => exact ⟨Kept.refl root, by simpa [Path.follow] using inside⟩
  | case2 root directory rest ih =>
      rw [Path.follow]
      refine ih ?_
      rw [← List.take_append_drop (directory.length - 1) directory] at inside
      rw [List.dropLast_eq_take]
      exact standing_of_append inside
  | case3 root directory name rest up inner entries found ih =>
      rw [Path.follow]
      · exact ih (by rw [standing, found]; rfl)
      · exact up
  | case4 root directory name rest up inner content found => exact ⟨Kept.refl root, by simp⟩
  | case5 root directory name rest up inner absent isLocked => exact ⟨Kept.refl root, by simp⟩
  | case6 root directory name rest up inner absent isLocked ih =>
      have stands := standing_put_directory inside absent
      have kept : ∀ place, Kept root (root.put inner (.directory [])) place := by
        intro place
        rw [Kept, stands]
        split
        · rename_i here
          exact Or.inr ⟨here ▸ standing_eq_nothing_of_at? absent, rfl⟩
        · exact Or.inl rfl
      have made := ih (by rw [stands, if_pos rfl])
      rw [Path.follow]
      · exact ⟨fun place => (kept place).trans (made.1 place), made.2⟩
      · exact up

/-- Along names that never lead back, making directories changes nothing behind the last of them. -/
theorem standing_makeDirectories_of_forward (locked : List String → Bool) {root : FileNode}
    {directory names : List String} (forward : ".." ∉ names)
    (inside : root.standing directory = .directory) {place : List String}
    (behind : directory.length + names.length < place.length) :
    (root.makeDirectories locked directory names).root.standing place = root.standing place := by
  fun_induction makeDirectories locked root directory names with
  | case1 root directory => rfl
  | case2 root directory rest ih => simp at forward
  | case3 root directory name rest up inner entries found ih =>
      refine ih (fun back => forward (List.mem_cons_of_mem _ back)) ?_ ?_
      · rw [standing, found]
        rfl
      · simp only [inner, List.length_append, List.length_cons, List.length_nil] at behind ⊢
        omega
  | case4 root directory name rest up inner content found => rfl
  | case5 root directory name rest up inner absent isLocked => rfl
  | case6 root directory name rest up inner absent isLocked ih =>
      have stands := standing_put_directory inside absent
      have further : inner.length + rest.length < place.length := by
        simp only [inner, List.length_append, List.length_cons, List.length_nil] at behind ⊢
        omega
      rw [ih (fun back => forward (List.mem_cons_of_mem _ back)) (by rw [stands, if_pos rfl])
        further, stands, if_neg]
      rintro rfl
      exact absurd further (Nat.not_lt.mpr (Nat.le_add_right inner.length rest.length))

end FileNode

open FileNode

/-! ## Writing files -/

section

variable {locked : List String → Bool} {root : FileNode}

/-- At such a place no file can be written. -/
def Unusable (locked : List String → Bool) (root : FileNode) (place : List String) : Prop :=
  root.standing place = .directory ∨ locked place = true

theorem writeFile_of_unusable {place : List String} (unusable : Unusable locked root place)
    (text : String) : writeFile locked root place text = ⟨root, false⟩ := by
  rw [Unusable, ← hasDirectory_eq_true_iff] at unusable
  rw [writeFile, if_pos (by simpa using unusable)]

theorem writeFile_of_usable {place : List String} (usable : ¬ Unusable locked root place)
    (text : String) :
    writeFile locked root place text = ⟨root.put place (textFile text), true⟩ := by
  rw [Unusable, ← hasDirectory_eq_true_iff] at usable
  rw [writeFile, if_neg (by simpa using usable)]

/-- A file that is written changes what stands at its place alone. -/
theorem standing_put_textFile {directory : List String} {name : String}
    (inside : root.standing directory = .directory)
    (usable : ¬ Unusable locked root (directory ++ [name])) (text : String) (place : List String) :
    (root.put (directory ++ [name]) (textFile text)).standing place =
      if place = directory ++ [name] then .file text.toUTF8 else root.standing place :=
  standing_put inside (fun blocked => usable (Or.inl blocked)) rfl place

/-- How the writing of records and their manifest to a directory ends: before any file is written,
at a manifest that cannot be written behind the records, or with both files. Nothing else changes. -/
inductive Emission (locked : List String → Bool) (before : FileNode) (directory : List String)
    (records : List Json) (manifest : Manifest) : Written → Prop
  | nothing : Emission locked before directory records manifest ⟨before, false⟩
  | recordsOnly {after : FileNode}
      (recordsWritten : after.standing (directory ++ [recordsFile]) =
        .file (linesOf records).toUTF8)
      (unusable : Unusable locked after (directory ++ [manifestFile]))
      (others : ∀ place, place ≠ directory ++ [recordsFile] →
        after.standing place = before.standing place) :
      Emission locked before directory records manifest ⟨after, false⟩
  | both {after : FileNode}
      (recordsWritten : after.standing (directory ++ [recordsFile]) =
        .file (linesOf records).toUTF8)
      (manifestWritten : after.standing (directory ++ [manifestFile]) =
        .file manifest.toJson.write.toUTF8)
      (others : ∀ place, place ≠ directory ++ [recordsFile] →
        place ≠ directory ++ [manifestFile] → after.standing place = before.standing place) :
      Emission locked before directory records manifest ⟨after, true⟩

/-- When everything is written, both files are. -/
theorem Emission.of_complete {before : FileNode} {directory : List String} {records : List Json}
    {manifest : Manifest} {written : Written}
    (emission : Emission locked before directory records manifest written)
    (complete : written.complete = true) :
    written.root.standing (directory ++ [recordsFile]) = .file (linesOf records).toUTF8 ∧
      written.root.standing (directory ++ [manifestFile]) =
        .file manifest.toJson.write.toUTF8 := by
  cases emission with
  | nothing => contradiction
  | recordsOnly _ _ _ => contradiction
  | both recordsWritten manifestWritten _ => exact ⟨recordsWritten, manifestWritten⟩

/-- The two files of a directory are different. -/
theorem manifest_place_ne (directory : List String) :
    directory ++ [manifestFile] ≠ directory ++ [recordsFile] := by
  simp [manifestFile, recordsFile]

/-- Writing to a directory that is there. -/
theorem emission_writeFile {directory : List String}
    (inside : root.standing directory = .directory) (records : List Json) (manifest : Manifest) :
    Emission locked root directory records manifest
      (let written := writeFile locked root (directory ++ [recordsFile]) (linesOf records)
      if written.complete then
        writeFile locked written.root (directory ++ [manifestFile]) manifest.toJson.write
      else written) := by
  by_cases first : Unusable locked root (directory ++ [recordsFile])
  · rw [writeFile_of_unusable first]
    exact .nothing
  · rw [writeFile_of_usable first]
    have stands := standing_put_textFile inside first (linesOf records)
    generalize root.put (directory ++ [recordsFile]) (textFile (linesOf records)) = after at stands
    simp only [if_true]
    by_cases second : Unusable locked after (directory ++ [manifestFile])
    · rw [writeFile_of_unusable second]
      refine .recordsOnly (by rw [stands, if_pos rfl]) second fun place other => ?_
      rw [stands, if_neg other]
    · rw [writeFile_of_usable second]
      have still : after.standing directory = .directory := by
        rw [stands, if_neg (by simp), inside]
      have last := standing_put_textFile still second manifest.toJson.write
      refine .both ?_ (by rw [last, if_pos rfl]) fun place notRecords notManifest => ?_
      · rw [last, if_neg (Ne.symm (manifest_place_ne directory)), stands, if_pos rfl]
      · rw [last, if_neg notManifest, stands, if_neg notRecords]

/-! ## Writing to an output directory -/

/-- The files when the directories that a path leads through are made, seen from a directory. -/
def withDirectories (locked : List String → Bool) (root : FileNode) (current : List String)
    (out : Path) : FileNode := (root.makeDirectories locked (out.origin current) out.names).root

variable {current : List String}

theorem standing_origin (inside : root.standing current = .directory) (out : Path) :
    root.standing (out.origin current) = .directory := by
  rw [Path.origin]
  split
  · exact inside
  · exact @standing_of_append [] current root inside

theorem withDirectories_keeps (inside : root.standing current = .directory) (out : Path)
    (place : List String) : Kept root (withDirectories locked root current out) place :=
  (makeDirectories_keeps locked out.names (standing_origin inside out)).1 place

theorem Path.follow_of_forward {names : List String} (forward : ".." ∉ names)
    (directory : List String) : Path.follow directory names = directory ++ names := by
  induction names generalizing directory with
  | nil => simp [Path.follow]
  | cons name rest ih =>
      rw [List.mem_cons, not_or] at forward
      rw [Path.follow, ih forward.2, List.append_assoc, List.singleton_append]
      exact fun back => forward.1 back.symm

/-- What stands in an output directory stays there, if the path to it never leads back. -/
theorem standing_withDirectories (inside : root.standing current = .directory) {out : Path}
    (forward : ".." ∉ out.names) (name : String) :
    (withDirectories locked root current out).standing (out.resolve current ++ [name]) =
      root.standing (out.resolve current ++ [name]) := by
  refine standing_makeDirectories_of_forward locked forward (standing_origin inside out) ?_
  simp [Path.resolve, Path.follow_of_forward forward]

/-- Seen from a directory, writing records and their manifest ends in one of three ways. -/
theorem emission_emit (inside : root.standing current = .directory) (out : Path)
    (records : List Json) (manifest : Manifest) :
    Emission locked (withDirectories locked root current out) (out.resolve current) records manifest
      (emit locked root current out records manifest) := by
  obtain ⟨_, reaches⟩ := makeDirectories_keeps locked out.names (standing_origin inside out)
  rw [emit, withDirectories]
  cases made : (root.makeDirectories locked (out.origin current) out.names).directory? with
  | none => exact .nothing
  | some directory =>
      obtain ⟨reached, stands⟩ := reaches directory made
      rw [Path.resolve, ← reached]
      exact emission_writeFile stands records manifest

end

end TypeCatalog
