import Mathlib.Data.List.Nodup
import TypeCatalog.Files.Path
import TypeCatalog.Loading
import TypeCatalog.Proofs.Collections
import TypeCatalog.Proofs.Names

/-! # Sources of trees

The sources of a tree are its entries with the names of sources, directories among them
(`TypeCatalog.FileNode.mem_discover_iff`). They are discovered in the strict order of their paths
(`TypeCatalog.FileNode.discover_ordered`), so it makes no difference in which order directories
list their entries (`TypeCatalog.FileNode.SameFiles.listing_eq`), and the texts of their paths tell
them apart (`TypeCatalog.Path.text_append_inj`).
-/

namespace TypeCatalog

namespace FileNode

/-! ## Trees of a file system -/

mutual

/-- Trees as file systems have them: the entries of a directory have different names, and no name
holds a slash. -/
def Proper : FileNode → Prop
  | .file _ => True
  | .directory entries => (entries.map Prod.fst).Nodup ∧ ProperAmong entries

def ProperAmong : List (String × FileNode) → Prop
  | [] => True
  | (name, node) :: rest => '/' ∉ name.toList ∧ node.Proper ∧ ProperAmong rest

end

/-! ## Which sources are found -/

/-- Paths that end in the name of a source. -/
def IsSourcePath (path : List String) : Prop := ∃ name ∈ path.getLast?, isSourceName name = true

theorem isSourcePath_cons {name : String} {rest : List String} :
    IsSourcePath (name :: rest) ↔ (rest = [] ∧ isSourceName name = true) ∨ IsSourcePath rest := by
  cases rest with
  | nil => simp [IsSourcePath]
  | cons next rest => simp [IsSourcePath, List.getLast?_cons_cons]

/-- What an entry contributes to the sources: itself, if it has the name of one, and those below. -/
theorem mem_sourcesOf_iff {path : List String} {node : FileNode} (name : String)
    (inner : FileNode) :
    let below := inner.sources.map fun found => (name :: found.1, found.2)
    (path, node) ∈ (if isSourceName name then ([name], inner) :: below else below) ↔
      ∃ rest, path = name :: rest ∧
        ((rest = [] ∧ node = inner ∧ isSourceName name = true) ∨ (rest, node) ∈ inner.sources) := by
  intro below
  have deeper : (path, node) ∈ below ↔
      ∃ rest, path = name :: rest ∧ (rest, node) ∈ inner.sources := by
    constructor
    · intro listed
      obtain ⟨⟨rest, found⟩, member, same⟩ := List.mem_map.mp listed
      obtain ⟨rfl, rfl⟩ := Prod.mk.inj same
      exact ⟨rest, rfl, member⟩
    · rintro ⟨rest, rfl, member⟩
      exact List.mem_map.mpr ⟨(rest, node), member, rfl⟩
  by_cases isSource : isSourceName name = true
  · rw [if_pos isSource, List.mem_cons, deeper, Prod.mk.injEq]
    constructor
    · rintro (⟨rfl, rfl⟩ | ⟨rest, rfl, member⟩)
      · exact ⟨[], rfl, Or.inl ⟨rfl, rfl, isSource⟩⟩
      · exact ⟨rest, rfl, Or.inr member⟩
    · rintro ⟨rest, rfl, ⟨rfl, rfl, _⟩ | member⟩
      · exact Or.inl ⟨rfl, rfl⟩
      · exact Or.inr ⟨rest, rfl, member⟩
  · rw [if_neg isSource, deeper]
    simp [isSource]

/-- The sources among entries are those that are entries, and those below entries. -/
theorem mem_sourcesAmong_iff {path : List String} {node : FileNode}
    (entries : List (String × FileNode)) : (path, node) ∈ sourcesAmong entries ↔
      ∃ name inner rest, (name, inner) ∈ entries ∧ path = name :: rest ∧
        ((rest = [] ∧ node = inner ∧ isSourceName name = true) ∨ (rest, node) ∈ inner.sources) := by
  induction entries with
  | nil => simp [sourcesAmong]
  | cons entry behind ih =>
      obtain ⟨name, inner⟩ := entry
      rw [sourcesAmong, List.mem_append, ih]
      refine (or_congr_left (mem_sourcesOf_iff name inner)).trans ?_
      constructor
      · rintro (⟨rest, found⟩ | ⟨other, node, rest, listed, found⟩)
        · exact ⟨name, inner, rest, List.mem_cons_self, found⟩
        · exact ⟨other, node, rest, List.mem_cons_of_mem _ listed, found⟩
      · rintro ⟨other, node, rest, listed, found⟩
        rcases List.mem_cons.mp listed with same | later
        · obtain ⟨rfl, rfl⟩ := Prod.mk.inj same
          exact Or.inl ⟨rest, found⟩
        · exact Or.inr ⟨other, node, rest, later, found⟩

mutual

/-- The sources of a tree are the entries below its root with the name of a source. -/
theorem mem_sources_iff : ∀ tree : FileNode, tree.Proper → ∀ path node,
    (path, node) ∈ tree.sources ↔ IsSourcePath path ∧ tree.at? path = some node
  | .file content, _, path, node => by
      rw [sources]
      refine ⟨fun listed => absurd listed List.not_mem_nil, ?_⟩
      rintro ⟨⟨name, last, _⟩, found⟩
      cases path with
      | nil => simp at last
      | cons name rest => simp [at?, entries] at found
  | .directory entries, proper, path, node => by
      rw [Proper] at proper
      have below := mem_sources_of_mem entries proper.2
      have stored : ∀ name inner, entries.lookup name = some inner ↔ (name, inner) ∈ entries :=
        fun name inner => @Table.find?_eq_some_iff FileNode ⟨entries, proper.1⟩ name inner
      rw [sources, mem_sourcesAmong_iff]
      constructor
      · rintro ⟨name, inner, rest, listed, rfl, ⟨rfl, rfl, isSource⟩ | deeper⟩
        · refine ⟨isSourcePath_cons.mpr (Or.inl ⟨rfl, isSource⟩), ?_⟩
          rw [at?, FileNode.entries, (stored name node).mpr listed]
          rfl
        · obtain ⟨isSource, found⟩ := (below _ listed rest node).mp deeper
          refine ⟨isSourcePath_cons.mpr (Or.inr isSource), ?_⟩
          rw [at?, FileNode.entries, (stored name inner).mpr listed]
          exact found
      · rintro ⟨isSource, found⟩
        cases path with
        | nil => simp [IsSourcePath] at isSource
        | cons name rest =>
            rw [at?, FileNode.entries, Option.bind_eq_some_iff] at found
            obtain ⟨inner, isInner, found⟩ := found
            have listed := (stored name inner).mp isInner
            refine ⟨name, inner, rest, listed, rfl, ?_⟩
            rcases isSourcePath_cons.mp isSource with ⟨rfl, named⟩ | deeper
            · rw [at?] at found
              exact Or.inl ⟨rfl, (Option.some.inj found).symm, named⟩
            · exact Or.inr ((below _ listed rest node).mpr ⟨deeper, found⟩)

theorem mem_sources_of_mem : ∀ entries : List (String × FileNode), ProperAmong entries →
    ∀ entry ∈ entries, ∀ path node,
      (path, node) ∈ entry.2.sources ↔ IsSourcePath path ∧ entry.2.at? path = some node
  | [], _, entry, listed => absurd listed List.not_mem_nil
  | (name, inner) :: behind, proper, entry, listed => by
      rw [ProperAmong] at proper
      rcases List.mem_cons.mp listed with rfl | later
      · exact mem_sources_iff inner proper.2.1
      · exact mem_sources_of_mem behind proper.2.2 entry later

end

/-! ## Every source once -/

theorem ne_nil_of_mem_sources {tree : FileNode} (proper : tree.Proper) {path : List String}
    {node : FileNode} (listed : (path, node) ∈ tree.sources) : path ≠ [] := by
  rintro rfl
  obtain ⟨⟨name, last, _⟩, _⟩ := (mem_sources_iff tree proper [] node).mp listed
  simp at last

mutual

theorem nodup_sources : ∀ tree : FileNode, tree.Proper → (tree.sources.map Prod.fst).Nodup
  | .file content, _ => by rw [sources]; exact List.nodup_nil
  | .directory entries, proper => by
      rw [Proper] at proper
      rw [sources]
      exact nodup_sourcesAmong entries proper.1 proper.2

theorem nodup_sourcesAmong : ∀ entries : List (String × FileNode),
    (entries.map Prod.fst).Nodup → ProperAmong entries →
      ((sourcesAmong entries).map Prod.fst).Nodup
  | [], _, _ => by rw [sourcesAmong]; exact List.nodup_nil
  | (name, inner) :: behind, distinct, proper => by
      rw [ProperAmong] at proper
      rw [List.map_cons, List.nodup_cons] at distinct
      have below : ((inner.sources.map fun found => (name :: found.1, found.2)).map
          Prod.fst).Nodup := by
        have paths := List.Nodup.map (f := fun rest => name :: rest)
          (fun _ _ same => (List.cons.inj same).2) (nodup_sources inner proper.2.1)
        rw [List.map_map] at paths ⊢
        exact paths
      rw [sourcesAmong, List.map_append, List.nodup_append]
      refine ⟨?_, nodup_sourcesAmong behind distinct.2 proper.2.2, ?_⟩
      · split
        · rw [List.map_cons, List.nodup_cons]
          refine ⟨?_, below⟩
          intro again
          rw [List.map_map] at again
          obtain ⟨found, listed, same⟩ := List.mem_map.mp again
          exact ne_nil_of_mem_sources proper.2.1 listed (List.cons.inj same).2
        · exact below
      · -- Paths below the first entry begin with its name, which no later entry has.
        intro path inFirst other inBehind same
        obtain ⟨⟨path, node⟩, first, rfl⟩ := List.mem_map.mp inFirst
        obtain ⟨⟨other, found⟩, listed, rfl⟩ := List.mem_map.mp inBehind
        obtain ⟨rest, rfl, _⟩ := (mem_sourcesOf_iff name inner).mp first
        obtain ⟨again, _, _, entry, named, _⟩ := (mem_sourcesAmong_iff behind).mp listed
        have names : name = again := (List.cons.inj (same.trans named)).1
        have stands : again ∈ behind.map Prod.fst := List.mem_map_of_mem entry
        exact distinct.1 (names ▸ stands)

end

/-! ## The order of paths -/

theorem noLater_refl : ∀ path : List String, noLater path path = true
  | [] => rfl
  | name :: rest => by rw [noLater, if_pos rfl, noLater_refl rest]

theorem noLater_total : ∀ left right : List String,
    (noLater left right || noLater right left) = true
  | [], _ => rfl
  | _ :: _, [] => rfl
  | left :: lefts, right :: rights => by
      rw [noLater, noLater]
      by_cases same : left = right
      · rw [if_pos same, if_pos same.symm]
        exact noLater_total lefts rights
      · rw [if_neg same, if_neg (Ne.symm same), Bool.or_eq_true, decide_eq_true_iff,
          decide_eq_true_iff]
        exact String.le_total left right

theorem noLater_antisymm : ∀ {left right : List String},
    noLater left right = true → noLater right left = true → left = right
  | [], [], _, _ => rfl
  | [], _ :: _, _, back => by simp [noLater] at back
  | _ :: _, [], forth, _ => by simp [noLater] at forth
  | left :: lefts, right :: rights, forth, back => by
      rw [noLater] at forth back
      by_cases same : left = right
      · rw [if_pos same] at forth
        rw [if_pos same.symm] at back
        rw [same, noLater_antisymm forth back]
      · rw [if_neg same, decide_eq_true_iff] at forth
        rw [if_neg (Ne.symm same), decide_eq_true_iff] at back
        exact absurd (String.le_antisymm forth back) same

theorem noLater_trans : ∀ {left middle right : List String},
    noLater left middle = true → noLater middle right = true → noLater left right = true
  | [], _, _, _, _ => rfl
  | _ :: _, [], _, first, _ => by simp [noLater] at first
  | _ :: _, _ :: _, [], _, second => by simp [noLater] at second
  | left :: lefts, middle :: middles, right :: rights, first, second => by
      rw [noLater] at first second ⊢
      by_cases leftSame : left = middle
      · subst leftSame
        rw [if_pos rfl] at first
        split at second
        · rename_i rightSame
          rw [if_pos rightSame]
          exact noLater_trans first second
        · rename_i differs
          rw [if_neg differs]
          exact second
      · rw [if_neg leftSame, decide_eq_true_iff] at first
        by_cases rightSame : middle = right
        · subst rightSame
          rw [if_neg leftSame, decide_eq_true_iff]
          exact first
        · rw [if_neg rightSame, decide_eq_true_iff] at second
          have differs : left ≠ right := by
            rintro rfl
            exact leftSame (String.le_antisymm first second)
          rw [if_neg differs, decide_eq_true_iff]
          exact String.le_trans first second

/-- Sources are discovered in the order of their paths, each once. -/
theorem discover_ordered {tree : FileNode} (proper : tree.Proper) :
    (tree.discover.map Prod.fst).Pairwise fun left right =>
      noLater left right = true ∧ left ≠ right := by
  have sorted : tree.discover.Pairwise fun left right => noLater left.1 right.1 = true := by
    apply List.pairwise_mergeSort
    · exact fun _ _ _ => noLater_trans
    · exact fun left right => noLater_total left.1 right.1
  have distinct : (tree.discover.map Prod.fst).Nodup :=
    ((List.mergeSort_perm tree.sources _).map Prod.fst).nodup_iff.mpr (nodup_sources tree proper)
  exact List.Pairwise.and (List.pairwise_map.mpr sorted) distinct

theorem nodup_discover {tree : FileNode} (proper : tree.Proper) :
    (tree.discover.map Prod.fst).Nodup :=
  (discover_ordered proper).imp fun {_ _} apart => apart.2

theorem mem_discover_iff {tree : FileNode} (proper : tree.Proper) (path : List String)
    (node : FileNode) :
    (path, node) ∈ tree.discover ↔ IsSourcePath path ∧ tree.at? path = some node := by
  rw [discover, (List.mergeSort_perm tree.sources _).mem_iff]
  exact mem_sources_iff tree proper path node

/-! ## The order of entries -/

/-- What a node holds by itself: the bytes of a file, and nothing of a directory. -/
def content? : FileNode → Option ByteArray
  | .file content => some content
  | .directory _ => none

/-- The same files and directories at the same paths, in whatever order directories list them. -/
def SameFiles (left right : FileNode) : Prop :=
  ∀ path, (left.at? path).map content? = (right.at? path).map content?

/-- A directory may list its entries in another order. -/
theorem sameFiles_of_perm {left right : List (String × FileNode)} (reordered : left.Perm right)
    (distinct : (left.map Prod.fst).Nodup) : (directory left).SameFiles (directory right) := by
  intro path
  cases path with
  | nil => rfl
  | cons name rest =>
      rw [at?, at?, FileNode.entries, FileNode.entries, lookup_of_perm reordered distinct]

/-- So may the directories in a directory. -/
theorem sameFiles_of_forall₂ {left right : List (String × FileNode)}
    (alike : List.Forall₂ (fun entry other => entry.1 = other.1 ∧ entry.2.SameFiles other.2)
      left right) : (directory left).SameFiles (directory right) := by
  intro path
  cases path with
  | nil => rfl
  | cons name rest =>
      rw [at?, at?, FileNode.entries, FileNode.entries]
      induction alike with
      | nil => rfl
      | cons same behind ih =>
          rename_i entry other left right
          obtain ⟨first, inner⟩ := entry
          obtain ⟨second, node⟩ := other
          obtain ⟨rfl, nodes⟩ := same
          rw [List.lookup_cons, List.lookup_cons]
          cases name == first with
          | true => exact nodes rest
          | false => exact ih

/-- The sources of a tree with what they hold by themselves. -/
def listing (tree : FileNode) : List (List String × Option ByteArray) :=
  tree.discover.map fun found => (found.1, found.2.content?)

theorem mem_listing_iff {tree : FileNode} (proper : tree.Proper) (path : List String)
    (content : Option ByteArray) : (path, content) ∈ tree.listing ↔
      IsSourcePath path ∧ (tree.at? path).map content? = some content := by
  rw [listing, List.mem_map, Option.map_eq_some_iff]
  constructor
  · rintro ⟨⟨other, node⟩, member, same⟩
    obtain ⟨rfl, rfl⟩ := Prod.mk.inj same
    obtain ⟨isSource, found⟩ := (mem_discover_iff proper other node).mp member
    exact ⟨isSource, node, found, rfl⟩
  · rintro ⟨isSource, node, found, rfl⟩
    exact ⟨(path, node), (mem_discover_iff proper path node).mpr ⟨isSource, found⟩, rfl⟩

theorem listing_ordered {tree : FileNode} (proper : tree.Proper) :
    tree.listing.Pairwise fun first second =>
      noLater first.1 second.1 = true ∧ first.1 ≠ second.1 := by
  have paths := discover_ordered proper
  rw [List.pairwise_map] at paths
  rw [listing, List.pairwise_map]
  exact paths

theorem nodup_listing {tree : FileNode} (proper : tree.Proper) : tree.listing.Nodup :=
  (listing_ordered proper).imp fun apart equal => apart.2 (congrArg Prod.fst equal)

/-- Trees with the same files have the same sources, up to the entries of directories. -/
theorem SameFiles.listing_eq {left right : FileNode} (same : left.SameFiles right)
    (leftProper : left.Proper) (rightProper : right.Proper) : left.listing = right.listing := by
  refine List.Perm.eq_of_pairwise ?_ (listing_ordered leftProper) (listing_ordered rightProper) ?_
  · intro first second _ _ forth back
    exact absurd (noLater_antisymm forth.1 back.1) forth.2
  · rw [List.perm_ext_iff_of_nodup (nodup_listing leftProper) (nodup_listing rightProper)]
    rintro ⟨path, content⟩
    rw [mem_listing_iff leftProper, mem_listing_iff rightProper, same path]

/-- A node is read by what it holds by itself. -/
theorem readModule_eq_of_content (node : FileNode) :
    node.readModule = (node.content?.elim (directory []) file).readModule := by
  cases node <;> rfl

/-! ## Texts of paths -/

theorem proper_of_mem : ∀ {entries : List (String × FileNode)}, ProperAmong entries →
    ∀ {name inner}, (name, inner) ∈ entries → '/' ∉ name.toList ∧ inner.Proper
  | [], _, _, _, listed => absurd listed List.not_mem_nil
  | (first, node) :: behind, proper, name, inner, listed => by
      rw [ProperAmong] at proper
      rcases List.mem_cons.mp listed with same | later
      · obtain ⟨rfl, rfl⟩ := Prod.mk.inj same
        exact ⟨proper.1, proper.2.1⟩
      · exact proper_of_mem proper.2.2 later

/-- The names on the way to a node hold no slash. -/
theorem slash_notMem_of_at? {tree node : FileNode} (proper : tree.Proper) {path : List String}
    (found : tree.at? path = some node) : ∀ name ∈ path, '/' ∉ name.toList := by
  induction path generalizing tree with
  | nil => simp
  | cons first rest ih =>
      rw [at?, Option.bind_eq_some_iff] at found
      obtain ⟨inner, isInner, found⟩ := found
      cases tree with
      | file content => simp [entries] at isInner
      | directory entries =>
          rw [Proper] at proper
          obtain ⟨plain, innerProper⟩ := proper_of_mem proper.2 (mem_of_lookup isInner)
          intro name member
          rcases List.mem_cons.mp member with rfl | later
          · exact plain
          · exact ih innerProper found name later

end FileNode

theorem Text.splitAt_intercalate {names : List String} (some : names ≠ [])
    (plain : ∀ name ∈ names, '/' ∉ name.toList) :
    splitAt '/' ("/".intercalate names) = names := by
  induction names with
  | nil => exact absurd rfl some
  | cons name rest ih =>
      have single : splitAt '/' name = [name] :=
        splitAt_of_notMem (plain name List.mem_cons_self)
      cases rest with
      | nil => rw [String.intercalate_singleton, single]
      | cons next rest =>
          have behind := ih (List.cons_ne_nil _ _) fun other member =>
            plain other (List.mem_cons_of_mem _ member)
          rw [String.intercalate_cons_cons, splitAt_append rfl, single, behind]
          rfl

namespace Path

theorem text_append (root : Path) {names : List String} (some : names ≠ []) :
    (root.append names).text = root.anchor ++ "/".intercalate (root.names ++ names) := by
  rw [text, append, if_neg]
  intro empty
  exact some (List.append_eq_nil_iff.mp empty.2).2

/-- Paths below a root come apart by their texts. -/
theorem text_append_inj (root : Path) {left right : List String} (leftSome : left ≠ [])
    (rightSome : right ≠ []) (leftPlain : ∀ name ∈ left, '/' ∉ name.toList)
    (rightPlain : ∀ name ∈ right, '/' ∉ name.toList)
    (same : (root.append left).text = (root.append right).text) : left = right := by
  have joined : "/".intercalate left = "/".intercalate right := by
    rw [text_append root leftSome, text_append root rightSome] at same
    have behind := (String.append_right_inj _).mp same
    by_cases none : root.names = []
    · rw [none] at behind
      exact behind
    · rw [String.intercalate_append_of_ne_nil none leftSome,
        String.intercalate_append_of_ne_nil none rightSome] at behind
      exact (String.append_right_inj _).mp behind
  rw [← Text.splitAt_intercalate leftSome leftPlain, joined,
    Text.splitAt_intercalate rightSome rightPlain]

end Path

end TypeCatalog
