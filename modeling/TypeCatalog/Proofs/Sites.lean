import Mathlib.Data.List.Nodup
import TypeCatalog.Program.Members
import TypeCatalog.Proofs.ClassSites
import TypeCatalog.Proofs.Collections
import TypeCatalog.Syntax.Outline

/-! # Sites of a module

A module shows its sites twice: as the nodes of its outline in pre-order, and as the list whose
places are different (`TypeCatalog.Syntax.Module.filterMap_place_nodes`). Marking the sites that are
class statements tells them from the sites of members, so no place is that of a class and of a
member (`TypeCatalog.SourceUnit.marks_unique`).
-/

namespace TypeCatalog

/-! ## Pre-order -/

namespace Tree

variable {α : Type}

/-- The walk over a stack lists its trees in pre-order. -/
theorem walk_eq_preorderAll (stack : List (Tree α)) : walk stack = preorderAll stack := by
  fun_induction walk stack with
  | case1 => simp [preorderAll]
  | case2 label children rest ih =>
      rw [ih, preorderAll_append, preorderAll, preorder, List.cons_append]

end Tree

namespace Syntax

/-! ## Outlines -/

namespace OutlineNode

/-- The place of a node that is a site. -/
def place? : OutlineNode → Option Place
  | .site place => some place
  | _ => none

end OutlineNode

/-- The sites among a list of trees in pre-order. -/
def placesOf (trees : List (Tree OutlineNode)) : List Place :=
  (Tree.preorderAll trees).filterMap OutlineNode.place?

theorem placesOf_cons (tree : Tree OutlineNode) (rest : List (Tree OutlineNode)) :
    placesOf (tree :: rest) = placesOf [tree] ++ placesOf rest := by
  simp [placesOf, Tree.preorderAll]

theorem placesOf_other (children : List (Tree OutlineNode)) :
    placesOf [.node .other children] = placesOf children := by
  simp [placesOf, Tree.preorderAll, Tree.preorder, List.filterMap_cons, OutlineNode.place?]

theorem placesOf_site (place : Place) (children : List (Tree OutlineNode)) :
    placesOf [.node (.site place) children] = place :: placesOf children := by
  simp [placesOf, Tree.preorderAll, Tree.preorder, OutlineNode.place?]

theorem placesOf_simple (parts : List SimpleStatement) :
    placesOf (parts.map SimpleStatement.outline) = parts.filterMap SimpleStatement.site? := by
  induction parts with
  | nil => rfl
  | cons part rest ih =>
      rw [List.map_cons, placesOf_cons, ih, List.filterMap_cons, SimpleStatement.outline]
      cases part.site? with
      | none => rw [Option.map_none, Option.getD_none, placesOf_other]; rfl
      | some place => rw [Option.map_some, Option.getD_some, placesOf_site]; rfl

mutual

theorem placesOf_outline : ∀ statement : Statement, placesOf [statement.outline] = statement.sites
  | .line parts => by rw [Statement.outline, Statement.sites, placesOf_other, placesOf_simple]
  | .classStatement header body => by
      rw [Statement.outline, Statement.sites, placesOf_site, placesOf_suiteOutline body]
  | .functionStatement header body => by
      rw [Statement.outline, Statement.sites, placesOf_site, placesOf_suiteOutline body]
  | .compound clauses => by
      rw [Statement.outline, Statement.sites, placesOf_other, placesOf_clauseOutlines clauses]

theorem placesOf_clauseOutlines : ∀ clauses, placesOf (clauseOutlines clauses) = clauseSites clauses
  | [] => by rw [clauseOutlines, clauseSites]; rfl
  | .clause _ _ body :: rest => by
      rw [clauseOutlines, clauseSites, placesOf_cons, placesOf_other, placesOf_suiteOutline body,
        placesOf_clauseOutlines rest]

theorem placesOf_suiteOutline : ∀ suite : Suite, placesOf [suite.outline] = suite.sites
  | .inline parts => by rw [Suite.outline, Suite.sites, placesOf_other, placesOf_simple]
  | .indented body => by
      rw [Suite.outline, Suite.sites, placesOf_other, placesOf_statementOutlines body]

theorem placesOf_statementOutlines :
    ∀ statements, placesOf (statementOutlines statements) = statementSites statements
  | [] => by rw [statementOutlines, statementSites]; rfl
  | statement :: rest => by
      rw [statementOutlines, statementSites, placesOf_cons, placesOf_outline statement,
        placesOf_statementOutlines rest]

end

/-- The nodes of a module show its sites in order. -/
theorem Module.filterMap_place_nodes (module : Module) :
    module.nodes.filterMap OutlineNode.place? = statementSites module.body := by
  rw [Module.nodes, Tree.walk_eq_preorderAll, Module.outline, ← placesOf_statementOutlines]
  simp [placesOf, Tree.preorderAll, Tree.preorder, List.filterMap_cons, OutlineNode.place?]

/-! ## Marked sites -/

mutual

/-- The sites of a statement, each marked with whether it is a class statement. -/
def Statement.marks : Statement → List (Place × Bool)
  | .line parts => (parts.filterMap SimpleStatement.site?).map fun place => (place, false)
  | .classStatement header body => (header.place, true) :: body.marks
  | .functionStatement header body => (header.place, false) :: body.marks
  | .compound clauses => clauseMarks clauses

/-- The marked sites of a list of clauses. -/
def clauseMarks : List Clause → List (Place × Bool)
  | [] => []
  | .clause _ _ body :: rest => body.marks ++ clauseMarks rest

/-- The marked sites of a suite. -/
def Suite.marks : Suite → List (Place × Bool)
  | .inline parts => (parts.filterMap SimpleStatement.site?).map fun place => (place, false)
  | .indented body => statementMarks body

/-- The marked sites of a list of statements. -/
def statementMarks : List Statement → List (Place × Bool)
  | [] => []
  | statement :: rest => statement.marks ++ statementMarks rest

end

mutual

theorem map_fst_marks : ∀ statement : Statement, statement.marks.map Prod.fst = statement.sites
  | .line parts => by simp [Statement.marks, Statement.sites, Function.comp_def]
  | .classStatement header body => by
      rw [Statement.marks, Statement.sites, List.map_cons, map_fst_suiteMarks body]
  | .functionStatement header body => by
      rw [Statement.marks, Statement.sites, List.map_cons, map_fst_suiteMarks body]
  | .compound clauses => by rw [Statement.marks, Statement.sites, map_fst_clauseMarks clauses]

theorem map_fst_clauseMarks : ∀ clauses, (clauseMarks clauses).map Prod.fst = clauseSites clauses
  | [] => by simp [clauseMarks, clauseSites]
  | .clause _ _ body :: rest => by
      rw [clauseMarks, clauseSites, List.map_append, map_fst_suiteMarks body,
        map_fst_clauseMarks rest]

theorem map_fst_suiteMarks : ∀ suite : Suite, suite.marks.map Prod.fst = suite.sites
  | .inline parts => by simp [Suite.marks, Suite.sites, Function.comp_def]
  | .indented body => by rw [Suite.marks, Suite.sites, map_fst_statementMarks body]

theorem map_fst_statementMarks :
    ∀ statements, (statementMarks statements).map Prod.fst = statementSites statements
  | [] => by simp [statementMarks, statementSites]
  | statement :: rest => by
      rw [statementMarks, statementSites, List.map_append, map_fst_marks statement,
        map_fst_statementMarks rest]

end

theorem mem_statementMarks {statements : List Statement} {statement : Statement}
    (member : statement ∈ statements) {mark : Place × Bool} (marked : mark ∈ statement.marks) :
    mark ∈ statementMarks statements := by
  induction statements with
  | nil => simp at member
  | cons first rest ih =>
      rw [statementMarks, List.mem_append]
      rcases List.mem_cons.mp member with rfl | later
      · exact Or.inl marked
      · exact Or.inr (ih later)

end Syntax

open Syntax

/-! ## Class statements among the sites -/

/-- Class statements as they stand in a piece of a unit with given sites: they are the marked ones,
in order, and their bodies hold sites of the piece. -/
structure ClassSite.StandIn (unit : SourceUnit) (marks : List (Place × Bool))
    (sites : List ClassSite) : Prop where
  places : (sites.map fun site => site.header.place) = (marks.filter Prod.snd).map Prod.fst
  bodies : ∀ site ∈ sites, ∀ mark ∈ site.body.marks, mark ∈ marks
  ofUnit : ∀ site ∈ sites, site.unit = unit
  named : ∀ site ∈ sites, site.entry.fqn = site.fqn

namespace ClassSite.StandIn

variable {unit : SourceUnit}

theorem of_plain {marks : List (Place × Bool)} (plain : ∀ mark ∈ marks, mark.2 = false) :
    StandIn unit marks [] := by
  refine ⟨?_, by simp, by simp, by simp⟩
  rw [List.filter_eq_nil_iff.mpr fun mark member => by simp [plain mark member]]
  rfl

theorem append {front behind : List (Place × Bool)} {sites others : List ClassSite}
    (inFront : StandIn unit front sites) (inBehind : StandIn unit behind others) :
    StandIn unit (front ++ behind) (sites ++ others) where
  places := by
    rw [List.map_append, inFront.places, inBehind.places, List.filter_append, List.map_append]
  bodies site member mark inside := by
    rcases List.mem_append.mp member with first | second
    · exact List.mem_append_left _ (inFront.bodies site first mark inside)
    · exact List.mem_append_right _ (inBehind.bodies site second mark inside)
  ofUnit site member :=
    (List.mem_append.mp member).elim (inFront.ofUnit site) (inBehind.ofUnit site)
  named site member :=
    (List.mem_append.mp member).elim (inFront.named site) (inBehind.named site)

/-- A site more that is no class statement. -/
theorem cons_plain {marks : List (Place × Bool)} {sites : List ClassSite}
    (inside : StandIn unit marks sites) (place : Place) :
    StandIn unit ((place, false) :: marks) sites := by
  have single : StandIn unit [(place, false)] [] := of_plain (by simp)
  exact single.append inside

/-- A class statement in front of those in its body. -/
theorem cons_class {inner : List ClassSite} {around : List String} {header : ClassHeader}
    {body : Suite} (inside : StandIn unit body.marks inner) (inModule : around ≠ [])
    (depth : Nat) :
    StandIn unit ((header.place, true) :: body.marks)
      (⟨unit, around, depth, header, body⟩ :: inner) where
  places := by
    rw [List.map_cons, inside.places]
    rfl
  bodies site member mark inBody := by
    rcases List.mem_cons.mp member with rfl | later
    · exact List.mem_cons_of_mem _ inBody
    · exact List.mem_cons_of_mem _ (inside.bodies site later mark inBody)
  ofUnit site member := (List.mem_cons.mp member).elim (fun same => same ▸ rfl) (inside.ofUnit site)
  named site member := by
    rcases List.mem_cons.mp member with rfl | later
    · exact (Text.dotted_concat inModule _).symm
    · exact inside.named site later

mutual

theorem ofStatement (unit : SourceUnit) {around : List String} (inModule : around ≠ [])
    (depth : Nat) : ∀ statement,
      StandIn unit statement.marks (ClassSite.ofStatement unit around depth statement)
  | .line parts => by
      rw [Statement.marks, ClassSite.ofStatement]
      exact of_plain (by simp)
  | .classStatement header body => by
      rw [Statement.marks, ClassSite.ofStatement]
      exact (ofSuite unit (by simp) (depth + 1) body).cons_class inModule depth
  | .functionStatement header body => by
      rw [Statement.marks, ClassSite.ofStatement]
      exact (ofSuite unit (by simp) depth body).cons_plain header.place
  | .compound clauses => by
      rw [Statement.marks, ClassSite.ofStatement]
      exact ofClauses unit inModule depth clauses

theorem ofClauses (unit : SourceUnit) {around : List String} (inModule : around ≠ [])
    (depth : Nat) : ∀ clauses,
      StandIn unit (clauseMarks clauses) (ClassSite.ofClauses unit around depth clauses)
  | [] => by
      rw [clauseMarks, ClassSite.ofClauses]
      exact of_plain (by simp)
  | .clause _ _ body :: rest => by
      rw [clauseMarks, ClassSite.ofClauses]
      exact (ofSuite unit inModule depth body).append (ofClauses unit inModule depth rest)

theorem ofSuite (unit : SourceUnit) {around : List String} (inModule : around ≠ [])
    (depth : Nat) : ∀ suite, StandIn unit suite.marks (ClassSite.ofSuite unit around depth suite)
  | .inline parts => by
      rw [Suite.marks, ClassSite.ofSuite]
      exact of_plain (by simp)
  | .indented body => by
      rw [Suite.marks, ClassSite.ofSuite]
      exact ofStatements unit inModule depth body

theorem ofStatements (unit : SourceUnit) {around : List String} (inModule : around ≠ [])
    (depth : Nat) : ∀ statements,
      StandIn unit (statementMarks statements) (ClassSite.ofStatements unit around depth statements)
  | [] => by
      rw [statementMarks, ClassSite.ofStatements]
      exact of_plain (by simp)
  | statement :: rest => by
      rw [statementMarks, ClassSite.ofStatements]
      exact (ofStatement unit inModule depth statement).append
        (ofStatements unit inModule depth rest)

end

end ClassSite.StandIn

namespace ClassSite

variable (unit : SourceUnit)

mutual

theorem map_header_ofStatement (around : List String) (depth : Nat) :
    ∀ statement, (ofStatement unit around depth statement).map header = statement.classHeaders
  | .line parts => by rw [ofStatement, Statement.classHeaders, List.map_nil]
  | .classStatement header body => by
      rw [ofStatement, Statement.classHeaders, List.map_cons, map_header_ofSuite _ _ body]
  | .functionStatement header body => by
      rw [ofStatement, Statement.classHeaders, map_header_ofSuite _ _ body]
  | .compound clauses => by
      rw [ofStatement, Statement.classHeaders, map_header_ofClauses around depth clauses]

theorem map_header_ofClauses (around : List String) (depth : Nat) :
    ∀ clauses, (ofClauses unit around depth clauses).map header = clauseClassHeaders clauses
  | [] => by rw [ofClauses, clauseClassHeaders, List.map_nil]
  | .clause _ _ body :: rest => by
      rw [ofClauses, clauseClassHeaders, List.map_append, map_header_ofSuite around depth body,
        map_header_ofClauses around depth rest]

theorem map_header_ofSuite (around : List String) (depth : Nat) :
    ∀ suite, (ofSuite unit around depth suite).map header = suite.classHeaders
  | .inline parts => by rw [ofSuite, Suite.classHeaders, List.map_nil]
  | .indented body => by
      rw [ofSuite, Suite.classHeaders, map_header_ofStatements around depth body]

theorem map_header_ofStatements (around : List String) (depth : Nat) :
    ∀ statements,
      (ofStatements unit around depth statements).map header = statementClassHeaders statements
  | [] => by rw [ofStatements, statementClassHeaders, List.map_nil]
  | statement :: rest => by
      rw [ofStatements, statementClassHeaders, List.map_append,
        map_header_ofStatement around depth statement, map_header_ofStatements around depth rest]

end

end ClassSite

namespace SourceUnit

variable (unit : SourceUnit)

/-- The marked sites of a unit. -/
def marks : List (Place × Bool) := statementMarks unit.module.body

theorem map_fst_marks : unit.marks.map Prod.fst = statementSites unit.module.body :=
  map_fst_statementMarks unit.module.body

/-- A place is marked in one way. -/
theorem marks_unique {place : Place} (isClass : (place, true) ∈ unit.marks)
    (isOther : (place, false) ∈ unit.marks) : False := by
  have distinct : (unit.marks.map Prod.fst).Nodup := by
    rw [map_fst_marks]
    exact unit.module.sites_nodup
  have same := List.inj_on_of_nodup_map distinct isClass isOther rfl
  simp at same

/-- The class statements of a unit have the headers of its module. -/
theorem map_header_classSites :
    unit.classSites.map ClassSite.header = unit.module.classHeaders :=
  ClassSite.map_header_ofStatements unit [unit.name] 0 unit.module.body

theorem classSites_standIn : ClassSite.StandIn unit unit.marks unit.classSites :=
  ClassSite.StandIn.ofStatements unit (by simp) 0 unit.module.body

end SourceUnit

/-! ## Sites of members -/

namespace ClassReading

variable (reading : ClassReading)

/-- A member that is read from a simple statement stands at its site. -/
theorem site?_of_simpleSite? (statement : SimpleStatement) (site : MemberSite)
    (read : reading.simpleSite? statement = some site) : statement.site? = some site.place := by
  cases statement with
  | annotated target type value =>
      simp only [simpleSite?, field?] at read
      split at read
      · split at read
        · simp at read
        · rw [← Option.some.inj read]
          rfl
      · simp at read
  | _ => simp [simpleSite?] at read

theorem marked_of_mem_statementSites {statement : Statement} {site : MemberSite}
    (member : site ∈ reading.statementSites statement) : (site.place, false) ∈ statement.marks := by
  cases statement with
  | line parts =>
      obtain ⟨part, listed, declared⟩ := List.mem_filterMap.mp member
      rw [Statement.marks, List.mem_map]
      exact ⟨site.place, List.mem_filterMap.mpr
        ⟨part, listed, reading.site?_of_simpleSite? part site declared⟩, rfl⟩
  | functionStatement header body =>
      rw [statementSites, Option.mem_toList, property?] at member
      split at member
      · rw [← Option.some.inj member, Statement.marks]
        exact List.mem_cons_self
      · simp at member
  | _ => simp [statementSites] at member

/-- The members of a class stand at sites of its body that are no class statements. -/
theorem marked_of_mem_sites {site : MemberSite} (member : site ∈ reading.sites) :
    (site.place, false) ∈ reading.entry.body.marks := by
  obtain ⟨statement, listed, declared⟩ :=
    List.mem_flatMap.mp ((firstOfEachFrom_sublist _ _ _).mem member)
  have marked := reading.marked_of_mem_statementSites declared
  cases inside : reading.entry.body with
  | inline parts => simp [inside, Suite.statements] at listed
  | indented body =>
      rw [inside] at listed
      rw [Suite.marks]
      exact mem_statementMarks listed marked

end ClassReading

end TypeCatalog
