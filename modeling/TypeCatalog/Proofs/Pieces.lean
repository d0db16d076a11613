import Mathlib.Data.List.TakeWhile
import TypeCatalog.Proofs.Sites

/-! # Pieces of a module

The simple statements and the class statements of a module are listed in source order, wherever they
stand (`TypeCatalog.Syntax.Module.pieces`). Each is placed by the class and function bodies around
it, and by whether it stands on the line of a colon; the branches of compound statements are no
scopes and leave no trace. The class statements of a unit are read off this list
(`TypeCatalog.SourceUnit.classSites_eq`), and those in module scope all declare their names
(`TypeCatalog.Declarations.mem_fqns_of_mem_scopePieces`).
-/

namespace TypeCatalog

namespace Syntax

/-- What sets a piece of a module apart from its statement lines. -/
inductive Enclosure where
  | classBody (name : Identifier)
  | functionBody (name : Identifier)
  /-- The rest of a line behind a colon. -/
  | oneLine
  deriving DecidableEq

namespace Enclosure

/-- The name of the scope that an enclosure opens, if it opens one. -/
def name? : Enclosure → Option String
  | .classBody name | .functionBody name => some name.text
  | .oneLine => none

def isClassBody : Enclosure → Bool
  | .classBody _ => true
  | _ => false

end Enclosure

/-- A simple statement or a class statement. -/
inductive Piece where
  | simple (statement : SimpleStatement)
  | classStatement (header : ClassHeader) (body : Suite)

/-- A piece of a module where it stands; the outermost enclosure comes first. -/
structure PlacedPiece where
  around : List Enclosure
  piece : Piece

namespace PlacedPiece

/-- The same piece with one more enclosure around everything. -/
def inside (outer : Enclosure) (placed : PlacedPiece) : PlacedPiece :=
  { placed with around := outer :: placed.around }

/-- No class and no function stands around the piece. -/
def inModuleScope (placed : PlacedPiece) : Bool := placed.around.all fun outer => outer.name?.isNone

/-- The piece stands behind a colon, on its line. -/
def onOneLine (placed : PlacedPiece) : Bool := placed.around.contains .oneLine

def header? (placed : PlacedPiece) : Option ClassHeader :=
  match placed.piece with
  | .simple _ => none
  | .classStatement header _ => some header

/-- The name of the class that a piece declares. -/
def className? (placed : PlacedPiece) : Option String :=
  placed.header?.map fun header => header.name.text

end PlacedPiece

mutual

/-- The pieces of a statement in source order. -/
def Statement.pieces : Statement → List PlacedPiece
  | .line parts => parts.map fun part => ⟨[], .simple part⟩
  | .classStatement header body =>
      ⟨[], .classStatement header body⟩ ::
        body.pieces.map (PlacedPiece.inside (.classBody header.name))
  | .functionStatement header body =>
      body.pieces.map (PlacedPiece.inside (.functionBody header.name))
  | .compound clauses => clausePieces clauses

def clausePieces : List Clause → List PlacedPiece
  | [] => []
  | .clause _ _ body :: rest => body.pieces ++ clausePieces rest

def Suite.pieces : Suite → List PlacedPiece
  | .inline parts => parts.map fun part => ⟨[.oneLine], .simple part⟩
  | .indented body => statementPieces body

def statementPieces : List Statement → List PlacedPiece
  | [] => []
  | statement :: rest => statement.pieces ++ statementPieces rest

end

namespace Module

/-- The simple statements and class statements of a module in source order. -/
def pieces (module : Module) : List PlacedPiece := statementPieces module.body

/-- The pieces of a module that no class and no function stands around. -/
def scopePieces (module : Module) : List PlacedPiece :=
  module.pieces.filter PlacedPiece.inModuleScope

end Module

/-- The statement lines of the module scope stand in nothing. -/
theorem PlacedPiece.inModuleScope_and_not_onOneLine (placed : PlacedPiece) :
    (placed.inModuleScope && !placed.onOneLine) = placed.around.isEmpty := by
  obtain ⟨around, piece⟩ := placed
  cases around with
  | nil => rfl
  | cons outer around => cases outer <;> simp [inModuleScope, onOneLine, Enclosure.name?]

end Syntax

open Syntax

/-! ## Class statements among the pieces -/

namespace ClassSite

/-- The class statement of a piece inside of scopes with given names, of which a number are
classes. -/
def ofPiece? (unit : SourceUnit) (names : List String) (depth : Nat) (placed : PlacedPiece) :
    Option ClassSite :=
  match placed.piece with
  | .simple _ => none
  | .classStatement header body =>
      some ⟨unit, names ++ placed.around.filterMap Enclosure.name?,
        depth + placed.around.countP Enclosure.isClassBody, header, body⟩

variable (unit : SourceUnit) (names : List String) (depth : Nat)

/-- In module scope no name but that of the module and no class stands around a class statement. -/
theorem ofPiece?_of_inModuleScope {placed : PlacedPiece}
    (outermost : placed.inModuleScope = true) {header : ClassHeader} {body : Suite}
    (piece : placed.piece = .classStatement header body) :
    ofPiece? unit names depth placed = some ⟨unit, names, depth, header, body⟩ := by
  have noScope : ∀ outer ∈ placed.around, outer = .oneLine := by
    intro outer member
    have nameless := List.all_eq_true.mp outermost outer member
    cases outer with
    | classBody name => simp [Enclosure.name?] at nameless
    | functionBody name => simp [Enclosure.name?] at nameless
    | oneLine => rfl
  have noName : placed.around.filterMap Enclosure.name? = [] := by
    rw [List.filterMap_eq_nil_iff]
    intro outer member
    rw [noScope outer member]
    rfl
  have noClass : placed.around.countP Enclosure.isClassBody = 0 := by
    rw [List.countP_eq_zero]
    intro outer member
    rw [noScope outer member]
    simp [Enclosure.isClassBody]
  simp only [ofPiece?, piece, noName, noClass, List.append_nil, Nat.add_zero]

theorem ofPiece?_inside_classBody (name : Identifier) (placed : PlacedPiece) :
    ofPiece? unit names depth (placed.inside (.classBody name)) =
      ofPiece? unit (names ++ [name.text]) (depth + 1) placed := by
  obtain ⟨around, piece⟩ := placed
  cases piece with
  | simple statement => rfl
  | classStatement header body =>
      have counted : (Enclosure.classBody name :: around).countP Enclosure.isClassBody =
          around.countP Enclosure.isClassBody + 1 := List.countP_cons_of_pos rfl
      simp [ofPiece?, PlacedPiece.inside, Enclosure.name?, counted, Nat.add_assoc, Nat.add_comm 1]

theorem ofPiece?_inside_functionBody (name : Identifier) (placed : PlacedPiece) :
    ofPiece? unit names depth (placed.inside (.functionBody name)) =
      ofPiece? unit (names ++ [name.text]) depth placed := by
  obtain ⟨around, piece⟩ := placed
  cases piece with
  | simple statement => rfl
  | classStatement header body =>
      simp [ofPiece?, PlacedPiece.inside, Enclosure.name?, Enclosure.isClassBody]

/-- Simple statements are no class statements. -/
theorem filterMap_ofPiece?_simple (around : List Enclosure) (parts : List SimpleStatement) :
    (parts.map fun part => (⟨around, .simple part⟩ : PlacedPiece)).filterMap
      (ofPiece? unit names depth) = [] := by
  rw [List.filterMap_map, List.filterMap_eq_nil_iff]
  intro part _
  rfl

mutual

theorem ofStatement_eq (names : List String) (depth : Nat) :
    ∀ statement, ofStatement unit names depth statement =
      statement.pieces.filterMap (ofPiece? unit names depth)
  | .line parts => by
      rw [ofStatement, Statement.pieces, filterMap_ofPiece?_simple]
  | .classStatement header body => by
      have own : ofPiece? unit names depth ⟨[], .classStatement header body⟩ =
          some ⟨unit, names, depth, header, body⟩ := ofPiece?_of_inModuleScope _ _ _ rfl rfl
      rw [ofStatement, Statement.pieces, List.filterMap_cons_some own, List.filterMap_map,
        ofSuite_eq _ _ body]
      simp only [Function.comp_def, ofPiece?_inside_classBody]
  | .functionStatement header body => by
      rw [ofStatement, Statement.pieces, ofSuite_eq _ _ body, List.filterMap_map]
      simp only [Function.comp_def, ofPiece?_inside_functionBody]
  | .compound clauses => by rw [ofStatement, Statement.pieces, ofClauses_eq names depth clauses]

theorem ofClauses_eq (names : List String) (depth : Nat) :
    ∀ clauses, ofClauses unit names depth clauses =
      (clausePieces clauses).filterMap (ofPiece? unit names depth)
  | [] => by rw [ofClauses, clausePieces, List.filterMap_nil]
  | .clause _ _ body :: rest => by
      rw [ofClauses, clausePieces, List.filterMap_append, ofSuite_eq names depth body,
        ofClauses_eq names depth rest]

theorem ofSuite_eq (names : List String) (depth : Nat) :
    ∀ suite, ofSuite unit names depth suite =
      suite.pieces.filterMap (ofPiece? unit names depth)
  | .inline parts => by rw [ofSuite, Suite.pieces, filterMap_ofPiece?_simple]
  | .indented body => by rw [ofSuite, Suite.pieces, ofStatements_eq names depth body]

theorem ofStatements_eq (names : List String) (depth : Nat) :
    ∀ statements, ofStatements unit names depth statements =
      (statementPieces statements).filterMap (ofPiece? unit names depth)
  | [] => by rw [ofStatements, statementPieces, List.filterMap_nil]
  | statement :: rest => by
      rw [ofStatements, statementPieces, List.filterMap_append,
        ofStatement_eq names depth statement, ofStatements_eq names depth rest]

end

/-- The class statement of a header in the scope of its module. -/
def outermost (unit : SourceUnit) (header : ClassHeader) (body : Suite) : ClassSite :=
  ⟨unit, [unit.name], 0, header, body⟩

theorem entry_outermost (unit : SourceUnit) (header : ClassHeader) (body : Suite) :
    (outermost unit header body).entry = ⟨unit, unit.name, header, body⟩ := by
  rw [entry, outermost, Text.dotted, String.intercalate_singleton]

theorem fqn_outermost (unit : SourceUnit) (header : ClassHeader) (body : Suite) :
    (outermost unit header body).fqn = unit.name ++ "." ++ header.name.text := by
  rw [fqn, outermost, Text.dotted_concat (List.cons_ne_nil _ _), Text.dotted,
    String.intercalate_singleton]

theorem header?_of_ofPiece? {unit : SourceUnit} {names : List String} {depth : Nat}
    {placed : PlacedPiece} {site : ClassSite}
    (read : ofPiece? unit names depth placed = some site) :
    placed.header? = some site.header := by
  obtain ⟨around, piece⟩ := placed
  cases piece with
  | simple statement => simp [ofPiece?] at read
  | classStatement header body =>
      rw [← Option.some.inj read]
      rfl

/-- A class statement in module scope, read from its piece. -/
theorem exists_ofPiece?_eq (unit : SourceUnit) {placed : PlacedPiece}
    (inScope : placed.inModuleScope = true) {header : ClassHeader}
    (headed : placed.header? = some header) :
    ∃ body, ofPiece? unit [unit.name] 0 placed = some (outermost unit header body) := by
  obtain ⟨around, piece⟩ := placed
  cases piece with
  | simple statement => simp [PlacedPiece.header?] at headed
  | classStatement other body =>
      obtain rfl : other = header := Option.some.inj headed
      exact ⟨body, ofPiece?_of_inModuleScope unit [unit.name] 0 inScope rfl⟩

end ClassSite

namespace SourceUnit

/-- The class statements of a unit are those among its pieces. -/
theorem classSites_eq (unit : SourceUnit) :
    unit.classSites = unit.module.pieces.filterMap (ClassSite.ofPiece? unit [unit.name] 0) :=
  ClassSite.ofStatements_eq unit [unit.name] 0 unit.module.body

end SourceUnit

/-! ## Declared classes of the module scope -/

namespace ClassSite

/-- A class statement that stands in no other declares a class, unless its name is declared. -/
theorem fqn_mem_keptAfter {seen : List String} {sites : List ClassSite} {site : ClassSite}
    (listed : site ∈ sites) (outermost : site.depth = 0) :
    site.fqn ∈ seen ++ (keptAfter seen sites).map fqn := by
  fun_induction keptAfter seen sites with
  | case1 => exact absurd listed List.not_mem_nil
  | case2 seen first rest repeated ih =>
      rcases List.mem_cons.mp listed with rfl | later
      · exact List.mem_append_left _ repeated
      · refine ih ?_
        -- what is passed over stands in a class
        have parts : rest.takeWhile (fun inner => first.depth < inner.depth) ++
            rest.dropWhile (fun inner => first.depth < inner.depth) = rest :=
          List.takeWhile_append_dropWhile
        rw [← parts, List.mem_append] at later
        refine later.resolve_left fun passed => ?_
        have deeper := List.mem_takeWhile_imp passed
        simp [outermost] at deeper
  | case3 seen first rest fresh ih =>
      rw [List.map_cons, List.append_cons]
      rcases List.mem_cons.mp listed with rfl | later
      · exact List.mem_append_left _ (List.mem_append_right _ List.mem_cons_self)
      · exact ih later

end ClassSite

namespace Declarations

/-- Every class statement in module scope declares its name, or finds it declared. -/
theorem mem_fqns_of_mem_scopePieces {units : List SourceUnit} {unit : SourceUnit}
    (member : unit ∈ units) {placed : PlacedPiece} (listed : placed ∈ unit.module.scopePieces)
    {name : String} (isClass : placed.className? = some name) :
    unit.name ++ "." ++ name ∈ (ofUnits units).fqns := by
  obtain ⟨header, headed, rfl⟩ := Option.map_eq_some_iff.mp isClass
  obtain ⟨inPieces, inScope⟩ := List.mem_filter.mp listed
  obtain ⟨body, same⟩ := ClassSite.exists_ofPiece?_eq unit inScope headed
  have site : ClassSite.outermost unit header body ∈ unit.classSites := by
    rw [SourceUnit.classSites_eq]
    exact List.mem_filterMap.mpr ⟨placed, inPieces, same⟩
  have kept := @ClassSite.fqn_mem_keptAfter [] _ _
    (List.mem_flatMap.mpr ⟨unit, member, site⟩) rfl
  rw [List.nil_append, ClassSite.fqn_outermost] at kept
  obtain ⟨first, firstKept, named⟩ := List.mem_map.mp kept
  obtain ⟨other, _, inOther⟩ :=
    List.mem_flatMap.mp ((ClassSite.keptAfter_sublist _ _).mem firstKept)
  rw [fqns, classes_ofUnits, List.map_map, ← named]
  refine List.mem_map.mpr ⟨first, firstKept, ?_⟩
  exact other.classSites_standIn.named first inOther

end Declarations

end TypeCatalog
