import TypeCatalog.Program.Declarations
import TypeCatalog.Proofs.Names

/-! # Class statements in pre-order

The class statements of a unit are listed in pre-order, wherever they stand, each with the names and
the number of classes around it (`TypeCatalog.SourceUnit.classSites`). Of such a list the first
statement of each qualified name is kept, and what stands inside a dropped statement is passed over
(`TypeCatalog.ClassSite.keptAfter`). The walk that collects the declarations of a program keeps
exactly these (`TypeCatalog.Declarations.classes_ofUnits`).
-/

namespace TypeCatalog

open Syntax

/-- A class statement where it stands: `around` are the names of the module and of the class and
function statements around it, outermost first, and `depth` counts the class statements. -/
structure ClassSite where
  unit : SourceUnit
  around : List String
  depth : Nat
  header : ClassHeader
  body : Suite

namespace ClassSite

/-- The qualified name of a class statement: the names around it, followed by its own. -/
def fqn (site : ClassSite) : String := Text.dotted (site.around ++ [site.header.name.text])

/-- The class that a class statement declares. -/
def entry (site : ClassSite) : ClassEntry :=
  ⟨site.unit, Text.dotted site.around, site.header, site.body⟩

mutual

/-- The class statements of a statement in pre-order. -/
def ofStatement (unit : SourceUnit) (around : List String) (depth : Nat) :
    Statement → List ClassSite
  | .line _ => []
  | .classStatement header body =>
      ⟨unit, around, depth, header, body⟩ ::
        ofSuite unit (around ++ [header.name.text]) (depth + 1) body
  | .functionStatement header body => ofSuite unit (around ++ [header.name.text]) depth body
  | .compound clauses => ofClauses unit around depth clauses

/-- The class statements of the clauses of a compound statement in pre-order. -/
def ofClauses (unit : SourceUnit) (around : List String) (depth : Nat) :
    List Clause → List ClassSite
  | [] => []
  | .clause _ _ body :: rest => ofSuite unit around depth body ++ ofClauses unit around depth rest

/-- The class statements of a suite in pre-order. -/
def ofSuite (unit : SourceUnit) (around : List String) (depth : Nat) : Suite → List ClassSite
  | .inline _ => []
  | .indented body => ofStatements unit around depth body

/-- The class statements of a list of statements in pre-order. -/
def ofStatements (unit : SourceUnit) (around : List String) (depth : Nat) :
    List Statement → List ClassSite
  | [] => []
  | statement :: rest =>
      ofStatement unit around depth statement ++ ofStatements unit around depth rest

end

/-- The statements of a pre-order that declare a class: the first of each qualified name that has
not been seen. What stands inside a dropped statement follows it with more classes around it, and is
passed over. -/
def keptAfter (seen : List String) : List ClassSite → List ClassSite
  | [] => []
  | site :: rest =>
      if site.fqn ∈ seen then keptAfter seen (rest.dropWhile fun inner => site.depth < inner.depth)
      else site :: keptAfter (seen ++ [site.fqn]) rest
termination_by sites => sites.length
decreasing_by
  · exact Nat.lt_succ_of_le (List.dropWhile_sublist _).length_le
  · exact Nat.lt_succ_self _

theorem keptAfter_sublist (seen : List String) (sites : List ClassSite) :
    (keptAfter seen sites).Sublist sites := by
  fun_induction keptAfter seen sites with
  | case1 => exact List.Sublist.refl _
  | case2 seen site rest repeated ih => exact (ih.trans (List.dropWhile_sublist _)).cons site
  | case3 seen site rest fresh ih => exact ih.cons_cons site

/-! ## Depths -/

/-- Class statements stand outside of a depth when the first of them does. -/
def Outside (depth : Nat) (sites : List ClassSite) : Prop :=
  ∀ site ∈ sites.head?, site.depth ≤ depth

/-- The class statements of a piece of a unit at a depth: all stand at least as deep, and the first
of them stands in no other. -/
structure Level (depth : Nat) (sites : List ClassSite) : Prop where
  above : ∀ site ∈ sites, depth ≤ site.depth
  first : Outside depth sites

theorem Outside.append {depth : Nat} {front rest : List ClassSite} (before : Outside depth front)
    (after : Outside depth rest) : Outside depth (front ++ rest) := by
  intro site first
  rw [List.head?_append, Option.mem_def, Option.or_eq_some_iff] at first
  rcases first with inFront | ⟨_, inRest⟩
  · exact before site inFront
  · exact after site inRest

/-- Passing over deeper statements passes over what stands in a piece, and stops behind it. -/
theorem Outside.dropWhile_append {depth : Nat} {inner rest : List ClassSite}
    (outside : Outside depth rest) (deeper : ∀ site ∈ inner, depth < site.depth) :
    (inner ++ rest).dropWhile (fun site => depth < site.depth) = rest := by
  rw [List.dropWhile_append_of_pos fun site member => by simpa using deeper site member]
  cases rest with
  | nil => rfl
  | cons site rest => rw [List.dropWhile_cons_of_neg (by simpa using outside site rfl)]

namespace Level

theorem nil (depth : Nat) : Level depth [] := ⟨by simp, by simp [Outside]⟩

theorem append {depth : Nat} {front rest : List ClassSite} (before : Level depth front)
    (after : Level depth rest) : Level depth (front ++ rest) where
  above site member := (List.mem_append.mp member).elim (before.above site) (after.above site)
  first := before.first.append after.first

mutual

theorem ofStatement (unit : SourceUnit) (around : List String) (depth : Nat) :
    ∀ statement, Level depth (ClassSite.ofStatement unit around depth statement)
  | .line _ => by
      rw [ClassSite.ofStatement]
      exact nil depth
  | .classStatement header body => by
      rw [ClassSite.ofStatement]
      refine ⟨?_, by simp [Outside]⟩
      intro site member
      rcases List.mem_cons.mp member with rfl | inBody
      · exact Nat.le_refl _
      · exact Nat.le_of_succ_le ((ofSuite unit _ (depth + 1) body).above site inBody)
  | .functionStatement header body => by
      rw [ClassSite.ofStatement]
      exact ofSuite unit _ depth body
  | .compound clauses => by
      rw [ClassSite.ofStatement]
      exact ofClauses unit around depth clauses

theorem ofClauses (unit : SourceUnit) (around : List String) (depth : Nat) :
    ∀ clauses, Level depth (ClassSite.ofClauses unit around depth clauses)
  | [] => by
      rw [ClassSite.ofClauses]
      exact nil depth
  | .clause _ _ body :: rest => by
      rw [ClassSite.ofClauses]
      exact (ofSuite unit around depth body).append (ofClauses unit around depth rest)

theorem ofSuite (unit : SourceUnit) (around : List String) (depth : Nat) :
    ∀ suite, Level depth (ClassSite.ofSuite unit around depth suite)
  | .inline _ => by
      rw [ClassSite.ofSuite]
      exact nil depth
  | .indented body => by
      rw [ClassSite.ofSuite]
      exact ofStatements unit around depth body

theorem ofStatements (unit : SourceUnit) (around : List String) (depth : Nat) :
    ∀ statements, Level depth (ClassSite.ofStatements unit around depth statements)
  | [] => by
      rw [ClassSite.ofStatements]
      exact nil depth
  | statement :: rest => by
      rw [ClassSite.ofStatements]
      exact (ofStatement unit around depth statement).append (ofStatements unit around depth rest)

end

end Level

end ClassSite

namespace SourceUnit

/-- The class statements of a unit in pre-order. -/
def classSites (unit : SourceUnit) : List ClassSite :=
  ClassSite.ofStatements unit [unit.name] 0 unit.module.body

end SourceUnit

/-! ## Collecting -/

namespace Declarations

/-- The classes that are declared once the class statements that are left are collected. -/
def continued (found : Declarations) (left : List ClassSite) : List ClassEntry :=
  found.classes ++ (ClassSite.keptAfter found.fqns left).map ClassSite.entry

/-- A class whose name is new is collected before its body. -/
theorem continued_addClass (found : Declarations) (site : ClassSite) (left : List ClassSite)
    (named : site.entry.fqn = site.fqn) (fresh : site.entry.fqn ∉ found.fqns) :
    found.continued (site :: left) = (found.addClass site.entry fresh).continued left := by
  have fqns : (found.addClass site.entry fresh).fqns = found.fqns ++ [site.fqn] := by
    rw [← named]
    exact List.map_append
  have classes : (found.addClass site.entry fresh).classes = found.classes ++ [site.entry] := rfl
  rw [continued, continued, ClassSite.keptAfter, if_neg (named ▸ fresh), fqns, classes,
    List.map_cons, List.append_assoc, List.singleton_append]

/-- A class whose name is taken is passed over with its body. -/
theorem continued_of_repeated (found : Declarations) (site : ClassSite)
    {inner left : List ClassSite} (taken : site.fqn ∈ found.fqns)
    (deeper : ∀ other ∈ inner, site.depth < other.depth)
    (outside : ClassSite.Outside site.depth left) :
    found.continued (site :: (inner ++ left)) = found.continued left := by
  rw [continued, continued, ClassSite.keptAfter, if_pos taken, outside.dropWhile_append deeper]

mutual

/-- Walking over a statement collects its class statements. -/
theorem continued_addStatement (unit : SourceUnit) (around : List String) (depth : Nat)
    (owner : Option String) (found : Declarations) (left : List ClassSite)
    (outside : ClassSite.Outside depth left) (inModule : around ≠ []) :
    ∀ statement, (addStatement unit (Text.dotted around) owner found statement).continued left =
      found.continued (ClassSite.ofStatement unit around depth statement ++ left)
  | .line _ => by rw [addStatement, ClassSite.ofStatement, List.nil_append]
  | .classStatement header body => by
      let site : ClassSite := ⟨unit, around, depth, header, body⟩
      have named : site.entry.fqn = site.fqn := (Text.dotted_concat inModule _).symm
      have deeper : ClassSite.Outside (depth + 1) left := fun other first =>
        Nat.le_succ_of_le (outside other first)
      rw [addStatement, ClassSite.ofStatement, List.cons_append]
      split
      · rename_i fresh
        rw [continued_addClass found site _ named fresh]
        rw [show ClassEntry.fqn ⟨unit, Text.dotted around, header, body⟩ =
          Text.dotted (around ++ [header.name.text]) from named]
        exact continued_addSuite unit _ (depth + 1) _ _ left deeper (by simp) body
      · rename_i taken
        rw [Decidable.not_not] at taken
        exact (continued_of_repeated found site (named ▸ taken)
          (ClassSite.Level.ofSuite unit _ (depth + 1) body).above outside).symm
  | .functionStatement header body => by
      rw [addStatement, ClassSite.ofStatement]
      rw [show FunctionEntry.fqn ⟨unit, Text.dotted around, owner, header⟩ =
        Text.dotted (around ++ [header.name.text]) from (Text.dotted_concat inModule _).symm]
      exact continued_addSuite unit _ depth none _ left outside (by simp) body
  | .compound clauses => by
      rw [addStatement, ClassSite.ofStatement]
      exact continued_addClauses unit around depth owner found left outside inModule clauses

theorem continued_addClauses (unit : SourceUnit) (around : List String) (depth : Nat)
    (owner : Option String) (found : Declarations) (left : List ClassSite)
    (outside : ClassSite.Outside depth left) (inModule : around ≠ []) :
    ∀ clauses, (addClauses unit (Text.dotted around) owner found clauses).continued left =
      found.continued (ClassSite.ofClauses unit around depth clauses ++ left)
  | [] => by rw [addClauses, ClassSite.ofClauses, List.nil_append]
  | .clause _ _ body :: rest => by
      rw [addClauses, ClassSite.ofClauses, List.append_assoc]
      rw [continued_addClauses unit around depth owner _ left outside inModule rest]
      exact continued_addSuite unit around depth owner found _
        ((ClassSite.Level.ofClauses unit around depth rest).first.append outside) inModule body

theorem continued_addSuite (unit : SourceUnit) (around : List String) (depth : Nat)
    (owner : Option String) (found : Declarations) (left : List ClassSite)
    (outside : ClassSite.Outside depth left) (inModule : around ≠ []) :
    ∀ suite, (addSuite unit (Text.dotted around) owner found suite).continued left =
      found.continued (ClassSite.ofSuite unit around depth suite ++ left)
  | .inline _ => by rw [addSuite, ClassSite.ofSuite, List.nil_append]
  | .indented body => by
      rw [addSuite, ClassSite.ofSuite]
      exact continued_addStatements unit around depth owner found left outside inModule body

theorem continued_addStatements (unit : SourceUnit) (around : List String) (depth : Nat)
    (owner : Option String) (found : Declarations) (left : List ClassSite)
    (outside : ClassSite.Outside depth left) (inModule : around ≠ []) :
    ∀ statements, (addStatements unit (Text.dotted around) owner found statements).continued left =
      found.continued (ClassSite.ofStatements unit around depth statements ++ left)
  | [] => by rw [addStatements, ClassSite.ofStatements, List.nil_append]
  | statement :: rest => by
      rw [addStatements, ClassSite.ofStatements, List.append_assoc]
      rw [continued_addStatements unit around depth owner _ left outside inModule rest]
      exact continued_addStatement unit around depth owner found _
        ((ClassSite.Level.ofStatements unit around depth rest).first.append outside) inModule
        statement

end

/-- The classes of units are those that the first statement of each qualified name declares. -/
theorem classes_ofUnits (units : List SourceUnit) :
    (ofUnits units).classes =
      (ClassSite.keptAfter [] (units.flatMap SourceUnit.classSites)).map ClassSite.entry := by
  suffices folded : ∀ found : Declarations, (units.foldl addUnit found).continued [] =
      found.continued (units.flatMap SourceUnit.classSites) by
    have whole := folded empty
    simpa [continued, ClassSite.keptAfter, ofUnits, empty, fqns] using whole
  induction units with
  | nil => exact fun _ => rfl
  | cons unit rest ih =>
      intro found
      have outside : ClassSite.Outside 0 (rest.flatMap SourceUnit.classSites) := by
        clear ih
        induction rest with
        | nil => simp [ClassSite.Outside]
        | cons other rest ih => exact (ClassSite.Level.ofStatements other _ 0 _).first.append ih
      have single : Text.dotted [unit.name] = unit.name := String.intercalate_singleton
      have walked := continued_addStatements unit [unit.name] 0 none found _ outside (by simp)
        unit.module.body
      rw [single] at walked
      exact (ih _).trans walked

end Declarations

end TypeCatalog
