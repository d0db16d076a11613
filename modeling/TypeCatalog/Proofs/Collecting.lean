import TypeCatalog.Program.Declarations

/-! # Collecting declarations

Declarations are collected by walking over the statements of every unit. What every single addition
keeps, the walk keeps (`TypeCatalog.Declarations.Kept`).
-/

namespace TypeCatalog.Declarations

open Syntax

/-- A property of declarations that every addition from a unit keeps. -/
structure Kept (unit : SourceUnit) (holds : Declarations → Prop) : Prop where
  addClass : ∀ found scope header body fresh, holds found →
    holds (found.addClass ⟨unit, scope, header, body⟩ fresh)
  addFunction : ∀ found scope owner header, holds found →
    holds (found.addFunction ⟨unit, scope, owner, header⟩)
  addRepeated : ∀ found scope header body, holds found →
    holds (found.addRepeated ⟨unit, scope, header, body⟩)

namespace Kept

variable {unit : SourceUnit} {holds : Declarations → Prop}

mutual

theorem addStatement (kept : Kept unit holds) (scope : String) (owner : Option String)
    (found : Declarations) (before : holds found) :
    ∀ statement, holds (Declarations.addStatement unit scope owner found statement)
  | .line _ => before
  | .classStatement header body => by
      rw [Declarations.addStatement]
      split
      · exact kept.addSuite _ _ _ (kept.addClass found scope header body _ before) body
      · exact kept.addRepeated found scope header body before
  | .functionStatement header body => by
      rw [Declarations.addStatement]
      exact kept.addSuite _ _ _ (kept.addFunction found scope owner header before) body
  | .compound clauses => by
      rw [Declarations.addStatement]
      exact kept.addClauses scope owner found before clauses

theorem addClauses (kept : Kept unit holds) (scope : String) (owner : Option String)
    (found : Declarations) (before : holds found) :
    ∀ clauses, holds (Declarations.addClauses unit scope owner found clauses)
  | [] => before
  | .clause _ _ body :: rest => by
      rw [Declarations.addClauses]
      exact kept.addClauses scope owner _ (kept.addSuite scope owner found before body) rest

theorem addSuite (kept : Kept unit holds) (scope : String) (owner : Option String)
    (found : Declarations) (before : holds found) :
    ∀ suite, holds (Declarations.addSuite unit scope owner found suite)
  | .inline _ => before
  | .indented body => by
      rw [Declarations.addSuite]
      exact kept.addStatements scope owner found before body

theorem addStatements (kept : Kept unit holds) (scope : String) (owner : Option String)
    (found : Declarations) (before : holds found) :
    ∀ statements, holds (Declarations.addStatements unit scope owner found statements)
  | [] => before
  | statement :: rest => by
      rw [Declarations.addStatements]
      exact kept.addStatements scope owner _
        (kept.addStatement scope owner found before statement) rest

end

end Kept

/-- What additions from every unit keep holds of the declarations of all units. -/
theorem ofUnits_of_kept {holds : Declarations → Prop} (units : List SourceUnit)
    (kept : ∀ unit ∈ units, Kept unit holds) (initial : holds empty) : holds (ofUnits units) := by
  suffices folded : ∀ found, holds found → holds (units.foldl addUnit found) from
    folded empty initial
  induction units with
  | nil => exact fun _ before => before
  | cons unit rest ih =>
      intro found before
      refine ih (fun other member => kept other (List.mem_cons_of_mem _ member)) _ ?_
      exact (kept unit List.mem_cons_self).addStatements _ _ _ before _

/-- Collecting tells of repeated class statements only. -/
theorem notices_ofUnits (units : List SourceUnit) :
    ∀ notice ∈ (ofUnits units).notices, ∃ fqn path, notice = .redeclared fqn path := by
  have kept : ∀ unit ∈ units, Kept unit fun found =>
      ∀ notice ∈ found.notices, ∃ fqn path, notice = .redeclared fqn path := by
    intro unit _
    refine ⟨fun _ _ _ _ _ before => before, fun _ _ _ _ before => before, ?_⟩
    intro found scope header body before notice member
    rcases List.mem_append.mp member with earlier | single
    · exact before notice earlier
    · exact ⟨_, _, List.mem_singleton.mp single⟩
  exact ofUnits_of_kept units kept (by simp [empty])

end TypeCatalog.Declarations
