import TypeCatalog.Proofs.StatementParts
import TypeCatalog.Syntax.Outline

/-! # Reserved words

No class statement of a module that is read from a text has a reserved word for a name
(`TypeCatalog.Syntax.Module.unreserved_of_read?`). The names of classes are read by one parser, and
the headers of classes are among the parts of the module, whatever the grammar of expressions is.
-/

namespace TypeCatalog.Syntax

variable {header : ClassHeader}

mutual

theorem Statement.mem_parts_of_mem_classHeaders : ∀ statement : Statement,
    header ∈ statement.classHeaders → .classHeader header ∈ statement.parts
  | .line _, listed => by simp [Statement.classHeaders] at listed
  | .classStatement _ body, listed => by
      rw [Statement.classHeaders, List.mem_cons] at listed
      rw [Statement.parts]
      rcases listed with rfl | inside
      · exact List.mem_cons_self
      · exact List.mem_cons_of_mem _ (body.mem_parts_of_mem_classHeaders inside)
  | .functionStatement _ body, listed => by
      rw [Statement.classHeaders] at listed
      rw [Statement.parts]
      exact List.mem_cons_of_mem _ (body.mem_parts_of_mem_classHeaders listed)
  | .compound clauses, listed => by
      rw [Statement.classHeaders] at listed
      rw [Statement.parts]
      exact mem_clauseParts clauses listed

theorem mem_clauseParts : ∀ clauses : List Clause,
    header ∈ clauseClassHeaders clauses → .classHeader header ∈ clauseParts clauses
  | [], listed => by simp [clauseClassHeaders] at listed
  | .clause _ _ body :: rest, listed => by
      rw [clauseClassHeaders, List.mem_append] at listed
      rw [clauseParts, List.mem_append]
      exact listed.imp body.mem_parts_of_mem_classHeaders (mem_clauseParts rest)

theorem Suite.mem_parts_of_mem_classHeaders : ∀ suite : Suite,
    header ∈ suite.classHeaders → .classHeader header ∈ suite.parts
  | .inline _, listed => by simp [Suite.classHeaders] at listed
  | .indented body, listed => by
      rw [Suite.classHeaders] at listed
      rw [Suite.parts]
      exact mem_statementParts body listed

theorem mem_statementParts : ∀ statements : List Statement,
    header ∈ statementClassHeaders statements → .classHeader header ∈ statementParts statements
  | [], listed => by simp [statementClassHeaders] at listed
  | statement :: rest, listed => by
      rw [statementClassHeaders, List.mem_append] at listed
      rw [statementParts, List.mem_append]
      exact listed.imp statement.mem_parts_of_mem_classHeaders (mem_statementParts rest)

end

/-- **Names of classes.** No class statement of a module that is read from a text has a reserved
word for a name. -/
theorem Module.unreserved_of_read? {text : String} {module : Module}
    (isRead : read? text = some module) :
    ∀ header ∈ module.classHeaders, header.name.text ∉ reservedWords := by
  intro header listed
  obtain ⟨depth, written⟩ := exists_writtenBy_of_read? isRead
  exact (written _ (mem_statementParts module.body listed)).1

end TypeCatalog.Syntax
