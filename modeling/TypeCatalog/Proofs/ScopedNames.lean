import Mathlib.Data.List.Infix
import TypeCatalog.Proofs.ClassSites
import TypeCatalog.Proofs.Overrides

/-! # Names in scopes

A dotted name stands for the class that the innermost of the scopes that are looked at declares, and
when none of them declares it, it is read as in no scope (`TypeCatalog.Program.typeOf_scopes`). For
the header of a class one scope around it is looked at, and for its body its own scope as well: what
the scopes further out declare is not seen (`TypeCatalog.Program.types_of_names_in_classes`), so a
class cannot derive from a class of the function around the class that it stands in
(`TypeCatalog.Program.outer_scopes_are_not_seen`).
-/

namespace TypeCatalog

open Syntax

namespace TypeScope

variable (scope : TypeScope)

/-- A dotted name is its only operand and has no strings. -/
theorem operandTypes_of_dotted? (enclosing : List String) (ofText? : String → Option TypeSymbol)
    {expr : Expr} {name : String} (dotted : expr.dotted? = some name) :
    scope.operandTypes enclosing ofText? expr = [scope.namedType enclosing name] := by
  match expr, dotted with
  | .name _ _, dotted => simp [operandTypes, dotted]
  | .attribute _ _ _, dotted => simp [operandTypes, dotted]

/-- A dotted name is read by what it stands for. -/
theorem typeOf_of_dotted? (enclosing : List String) {expr : Expr} {name : String}
    (dotted : expr.dotted? = some name) :
    scope.typeOf enclosing expr = scope.namedType enclosing name := by
  rw [typeOf]
  cases longestString expr with
  | zero => rw [typeAtDepth, scope.operandTypes_of_dotted? enclosing _ dotted, ofOperands]
  | succ depth => rw [typeAtDepth, scope.operandTypes_of_dotted? enclosing _ dotted, ofOperands]

end TypeScope

namespace NameScope

variable (scope : NameScope)

theorem declaredIn?_append (inner outer : List String) (name : String) :
    scope.declaredIn? (inner ++ outer) name =
      (scope.declaredIn? inner name).or (scope.declaredIn? outer name) := by
  rw [declaredIn?, declaredIn?, declaredIn?, List.map_append, List.find?_append]

theorem declaredIn?_eq_none {enclosing : List String} {name : String}
    (unknown : ∀ path ∈ enclosing, path ++ "." ++ name ∉ scope.declared) :
    scope.declaredIn? enclosing name = none := by
  rw [declaredIn?, List.find?_eq_none]
  intro candidate listed
  obtain ⟨path, member, rfl⟩ := List.mem_map.mp listed
  simpa using unknown path member

/-- A name that the innermost scopes do not declare is the class that the next scope declares. -/
theorem resolve?_of_declared {inner outer : List String} {path name : String}
    (unknown : ∀ nearer ∈ inner, nearer ++ "." ++ name ∉ scope.declared)
    (known : path ++ "." ++ name ∈ scope.declared) :
    scope.resolve? (inner ++ path :: outer) name = some (path ++ "." ++ name) := by
  have here : scope.declaredIn? (path :: (outer ++ [scope.moduleName])) name =
      some (path ++ "." ++ name) := by
    rw [declaredIn?, List.map_cons, List.find?_cons_of_pos (by simpa using known)]
  rw [resolve?, List.append_assoc, List.cons_append, declaredIn?_append,
    declaredIn?_eq_none scope unknown, here]
  rfl

/-- A name that no scope declares is read as in no scope. -/
theorem resolve?_of_undeclared {enclosing : List String} {name : String}
    (unknown : ∀ path ∈ enclosing, path ++ "." ++ name ∉ scope.declared) :
    scope.resolve? enclosing name = scope.resolve? [] name := by
  rw [resolve?, resolve?, declaredIn?_append, declaredIn?_eq_none scope unknown]
  rfl

end NameScope

namespace Program

variable (sources : List SourceModule)

theorem lookupType?_eq_find?_types (key : String) :
    (ofModules sources).index.lookupType? key =
      (ofModules sources).declarations.types.find? key := by
  rw [Index.lookupType?, types_ofModules, Declarations.find?_types_classIndex]

theorem notMem_fqns_of_lookupType?_eq_none {key : String}
    (unknown : (ofModules sources).index.lookupType? key = none) :
    key ∉ (ofModules sources).declarations.fqns := by
  intro known
  obtain ⟨entry, declared, rfl⟩ := List.mem_map.mp known
  rw [lookupType?_eq_find?_types, Declarations.find?_types declared] at unknown
  simp at unknown

theorem mem_fqns_of_lookupType? {key : String} {symbol : TypeSymbol}
    (known : (ofModules sources).index.lookupType? key = some symbol) :
    key ∈ (ofModules sources).declarations.fqns := by
  rw [lookupType?_eq_find?_types] at known
  obtain ⟨entry, declared, rfl, _⟩ := Declarations.find?_types_iff.mp known
  exact List.mem_map_of_mem declared

/-- **Innermost first.** Of the scopes that are looked at the innermost that declares a name decides
what it stands for; a name that none of them declares is read as in no scope. -/
theorem typeOf_scopes (unit : SourceUnit) {expr : Expr} {name : String}
    (dotted : expr.dotted? = some name) (named : name ≠ "None") :
    let lookup := fun path => (ofModules sources).index.lookupType? (path ++ "." ++ name)
    let typeOf := ((ofModules sources).typeScope unit).typeOf
    (∀ inner path outer symbol, (∀ nearer ∈ inner, lookup nearer = none) →
      lookup path = some symbol → typeOf (inner ++ path :: outer) expr = symbol) ∧
    (∀ scopes, (∀ path ∈ scopes, lookup path = none) → typeOf scopes expr = typeOf [] expr) := by
  intro lookup typeOf
  refine ⟨?_, ?_⟩
  · intro inner path outer symbol unknown known
    have resolved : ((ofModules sources).typeScope unit).resolve? (inner ++ path :: outer) name =
        some (path ++ "." ++ name) :=
      NameScope.resolve?_of_declared _
        (fun nearer member => notMem_fqns_of_lookupType?_eq_none sources (unknown nearer member))
        (mem_fqns_of_lookupType? sources known)
    have stored : ((ofModules sources).typeScope unit).types.find? (path ++ "." ++ name) =
        some symbol := known
    rw [show typeOf (inner ++ path :: outer) expr = _ from TypeScope.typeOf_of_dotted? _ _ dotted,
      TypeScope.namedType, if_neg named, resolved]
    simp only [stored, Option.getD_some]
  · intro scopes unknown
    have resolved : ((ofModules sources).typeScope unit).resolve? scopes name =
        ((ofModules sources).typeScope unit).resolve? [] name :=
      NameScope.resolve?_of_undeclared _ fun path member =>
        notMem_fqns_of_lookupType?_eq_none sources (unknown path member)
    rw [show typeOf scopes expr = _ from TypeScope.typeOf_of_dotted? _ _ dotted,
      show typeOf [] expr = _ from TypeScope.typeOf_of_dotted? _ _ dotted, TypeScope.namedType,
      TypeScope.namedType, resolved]

/-- **Names in classes.** The header of a class sees the innermost scope around it and the module,
its body sees its own scope first: a name that they declare is that class, and a name that they do
not declare is read as in no scope, whatever the scopes further out declare. -/
theorem types_of_names_in_classes (sources : List SourceModule) :
    let program := ofModules sources
    ∀ entry ∈ program.declarations.classes, ∀ expr name, expr.dotted? = some name →
      name ≠ "None" →
        let lookup := fun path => program.index.lookupType? (path ++ "." ++ name)
        let typeOf := (program.typeScope entry.unit).typeOf
        (∀ symbol, lookup entry.scope = some symbol → typeOf [entry.scope] expr = symbol ∧
          (lookup entry.fqn = none → typeOf entry.bodyScopes expr = symbol)) ∧
        (∀ symbol, lookup entry.fqn = some symbol → typeOf entry.bodyScopes expr = symbol) ∧
        (lookup entry.scope = none → typeOf [entry.scope] expr = typeOf [] expr ∧
          (lookup entry.fqn = none → typeOf entry.bodyScopes expr = typeOf [] expr)) := by
  intro program entry _ expr name dotted named lookup typeOf
  obtain ⟨innermost, unseen⟩ := typeOf_scopes sources entry.unit dotted named
  refine ⟨?_, ?_, ?_⟩
  · intro symbol known
    refine ⟨innermost [] entry.scope [] symbol (by simp) known, ?_⟩
    intro unknown
    exact innermost [entry.fqn] entry.scope [] symbol (by simpa using unknown) known
  · intro symbol known
    exact innermost [] entry.fqn [entry.scope] symbol (by simp) known
  · intro unknown
    refine ⟨unseen [entry.scope] (by simpa using unknown), ?_⟩
    intro alsoUnknown
    exact unseen entry.bodyScopes (by simpa [ClassEntry.bodyScopes] using ⟨alsoUnknown, unknown⟩)

end Program

namespace ClassSite

/-- The qualified names of the scopes around a class statement, the innermost first and the module
last. -/
def scopesAround (site : ClassSite) : List String :=
  site.around.inits.tail.reverse.map Text.dotted

end ClassSite

namespace Sample

/-- A class of the module and a function that declares a class of the same name and another class,
in which a third one derives from a class of that name. -/
def nested : SourceModule where
  path := "m.py"
  name := "m"
  module := ⟨[classOn 1 a [] (.inline []),
    .functionStatement ⟨⟨2, 0⟩, x, [], none⟩ (.indented [classOn 3 a [] (.inline []),
      classOn 4 b [] (.indented [classOn 5 c [name 5 a] (.inline [])])])], by decide +kernel⟩

end Sample

namespace Program

/-- The base that a class writes by a dotted name need not be the class that the innermost scope
around it with a class of that name declares. In the sample that scope is the function, which is not
the innermost scope of all, and the class of the module is taken. -/
theorem outer_scopes_are_not_seen :
    ¬ ∀ sources : List SourceModule, let program := ofModules sources
      ∀ site ∈ program.units.flatMap SourceUnit.classSites, ∀ expr name symbol,
        site.header.baseExprs = [expr] → expr.dotted? = some name → name ≠ "None" →
          (site.scopesAround.findSome? fun path =>
            program.index.lookupType? (path ++ "." ++ name)) = some symbol →
          (program.index.bases.find? site.fqn).map TypeSymbol.fqn = some symbol.fqn := by
  intro seen
  obtain ⟨site, third, around, fqn, bases⟩ : ∃ site,
      ((ofModules [Sample.nested]).units.flatMap SourceUnit.classSites)[3]? = some site ∧
      site.scopesAround = ["m.x.B", "m.x", "m"] ∧ site.fqn = "m.x.B.C" ∧
      site.header.baseExprs = [Sample.name 5 Sample.a] :=
    ⟨_, rfl, by decide +kernel, by decide +kernel, rfl⟩
  have known : (["m.x.B", "m.x", "m"].findSome? fun path =>
      (ofModules [Sample.nested]).index.lookupType? (path ++ "." ++ "A")).map TypeSymbol.fqn =
        some "m.x.A" := by decide +kernel
  obtain ⟨symbol, declared, named⟩ := Option.map_eq_some_iff.mp known
  have base := seen [Sample.nested] site (List.mem_of_getElem? third) _ "A" symbol bases rfl
    (by decide) (around ▸ declared)
  rw [fqn, named] at base
  exact absurd base (by decide +kernel)

end Program

end TypeCatalog
