import TypeCatalog.Syntax.Module

/-! # Outlines

The outline of a module is the tree of its statements: what a class, a function or a compound
statement holds stands below it. `Tree.preorder` lists the labels of a tree by recursion, and
`Tree.walk` lists those of a stack of trees by a loop. -/

namespace TypeCatalog

/-- A tree whose nodes have any number of children. -/
inductive Tree (α : Type) where
  | node (label : α) (children : List (Tree α))

namespace Tree

variable {α : Type}

mutual

/-- The labels of a tree: that of the root, then those of each child's tree from left to right. -/
def preorder : Tree α → List α
  | .node label children => label :: preorderAll children

/-- The labels of a list of trees, one tree after the other. -/
def preorderAll : List (Tree α) → List α
  | [] => []
  | tree :: rest => preorder tree ++ preorderAll rest

end

mutual

/-- The number of nodes of a tree. -/
def size : Tree α → Nat
  | .node _ children => sizeAll children + 1

/-- The number of nodes of a list of trees. -/
def sizeAll : List (Tree α) → Nat
  | [] => 0
  | tree :: rest => size tree + sizeAll rest

end

theorem sizeAll_append (left right : List (Tree α)) :
    sizeAll (left ++ right) = sizeAll left + sizeAll right := by
  induction left with
  | nil => simp [sizeAll]
  | cons tree rest ih => simp [sizeAll, ih, Nat.add_assoc]

/-- The labels of a stack of trees: take the tree on top, list its root, and put its children on the
stack in its place. -/
def walk : List (Tree α) → List α
  | [] => []
  | .node label children :: rest => label :: walk (children ++ rest)
termination_by stack => sizeAll stack
decreasing_by
  simp only [sizeAll, size, sizeAll_append]
  omega

theorem preorderAll_append (left right : List (Tree α)) :
    preorderAll (left ++ right) = preorderAll left ++ preorderAll right := by
  induction left with
  | nil => simp [preorderAll]
  | cons tree rest ih => simp [preorderAll, ih]

end Tree

namespace Syntax

/-- What a node of an outline is: the module, a class, function or annotated assignment known by its
place, or anything else. -/
inductive OutlineNode where
  | module
  | site (place : Place)
  | other
  deriving DecidableEq, Repr

namespace SimpleStatement

def outline (statement : SimpleStatement) : Tree OutlineNode :=
  .node ((statement.site?.map OutlineNode.site).getD .other) []

end SimpleStatement

mutual

def Statement.outline : Statement → Tree OutlineNode
  | .line parts => .node .other (parts.map SimpleStatement.outline)
  | .classStatement header body => .node (.site header.place) [body.outline]
  | .functionStatement header body => .node (.site header.place) [body.outline]
  | .compound clauses => .node .other (clauseOutlines clauses)

def clauseOutlines : List Clause → List (Tree OutlineNode)
  | [] => []
  | .clause _ _ body :: rest => .node .other [body.outline] :: clauseOutlines rest

def Suite.outline : Suite → Tree OutlineNode
  | .inline parts => .node .other (parts.map SimpleStatement.outline)
  | .indented body => .node .other (statementOutlines body)

def statementOutlines : List Statement → List (Tree OutlineNode)
  | [] => []
  | statement :: rest => statement.outline :: statementOutlines rest

end

mutual

/-- The headers of the class statements in a statement, in source order. -/
def Statement.classHeaders : Statement → List ClassHeader
  | .line _ => []
  | .classStatement header body => header :: body.classHeaders
  | .functionStatement _ body => body.classHeaders
  | .compound clauses => clauseClassHeaders clauses

def clauseClassHeaders : List Clause → List ClassHeader
  | [] => []
  | .clause _ _ body :: rest => body.classHeaders ++ clauseClassHeaders rest

def Suite.classHeaders : Suite → List ClassHeader
  | .inline _ => []
  | .indented body => statementClassHeaders body

def statementClassHeaders : List Statement → List ClassHeader
  | [] => []
  | statement :: rest => statement.classHeaders ++ statementClassHeaders rest

end

namespace Module

/-- The headers of the class statements of a module, in source order. -/
def classHeaders (module : Module) : List ClassHeader := statementClassHeaders module.body

def outline (module : Module) : Tree OutlineNode :=
  .node .module (statementOutlines module.body)

/-- The nodes of a module in pre-order. -/
def nodes (module : Module) : List OutlineNode := Tree.walk [module.outline]

end Module

end Syntax

end TypeCatalog
