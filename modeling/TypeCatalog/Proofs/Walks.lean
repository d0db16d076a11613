import Mathlib.Logic.Function.Iterate
import TypeCatalog.Proofs.Sites

/-! # Walks over trees

The nodes of a tree are listed by a loop that keeps the trees it still has to visit on a stack. At
any moment the stack mixes siblings of several levels. What carries the loop is that the stack, read
from its top, spells what is left of the pre-order: every round takes the first label from what is
left (`TypeCatalog.Tree.Loop.round_of_pending_eq_cons`). So the loop ends after one round for each
node, and what it lists is the pre-order, in which every node stands once, at the place that its
address gives it (`TypeCatalog.Tree.walk_in_preorder`).
-/

namespace TypeCatalog

namespace Tree

variable {α : Type}

/-! ## Roots and children -/

def label : Tree α → α
  | .node label _ => label

def children : Tree α → List (Tree α)
  | .node _ children => children

theorem preorder_eq (tree : Tree α) : tree.preorder = tree.label :: preorderAll tree.children := by
  cases tree
  rw [preorder, label, children]

theorem preorderAll_singleton (tree : Tree α) : preorderAll [tree] = tree.preorder := by
  rw [preorderAll, preorderAll, List.append_nil]

theorem preorderAll_eq_flatMap (trees : List (Tree α)) :
    preorderAll trees = trees.flatMap preorder := by
  induction trees with
  | nil => rw [preorderAll, List.flatMap_nil]
  | cons tree rest ih => rw [preorderAll, List.flatMap_cons, ih]

/-- The walk over one tree is its pre-order. -/
theorem walk_singleton (tree : Tree α) : walk [tree] = tree.preorder := by
  rw [walk_eq_preorderAll, preorderAll_singleton]

mutual

/-- A pre-order has as many labels as the tree has nodes. -/
theorem length_preorder : ∀ tree : Tree α, tree.preorder.length = tree.size
  | .node label children => by
      rw [preorder, size, List.length_cons, length_preorderAll children]

theorem length_preorderAll : ∀ trees : List (Tree α), (preorderAll trees).length = sizeAll trees
  | [] => by rw [preorderAll, sizeAll, List.length_nil]
  | tree :: rest => by
      rw [preorderAll, sizeAll, List.length_append, length_preorder tree, length_preorderAll rest]

end

/-! ## The loop -/

/-- A state of the loop: the trees that are still to be visited, the next one last, and the labels
that are listed so far. -/
structure Loop (α : Type) where
  stack : List (Tree α)
  listed : List α

namespace Loop

def start (tree : Tree α) : Loop α := ⟨[tree], []⟩

/-- One round takes the last tree off the stack, lists its root, and puts its children on the stack,
the last child first. The loop has ended when the stack is empty. -/
def round (loop : Loop α) : Loop α :=
  match loop.stack.getLast? with
  | none => loop
  | some tree => ⟨loop.stack.dropLast ++ tree.children.reverse, loop.listed ++ [tree.label]⟩

/-- What is left to be listed: the trees on the stack from its top, each in pre-order. -/
def pending (loop : Loop α) : List α := preorderAll loop.stack.reverse

theorem pending_concat (rest : List (Tree α)) (tree : Tree α) (listed : List α) :
    pending ⟨rest ++ [tree], listed⟩ =
      tree.label :: (preorderAll tree.children ++ preorderAll rest.reverse) := by
  rw [pending, List.reverse_concat, preorderAll, preorder_eq, List.cons_append]

theorem pending_eq_nil_iff (loop : Loop α) : loop.pending = [] ↔ loop.stack = [] := by
  obtain ⟨stack, listed⟩ := loop
  rcases List.eq_nil_or_concat stack with rfl | ⟨below, tree, rfl⟩
  · simp [pending, preorderAll]
  · simp [pending_concat]

/-- A loop with an empty stack stays as it is. -/
theorem round_of_pending_eq_nil {loop : Loop α} (ended : loop.pending = []) :
    loop.round = loop := by
  rw [round, (pending_eq_nil_iff loop).mp ended]
  rfl

/-- A round lists the first label that is left, and leaves the others. The children that it puts on
the stack are read before the siblings that wait below them. -/
theorem round_of_pending_eq_cons {loop : Loop α} {first : α} {rest : List α}
    (left : loop.pending = first :: rest) :
    loop.round.listed = loop.listed ++ [first] ∧ loop.round.pending = rest := by
  obtain ⟨stack, listed⟩ := loop
  rcases List.eq_nil_or_concat stack with rfl | ⟨below, tree, rfl⟩
  · exact absurd left (by simp [pending, preorderAll])
  · rw [List.concat_eq_append] at left ⊢
    rw [pending_concat, List.cons.injEq] at left
    obtain ⟨rfl, rfl⟩ := left
    have taken : round ⟨below ++ [tree], listed⟩ =
        ⟨below ++ tree.children.reverse, listed ++ [tree.label]⟩ := by
      rw [round, List.getLast?_concat, List.dropLast_concat]
    rw [taken, pending, List.reverse_append, List.reverse_reverse, preorderAll_append]
    exact ⟨rfl, rfl⟩

/-- Rounds list what is left from its front. -/
theorem rounds (count : Nat) (loop : Loop α) :
    (round^[count] loop).listed = loop.listed ++ loop.pending.take count ∧
      (round^[count] loop).pending = loop.pending.drop count := by
  induction count generalizing loop with
  | zero => simp
  | succ count ih =>
      rw [Function.iterate_succ_apply]
      obtain ⟨listed, pending⟩ := ih loop.round
      rw [listed, pending]
      cases left : loop.pending with
      | nil => simp [round_of_pending_eq_nil left, left]
      | cons first rest =>
          obtain ⟨taken, others⟩ := round_of_pending_eq_cons left
          simp [taken, others]

/-- The loop that starts with a tree lists its pre-order, one label in each round. -/
theorem rounds_start (tree : Tree α) (count : Nat) :
    (round^[count] (start tree)).listed = tree.preorder.take count ∧
      (round^[count] (start tree)).pending = tree.preorder.drop count := by
  have whole : (start tree).pending = tree.preorder := preorderAll_singleton tree
  rw [← whole]
  exact rounds count (start tree)

/-- The loop has ended as soon as it has made a round for each node. -/
theorem stack_rounds_start_eq_nil_iff (tree : Tree α) (count : Nat) :
    (round^[count] (start tree)).stack = [] ↔ tree.size ≤ count := by
  rw [← pending_eq_nil_iff, (rounds_start tree count).2, List.drop_eq_nil_iff, length_preorder]

end Loop

/-! ## Addresses -/

/-- The part of a tree at an address, which says which child to go to at every step. -/
def at? (tree : Tree α) : List Nat → Option (Tree α)
  | [] => some tree
  | position :: rest => tree.children[position]?.bind fun child => child.at? rest

mutual

/-- A tree that stands at an address, each label with the address of its node. -/
def addressedFrom (address : List Nat) : Tree α → Tree (List Nat × α)
  | .node label children => .node (address, label) (addressedAllFrom address 0 children)

/-- The same for children that stand below an address, the first of them at a position. -/
def addressedAllFrom (address : List Nat) (position : Nat) :
    List (Tree α) → List (Tree (List Nat × α))
  | [] => []
  | tree :: rest =>
      addressedFrom (address ++ [position]) tree :: addressedAllFrom address (position + 1) rest

end

/-- The same tree, each label with the address of its node. -/
def addressed (tree : Tree α) : Tree (List Nat × α) := addressedFrom [] tree

mutual

/-- Addresses change no labels. -/
theorem map_snd_preorder_addressedFrom (address : List Nat) :
    ∀ tree : Tree α, (addressedFrom address tree).preorder.map Prod.snd = tree.preorder
  | .node label children => by
      rw [addressedFrom, preorder, preorder, List.map_cons,
        map_snd_preorderAll_addressedAllFrom address 0 children]

theorem map_snd_preorderAll_addressedAllFrom (address : List Nat) (position : Nat) :
    ∀ trees : List (Tree α),
      (preorderAll (addressedAllFrom address position trees)).map Prod.snd = preorderAll trees
  | [] => by rw [addressedAllFrom, preorderAll, preorderAll, List.map_nil]
  | tree :: rest => by
      rw [addressedAllFrom, preorderAll, preorderAll, List.map_append,
        map_snd_preorder_addressedFrom _ tree,
        map_snd_preorderAll_addressedAllFrom address (position + 1) rest]

end

mutual

/-- What is listed of a tree that stands at an address are the roots of its parts. -/
theorem mem_preorder_addressedFrom_iff (address : List Nat) (entry : List Nat × α) :
    ∀ tree : Tree α, entry ∈ (addressedFrom address tree).preorder ↔
      ∃ below part, tree.at? below = some part ∧ entry = (address ++ below, part.label)
  | .node label children => by
      rw [addressedFrom, preorder, List.mem_cons,
        mem_preorderAll_addressedAllFrom_iff address entry 0 children]
      constructor
      · rintro (rfl | ⟨index, below, part, found, rfl⟩)
        · exact ⟨[], .node label children, rfl, by rw [List.append_nil, Tree.label]⟩
        · exact ⟨index :: below, part, found, by rw [Nat.zero_add]⟩
      · rintro ⟨below, part, found, rfl⟩
        cases below with
        | nil =>
            obtain rfl := Option.some.inj found
            exact Or.inl (by rw [List.append_nil, Tree.label])
        | cons index below => exact Or.inr ⟨index, below, part, found, by rw [Nat.zero_add]⟩

theorem mem_preorderAll_addressedAllFrom_iff (address : List Nat) (entry : List Nat × α)
    (position : Nat) : ∀ trees : List (Tree α),
      entry ∈ preorderAll (addressedAllFrom address position trees) ↔
        ∃ index below part, (trees[index]?.bind fun child => child.at? below) = some part ∧
          entry = (address ++ (position + index) :: below, part.label)
  | [] => by simp [addressedAllFrom, preorderAll]
  | tree :: rest => by
      rw [addressedAllFrom, preorderAll, List.mem_append,
        mem_preorder_addressedFrom_iff _ entry tree,
        mem_preorderAll_addressedAllFrom_iff address entry (position + 1) rest]
      constructor
      · rintro (⟨below, part, found, rfl⟩ | ⟨index, below, part, found, rfl⟩)
        · exact ⟨0, below, part, found, by rw [List.append_assoc]; rfl⟩
        · exact ⟨index + 1, below, part, found, by rw [Nat.add_assoc, Nat.add_comm 1]⟩
      · rintro ⟨index, below, part, found, rfl⟩
        cases index with
        | zero => exact Or.inl ⟨below, part, found, by rw [List.append_assoc]; rfl⟩
        | succ index =>
            exact Or.inr ⟨index, below, part, found, by rw [Nat.add_assoc, Nat.add_comm 1]⟩

end

mutual

/-- A tree that stands at an address lists its nodes by increasing addresses: a node before what
stands below it, and what stands below one child before what stands below the next. -/
theorem pairwise_preorder_addressedFrom (address : List Nat) :
    ∀ tree : Tree α, (addressedFrom address tree).preorder.Pairwise fun left right =>
      left.1 < right.1
  | .node label children => by
      rw [addressedFrom, preorder, List.pairwise_cons]
      refine ⟨fun entry listed => ?_, pairwise_preorderAll_addressedAllFrom address 0 children⟩
      obtain ⟨index, below, part, -, rfl⟩ :=
        (mem_preorderAll_addressedAllFrom_iff address entry 0 children).mp listed
      have longer : address ++ [] < address ++ (0 + index) :: below :=
        List.append_left_lt (List.nil_lt_cons _ _)
      rwa [List.append_nil] at longer

theorem pairwise_preorderAll_addressedAllFrom (address : List Nat) (position : Nat) :
    ∀ trees : List (Tree α), (preorderAll (addressedAllFrom address position trees)).Pairwise
      fun left right => left.1 < right.1
  | [] => by
      rw [addressedAllFrom, preorderAll]
      exact List.Pairwise.nil
  | tree :: rest => by
      rw [addressedAllFrom, preorderAll, List.pairwise_append]
      refine ⟨pairwise_preorder_addressedFrom _ tree,
        pairwise_preorderAll_addressedAllFrom address (position + 1) rest, ?_⟩
      intro entry listed later laterListed
      obtain ⟨below, part, -, rfl⟩ := (mem_preorder_addressedFrom_iff _ entry tree).mp listed
      obtain ⟨index, laterBelow, laterPart, -, rfl⟩ :=
        (mem_preorderAll_addressedAllFrom_iff address later (position + 1) rest).mp laterListed
      rw [List.append_assoc]
      exact List.append_left_lt (List.cons_lt_cons_iff.mpr (Or.inl (by omega)))

end

/-- **Pre-order.** The loop that starts with a tree lists the labels of its nodes in pre-order, one
in each round: what is listed after some rounds is the front of the pre-order, the stack spells the
rest of it, and the stack is empty as soon as every node had its round. So a walk over a tree lists
the root and then the walks over the children from left to right, and it lists every node once, by
increasing addresses. The nodes of a module are those of its outline in this order. -/
theorem walk_in_preorder (tree : Tree α) :
    (∀ count, (Loop.round^[count] (Loop.start tree)).listed = tree.preorder.take count ∧
      walk (Loop.round^[count] (Loop.start tree)).stack.reverse = tree.preorder.drop count ∧
      ((Loop.round^[count] (Loop.start tree)).stack = [] ↔ tree.size ≤ count)) ∧
    (Loop.round^[tree.size] (Loop.start tree)).listed = walk [tree] ∧
    walk [tree] = tree.preorder ∧
    walk [tree] = tree.label :: tree.children.flatMap (fun child => walk [child]) ∧
    (walk [tree.addressed]).map Prod.snd = walk [tree] ∧
    (∀ address label, (address, label) ∈ walk [tree.addressed] ↔
      (tree.at? address).map Tree.label = some label) ∧
    (walk [tree.addressed]).Pairwise (fun left right => left.1 < right.1) ∧
    ∀ module : Syntax.Module, module.nodes = module.outline.preorder := by
  have single : ∀ tree : Tree α, walk [tree] = tree.preorder := walk_singleton
  refine ⟨fun count => ⟨(Loop.rounds_start tree count).1, ?_,
    Loop.stack_rounds_start_eq_nil_iff tree count⟩, ?_, single tree, ?_, ?_, ?_, ?_,
    fun module => walk_singleton module.outline⟩
  · rw [walk_eq_preorderAll]
    exact (Loop.rounds_start tree count).2
  · rw [(Loop.rounds_start tree tree.size).1, ← length_preorder, List.take_length, single]
  · simp only [single]
    rw [preorder_eq, preorderAll_eq_flatMap]
  · rw [walk_singleton, single]
    exact map_snd_preorder_addressedFrom [] tree
  · intro address label
    rw [walk_singleton, addressed, mem_preorder_addressedFrom_iff, Option.map_eq_some_iff]
    simp [eq_comm]
  · rw [walk_singleton]
    exact pairwise_preorder_addressedFrom [] tree

end Tree

end TypeCatalog
