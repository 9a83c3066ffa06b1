import SumProduct.Expr.Basic

/-!
# Walks over a tree

The nodes of an expression in the three usual orders, and the bottom-up fold, each by a loop over an
explicit stack or queue, so that the height of a tree is no limit.

## Main definitions

* `SumProduct.Expr.postorder` — every node after its operands.
* `SumProduct.Expr.preorder` — every node before its operands.
* `SumProduct.Expr.breadthFirst` — level by level.
* `SumProduct.Expr.foldStack` — the bottom-up fold over a stack of results.
* `SumProduct.Expr.WalkOrder` — the orders that can be asked for by name.

## Implementation notes

A loop ends because the nodes still reachable from its stack or queue become fewer, which the
weights below count.
-/

namespace SumProduct

universe u v

/-- An entry on the stack of the post-order walk. -/
inductive Visit (α : Type u) where
  /-- A subtree that is still to be walked. -/
  | enter (e : Expr α)
  /-- A node whose operands have been walked. -/
  | leave (e : Expr α)

/-- The steps that an entry still causes. -/
def Visit.weight {α : Type u} : Visit α → Nat
  | enter e => 2 * e.size
  | leave _ => 1

namespace Expr

variable {α : Type u}

/-- The nodes of a list of trees. -/
def totalSize : List (Expr α) → Nat
  | [] => 0
  | e :: rest => e.size + totalSize rest

theorem totalSize_append (es fs : List (Expr α)) :
    totalSize (es ++ fs) = totalSize es + totalSize fs := by
  induction es with
  | nil => exact (Nat.zero_add _).symm
  | cons e rest ih => simp only [List.cons_append, totalSize, ih]; omega

/-- The operands of a node hold all its nodes but itself. -/
theorem totalSize_children (e : Expr α) : totalSize e.children + 1 = e.size := by
  cases e with
  | constant _ | var _ => rfl
  | binary _ l r => simp only [totalSize, children, size]; omega

/-- The steps that the entries of a stack still cause. -/
def totalWeight : List (Visit α) → Nat
  | [] => 0
  | v :: rest => v.weight + totalWeight rest

/-- The loop of the post-order walk: `stack` is what is left to do, `walked` the nodes so far, last
one first. -/
def postorderLoop (stack : List (Visit α)) (walked : List (Expr α)) : List (Expr α) :=
  match stack with
  | [] => walked.reverse
  | .leave e :: rest => postorderLoop rest (e :: walked)
  | .enter (.binary op left right) :: rest =>
    postorderLoop (.enter left :: .enter right :: .leave (.binary op left right) :: rest) walked
  | .enter (.constant value) :: rest => postorderLoop rest (.constant value :: walked)
  | .enter (.var name) :: rest => postorderLoop rest (.var name :: walked)
termination_by totalWeight stack
decreasing_by all_goals simp only [totalWeight, Visit.weight, size]; omega

/-- Every node after its operands, left subtree first. -/
def postorder (e : Expr α) : List (Expr α) := postorderLoop [.enter e] []

/-- The loop of the pre-order walk: `stack` holds the subtrees left to walk. -/
def preorderLoop (stack walked : List (Expr α)) : List (Expr α) :=
  match stack with
  | [] => walked.reverse
  | e :: rest => preorderLoop (e.children ++ rest) (e :: walked)
termination_by totalSize stack
decreasing_by
  have := totalSize_children e
  simp only [totalSize_append, totalSize]
  omega

/-- Every node before its operands, left subtree first. -/
def preorder (e : Expr α) : List (Expr α) := preorderLoop [e] []

/-- The loop of the breadth-first walk: `queue` holds the subtrees left to walk. -/
def breadthFirstLoop (queue walked : List (Expr α)) : List (Expr α) :=
  match queue with
  | [] => walked.reverse
  | e :: rest => breadthFirstLoop (rest ++ e.children) (e :: walked)
termination_by totalSize queue
decreasing_by
  have := totalSize_children e
  simp only [totalSize_append, totalSize]
  omega

/-- The nodes level by level, each level from left to right. -/
def breadthFirst (e : Expr α) : List (Expr α) := breadthFirstLoop [e] []

/-- The loop of the fold: each node takes the results of its operands off the stack, where the last
one lies on top, and puts its own there. -/
def foldLoop {m : Type v → Type v} [Monad m] {β : Type v} (visit : Expr α → List β → m β) :
    List (Expr α) → List β → m (List β)
  | [], results => pure results
  | e :: rest, results => do
    let arity := e.children.length
    let result ← visit e (results.take arity).reverse
    foldLoop visit rest (result :: results.drop arity)

/-- The bottom-up fold over the nodes in post-order: the results left on the stack. -/
def foldStack {m : Type v → Type v} [Monad m] {β : Type v} (visit : Expr α → List β → m β)
    (e : Expr α) : m (List β) :=
  foldLoop visit e.postorder []

/-! ## Queries -/

/-- An order in which all nodes can be listed. -/
inductive WalkOrder where
  /-- Level by level. -/
  | breadthFirst
  /-- Every node before its operands. -/
  | depthFirst
  /-- Every node after its operands. -/
  | postorder
  deriving DecidableEq

/-- The order with a name. -/
def WalkOrder.ofName? (name : String) : Option WalkOrder :=
  if name = "breadth_first" then some .breadthFirst
  else if name = "depth_first" then some .depthFirst
  else if name = "postorder" then some .postorder
  else none

/-- The nodes in an order. -/
def nodes (order : WalkOrder) (e : Expr α) : List (Expr α) :=
  match order with
  | .breadthFirst => e.breadthFirst
  | .depthFirst => e.preorder
  | .postorder => e.postorder

/-- The names of the variables, one for each occurrence. -/
def occurrences (e : Expr α) : List Name := e.postorder.filterMap name?

/-- The values of the constants from left to right. -/
def constants (e : Expr α) : List α := e.preorder.filterMap value?

/-- Strings in the order of their code points. -/
def sortTexts (texts : List String) : List String :=
  texts.mergeSort fun a b => !decide (b < a)

/-- The names of the variables, each once, in order. -/
def variableNames (e : Expr α) : List String :=
  sortTexts (e.occurrences.map (·.text)).eraseDups

/-- How often each variable occurs, in the order of the names. -/
def usage (e : Expr α) : List (String × Nat) :=
  let names := e.occurrences.map (·.text)
  (sortTexts names.eraseDups).map fun name => (name, names.count name)

/-- Whether the tree has no variables. -/
def isConstant (e : Expr α) : Bool := !e.postorder.any fun node => node.kind == .var

/-- The nodes of one variant, level by level. -/
def nodesOfKind (kind : Kind) (e : Expr α) : List (Expr α) :=
  e.breadthFirst.filter fun node => node.kind == kind

end Expr

end SumProduct
