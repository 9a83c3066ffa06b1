import Mathlib.Tactic.Common
import SumProduct.Proofs.Expr.Fold
import SumProduct.Proofs.Expr.InOrder
import SumProduct.Proofs.Expr.WalkOrder

/-!
# The visits of a fold

The fold over a stack visits the nodes in post-order. A visit may change a state and may raise an
error. Here its calls are noted: each node is called once, its operands before it and from left to
right, and the first call that raises an error is the last call there is. Whatever the calls do, the
stack has the results of all operands when a node is reached.

## Main definitions

* `SumProduct.Expr.Call`, `SumProduct.Expr.noted` — a call of a visit, and a visit that notes its
  calls.
* `SumProduct.Expr.CompleteCalls`, `SumProduct.Expr.BrokenCalls` — the calls of a fold that comes to
  its end, and of one that is broken off.
* `SumProduct.Expr.stackHeight` — the number of results on the stack.
* `SumProduct.Expr.atom`, `SumProduct.Atom.build` — a node without its operands, and a node built of
  operands.

## Main results

* `SumProduct.Expr.foldLoop_noted` — the calls that the loop makes, for any nodes.
* `SumProduct.Expr.add_length_children_le_stackHeight` — the stack is never too low.
* `SumProduct.Expr.foldStack_build` — the fold by the constructors gives the tree again.
* `SumProduct.Expr.foldStack_visits_postorder` — the fold over a stack is the recursive fold, call
  by call.
-/

namespace SumProduct

universe u

/-- The tree with an atom as its root; there is none for a wrong number of operands. -/
def Atom.build {α : Type u} : Atom α → List (Expr α) → Option (Expr α)
  | constant value, [] => some (.constant value)
  | var name, [] => some (.var name)
  | operator op, [left, right] => some (.binary op left right)
  | _, _ => none

namespace Expr

variable {α β ε σ : Type u}

/-! ## The height of the stack -/

/-- The number of results on a stack after some nodes: each takes those of its operands off and puts
one on. -/
def stackHeight : List (Expr α) → Nat → Nat
  | [], height => height
  | e :: rest, height => stackHeight rest (height - e.children.length + 1)

/-- The height after nodes and further nodes. -/
lemma stackHeight_append (nodes more : List (Expr α)) (height : Nat) :
    stackHeight (nodes ++ more) height = stackHeight more (stackHeight nodes height) := by
  induction nodes generalizing height with
  | nil => rfl
  | cons e rest ih => exact ih _

/-- The nodes of a tree come to one result. -/
lemma stackHeight_rootLast (e : Expr α) (height : Nat) :
    stackHeight e.rootLast height = height + 1 := by
  induction e generalizing height with
  | constant _ | var _ => rfl
  | binary op left right ihl ihr =>
    rw [rootLast, stackHeight_append, stackHeight_append, ihl, ihr]
    rfl

/-- An entry of two lists one after the other is one of the first or of the second list. -/
lemma exists_split_of_append {left right before after : List (Expr α)} {node : Expr α}
    (h : left ++ right = before ++ node :: after) :
    (∃ rest, left = before ++ node :: rest) ∨
      ∃ rest, before = left ++ rest ∧ right = rest ++ node :: after := by
  rcases List.append_eq_append_iff.mp h with ⟨rest, hbefore, hright⟩ | ⟨rest, hleft, hnode⟩
  · exact .inr ⟨rest, hbefore, hright⟩
  · cases rest with
    | nil => exact .inr ⟨[], by simpa using hleft.symm, hnode.symm⟩
    | cons first rest =>
      obtain ⟨rfl, -⟩ := List.cons.inj hnode
      exact .inl ⟨rest, hleft⟩

/-- **When a node is reached, the results of its operands are on the stack**, above what was there.

**Proof sketch.** Induction on the tree. A node of the left operand is reached from the same height,
one of the right operand from a height that is larger by the result of the left one, and the root
after both. -/
lemma add_length_children_le_stackHeight {e node : Expr α} {before after : List (Expr α)}
    (h : e.rootLast = before ++ node :: after) (height : Nat) :
    height + node.children.length ≤ stackHeight before height := by
  induction e generalizing before after height with
  | constant _ | var _ =>
    rw [rootLast, List.singleton_eq_append_iff] at h
    rcases h with ⟨rfl, hnode⟩ | ⟨-, hnode⟩
    · rw [(List.cons.inj hnode).1]
      exact le_rfl
    · cases hnode
  | binary op left right ihl ihr =>
    rw [rootLast, List.append_assoc] at h
    rcases exists_split_of_append h with ⟨rest, hleft⟩ | ⟨more, rfl, hmore⟩
    · exact ihl hleft height
    rw [stackHeight_append, stackHeight_rootLast]
    rcases exists_split_of_append hmore with ⟨rest, hright⟩ | ⟨more, rfl, hroot⟩
    · have hheight := ihr hright (height + 1)
      omega
    · rw [List.singleton_eq_append_iff] at hroot
      rcases hroot with ⟨rfl, hnode⟩ | ⟨-, hnode⟩
      · rw [List.append_nil, stackHeight_rootLast, (List.cons.inj hnode).1]
        exact le_rfl
      · cases hnode

/-! ## Calls -/

/-- A call of a visit: the node, the results of its operands and the outcome. -/
structure Call (α β ε : Type u) where
  /-- The node that is visited. -/
  node : Expr α
  /-- The results of its operands, in order. -/
  operands : List β
  /-- What the visit comes to. -/
  outcome : Except ε β

/-- A visit that notes its calls behind the ones noted so far. -/
def noted (visit : Expr α → List β → EStateM ε σ β) (e : Expr α) (operands : List β) :
    EStateM ε (σ × List (Call α β ε)) β := fun (s, calls) =>
  match visit e operands s with
  | .ok result s' => .ok result (s', calls ++ [⟨e, operands, .ok result⟩])
  | .error fault s' => .error fault (s', calls ++ [⟨e, operands, .error fault⟩])

/-- The calls of a fold that comes to its end: one for each node, in order, and none raises an
error. -/
def CompleteCalls (nodes : List (Expr α)) (calls : List (Call α β ε)) : Prop :=
  calls.map Call.node = nodes ∧ ∀ call ∈ calls, ∃ result, call.outcome = .ok result

/-- The calls of a fold that is broken off: one for each node, in order, up to the first that raises
an error. -/
def BrokenCalls (nodes : List (Expr α)) (calls : List (Call α β ε)) (fault : ε) : Prop :=
  ∃ before last, calls = before ++ [last] ∧ calls.map Call.node <+: nodes ∧
    (∀ call ∈ before, ∃ result, call.outcome = .ok result) ∧ last.outcome = .error fault

/-- A call without an error in front of a complete run. -/
lemma CompleteCalls.cons {rest : List (Expr α)} {calls : List (Call α β ε)} {call : Call α β ε}
    {result : β} (h : CompleteCalls rest calls) (hcall : call.outcome = .ok result) :
    CompleteCalls (call.node :: rest) (call :: calls) := by
  refine ⟨by rw [List.map_cons, h.1], ?_⟩
  rw [List.forall_mem_cons]
  exact ⟨⟨result, hcall⟩, h.2⟩

/-- A call without an error in front of a run that is broken off. -/
lemma BrokenCalls.cons {rest : List (Expr α)} {calls : List (Call α β ε)} {call : Call α β ε}
    {result : β} {fault : ε} (h : BrokenCalls rest calls fault)
    (hcall : call.outcome = .ok result) :
    BrokenCalls (call.node :: rest) (call :: calls) fault := by
  obtain ⟨before, last, rfl, hnodes, hbefore, hlast⟩ := h
  refine ⟨call :: before, last, rfl, ?_, ?_, hlast⟩
  · rw [List.map_cons]
    exact List.cons_prefix_cons.mpr ⟨rfl, hnodes⟩
  · rw [List.forall_mem_cons]
    exact ⟨⟨result, hcall⟩, hbefore⟩

/-- A call that raises an error is the last one. -/
lemma brokenCalls_singleton {rest : List (Expr α)} {call : Call α β ε} {fault : ε}
    (hcall : call.outcome = .error fault) : BrokenCalls (call.node :: rest) [call] fault :=
  ⟨[], call, rfl, List.cons_prefix_cons.mpr ⟨rfl, List.nil_prefix⟩, by simp, hcall⟩

/-! ## The loop -/

variable {visit : Expr α → List β → EStateM ε σ β}

/-- One round of the loop. -/
lemma foldLoop_cons_eq (e : Expr α) (rest : List (Expr α)) (results : List β) (s : σ) :
    foldLoop visit (e :: rest) results s =
      match visit e (results.take e.children.length).reverse s with
      | .ok result s' => foldLoop visit rest (result :: results.drop e.children.length) s'
      | .error fault s' => .error fault s' := by
  simp only [foldLoop, bind, EStateM.bind]
  cases visit e (results.take e.children.length).reverse s <;> rfl

/-- The loop leaves as many results on the stack as its nodes come to, whatever the visits do. -/
lemma length_of_foldLoop {nodes : List (Expr α)} {results results' : List β} {s s' : σ}
    (h : foldLoop visit nodes results s = .ok results' s') :
    results'.length = stackHeight nodes results.length := by
  induction nodes generalizing results s with
  | nil =>
    cases h
    rfl
  | cons e rest ih =>
    rw [foldLoop_cons_eq] at h
    cases hvisit : visit e (results.take e.children.length).reverse s with
    | ok result next =>
      rw [hvisit] at h
      rw [ih h, stackHeight, List.length_cons, List.length_drop]
    | error fault next =>
      rw [hvisit] at h
      cases h

/-- **The calls of the loop.** Noting the calls changes nothing else. If the loop comes to its end,
there was one call for each node, and otherwise the calls end with the one that raised the error.

**Proof sketch.** Induction on the nodes that are left, for all stacks and states. -/
theorem foldLoop_noted (visit : Expr α → List β → EStateM ε σ β) (nodes : List (Expr α))
    (results : List β) (s : σ) (earlier : List (Call α β ε)) :
    (∀ results' s', foldLoop visit nodes results s = .ok results' s' →
      ∃ calls, CompleteCalls nodes calls ∧
        foldLoop (noted visit) nodes results (s, earlier) = .ok results' (s', earlier ++ calls)) ∧
    ∀ fault s', foldLoop visit nodes results s = .error fault s' →
      ∃ calls, BrokenCalls nodes calls fault ∧
        foldLoop (noted visit) nodes results (s, earlier) =
          .error fault (s', earlier ++ calls) := by
  induction nodes generalizing results s earlier with
  | nil =>
    refine ⟨fun results' s' h => ⟨[], ⟨rfl, by simp⟩, ?_⟩, fun fault s' h => by cases h⟩
    cases h
    rw [List.append_nil]
    rfl
  | cons e rest ih =>
    simp only [foldLoop_cons_eq, noted]
    let operands := (results.take e.children.length).reverse
    cases visit e (results.take e.children.length).reverse s with
    | ok result next =>
      obtain ⟨hok, herror⟩ := ih (result :: results.drop e.children.length) next
        (earlier ++ [⟨e, operands, .ok result⟩])
      constructor
      · intro results' s' h
        obtain ⟨calls, hcalls, hrun⟩ := hok results' s' h
        rw [List.append_assoc] at hrun
        exact ⟨_, hcalls.cons rfl, hrun⟩
      · intro fault s' h
        obtain ⟨calls, hcalls, hrun⟩ := herror fault s' h
        rw [List.append_assoc] at hrun
        exact ⟨_, hcalls.cons rfl, hrun⟩
    | error fault next =>
      refine ⟨fun results' s' h => (by cases h), fun fault' s' h => ?_⟩
      cases h
      exact ⟨[⟨e, operands, .error fault⟩], brokenCalls_singleton rfl, rfl⟩

/-! ## Building the tree again -/

/-- A node without its operands. -/
def atom : Expr α → Atom α
  | constant value => .constant value
  | var name => .var name
  | binary op _ _ => .operator op

/-- How many operands a node has does not depend on what they are. -/
lemma length_children_congr {e other : Expr α} (h : e.atom = other.atom) :
    e.children.length = other.children.length := by
  cases e <;> cases other <;> first | rfl | cases h

/-- **The fold by the constructors gives the tree again.** -/
lemma foldStack_build (e : Expr α) : e.foldStack (fun node => node.atom.build) = some [e] :=
  foldStack_eq_of_step (f := some) (fun _ => rfl) (fun _ => rfl) (fun _ _ _ => rfl) e

/-- The fold by the constructors depends on the nodes without their operands only. -/
lemma foldLoop_build_congr {nodes others : List (Expr α)}
    (h : nodes.map atom = others.map atom) (results : List (Expr α)) :
    foldLoop (fun node => node.atom.build) nodes results =
      foldLoop (fun node => node.atom.build) others results := by
  induction nodes generalizing others results with
  | nil => rw [List.map_eq_nil_iff.mp h.symm]
  | cons e rest ih =>
    obtain ⟨other, others, rfl, hatom, hrest⟩ := List.map_eq_cons_iff.mp h.symm
    simp only [foldLoop, length_children_congr hatom.symm, hatom, ih hrest.symm]

/-- **The nodes in post-order, without their operands, determine the tree.** -/
lemma eq_of_map_atom_rootLast {e other : Expr α}
    (h : e.rootLast.map atom = other.rootLast.map atom) : e = other := by
  have hfold := foldLoop_build_congr h []
  rw [← postorder_eq_rootLast, ← postorder_eq_rootLast] at hfold
  have htrees : some [e] = some [other] := by
    rw [← foldStack_build, ← foldStack_build]
    exact hfold
  simpa using htrees

/-! ## The fold -/

/-- **The fold over a stack is the recursive fold, call by call.** The visits may change a state and
may raise errors. The fold comes to what the recursive fold comes to, which folds the left subtree,
then the right one, and then visits the node with the two results in order. If no visit raises an
error, each node has been visited once, in post-order, and one result is on the stack. Otherwise the
fold ends with the error of the first node in post-order whose visit raises one: the nodes before it
have been visited once each, and none behind it. Whenever a node is reached, the stack has a result
for each of its operands. Folding with the constructors gives the tree again, so the nodes in
post-order, without their operands, determine the tree. -/
theorem foldStack_visits_postorder (visit : Expr α → List β → EStateM ε σ β) (e : Expr α) :
    (e.foldStack visit = e.foldM visit >>= fun result => pure [result]) ∧
    (∀ s : σ,
      (∀ result s', e.foldM visit s = .ok result s' → ∃ calls, CompleteCalls e.rootLast calls ∧
        e.foldStack (noted visit) (s, []) = .ok [result] (s', calls)) ∧
      ∀ fault s', e.foldM visit s = .error fault s' → ∃ calls, BrokenCalls e.rootLast calls fault ∧
        e.foldStack (noted visit) (s, []) = .error fault (s', calls)) ∧
    (∀ before node after results (s s' : σ), e.rootLast = before ++ node :: after →
      foldLoop visit before [] s = .ok results s' → node.children.length ≤ results.length) ∧
    e.foldStack (fun node => node.atom.build) = some [e] ∧
    ∀ other : Expr α, e.rootLast.map atom = other.rootLast.map atom → e = other := by
  have hfold (s : σ) : foldLoop visit e.rootLast [] s =
      (e.foldM visit >>= fun result => pure [result]) s := by
    rw [← foldStack_eq_foldM, foldStack, postorder_eq_rootLast]
  refine ⟨foldStack_eq_foldM visit e, fun s => ?calls, ?height, foldStack_build e,
    fun other => eq_of_map_atom_rootLast⟩
  case calls =>
    obtain ⟨hok, herror⟩ := foldLoop_noted visit e.rootLast [] s []
    rw [foldStack, postorder_eq_rootLast]
    refine ⟨fun result s' h => hok [result] s' ?_, fun fault s' h => herror fault s' ?_⟩
    · rw [hfold]
      simp only [bind, EStateM.bind, h]
      rfl
    · rw [hfold]
      simp only [bind, EStateM.bind, h]
  case height =>
    intro before node after results s s' hsplit hrun
    have hheight := add_length_children_le_stackHeight hsplit 0
    rw [Nat.zero_add] at hheight
    rw [length_of_foldLoop hrun]
    exact hheight

/-- A visit counts its calls, computes values and takes offence at variables. Its fold over `2 + 3`
comes to its end after three calls, and its fold over `(2 + 3) * (y + 4)` is broken off by the
fourth call, at `y`. When the first sum is reached, the stack holds three and two. -/
theorem foldStack_visits_postorder_offence :
    let visit : Expr Nat → List Nat → EStateM String Nat Nat := fun node operands => do
      modify (· + 1)
      match node with
      | constant value => pure value
      | var name => throw name.text
      | binary op _ _ => pure (op.apply (operands.getD 0 0) (operands.getD 1 0))
    let sum : Expr Nat := binary .add (constant 2) (constant 3)
    let rest : Expr Nat := binary .add (var ⟨"y", by decide⟩) (constant 4)
    let e := binary .mul sum rest
    (∃ calls, CompleteCalls sum.rootLast calls ∧
        sum.foldStack (noted visit) (0, []) = .ok [5] (3, calls)) ∧
      (∃ calls, BrokenCalls e.rootLast calls "y" ∧
        e.foldStack (noted visit) (0, []) = .error "y" (4, calls)) ∧
      foldLoop visit [constant 2, constant 3] [] 0 = .ok [3, 2] 2 ∧
      sum.children.length ≤ [3, 2].length ∧
      e = binary .mul (binary .add (constant 2) (constant 3)) rest := by
  intro visit sum rest e
  obtain ⟨-, hcalls, -⟩ := foldStack_visits_postorder visit sum
  obtain ⟨-, hcalls', hheight, -, hdetermined⟩ := foldStack_visits_postorder visit e
  have hrun : foldLoop visit [constant 2, constant 3] [] 0 = .ok [3, 2] 2 := rfl
  have hsplit : e.rootLast = [constant 2, constant 3] ++ sum :: (rest.rootLast ++ [e]) := rfl
  exact ⟨(hcalls 0).1 5 3 rfl, (hcalls' 0).2 "y" 4 rfl, hrun, hheight _ _ _ _ _ _ hsplit hrun,
    hdetermined _ rfl⟩

end Expr

end SumProduct
