import SumProduct.Proofs.Expr.PartialEvaluation
import SumProduct.Proofs.Expr.Sharing

/-!
# The leftmost offending variable

Evaluation fails where a variable is not bound or is bound to a value that is no number, and
simplification in the second case only. Among all leaves with such a variable it is the leftmost one
that decides, however the tree branches and whichever of the two kinds of faults come after it.

## Main definitions

* `SumProduct.Environment.evaluationFault?`, `SumProduct.Environment.conversionFault?` — the faults
  that evaluation and simplification meet at a variable.
* `SumProduct.Expr.LeftmostFault` — the fault of the leftmost leaf that has one.
* `SumProduct.Expr.evaluateNode` — what evaluation does at a node.

## Main results

* `SumProduct.Expr.faultOf?_simplifyWith` — simplification fails at its first unreadable variable.
* `SumProduct.Expr.foldStack_evaluateNode`, `SumProduct.Expr.foldStack_simplifyNode` — evaluation
  and simplification as folds over a stack.
* `SumProduct.Expr.evaluate_fails_leftmost` — both fail at the leftmost offending leaf.
-/

namespace SumProduct

universe u v

/-! ## Faults of variables -/

namespace Environment

variable {env env' : Environment} {n : Name}

/-- The fault that evaluation meets at a variable: nothing is bound to it, or what is no number. -/
def evaluationFault? (env : Environment) (n : Name) : Option EvaluationError :=
  match env.find? n.text with
  | none => some (.missing n)
  | some value => (faultOf? value.toBinary64).map .conversion

/-- The fault that simplification meets at a variable: what is bound to it is no number. -/
def conversionFault? (env : Environment) (n : Name) : Option ConversionError :=
  (env.find? n.text).bind fun value => faultOf? value.toBinary64

/-- Binding a number to a variable fails with the fault of the variable. -/
lemma faultOf?_bound (env : Environment) (n : Name) :
    faultOf? (env.bound n) = env.conversionFault? n := by
  rw [bound, conversionFault?]
  cases env.find? n.text with
  | none => rfl
  | some value => cases h : value.toBinary64 <;> simp [h, faultOf?]

/-- Reading a variable fails with the fault of the variable. -/
lemma faultOf?_read (env : Environment) (n : Name) :
    faultOf? (env.read n) = env.evaluationFault? n := by
  rw [read, bound, evaluationFault?]
  cases env.find? n.text with
  | none => rfl
  | some value => cases h : value.toBinary64 <;> simp [h, faultOf?]

/-- Simplification meets a fault at the variables that are bound to what is no number. -/
lemma exists_conversionFault?_iff :
    (∃ fault, env.conversionFault? n = some fault) ↔
      ∃ value fault, env.find? n.text = some value ∧ value.toBinary64 = .error fault := by
  simp only [conversionFault?, Option.bind_eq_some_iff, faultOf?_eq_some_iff]
  exact exists_comm

/-- Evaluation meets a fault at these and at the unbound variables. -/
lemma exists_evaluationFault?_iff :
    (∃ fault, env.evaluationFault? n = some fault) ↔ env.find? n.text = none ∨
      ∃ value fault, env.find? n.text = some value ∧ value.toBinary64 = .error fault := by
  rw [evaluationFault?]
  cases env.find? n.text with
  | none => simp
  | some value => cases h : value.toBinary64 <;> simp [h, faultOf?]

/-- The number that a variable is bound to depends on its own binding alone. -/
lemma bound_congr (h : env.find? n.text = env'.find? n.text) : env.bound n = env'.bound n := by
  rw [bound, h, ← bound]

end Environment

namespace Expr

/-! ## Faults of expressions -/

section Faults

variable {α ε : Type u}

/-- An expression has the fault of the leftmost of its variable leaves that have one. -/
def LeftmostFault {ε : Type v} (fault? : Name → Option ε) (e : Expr α) (fault : ε) : Prop :=
  ∃ p n, e.subtree? p = some (var n) ∧ fault? n = some fault ∧
    ∀ q m, LeftOf q p → e.subtree? q = some (var m) → fault? m = none

variable [Add α] [Mul α]

/-- **The fault of a simplification is that of the first variable that cannot be read.** -/
theorem faultOf?_simplifyWith (e : Expr α) (bound : Name → Except ε (Option α)) :
    faultOf? (e.simplifyWith bound) = e.occurrences.findSome? fun n => faultOf? (bound n) := by
  refine faultOf?_eq_findSome? (fun _ => rfl) (fun name => ?_) (fun op left right => ?_) e
  · rw [simplifyWith, simplifyTraced]
    cases bound name with
    | error fault => rfl
    | ok number => cases number <;> rfl
  · rw [simplifyWith, simplifyWith, simplifyWith, simplifyTraced]
    rcases left.simplifyTraced bound with ⟨before, _ | a⟩
    · rfl
    · rcases right.simplifyTraced bound with ⟨after, _ | b⟩ <;> rfl

/-- Evaluation depends on its own variables alone. -/
lemma evaluateWith_congr {e : Expr α} {read read' : Name → Except ε α}
    (h : ∀ n ∈ e.occurrences, read n = read' n) : e.evaluateWith read = e.evaluateWith read' := by
  induction e with
  | constant value => rfl
  | var name => exact h name (by simp)
  | binary op left right ihl ihr =>
    simp only [occurrences_binary, List.mem_append] at h
    rw [evaluateWith, evaluateWith, ihl fun n hn => h n (.inl hn), ihr fun n hn => h n (.inr hn)]

/-- Simplification depends on its own variables alone. -/
lemma simplifyTraced_congr {e : Expr α} {bound bound' : Name → Except ε (Option α)}
    (h : ∀ n ∈ e.occurrences, bound n = bound' n) :
    e.simplifyTraced bound = e.simplifyTraced bound' := by
  induction e with
  | constant value => rfl
  | var name => rw [simplifyTraced, simplifyTraced, h name (by simp)]
  | binary op left right ihl ihr =>
    simp only [occurrences_binary, List.mem_append] at h
    rw [simplifyTraced, simplifyTraced, ihl fun n hn => h n (.inl hn),
      ihr fun n hn => h n (.inr hn)]

end Faults

/-! ## Evaluation and simplification as folds over a stack -/

/-- What evaluation does at a node with the values of its operands. -/
def evaluateNode (env : Environment) :
    Expr Binary64 → List Binary64 → Except EvaluationError Binary64
  | constant value, _ => .ok value
  | var name, _ => env.read name
  | binary op _ _, values => .ok (op.apply (values.getD 0 0) (values.getD 1 0))

/-- The fold of evaluation over a stack has the outcome of evaluation. -/
lemma foldStack_evaluateNode (e : Expr Binary64) (env : Environment) :
    e.foldStack (evaluateNode env) = (e.evaluate env).map fun x => [x] := by
  refine foldStack_eq_of_step (f := evaluateWith env.read) (fun _ => rfl) (fun _ => rfl)
    (fun op left right => ?_) e
  rw [evaluateWith]
  cases left.evaluateWith env.read with
  | error fault => rfl
  | ok a => cases right.evaluateWith env.read <;> rfl

/-- The fold of simplification over a stack has the outcome of simplification. -/
lemma foldStack_simplifyNode (e : Expr Binary64) (env : Environment) :
    (e.foldStack (simplifyNode env)).map (List.map Shared.toExpr) =
      (e.simplify env).map fun s => [s] := by
  rw [foldStack_eq_foldM, ← map_toExpr_simplifyShared, simplifyShared]
  cases e.foldM (simplifyNode env) <;> rfl

/-! ## The leftmost fault -/

/-- An outcome is a fault exactly if it is the first fault of the variables, and this is the
leftmost one. -/
lemma eq_error_iff_leftmostFault {ε β : Type} {e : Expr Binary64} {outcome : Except ε β}
    {fault? : Name → Option ε} (h : faultOf? outcome = e.occurrences.findSome? fault?) (fault : ε) :
    outcome = .error fault ↔ LeftmostFault fault? e fault := by
  rw [← faultOf?_eq_some_iff, h, findSome?_occurrences_eq_some_iff]
  rfl

/-- An outcome is a fault exactly if some variable leaf has one. -/
lemma exists_error_iff {ε β : Type} {e : Expr Binary64} {outcome : Except ε β}
    {fault? : Name → Option ε} (h : faultOf? outcome = e.occurrences.findSome? fault?) :
    (∃ fault, outcome = .error fault) ↔
      ∃ p n, e.subtree? p = some (var n) ∧ ∃ fault, fault? n = some fault := by
  have hfirst : (∃ fault, outcome = .error fault) ↔
      ∃ n ∈ e.occurrences, ∃ fault, fault? n = some fault := by
    simp only [← faultOf?_eq_some_iff, h, ← Option.isSome_iff_exists, List.findSome?_isSome_iff]
  rw [hfirst]
  simp only [mem_occurrences_iff]
  exact ⟨fun ⟨n, ⟨p, hp⟩, hn⟩ => ⟨p, n, hp, hn⟩, fun ⟨p, n, hp, hn⟩ => ⟨n, ⟨p, hp⟩, hn⟩⟩

/-- **Evaluation and simplification fail at the leftmost offending leaf.** Evaluation fails exactly
if some variable leaf is not bound or is bound to a value that is no number, and its fault is that
of the leftmost such leaf. Simplification takes no offence at unbound variables: it fails exactly if
some leaf is bound to a value that is no number, with the fault of the leftmost such leaf. Both
loops over an explicit stack have these outcomes. And the outcomes, warnings included, are the same
in any two environments that agree on the names that occur.

**Proof sketch.** Both go on from left to right, so their fault is that of the first variable that
has one (`faultOf?_evaluateWith`, `faultOf?_simplifyWith`), and what is first in the list of
variables is leftmost in the tree (`findSome?_occurrences_eq_some_iff`). -/
theorem evaluate_fails_leftmost (e : Expr Binary64) (env : Environment) :
    ((∀ fault, e.evaluate env = .error fault ↔ LeftmostFault env.evaluationFault? e fault) ∧
      ((∃ fault, e.evaluate env = .error fault) ↔
        ∃ p n, e.subtree? p = some (var n) ∧ (env.find? n.text = none ∨
          ∃ value fault, env.find? n.text = some value ∧ value.toBinary64 = .error fault)) ∧
      e.foldStack (evaluateNode env) = (e.evaluate env).map fun x => [x]) ∧
    ((∀ fault, e.simplify env = .error fault ↔ LeftmostFault env.conversionFault? e fault) ∧
      ((∃ fault, e.simplify env = .error fault) ↔
        ∃ p n, e.subtree? p = some (var n) ∧
          ∃ value fault, env.find? n.text = some value ∧ value.toBinary64 = .error fault) ∧
      (e.foldStack (simplifyNode env)).map (List.map Shared.toExpr) =
        (e.simplify env).map fun s => [s]) ∧
    ∀ env' : Environment, (∀ n ∈ e.occurrences, env.find? n.text = env'.find? n.text) →
      e.evaluate env = e.evaluate env' ∧ e.simplify env = e.simplify env' ∧
        e.simplifyWarnings env = e.simplifyWarnings env' := by
  have hevaluate : faultOf? (e.evaluate env) = e.occurrences.findSome? env.evaluationFault? := by
    rw [evaluate, faultOf?_evaluateWith]
    simp only [Environment.faultOf?_read]
  have hsimplify : faultOf? (e.simplify env) = e.occurrences.findSome? env.conversionFault? := by
    rw [simplify, faultOf?_simplifyWith]
    simp only [Environment.faultOf?_bound]
  refine ⟨⟨eq_error_iff_leftmostFault hevaluate, ?_, foldStack_evaluateNode e env⟩,
    ⟨eq_error_iff_leftmostFault hsimplify, ?_, foldStack_simplifyNode e env⟩, fun env' h => ?_⟩
  · simp only [exists_error_iff hevaluate, Environment.exists_evaluationFault?_iff]
  · simp only [exists_error_iff hsimplify, Environment.exists_conversionFault?_iff]
  · have htraced : e.simplifyTraced env.bound = e.simplifyTraced env'.bound :=
      simplifyTraced_congr fun n hn => Environment.bound_congr (h n hn)
    refine ⟨evaluateWith_congr fun n hn => Environment.read_congr (h n hn), ?_, ?_⟩
    · rw [simplify, simplify, simplifyWith, simplifyWith, htraced]
    · rw [simplifyWarnings, simplifyWarnings, foldings, foldings, htraced]

/-- In `(x + y) * (z + x)` with `y` unbound and `z` bound to a text that is no number, evaluation
misses `y`, and simplification is refused the text, whatever is bound to other names. -/
theorem evaluate_fails_leftmost_mixed :
    let x : Expr Binary64 := var ⟨"x", by decide⟩
    let y : Name := ⟨"y", by decide⟩
    let z : Name := ⟨"z", by decide⟩
    let e := binary .mul (binary .add x (var y)) (binary .add (var z) x)
    let env : Environment := ⟨[("z", .text "two"), ("x", .integer 1)], by decide⟩
    let env' : Environment := ⟨[("w", .absent), ("x", .integer 1), ("z", .text "two")], by decide⟩
    (∀ n ∈ e.occurrences, env.find? n.text = env'.find? n.text) ∧
      LeftmostFault env.evaluationFault? e (.missing y) ∧
      LeftmostFault env.conversionFault? e (.unreadable "two") ∧
      e.evaluate env' = .error (.missing y) ∧ e.simplify env' = .error (.unreadable "two") := by
  intro x y z e env env'
  obtain ⟨⟨hevaluate, -⟩, ⟨hsimplify, -⟩, hcongr⟩ := evaluate_fails_leftmost e env
  have hagree : ∀ n ∈ e.occurrences, env.find? n.text = env'.find? n.text := by
    have hnames : e.occurrences = [⟨"x", by decide⟩, y, z, ⟨"x", by decide⟩] := by simp [e, x]
    rw [hnames]
    simp only [List.forall_mem_cons, List.not_mem_nil, false_imp_iff, implies_true, and_true]
    exact ⟨rfl, rfl, rfl, rfl⟩
  have hmissing : e.evaluate env = .error (.missing y) := by decide +kernel
  have hrefused : e.simplify env = .error (.unreadable "two") := by decide +kernel
  obtain ⟨hevaluate', hsimplify', -⟩ := hcongr env' hagree
  exact ⟨hagree, (hevaluate _).mp hmissing, (hsimplify _).mp hrefused, hevaluate' ▸ hmissing,
    hsimplify' ▸ hrefused⟩

end Expr

end SumProduct
