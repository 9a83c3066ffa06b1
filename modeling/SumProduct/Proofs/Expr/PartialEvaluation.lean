import Mathlib.Tactic.Common
import SumProduct.Proofs.Bindings
import SumProduct.Proofs.Expr.Evaluation
import SumProduct.Proofs.Expr.Specialization

/-!
# Evaluation in stages

An expression may be evaluated at once, or simplified with some of its bindings first and evaluated
with the others afterwards. Both give the same outcome, because simplification computes exactly the
operations that evaluation would compute, in the same grouping, and keeps every variable that could
still be missing.

## Main results

* `SumProduct.Expr.evaluateWith_specialize` — evaluation of a specialized expression, over any
  numbers.
* `SumProduct.Expr.evaluate_simplify` — evaluation of a simplified expression.
-/

namespace SumProduct

namespace Expr

universe u

variable {α ε : Type u} [Add α] [Mul α]

/-- A node whose operation is computed where both operands are constants has the value of the node.
-/
lemma evaluateWith_combine (op : Op) (left right : Expr α) (read : Name → Except ε α) :
    (combine op left right).2.evaluateWith read = (binary op left right).evaluateWith read := by
  by_cases h : ∃ a b, left = constant a ∧ right = constant b
  · obtain ⟨a, b, rfl, rfl⟩ := h
    rfl
  · rw [combine_eq_binary h]

/-- **A specialized expression is evaluated like the expression itself**, where the numbers that it
was specialized to are read for their variables. Nothing is assumed of the operations.

**Proof sketch.** Induction on the expression. A node over specialized operands has the value of the
node whether its operation is computed or not (`evaluateWith_combine`), and the value and the fault
of a node depend on those of its operands alone. -/
theorem evaluateWith_specialize {bound : Name → Option α} {read readAll : Name → Except ε α}
    {e : Expr α} (hbound : ∀ n ∈ e.occurrences, ∀ x, bound n = some x → readAll n = .ok x)
    (hfree : ∀ n ∈ e.occurrences, bound n = none → readAll n = read n) :
    (e.specialize bound).evaluateWith read = e.evaluateWith readAll := by
  induction e with
  | constant value => rfl
  | var name =>
    cases hname : bound name with
    | none => simp [specialize, hname, evaluateWith, hfree name (by simp) hname]
    | some x => simp [specialize, hname, evaluateWith, hbound name (by simp) x hname]
  | binary op left right ihl ihr =>
    simp only [occurrences_binary, List.mem_append] at hbound hfree
    have hleft := ihl (fun n hn => hbound n (.inl hn)) (fun n hn => hfree n (.inl hn))
    have hright := ihr (fun n hn => hbound n (.inr hn)) (fun n hn => hfree n (.inr hn))
    rw [specialize, evaluateWith_combine, evaluateWith, hleft, hright, evaluateWith]

end Expr

/-! ## Environments laid over each other -/

namespace Environment

variable {env env' : Environment} {e : Expr Binary64} {n : Name}

/-- Where all values are numbers, those that an expression needs are. -/
lemma converts_of_forall_entries (h : ∀ p ∈ env.entries, ∃ x, p.2.toBinary64 = .ok x) :
    env.Converts e :=
  fun n _ value hvalue => h (n.text, value) (Bindings.mem_entries_of_find? hvalue)

/-- Reading a variable depends on its own binding alone. -/
lemma read_congr (h : env.find? n.text = env'.find? n.text) : env.read n = env'.read n := by
  rw [read, bound, h, ← bound, ← read]

/-- Where the bound values are numbers, the only variables that cannot be read are unbound. -/
lemma Converts.read_eq_error (hconv : env.Converts e) (hn : n ∈ e.occurrences)
    {fault : EvaluationError} (h : env.read n = .error fault) : fault = .missing n := by
  rw [read, hconv.bound_eq hn] at h
  cases hnumber : env.numbers n with
  | some x => simp [hnumber] at h
  | none => simpa [hnumber] using h.symm

end Environment

namespace Expr

/-- Where the bound values are numbers, an expression has a value or misses a variable. -/
lemma evaluate_eq_ok_or_missing {env : Environment} {e : Expr Binary64} (hconv : env.Converts e) :
    (∃ x, e.evaluate env = .ok x) ∨ ∃ n ∈ e.occurrences, e.evaluate env = .error (.missing n) := by
  cases houtcome : e.evaluate env with
  | ok x => exact .inl ⟨x, rfl⟩
  | error fault =>
    have hfault : e.occurrences.findSome? (fun n => faultOf? (env.read n)) = some fault := by
      rw [← faultOf?_evaluateWith, faultOf?_eq_some_iff]
      exact houtcome
    obtain ⟨n, hn, hread⟩ := List.exists_of_findSome?_eq_some hfault
    obtain rfl := hconv.read_eq_error hn (faultOf?_eq_some_iff.mp hread)
    exact .inr ⟨n, hn, rfl⟩

/-- **Partial evaluation is sound.** Let the values that `known` and `other` bind the variables of
an expression to be numbers. Simplifying the expression with `known` succeeds. Evaluating the result
with `other` has the same outcome as evaluating the expression at once with `known` laid over
`other`: the same number, or the same missing variable.

**Proof sketch.** Simplification is specialization to the numbers of `known`. A variable that
`known` binds is read from it when it is laid over `other`, and every other variable is read from
`other`, so `evaluateWith_specialize` applies. -/
theorem evaluate_simplify (e : Expr Binary64) (known other : Environment)
    (hknown : known.Converts e) (hother : other.Converts e) :
    ∃ s, e.simplify known = .ok s ∧ s.evaluate other = e.evaluate (other.override known) ∧
      ((∃ x, s.evaluate other = .ok x) ∨
        ∃ n ∈ e.occurrences, s.evaluate other = .error (.missing n)) := by
  have hstaged : (e.specialize known.numbers).evaluate other =
      e.evaluate (other.override known) := by
    refine evaluateWith_specialize (fun n hn x hx => ?_) fun n hn hfree => ?_
    · rw [← hknown.read_eq hn hx]
      refine Environment.read_congr ?_
      have hbound : (known.find? n.text).isSome := by
        rw [← hknown.isSome_numbers hn, hx]
        rfl
      rw [Bindings.find?_override, Option.or_of_isSome hbound]
    · refine Environment.read_congr ?_
      have hunbound : known.find? n.text = none := by
        rw [← Option.isNone_iff_eq_none, ← Option.not_isSome, ← hknown.isSome_numbers hn, hfree]
        rfl
      rw [Bindings.find?_override, hunbound, Option.none_or]
  have hrest : ∀ n ∈ (e.specialize known.numbers).occurrences, n ∈ e.occurrences := by
    intro n hn
    rw [occurrences_specialize] at hn
    exact List.mem_of_mem_filter hn
  refine ⟨_, simplify_eq_specialize hknown, hstaged, ?_⟩
  have hconv : other.Converts (e.specialize known.numbers) := fun n hn => hother n (hrest n hn)
  rcases evaluate_eq_ok_or_missing hconv with hvalue | ⟨n, hn, hmissing⟩
  · exact .inl hvalue
  · exact .inr ⟨n, hrest n hn, hmissing⟩

/-- With `x` bound to zero and `y` to infinity first, `x * (y + 1) + z` becomes `nan + z`. Another
value for `x` comes too late, and `z` is missing in both ways or in neither. -/
theorem evaluate_simplify_overlapping :
    let z : Name := ⟨"z", by decide⟩
    let e : Expr Binary64 := binary .add (binary .mul (var ⟨"x", by decide⟩)
      (binary .add (var ⟨"y", by decide⟩) (constant 1))) (var z)
    let s := binary .add (constant .nan) (var z)
    let known : Environment :=
      Bindings.ofList [("x", .integer 2), ("y", .real (.infinite false)), ("x", .integer 0)]
    let other : Environment := ⟨[("z", .integer 1), ("x", .integer 5)], by decide⟩
    let without : Environment := ⟨[("x", .integer 5)], by decide⟩
    known.Converts e ∧ other.Converts e ∧ without.Converts e ∧
      e.simplify known = .ok s ∧
      s.evaluate other = .ok .nan ∧ e.evaluate (other.override known) = .ok .nan ∧
      s.evaluate without = .error (.missing z) ∧
      e.evaluate (without.override known) = .error (.missing z) := by
  intro z e s known other without
  have hentries : known.entries = [("x", .integer 0), ("y", .real (.infinite false))] := rfl
  have hknown : known.Converts e := Environment.converts_of_forall_entries
    (hentries ▸ List.forall_mem_cons.mpr ⟨⟨0, by decide +kernel⟩,
      List.forall_mem_singleton.mpr ⟨.infinite false, rfl⟩⟩)
  have hother : other.Converts e := Environment.converts_of_forall_entries
    (List.forall_mem_cons.mpr ⟨⟨1, by decide +kernel⟩,
      List.forall_mem_singleton.mpr ⟨.ofInt 5, by decide +kernel⟩⟩)
  have hwithout : without.Converts e := Environment.converts_of_forall_entries
    (List.forall_mem_singleton.mpr ⟨.ofInt 5, by decide +kernel⟩)
  have hresult : e.simplify known = .ok s := by decide +kernel
  have hvalue : s.evaluate other = .ok .nan := by decide +kernel
  have hmissing : s.evaluate without = .error (.missing z) := by decide +kernel
  obtain ⟨s', hs', hsame, -⟩ := evaluate_simplify e known other hknown hother
  obtain rfl : s = s' := Except.ok.inj (hresult.symm.trans hs')
  obtain ⟨s', hs', hsame', -⟩ := evaluate_simplify e known without hknown hwithout
  obtain rfl : s = s' := Except.ok.inj (hresult.symm.trans hs')
  exact ⟨hknown, hother, hwithout, hresult, hvalue, hsame ▸ hvalue, hmissing,
    hsame' ▸ hmissing⟩

end Expr

end SumProduct
