import Mathlib.Data.List.Basic
import SumProduct.Proofs.Expr.PartialEvaluation

/-!
# Simplification in stages

An expression that is simplified with some bindings and then with others is the expression that is
simplified once with all of them, the earlier bindings laid over the later ones. An operation is
computed in the first stage, in the second or in neither, and in each case it is the operation that
simplifying once computes, on the same constants.

## Main results

* `SumProduct.Expr.specialize_specialize` — two specializations are one, over any numbers.
* `SumProduct.Expr.simplify_simplify` — two simplifications are one, a simplified expression is not
  changed by the same bindings or by none, and bindings of different names may change places.
-/

namespace SumProduct

namespace Expr

universe u

variable {α : Type u} [Add α] [Mul α] {first second both : Name → Option α}

/-- To specialize a node whose operation is computed where both operands are constants, its operands
are specialized first. -/
lemma specialize_combine (bound : Name → Option α) (op : Op) (left right : Expr α) :
    (combine op left right).2.specialize bound =
      (combine op (left.specialize bound) (right.specialize bound)).2 := by
  by_cases h : ∃ a b, left = constant a ∧ right = constant b
  · obtain ⟨a, b, rfl, rfl⟩ := h
    rfl
  · rw [combine_eq_binary h, specialize]

/-- **Two specializations are one**, to the numbers of the first where it has them and of the second
elsewhere. Nothing is assumed of the operations.

**Proof sketch.** Induction on the expression. Computing an operation before the second
specialization or after it is the same (`specialize_combine`), so a node is specialized as its
operands are. -/
theorem specialize_specialize {e : Expr α}
    (hboth : ∀ n ∈ e.occurrences, both n = (first n).or (second n)) :
    (e.specialize first).specialize second = e.specialize both := by
  induction e with
  | constant value => rfl
  | var name =>
    have hname := hboth name (by simp)
    cases hfirst : first name with
    | none => simp [specialize, hname, hfirst]
    | some x => simp [specialize, hname, hfirst]
  | binary op left right ihl ihr =>
    simp only [occurrences_binary, List.mem_append] at hboth
    have hleft := ihl fun n hn => hboth n (.inl hn)
    have hright := ihr fun n hn => hboth n (.inr hn)
    rw [specialize, specialize_combine, hleft, hright, specialize]

end Expr

/-! ## Environments -/

namespace Environment

variable {env known other : Environment} {e : Expr Binary64} {n : Name}

/-- The values that a specialized expression needs are numbers if those of the expression are. -/
lemma Converts.specialize (hconv : env.Converts e) (bound : Name → Option Binary64) :
    env.Converts (e.specialize bound) := by
  intro n hn
  rw [Expr.occurrences_specialize] at hn
  exact hconv n (List.mem_of_mem_filter hn)

/-- With one environment laid over another, the values that an expression needs are numbers if they
are in both. -/
lemma Converts.override (hknown : known.Converts e) (hother : other.Converts e) :
    Converts (Bindings.override other known) e := by
  intro n hn value hvalue
  rw [Bindings.find?_override, Option.or_eq_some_iff] at hvalue
  rcases hvalue with hvalue | ⟨-, hvalue⟩
  · exact hknown n hn value hvalue
  · exact hother n hn value hvalue

/-- With one environment laid over another, a variable has the number of the upper one if it is
bound there, and the number of the lower one if not. -/
lemma numbers_override (hknown : known.Converts e) (hn : n ∈ e.occurrences) :
    numbers (Bindings.override other known) n = (known.numbers n).or (other.numbers n) := by
  rw [numbers, numbers, Bindings.find?_override]
  cases hfind : known.find? n.text with
  | none => rfl
  | some value =>
    obtain ⟨x, hx⟩ := hknown n hn value hfind
    simp [hx, Except.toOption]

/-- No variable has a number where nothing is bound. -/
lemma numbers_empty (n : Name) : numbers Bindings.empty n = none := rfl

/-- No name has numbers in two environments that bind different names. -/
lemma numbers_or_comm (hdisjoint : known.keys.Disjoint other.keys) (n : Name) :
    (known.numbers n).or (other.numbers n) = (other.numbers n).or (known.numbers n) := by
  by_cases hmem : n.text ∈ known.keys
  · have hnone : other.numbers n = none := by
      rw [numbers, Bindings.find?_eq_none_iff.mpr (hdisjoint hmem)]
      rfl
    rw [hnone, Option.or_none, Option.none_or]
  · have hnone : known.numbers n = none := by
      rw [numbers, Bindings.find?_eq_none_iff.mpr hmem]
      rfl
    rw [hnone, Option.or_none, Option.none_or]

end Environment

namespace Expr

/-- **Successive simplifications fuse.** Let the values that `known` and `other` bind the variables
of an expression to be numbers. Simplifying the expression with `known` and the result with `other`
succeeds and gives the same expression as simplifying once with `known` laid over `other`. Hence
simplifying again with `known`, or with nothing bound, changes nothing, and if no name is bound in
both, the two may be applied in either order.

**Proof sketch.** Simplification is specialization to the numbers of the environment, and two
specializations are one (`specialize_specialize`). -/
theorem simplify_simplify (e : Expr Binary64) (known other : Environment)
    (hknown : known.Converts e) (hother : other.Converts e) :
    ∃ s r, e.simplify known = .ok s ∧ s.simplify other = .ok r ∧
      e.simplify (other.override known) = .ok r ∧ s.simplify known = .ok s ∧
      s.simplify Bindings.empty = .ok s ∧
      (known.keys.Disjoint other.keys →
        ∃ t, e.simplify other = .ok t ∧ t.simplify known = .ok r) := by
  have hnone : Environment.Converts Bindings.empty (e.specialize known.numbers) := nofun
  refine ⟨e.specialize known.numbers,
    e.specialize (Environment.numbers (other.override known)),
    simplify_eq_specialize hknown, ?_,
    simplify_eq_specialize (hknown.override hother), ?_, ?_,
    fun hdisjoint => ⟨e.specialize other.numbers, simplify_eq_specialize hother, ?_⟩⟩
  · rw [simplify_eq_specialize (hother.specialize _),
      specialize_specialize fun n hn => Environment.numbers_override hknown hn]
  · rw [simplify_eq_specialize (hknown.specialize _),
      specialize_specialize fun _ _ => Option.or_self.symm]
  · rw [simplify_eq_specialize hnone, specialize_specialize fun n _ => ?_]
    rw [Environment.numbers_empty, Option.or_none]
  · rw [simplify_eq_specialize (hknown.specialize _),
      specialize_specialize fun n hn => ?_]
    rw [Environment.numbers_override hknown hn, Environment.numbers_or_comm hdisjoint]

/-- With `y` infinite first and `x` zero afterwards, `x * y + (y + z)` becomes `x` times infinity
plus the sum, and then `nan` plus the sum. The bindings may change places, and a later value of `y`
comes too late. -/
theorem simplify_simplify_infinite :
    let x : Expr Binary64 := var ⟨"x", by decide⟩
    let y : Expr Binary64 := var ⟨"y", by decide⟩
    let tail (a : Expr Binary64) : Expr Binary64 := binary .add a (var ⟨"z", by decide⟩)
    let infinity : Expr Binary64 := constant (.infinite false)
    let e := binary .add (binary .mul x y) (tail y)
    let s := binary .add (binary .mul x infinity) (tail infinity)
    let r := binary .add (constant .nan) (tail infinity)
    let known : Environment := ⟨[("y", .real (.infinite false))], by decide⟩
    let other : Environment := ⟨[("x", .integer 0)], by decide⟩
    let again : Environment := ⟨[("x", .integer 0), ("y", .integer 1)], by decide⟩
    known.Converts e ∧ other.Converts e ∧ again.Converts e ∧
      known.keys.Disjoint other.keys ∧ e.simplify known = .ok s ∧
      s.simplify other = .ok r ∧ e.simplify (other.override known) = .ok r ∧
      s.simplify again = .ok r ∧ e.simplify (again.override known) = .ok r ∧
      s.simplify known = .ok s ∧
      ∃ t, e.simplify other = .ok t ∧ t.simplify known = .ok r := by
  intro x y tail infinity e s r known other again
  have hknown : known.Converts e := Environment.converts_of_forall_entries
    (List.forall_mem_singleton.mpr ⟨.infinite false, rfl⟩)
  have hother : other.Converts e := Environment.converts_of_forall_entries
    (List.forall_mem_singleton.mpr ⟨.ofInt 0, by decide +kernel⟩)
  have hagain : again.Converts e := Environment.converts_of_forall_entries
    (List.forall_mem_cons.mpr ⟨⟨.ofInt 0, by decide +kernel⟩,
      List.forall_mem_singleton.mpr ⟨.ofInt 1, by decide +kernel⟩⟩)
  have hdisjoint : known.keys.Disjoint other.keys := by simp [known, other, Bindings.keys]
  have hstage : e.simplify known = .ok s := by decide +kernel
  have hresult : s.simplify other = .ok r := by decide +kernel
  have hresult' : s.simplify again = .ok r := by decide +kernel
  obtain ⟨s', r', hs', hr', hfused, hsame, -, hswap⟩ :=
    simplify_simplify e known other hknown hother
  obtain rfl : s = s' := Except.ok.inj (hstage.symm.trans hs')
  obtain rfl : r = r' := Except.ok.inj (hresult.symm.trans hr')
  obtain ⟨s', r', hs', hr', hfused', -⟩ := simplify_simplify e known again hknown hagain
  obtain rfl : s = s' := Except.ok.inj (hstage.symm.trans hs')
  obtain rfl : r = r' := Except.ok.inj (hresult'.symm.trans hr')
  exact ⟨hknown, hother, hagain, hdisjoint, hstage, hresult, hfused, hresult', hfused',
    hsame, hswap hdisjoint⟩

end Expr

end SumProduct
