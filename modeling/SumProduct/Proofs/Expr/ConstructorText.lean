import SumProduct.Expr.Text
import SumProduct.Proofs.Binary64.FullText

/-!
# The constructor form identifies an expression

The constructor form of an expression is a call with the forms of its operands as arguments. Where
the form of an operand ends cannot be told from the next comma, since the operand may be a call with
commas of its own, but it can be told from the operand: whatever text stands behind a form, no other
form fits in front of it.

## Main definitions

* `SumProduct.Expr.argumentsText` — the arguments of the call.

## Main results

* `SumProduct.Expr.toList_constructorText` — the form is the name of the variant with the arguments
  in parentheses.
* `SumProduct.Expr.constructorText_append_inj` — the form and what stands behind it are known from
  the text.
* `SumProduct.Expr.constructorText_eq_iff_equal` — two expressions have the same form exactly if
  they are equal.
-/

namespace SumProduct

/-- A variant is known from the name of its constructor. -/
lemma Kind.name_injective : Function.Injective Kind.name := by
  intro kind kind' h
  cases kind <;> cases kind' <;> first | rfl | exact absurd h (by decide)

/-- The names of constructors have no parentheses. -/
lemma Kind.leftParen_notMem_name (kind : Kind) : '(' ∉ kind.name.toList := by
  cases kind <;> decide

/-- An operator is known from the variant it builds. -/
lemma Op.kind_injective : Function.Injective Op.kind := by
  intro op op' h
  cases op <;> cases op' <;> first | rfl | cases h

namespace Expr

/-- The arguments of the call that an expression is written as. -/
def argumentsText : Expr Binary64 → List Char
  | constant value => value.fullText.toList
  | var name => '\'' :: (name.text.toList ++ ['\''])
  | binary _ left right => left.constructorText.toList ++ ',' :: ' ' :: right.constructorText.toList

/-- The form is the name of the variant and, in parentheses, the arguments. -/
lemma toList_constructorText (e : Expr Binary64) :
    e.constructorText.toList = e.kind.name.toList ++ '(' :: (e.argumentsText ++ [')']) := by
  cases e with
  | constant value | var name => simp [constructorText, argumentsText, kind, Kind.name]
  | binary op left right => simp [constructorText, argumentsText, kind]

/-- The form with a text behind it. -/
lemma toList_constructorText_append (e : Expr Binary64) (s : List Char) :
    e.constructorText.toList ++ s = e.kind.name.toList ++ '(' :: (e.argumentsText ++ ')' :: s) := by
  rw [toList_constructorText, List.append_assoc, List.cons_append, List.append_assoc]
  rfl

/-- The variant is known from what stands up to the first parenthesis. -/
lemma kind_eq_of_constructorText_append {a b : Expr Binary64} {s t : List Char}
    (h : a.constructorText.toList ++ s = b.constructorText.toList ++ t) :
    a.kind = b.kind ∧ a.argumentsText ++ ')' :: s = b.argumentsText ++ ')' :: t := by
  rw [toList_constructorText_append, toList_constructorText_append] at h
  obtain ⟨hname, harguments⟩ := eq_of_append_mark_eq a.kind.leftParen_notMem_name
    b.kind.leftParen_notMem_name h
  exact ⟨Kind.name_injective (String.toList_injective hname), harguments⟩

/-- **The form and what stands behind it are known from the text.**

**Proof sketch.** Induction on the first expression, of the same variant as the second. The number
of a constant and the name of a variable end at the mark behind them, which they do not have; the
forms of operands end where the induction says. -/
lemma constructorText_append_inj {a b : Expr Binary64} {s t : List Char}
    (h : a.constructorText.toList ++ s = b.constructorText.toList ++ t) : a = b ∧ s = t := by
  induction a generalizing b s t with
  | constant value =>
    obtain ⟨hkind, harguments⟩ := kind_eq_of_constructorText_append h
    cases b with
    | constant value' =>
      have hclose (x : Binary64) : ')' ∉ x.fullText.toList :=
        Binary64.notMem_fullText (by decide) (by decide) x
      obtain ⟨hvalue, hrest⟩ := eq_of_append_mark_eq (hclose value) (hclose value') harguments
      rw [Binary64.fullText_injective (String.toList_injective hvalue)]
      exact ⟨rfl, hrest⟩
    | var name' => cases hkind
    | binary op' left' right' => cases op' <;> cases hkind
  | var name =>
    obtain ⟨hkind, harguments⟩ := kind_eq_of_constructorText_append h
    cases b with
    | constant value' => cases hkind
    | var name' =>
      have hquote (n : Name) : '\'' ∉ n.text.toList := n.notMem_text (by decide)
      rw [argumentsText, argumentsText, List.cons_append, List.cons_append, List.append_assoc,
        List.append_assoc] at harguments
      obtain ⟨hname, hrest⟩ :=
        eq_of_append_mark_eq (hquote name) (hquote name') (List.cons.inj harguments).2
      rw [Name.text_injective (String.toList_injective hname)]
      exact ⟨rfl, (List.cons.inj hrest).2⟩
    | binary op' left' right' => cases op' <;> cases hkind
  | binary op left right ihl ihr =>
    obtain ⟨hkind, harguments⟩ := kind_eq_of_constructorText_append h
    cases b with
    | constant value' | var name' => cases op <;> cases hkind
    | binary op' left' right' =>
      obtain rfl := Op.kind_injective hkind
      rw [argumentsText, argumentsText, List.append_assoc, List.append_assoc] at harguments
      obtain ⟨rfl, hright⟩ := ihl harguments
      obtain ⟨rfl, hrest⟩ := ihr (List.cons.inj (List.cons.inj hright).2).2
      exact ⟨rfl, (List.cons.inj hrest).2⟩

/-- **Two expressions have the same constructor form exactly if they are equal.** The constants may
be any numbers: negative ones, infinities, the two zeros, which have different forms and are not
equal, and what is no number, which is equal to itself. -/
theorem constructorText_eq_iff_equal (a b : Expr Binary64) :
    a.constructorText = b.constructorText ↔ a.equal b = true := by
  rw [equal, same_iff_eq]
  constructor
  · intro h
    have happend : a.constructorText.toList ++ [] = b.constructorText.toList ++ [] := by rw [h]
    exact (constructorText_append_inj happend).1
  · intro h
    rw [h]

end Expr

end SumProduct
