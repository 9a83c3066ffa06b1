import SumProduct.Expr.Equality
import SumProduct.Proofs.Binary64.Rounding

/-!
# The comparison decides structural equality

The comparison of two expressions works off a list of pairs and gives up at the first two different
fingerprints. Whatever the fingerprints are, it finds out whether the trees are alike: trees that
are alike have equal fingerprints everywhere, so the short-cut rejects none of them, and the payload
of every node is looked at, so that no collision is taken for equality.

## Main definitions

* `SumProduct.Binary64.ValueEq` — equality of values, where the two zeros are equal and what is no
  number is not equal to itself.
* `SumProduct.Binary64.Alike` — constants that take each other's place: what is no number matches
  itself and the two zeros do not match.
* `SumProduct.Expr.Alike` — trees of one shape with matching payloads.

## Main results

* `SumProduct.Marked.allSame_cons` — what the loop makes of the first pair.
* `SumProduct.Expr.same_decides_alike` — the comparison decides which trees are alike.
-/

namespace SumProduct

universe u

/-! ## Constants that match -/

namespace Binary64

/-- Equality of values. The two zeros are equal, and nothing is equal to what is no number. -/
inductive ValueEq : Binary64 → Binary64 → Prop
  /-- Finite numbers of the same value. -/
  | finite {x y : Binary64} {units : Int} (hx : x.units? = some units)
      (hy : y.units? = some units) : ValueEq x y
  /-- An infinity and itself. -/
  | infinite (negative : Bool) : ValueEq (.infinite negative) (.infinite negative)

/-- Whether the sign bit is set. -/
def signBit : Binary64 → Bool
  | finite negative _ => negative
  | infinite negative => negative
  | nan => false

/-- Constants match when neither or both are numbers, and numbers when they have the same value and
the same sign bit. -/
def Alike (x y : Binary64) : Prop :=
  (x = nan ∧ y = nan) ∨ (ValueEq x y ∧ x.signBit = y.signBit)

/-- The value and the sign bit of a finite number are all there is to it. -/
lemma eq_of_units?_eq {x y : Binary64} {units : Int} (hx : x.units? = some units)
    (hy : y.units? = some units) (hsign : x.signBit = y.signBit) : x = y := by
  cases x with
  | infinite | nan => cases hx
  | finite negative m =>
    cases y with
    | infinite | nan => cases hy
    | finite negative' n =>
      obtain rfl : negative = negative' := hsign
      have hunits : unitsOfRank m = unitsOfRank n := by
        cases negative <;> simp only [units?, Option.some.injEq] at hx hy <;> omega
      rw [Fin.ext (unitsOfRank_strictMono.injective hunits)]

/-- Constants match exactly if they are the same. -/
lemma alike_iff_eq {x y : Binary64} : x.Alike y ↔ x = y := by
  constructor
  · rintro (⟨rfl, rfl⟩ | ⟨hvalue, hsign⟩)
    · rfl
    · cases hvalue with
      | finite hx hy => exact eq_of_units?_eq hx hy hsign
      | infinite negative => rfl
  · rintro rfl
    rcases x with ⟨_ | _, rank⟩ | negative | _
    · exact .inr ⟨.finite rfl rfl, rfl⟩
    · exact .inr ⟨.finite rfl rfl, rfl⟩
    · exact .inr ⟨.infinite negative, rfl⟩
    · exact .inl ⟨rfl, rfl⟩

end Binary64

/-! ## Trees that match -/

namespace Expr

/-- Trees are alike when they have the same shape with the same variant at every node, the same
names, and constants that match, all in the same places. -/
inductive Alike : Expr Binary64 → Expr Binary64 → Prop
  /-- Constants that match. -/
  | constant {x y : Binary64} (h : x.Alike y) : Alike (constant x) (constant y)
  /-- Variables of one name. -/
  | var (name : Name) : Alike (var name) (var name)
  /-- Operations of one operator on operands that are alike. -/
  | binary (op : Op) {left left' right right' : Expr Binary64} (hl : Alike left left')
      (hr : Alike right right') : Alike (binary op left right) (binary op left' right')

/-- Trees are alike exactly if they are the same. -/
lemma alike_iff_eq {a b : Expr Binary64} : a.Alike b ↔ a = b := by
  constructor
  · intro h
    induction h with
    | constant h => rw [Binary64.alike_iff_eq.mp h]
    | var name => rfl
    | binary op _ _ ihl ihr => rw [ihl, ihr]
  · rintro rfl
    induction a with
    | constant value => exact .constant (Binary64.alike_iff_eq.mpr rfl)
    | var name => exact .var name
    | binary op left right ihl ihr => exact .binary op ihl ihr

end Expr

/-! ## The loop -/

section Loop

variable {α : Type u} [DecidableEq α]

/-- **The loop asks for equality of the first pair and goes on with the others.** Equal trees have
equal fingerprints, so comparing fingerprints first changes nothing.

**Proof sketch.** Induction on the first tree of the pair. A pair of nodes is replaced by the two
pairs of their operands, and the hypotheses take these off the list one after the other. -/
theorem Marked.allSame_cons (f : Fingerprinting α) (a b : Expr α)
    (rest : List (Marked α × Marked α)) :
    allSame ((ofExpr f a, ofExpr f b) :: rest) = (decide (a = b) && allSame rest) := by
  induction a generalizing b rest with
  | constant value =>
    cases b with
    | constant value' => by_cases h : value = value' <;> simp [ofExpr, allSame, h]
    | var | binary => simp [ofExpr, allSame]
  | var name =>
    cases b with
    | var name' => by_cases h : name = name' <;> simp [ofExpr, allSame, h]
    | constant | binary => simp [ofExpr, allSame]
  | binary op left right ihl ihr =>
    cases b with
    | constant | var => simp [ofExpr, allSame]
    | binary op' left' right' =>
      rw [ofExpr, ofExpr, allSame, ihr, ihl]
      by_cases hop : op = op' <;> by_cases hleft : left = left' <;>
        by_cases hright : right = right' <;> simp [hop, hleft, hright]

/-- A pair of a tree with itself may be left out. -/
lemma Marked.allSame_cons_self (f : Fingerprinting α) (e : Expr α)
    (rest : List (Marked α × Marked α)) :
    allSame ((ofExpr f e, ofExpr f e) :: rest) = allSame rest := by
  simp [allSame_cons]

/-- The comparison decides equality. -/
lemma Expr.same_iff_eq {f : Fingerprinting α} {a b : Expr α} : a.same f b = true ↔ a = b := by
  simp [same, Marked.allSame_cons, Marked.allSame]

end Loop

/-- **The comparison decides which trees are alike**, whatever the fingerprints are. Hence it is an
equivalence relation, also on trees with constants that are no numbers, and sums and products are
the same exactly if their operands are. A pair of a tree with itself may be left out wherever it is
met. And what is found to be the same has the same fingerprint. -/
theorem Expr.same_decides_alike (f : Fingerprinting Binary64) :
    (∀ a b : Expr Binary64, a.same f b = true ↔ a.Alike b) ∧
      (Equivalence fun a b : Expr Binary64 => a.same f b = true) ∧
      (∀ (op : Op) (a b c d : Expr Binary64),
        (binary op a b).same f (binary op c d) = true ↔ a.same f c = true ∧ b.same f d = true) ∧
      (∀ (e : Expr Binary64) (rest : List (Marked Binary64 × Marked Binary64)),
        Marked.allSame ((Marked.ofExpr f e, Marked.ofExpr f e) :: rest) = Marked.allSame rest) ∧
      ∀ a b : Expr Binary64, a.same f b = true → a.fingerprint f = b.fingerprint f := by
  refine ⟨fun a b => same_iff_eq.trans alike_iff_eq.symm, ⟨?refl, ?symm, ?trans⟩, ?congr,
    Marked.allSame_cons_self f, ?fingerprint⟩
  case refl => exact fun a => same_iff_eq.mpr rfl
  case symm => exact fun h => same_iff_eq.mpr (same_iff_eq.mp h).symm
  case trans => exact fun h h' => same_iff_eq.mpr ((same_iff_eq.mp h).trans (same_iff_eq.mp h'))
  case congr =>
    intro op a b c d
    simp only [same_iff_eq, binary.injEq, true_and]
  case fingerprint =>
    intro a b h
    rw [same_iff_eq.mp h]

end SumProduct
