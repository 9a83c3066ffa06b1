import SumProduct.Binary64.Basic
import SumProduct.Expr.Basic

/-!
# Equality by comparing fingerprints

Structural equality of expressions, decided by a loop over a list of pairs instead of recursion.
Every node carries a fingerprint of its subtree; pairs with different fingerprints end the
comparison at once, and equal fingerprints prove nothing.

## Main definitions

* `SumProduct.Fingerprinting` — fingerprints of leaves, and how a node combines those below it.
* `SumProduct.Expr.fingerprint` — the fingerprint of a tree.
* `SumProduct.Marked` — a tree with the fingerprint of every subtree.
* `SumProduct.Expr.same` — the comparison.
-/

namespace SumProduct

universe u

/-- How fingerprints are made. -/
structure Fingerprinting (α : Type u) where
  /-- The fingerprint of a constant. -/
  constant : α → UInt64
  /-- The fingerprint of a variable. -/
  var : Name → UInt64
  /-- The fingerprint of a node from those of its operands. -/
  combine : Op → UInt64 → UInt64 → UInt64

/-- A tree with the fingerprint of every subtree. -/
inductive Marked (α : Type u) where
  /-- A marked constant. -/
  | constant (mark : UInt64) (value : α)
  /-- A marked variable. -/
  | var (mark : UInt64) (name : Name)
  /-- A marked sum or product. -/
  | binary (mark : UInt64) (op : Op) (left right : Marked α)

namespace Marked

variable {α : Type u}

/-- The fingerprint of the whole tree. -/
def mark : Marked α → UInt64
  | constant m _ => m
  | var m _ => m
  | binary m _ _ _ => m

/-- The number of nodes. -/
def size : Marked α → Nat
  | constant _ _ => 1
  | var _ _ => 1
  | binary _ _ left right => 1 + left.size + right.size

/-- The nodes of the first trees of all pairs. -/
def totalSize : List (Marked α × Marked α) → Nat
  | [] => 0
  | p :: rest => p.1.size + totalSize rest

/-- Marks a tree from the leaves up. -/
def ofExpr (f : Fingerprinting α) : Expr α → Marked α
  | .constant value => constant (f.constant value) value
  | .var name => var (f.var name) name
  | .binary op left right =>
    let a := ofExpr f left
    let b := ofExpr f right
    binary (f.combine op a.mark b.mark) op a b

/-- The loop of the comparison: whether all pairs of trees on the list are equal. -/
def allSame [DecidableEq α] (pairs : List (Marked α × Marked α)) : Bool :=
  match pairs with
  | [] => true
  | (constant m a, constant n b) :: rest =>
    if m = n ∧ a = b then allSame rest else false
  | (var m x, var n y) :: rest =>
    if m = n ∧ x = y then allSame rest else false
  | (binary m op a b, binary n op' c d) :: rest =>
    if m = n ∧ op = op' then allSame ((b, d) :: (a, c) :: rest) else false
  | (constant _ _, var _ _) :: _ => false
  | (constant _ _, binary _ _ _ _) :: _ => false
  | (var _ _, constant _ _) :: _ => false
  | (var _ _, binary _ _ _ _) :: _ => false
  | (binary _ _ _ _, constant _ _) :: _ => false
  | (binary _ _ _ _, var _ _) :: _ => false
termination_by totalSize pairs
decreasing_by all_goals simp only [totalSize, size]; omega

end Marked

namespace Expr

variable {α : Type u}

/-- The fingerprint of a tree. -/
def fingerprint (f : Fingerprinting α) (e : Expr α) : UInt64 := (Marked.ofExpr f e).mark

/-- Whether two expressions are equal. -/
def same [DecidableEq α] (f : Fingerprinting α) (a b : Expr α) : Bool :=
  Marked.allSame [(Marked.ofExpr f a, Marked.ofExpr f b)]

end Expr

/-- The prime that the fingerprints of finite numbers are residues of. -/
def fingerprintPrime : Nat := twoPow 61 - 1

/-- The residue of a finite magnitude. Modulo the prime, `2 ^ 61` is one and a unit of `2 ^ -1074`
is `2 ^ 24`. -/
def Binary64.residue (rank : Nat) : Nat := unitsOfRank rank * twoPow 24 % fingerprintPrime

/-- The fingerprint of a number: its residue with its sign, so that the two zeros have the same, and
`-2` in place of `-1`. -/
def Binary64.fingerprint : Binary64 → Int
  | finite false rank => residue rank
  | finite true rank => if residue rank = 1 then -2 else -(residue rank : Int)
  | infinite false => 314159
  | infinite true => -314159
  | nan => fingerprintPrime

/-- The fingerprints of expressions over binary64 numbers. -/
def Fingerprinting.standard : Fingerprinting Binary64 where
  constant value := mixHash (hash Kind.constant.number) (hash value.fingerprint)
  var name := mixHash (hash Kind.var.number) (hash name.text)
  combine op a b := mixHash (hash op.kind.number) (mixHash a b)

/-- Whether two expressions are equal, by their standard fingerprints. -/
def Expr.equal (a b : Expr Binary64) : Bool := a.same Fingerprinting.standard b

end SumProduct
