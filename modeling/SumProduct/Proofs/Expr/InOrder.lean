import SumProduct.Proofs.Expr.Grouped

/-!
# Expressions in the order of their text

An expression that is read from left to right is a sequence of constants, variables and operators.
When a text is parsed as the expression, this sequence is what the tokens of the text come to
without the parentheses and the end of the input: parsing groups the tokens, and it loses, repeats
and moves none of them.

## Main definitions

* `SumProduct.Atom` — constants, variables and operators.
* `SumProduct.Expr.inorder` — the atoms of an expression from left to right.
* `SumProduct.Lexeme.atom?` — the atom that a lexeme stands for.

## Main results

* `SumProduct.Expr.constants_eq`, `SumProduct.Expr.occurrences_eq`, `SumProduct.Expr.size_eq` —
  the walks over a tree list its atoms in this order.
* `SumProduct.Phrase.filterMap_atom?` — a phrase has the atoms of the expression that it derives.
* `SumProduct.Expr.parse_inorder` — so has every text.
-/

namespace SumProduct

universe u

/-- What a node of an expression is without its operands. -/
inductive Atom (α : Type u) where
  /-- A constant. -/
  | constant (value : α)
  /-- A variable. -/
  | var (name : Name)
  /-- The operator of a sum or product. -/
  | operator (op : Op)
  deriving DecidableEq

namespace Atom

variable {α : Type u}

/-- The value of a constant. -/
def value? : Atom α → Option α
  | constant value => some value
  | _ => none

/-- The name of a variable. -/
def name? : Atom α → Option Name
  | var name => some name
  | _ => none

end Atom

/-! ## Expressions from left to right -/

namespace Expr

variable {α : Type u}

/-- The atoms of an expression from left to right: those of the left operand, the operator, and
those of the right operand. -/
def inorder : Expr α → List (Atom α)
  | constant value => [.constant value]
  | var name => [.var name]
  | binary op left right => left.inorder ++ .operator op :: right.inorder

/-- The walk for constants lists them from left to right. -/
lemma constants_eq (e : Expr α) : e.constants = e.inorder.filterMap Atom.value? := by
  induction e with
  | constant value => simp [inorder, Atom.value?]
  | var name => simp [inorder, Atom.value?]
  | binary op left right ihl ihr => simp [inorder, List.filterMap_cons, Atom.value?, ihl, ihr]

/-- The walk for variables lists them from left to right. -/
lemma occurrences_eq (e : Expr α) : e.occurrences = e.inorder.filterMap Atom.name? := by
  induction e with
  | constant value => simp [inorder, Atom.name?]
  | var name => simp [inorder, Atom.name?]
  | binary op left right ihl ihr => simp [inorder, List.filterMap_cons, Atom.name?, ihl, ihr]

/-- Every node is one atom. -/
lemma size_eq (e : Expr α) : e.size = e.inorder.length := by
  induction e with
  | constant value => rfl
  | var name => rfl
  | binary op left right ihl ihr =>
    simp only [size, inorder, List.length_append, List.length_cons, ihl, ihr]
    omega

end Expr

/-! ## Lexemes as atoms -/

namespace Lexeme

/-- The atom that a lexeme stands for, where a numeral stands for its value. Parentheses and the end
of the input stand for none. -/
def atom? : Lexeme → Option (Atom Binary64)
  | number numeral => some (.constant numeral.value)
  | var name => some (.var name)
  | operator op => some (.operator op)
  | leftParen => none
  | rightParen => none
  | endOfInput => none

/-- The value of a numeral. -/
def value? : Lexeme → Option Binary64
  | number numeral => some numeral.value
  | _ => none

/-- The value of a numeral is the value of its atom. -/
lemma bind_value?_atom? (l : Lexeme) : l.atom?.bind Atom.value? = l.value? := by
  cases l <;> rfl

/-- Lexemes other than parentheses and the end of the input stand for atoms. -/
lemma isSome_atom?_iff {l : Lexeme} :
    l.atom?.isSome ↔ l.kind ∉ [TokenKind.leftParen, .rightParen, .endOfInput] := by
  cases l with
  | operator op => cases op <;> simp [atom?, kind]
  | number | var | leftParen | rightParen | endOfInput => simp [atom?, kind]

end Lexeme

/-- **A phrase has the atoms of the expression that it derives**, in their order.

**Proof sketch.** Induction on the phrase. Parentheses stand for no atom, and an operator between
two phrases is between the atoms of the operands in the expression as well. -/
theorem Phrase.filterMap_atom? {p : Production} {ls : List Lexeme} {e : Expr Binary64}
    (h : Phrase (fun n => some n.value) p ls e) : ls.filterMap Lexeme.atom? = e.inorder := by
  induction h with
  | number hvalue =>
    obtain rfl := Option.some.inj hvalue
    rfl
  | var name => rfl
  | group _ ih => simp [List.filterMap_cons, Lexeme.atom?, ih]
  | single _ ih => exact ih
  | snoc _ _ ihc iho => simp [Lexeme.atom?, Expr.inorder, ihc, iho]

namespace Token

/-- A token that is no parenthesis and not the end of the input. -/
def isAtom (t : Token) : Bool :=
  decide (t.kind ∉ [TokenKind.leftParen, .rightParen, .endOfInput])

/-- Each token but parentheses and the end of the input stands for an atom. -/
lemma map_atom?_filter (tokens : List Token) :
    (tokens.filter isAtom).map (·.lexeme.atom?) =
      (tokens.filterMap (·.lexeme.atom?)).map some := by
  induction tokens with
  | nil => rfl
  | cons t tokens ih =>
    have ht : t.isAtom = t.lexeme.atom?.isSome := by
      rw [Bool.eq_iff_iff, Lexeme.isSome_atom?_iff, isAtom, decide_eq_true_iff]
      rfl
    cases hatom : t.lexeme.atom? with
    | none => simpa [ht, hatom] using ih
    | some a => simpa [ht, hatom] using ih

/-- The name of a variable that a token stands for. -/
lemma map_name?_atom?_iff {t : Token} {name : String} :
    (t.lexeme.atom?.bind Atom.name?).map (·.text) = some name ↔
      t.kind = .var ∧ t.text = name := by
  obtain ⟨l, position⟩ := t
  cases l with
  | var n => simp [Lexeme.atom?, Atom.name?, kind, Lexeme.kind, text, Lexeme.chars]
  | operator op => cases op <;> simp [Lexeme.atom?, Atom.name?, kind, Lexeme.kind]
  | number | leftParen | rightParen | endOfInput =>
    simp [Lexeme.atom?, Atom.name?, kind, Lexeme.kind]

end Token

namespace Expr

variable {tokens : List Token} {e : Expr Binary64}

/-- The variables of an expression are counted as its tokens are. -/
lemma count_occurrences (h : tokens.filterMap (·.lexeme.atom?) = e.inorder) (name : String) :
    (e.occurrences.map (·.text)).count name =
      tokens.countP fun t => decide (t.kind = .var ∧ t.text = name) := by
  rw [occurrences_eq, ← h, List.filterMap_filterMap, List.map_filterMap, List.count_filterMap]
  refine List.countP_congr fun t _ => ?_
  rw [beq_iff_eq, decide_eq_true_iff, Token.map_name?_atom?_iff]

/-- **Parsing keeps every leaf and operator in its place.** When a text is parsed as an expression,
the tokens other than parentheses and the end of the input are the atoms of the expression from left
to right: each variable of a name is a token of this name, each constant is the value of a numeral,
and each operator is a token of it. So the constants are the values of the numerals in their order,
the usage counts the tokens of each variable, and there are as many nodes as such tokens.

**Proof sketch.** The tokens of the text are a phrase that derives the expression
(`accepted_of_parse`), so they have its atoms (`Phrase.filterMap_atom?`). The walks over the tree
list the atoms in the same order. -/
theorem parse_inorder (text : String) (limit : NestingLimit) (e : Expr Binary64)
    (h : Expr.parse text limit = .ok e) :
    ∃ tokens, Token.scan text = .ok tokens ∧
      (tokens.filter Token.isAtom).map (·.lexeme.atom?) = e.inorder.map some ∧
      e.constants = tokens.filterMap (·.lexeme.value?) ∧
      (e.usage.map Prod.fst).Nodup ∧
      (∀ name k, (name, k) ∈ e.usage ↔
        0 < k ∧ (tokens.countP fun t => decide (t.kind = .var ∧ t.text = name)) = k) ∧
      e.size = (tokens.filter Token.isAtom).length := by
  obtain ⟨tokens, ls, hscan, hlexemes, hphrase, -⟩ := accepted_of_parse h
  have hatoms : tokens.filterMap (·.lexeme.atom?) = e.inorder := by
    have hmap : (tokens.map (·.lexeme)).filterMap Lexeme.atom? =
        tokens.filterMap (·.lexeme.atom?) := List.filterMap_map
    rw [← hmap, hlexemes, List.filterMap_append, hphrase.filterMap_atom?]
    exact List.append_nil _
  have hmap := (Token.map_atom?_filter tokens).trans (congrArg (List.map some) hatoms)
  refine ⟨tokens, hscan, hmap, ?constants, e.nodup_usage, fun name k => ?usage, ?size⟩
  case constants =>
    rw [constants_eq, ← hatoms, List.filterMap_filterMap]
    exact List.filterMap_congr fun t _ => t.lexeme.bind_value?_atom?
  case usage => rw [mem_usage_iff, count_occurrences hatoms]
  case size =>
    have hlength := congrArg List.length hmap
    rw [List.length_map, List.length_map] at hlength
    rw [size_eq, hlength]

open Binary64 in
/-- The text `(2 * (x + 0.5) * x)` has seven tokens beside its parentheses and the end of the input.
They are the nodes of its expression, where the sum stands between its operands. -/
theorem parse_inorder_parenthesized :
    let x : Name := ⟨"x", by decide⟩
    let two : Binary64 := .finite false ⟨1024 * binade, by decide⟩
    let half : Binary64 := .finite false ⟨1022 * binade, by decide⟩
    let e := binary .mul (binary .mul (constant two) (binary .add (var x) (constant half))) (var x)
    let text := "(2 * (x + 0.5) * x)"
    Expr.parse text .standard = .ok e ∧
      ∃ tokens, Token.scan text = .ok tokens ∧
        (tokens.filter Token.isAtom).map (·.lexeme.atom?) =
          [some (.constant two), some (.operator .mul), some (.var x), some (.operator .add),
            some (.constant half), some (.operator .mul), some (.var x)] ∧
        tokens.filterMap (·.lexeme.value?) = [two, half] ∧
        (tokens.countP fun t => decide (t.kind = .var ∧ t.text = "x")) = 2 ∧
        (tokens.filter Token.isAtom).length = 7 := by
  intro x two half e text
  have hunsigned : ∀ z ∈ e.constants, z.Unsigned := by
    intro z hz
    rcases (by simpa [e] using hz : z = two ∨ z = half) with rfl | rfl <;> exact ⟨_, rfl⟩
  have hdenotes : Denotes .expression ("(" ++ e.groupedText ++ ")") e :=
    (denotes_groupedText hunsigned).loosen.group.of_factor .add .left
  have hgrouped : "(" ++ e.groupedText ++ ")" = text := by decide +kernel
  rw [hgrouped] at hdenotes
  have hparse : Expr.parse text .standard = .ok e :=
    (hdenotes.parse .standard).1 (by decide +kernel)
  have hmem : ("x", 2) ∈ e.usage := mem_usage_iff.mpr (by simp [e, x])
  obtain ⟨tokens, hscan, hatoms, hconstants, -, husage, hsize⟩ :=
    parse_inorder text .standard e hparse
  exact ⟨hparse, tokens, hscan, hatoms, by simp [← hconstants, e],
    ((husage "x" 2).mp hmem).2, hsize.symm⟩

end Expr

end SumProduct
