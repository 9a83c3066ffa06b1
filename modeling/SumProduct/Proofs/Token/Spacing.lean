import SumProduct.Proofs.Token.Piece
import SumProduct.Proofs.Token.Spelling

/-!
# Blank characters between tokens

The tokens of a text can be written again with other blank characters between them. The text that
comes of it has the same tokens in other places, as long as there is at least one blank character
between any two of them.

## Main definitions

* `SumProduct.Token.content` — the kind and the text of a token.
* `SumProduct.Token.spaced` — tokens written one behind the other, with gaps in front of them.

## Main results

* `SumProduct.Lexeme.chars_injective` — a lexeme is known from its characters.
* `SumProduct.Token.exists_scan_spaced` — the tokens of a text that is written with other gaps.
-/

namespace SumProduct

/-- A lexeme is known from its characters, as they are cut into this lexeme. -/
lemma Lexeme.chars_injective : Function.Injective Lexeme.chars := by
  intro l m hchars
  have hend {k : Lexeme} (hk : k.chars = []) : k = .endOfInput :=
    Classical.byContradiction fun hne => Token.chars_ne_nil hne hk
  by_cases hl : l = .endOfInput
  · subst hl
    exact (hend hchars.symm).symm
  · have hm : m ≠ .endOfInput := by
      rintro rfl
      exact hl (hend hchars)
    have hscan : Token.scanFrom 0 (l.chars ++ []) = _ := Token.scanFrom_lexeme hl (fun _ => rfl) 0
    rw [hchars, Token.scanFrom_lexeme hm (fun _ => rfl) 0, Token.scanFrom_nil] at hscan
    have htokens := Except.ok.inj hscan
    simp only [List.cons.injEq, Token.mk.injEq] at htokens
    exact htokens.1.1.symm

namespace Token

/-- What a token is, wherever it stands: its kind and its text. -/
def content (t : Token) : TokenKind × String := (t.kind, t.text)

/-- Tokens have the same kind and text when they are the same lexeme. -/
lemma content_eq_iff {t u : Token} : t.content = u.content ↔ t.lexeme = u.lexeme := by
  constructor
  · intro h
    have htext := congrArg (fun c => c.2.toList) h
    simp only [content, toList_text] at htext
    exact Lexeme.chars_injective htext
  · intro h
    rw [content, content, kind, kind, text, text, h]

/-- Tokens have the same kinds and texts when they are the same lexemes. -/
lemma map_content_eq_iff {tokens tokens' : List Token} :
    tokens.map content = tokens'.map content ↔
      tokens.map (·.lexeme) = tokens'.map (·.lexeme) := by
  induction tokens generalizing tokens' with
  | nil => cases tokens' <;> simp
  | cons t tokens ih =>
    cases tokens' with
    | nil => simp
    | cons t' tokens' => simp only [List.map_cons, List.cons.injEq, content_eq_iff, ih]

/-- The texts of tokens one behind the other, with a gap in front of each. -/
def spaced (gaps : List (List Char)) (tokens : List Token) : List Char :=
  (List.zipWith (fun gap t => gap ++ t.text.toList) gaps tokens).flatten

/-- Tokens with blank characters between them spell their lexemes. -/
lemma spells_spaced {t : Token} {tokens : List Token} {gaps : List (List Char)}
    (hlength : gaps.length = tokens.length)
    (hgaps : ∀ gap ∈ gaps, gap ≠ [] ∧ isBlankText gap = true)
    (hends : ∀ u ∈ t :: tokens, u.lexeme ≠ .endOfInput) :
    Spells (t.text.toList ++ spaced gaps tokens) ((t :: tokens).map (·.lexeme)) := by
  have ht := spells_chars (hends t List.mem_cons_self)
  rw [← toList_text] at ht
  induction tokens generalizing t gaps with
  | nil => simpa [spaced] using ht
  | cons u tokens ih =>
    cases gaps with
    | nil => cases hlength
    | cons gap gaps =>
      obtain ⟨hgap, hgaps⟩ := List.forall_mem_cons.mp hgaps
      obtain ⟨-, hends⟩ := List.forall_mem_cons.mp hends
      have hu := spells_chars (hends u List.mem_cons_self)
      rw [← toList_text] at hu
      have hrest := ih (Nat.succ.inj hlength) hgaps hends hu
      have hspaced : spaced (gap :: gaps) (u :: tokens) =
          gap ++ (u.text.toList ++ spaced gaps tokens) := by
        rw [spaced, List.zipWith_cons_cons, List.flatten_cons, List.append_assoc]
        rfl
      rw [hspaced, List.map_cons, ← List.singleton_append]
      exact ht.blanks_between hgap.1 hgap.2 hrest

/-- **Other gaps give the same tokens.** Let a text have a token beside the end of the input. When
its tokens are written one behind the other, with blank characters between them and perhaps at both
ends, the text that comes of it has the same lexemes. -/
theorem exists_scan_spaced {source : String} {tokens : List Token} {before after : List Char}
    {inner : List (List Char)} (hscan : scan source = .ok tokens)
    (hlength : inner.length + 2 = tokens.length) (hbefore : isBlankText before = true)
    (hinner : ∀ gap ∈ inner, gap ≠ [] ∧ isBlankText gap = true)
    (hafter : isBlankText after = true) :
    ∃ tokens', scan (String.ofList (spaced (before :: inner ++ [after]) tokens)) = .ok tokens' ∧
      tokens'.map (·.lexeme) = tokens.map (·.lexeme) := by
  obtain ⟨front, rfl, -, hends⟩ := (cut_of_scanFrom hscan).map_eq_solidPieces
  cases front with
  | nil => simp at hlength
  | cons t front =>
    have hfront : inner.length = front.length := by simpa using hlength
    have htext : spaced (before :: inner ++ [after])
        (t :: front ++ [⟨.endOfInput, 0 + source.toList.length⟩]) =
        before ++ (t.text.toList ++ spaced inner front) ++ after := by
      simp [spaced, List.zipWith_append hfront, text, Lexeme.chars]
    have hspells :=
      ((spells_spaced hfront hinner hends).blanks_left hbefore).blanks_right hafter
    rw [← htext, ← String.toList_ofList (l := spaced _ _)] at hspells
    obtain ⟨tokens', hscan', hlexemes⟩ := hspells.exists_scan
    exact ⟨tokens', hscan', by rw [hlexemes, List.map_append]; rfl⟩

end Token

end SumProduct
