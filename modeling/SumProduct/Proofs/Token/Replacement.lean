import SumProduct.Proofs.Token.Piece
import SumProduct.Proofs.Token.Spelling

/-!
# Replacing a variable in a text

Every token of one variable in a text is replaced by another text in parentheses, and all other
characters stay as they are. The text that comes of it is cut into the tokens of the first text,
with the tokens of the other one, in parentheses, in the place of the variable.

## Main definitions

* `SumProduct.Token.rewrite` — the characters of a text with some of its tokens replaced.
* `SumProduct.Token.replaceVariable` — a text with a variable replaced by a text in parentheses.
* `SumProduct.Lexeme.replace` — a lexeme, or the lexemes in its place.

## Main results

* `SumProduct.Token.Cut.spells` — a text spells the lexemes that it is cut into.
* `SumProduct.Token.exists_scan_replaceVariable` — the tokens of a text with a variable replaced.
-/

namespace SumProduct

/-- The lexemes in the place of a lexeme, when a variable is replaced by lexemes in parentheses. -/
def Lexeme.replace (l : Lexeme) (v : Name) (inner : List Lexeme) : List Lexeme :=
  if l = .var v then .leftParen :: inner ++ [.rightParen] else [l]

/-- Every other lexeme stays. -/
@[simp] lemma Lexeme.replace_of_ne {v : Name} {inner : List Lexeme} {l : Lexeme} (hl : l ≠ .var v) :
    l.replace v inner = [l] :=
  if_neg hl

namespace Token

/-- The rest of a text that starts at a position, with the tokens of a variable replaced by a text
in parentheses. -/
def rewrite (v : Name) (inner : List Char) (text : List Char) (position : Nat) :
    List Token → List Char
  | [] => text
  | t :: rest =>
    if t.lexeme = .var v then
      text.take (t.position - position) ++ '(' :: inner ++ [')'] ++
        rewrite v inner (text.drop (t.position + t.text.length - position))
          (t.position + t.text.length) rest
    else rewrite v inner text position rest

/-- A text with every token of a variable replaced by another text in parentheses. A text without
tokens stays as it is. -/
def replaceVariable (v : Name) (inner text : String) : String :=
  match scan text with
  | .ok tokens => String.ofList (rewrite v inner.toList text.toList 0 tokens)
  | .error _ => text

/-! ## Equations of the replacement -/

variable {v : Name} {inner text : List Char} {position : Nat} {tokens : List Token}

/-- Characters in front of all tokens stay. -/
lemma rewrite_append (front : List Char)
    (htokens : ∀ t ∈ tokens, position + front.length ≤ t.position) :
    rewrite v inner (front ++ text) position tokens =
      front ++ rewrite v inner text (position + front.length) tokens := by
  induction tokens with
  | nil => rfl
  | cons t tokens ih =>
    obtain ⟨ht, htokens⟩ := List.forall_mem_cons.mp htokens
    rw [rewrite, rewrite]
    split
    · have htake : (front ++ text).take (t.position - position) =
          front ++ text.take (t.position - (position + front.length)) := by
        rw [List.take_append, List.take_of_length_le (by omega), Nat.sub_sub]
      have hdrop : (front ++ text).drop (t.position + t.text.length - position) =
          text.drop (t.position + t.text.length - (position + front.length)) := by
        rw [List.drop_append, List.drop_of_length_le (by omega), List.nil_append, Nat.sub_sub]
      rw [htake, hdrop]
      simp only [List.append_assoc]
    · exact ih htokens

/-- A blank character stays. -/
lemma rewrite_blank {c : Char} (hrest : Cut (position + 1) text tokens) :
    rewrite v inner (c :: text) position tokens =
      c :: rewrite v inner text (position + 1) tokens :=
  rewrite_append [c] hrest.le_position

/-- Any other lexeme stays. -/
lemma rewrite_lexeme {l : Lexeme} (hl : l ≠ .var v)
    (hrest : Cut (position + l.chars.length) text tokens) :
    rewrite v inner (l.chars ++ text) position (⟨l, position⟩ :: tokens) =
      l.chars ++ rewrite v inner text (position + l.chars.length) tokens := by
  rw [rewrite, if_neg hl]
  exact rewrite_append l.chars hrest.le_position

/-- The variable is replaced. -/
lemma rewrite_var :
    rewrite v inner (Lexeme.chars (.var v) ++ text) position (⟨.var v, position⟩ :: tokens) =
      '(' :: inner ++ [')'] ++
        rewrite v inner text (position + (Lexeme.chars (.var v)).length) tokens := by
  have hlength : (Token.text ⟨.var v, position⟩).length = (Lexeme.chars (.var v)).length :=
    String.length_ofList
  rw [rewrite, if_pos rfl, Nat.sub_self, List.take_zero, hlength, Nat.add_sub_cancel_left,
    List.drop_left, List.nil_append]

/-! ## Texts that spell their lexemes -/

/-- **A text spells the lexemes that it is cut into.** -/
theorem Cut.spells (h : Cut position text tokens) {ls : List Lexeme}
    (hlexemes : tokens.map (·.lexeme) = ls ++ [.endOfInput]) : Spells text ls := by
  induction h generalizing ls with
  | done position =>
    intro start rest more hrest hcut
    obtain rfl : ls = [] := by simpa using hlexemes
    exact ⟨[], rfl, hcut⟩
  | blank hc _ ih =>
    intro start rest more hrest hcut
    rw [List.length_cons, ← Nat.add_assoc, Nat.add_right_comm] at hcut
    obtain ⟨front, hfront, hback⟩ := ih hlexemes _ _ _ hrest hcut
    exact ⟨front, hfront, .blank hc hback⟩
  | @lexeme position l text tokens hl hword _ ih =>
    intro start rest more hrest hcut
    cases ls with
    | nil => simp [hl] at hlexemes
    | cons l' ls =>
      obtain ⟨rfl, htail⟩ := List.cons.inj hlexemes
      rw [List.length_append, ← Nat.add_assoc] at hcut
      obtain ⟨front, hfront, hback⟩ := ih htail _ _ _ hrest hcut
      refine ⟨⟨l, start⟩ :: front, by rw [List.map_cons, hfront], ?_⟩
      rw [List.append_assoc]
      exact .lexeme hl (fun h => isDelimited_append (hword h) hrest) hback

/-! ## The tokens of the text -/

/-- A text stays delimited when a variable is replaced. -/
lemma Cut.isDelimited_rewrite (h : Cut position text tokens) (htext : isDelimited text = true) :
    isDelimited (rewrite v inner text position tokens) = true := by
  cases h with
  | done position => rfl
  | blank _ hrest =>
    rw [rewrite_blank hrest]
    exact htext
  | @lexeme position l text tokens hl _ hrest =>
    by_cases hvar : l = .var v
    · subst hvar
      rw [rewrite_var]
      rfl
    · rw [rewrite_lexeme hvar hrest]
      obtain ⟨c, cs, hchars⟩ := List.exists_cons_of_ne_nil (chars_ne_nil hl)
      rw [hchars] at htext ⊢
      exact htext

/-- A text with a variable replaced is cut into the tokens in the places of its own, wherever it
stands.

**Proof sketch.** Induction on the cut. In the place of the variable there are a parenthesis, the
other text, and a parenthesis; what is behind is delimited before and after the replacement, so that
neither the other text nor a word runs into it. -/
lemma Cut.exists_cut_rewrite {ms : List Lexeme} (hinner : Spells inner ms)
    (h : Cut position text tokens) (start : Nat) :
    ∃ replaced, Cut start (rewrite v inner text position tokens) replaced ∧
      replaced.map (·.lexeme) = (tokens.map (·.lexeme)).flatMap (·.replace v ms) := by
  induction h generalizing start with
  | done position => exact ⟨_, .done start, rfl⟩
  | blank hc hrest ih =>
    obtain ⟨replaced, hcut, hlexemes⟩ := ih (start + 1)
    rw [rewrite_blank hrest]
    exact ⟨replaced, .blank hc hcut, hlexemes⟩
  | @lexeme position l text tokens hl hword hrest ih =>
    rw [List.map_cons, List.flatMap_cons, Lexeme.replace]
    by_cases hvar : l = .var v
    · subst hvar
      obtain ⟨replaced, hcut, hlexemes⟩ := ih (start + ('(' :: inner ++ [')']).length)
      obtain ⟨front, hfront, hgroup⟩ :=
        hinner.group _ _ _ (hrest.isDelimited_rewrite (hword rfl)) hcut
      rw [rewrite_var]
      exact ⟨front ++ replaced, hgroup, by rw [List.map_append, hfront, hlexemes, if_pos rfl]⟩
    · obtain ⟨replaced, hcut, hlexemes⟩ := ih (start + l.chars.length)
      rw [rewrite_lexeme hvar hrest, if_neg hvar]
      exact ⟨⟨l, start⟩ :: replaced,
        .lexeme hl (fun h => hrest.isDelimited_rewrite (hword h)) hcut, by simp [hlexemes]⟩

/-- **The tokens of a text with a variable replaced.** They are those of the text, with the tokens
of the other text, in parentheses, in the place of the variable. -/
theorem exists_scan_replaceVariable (v : Name) {inner text : String}
    {innerTokens tokens : List Token} {ls ms : List Lexeme} (hinner : scan inner = .ok innerTokens)
    (hms : innerTokens.map (·.lexeme) = ms ++ [.endOfInput]) (htext : scan text = .ok tokens)
    (hls : tokens.map (·.lexeme) = ls ++ [.endOfInput]) :
    ∃ replaced, scan (replaceVariable v inner text) = .ok replaced ∧
      replaced.map (·.lexeme) = ls.flatMap (·.replace v ms) ++ [.endOfInput] := by
  have hspells := (cut_of_scanFrom hinner).spells hms
  obtain ⟨replaced, hcut, hlexemes⟩ := (cut_of_scanFrom htext).exists_cut_rewrite (v := v) hspells 0
  refine ⟨replaced, ?_, ?_⟩
  · rw [replaceVariable, htext, scan, String.toList_ofList]
    exact hcut.scanFrom_eq
  · rw [hlexemes, hls, List.flatMap_append]
    rfl

end Token

end SumProduct
