import SumProduct.Proofs.Parser.Cursor
import SumProduct.Proofs.Token.Piece

/-!
# Parsing after other steps

A parser may be asked for the whole text after any other steps, and some of them may have failed and
left tokens taken and parentheses open. It answers as a new parser would, as it starts over with the
tokens, the cursor and the number of open parentheses. When it succeeds, its cursor is at the end of
the input and no parenthesis is open.

## Main results

* `SumProduct.Parser.nesting_produce` — reading a production restores the number of open
  parentheses.
* `SumProduct.Parser.parse_fst_of_ok` — where parsing leaves a parser.
* `SumProduct.Parser.parse_forgets_steps` — parsing does not depend on the steps before.
-/

namespace SumProduct

namespace Parser

variable {p q : Parser} {source : String} {tokens : List Token} {e : Expr Binary64}

/-! ## Restoring the number of open parentheses -/

/-- **A production that is read restores the number of open parentheses**, as it takes as many
closing ones as opening ones. -/
lemma nesting_produce {production : Production} (h : (p.produce production).2 = .ok e) :
    (p.produce production).1.nesting = p.nesting ∧
      ∃ taken, p.remaining = taken ++ (p.produce production).1.remaining ∧
        Token.surplus taken = 0 := by
  have hnesting : (p.produce production).1.nesting = p.nesting := by
    cases houtcome : production.outcome p.limit.settings p.nesting p.remaining with
    | done a rest =>
      rw [produce_of_done houtcome]
      rfl
    | failed fault rest nesting =>
      rw [produce_of_failed houtcome] at h
      cases h
  obtain ⟨taken, htaken, hcount, -⟩ := (reaches_produce p production).counts
  refine ⟨hnesting, taken, htaken, ?_⟩
  rw [hnesting] at hcount
  omega

/-! ## Starting over -/

/-- A parser that cuts the text reads it as any other parser for this text and limit. -/
lemma parse_fst_congr (hsource : p.source = q.source) (hlimit : p.limit = q.limit)
    (hcuts : Step.parse.Cuts p.source) : p.parse.1 = q.parse.1 := by
  obtain ⟨hparse, tokens, hscan⟩ := hcuts
  have hblank : isBlankText p.source.toList = false := by simpa using hparse
  rw [parse_fst_of_scan hblank hscan, parse_fst_of_scan (hsource ▸ hblank) (hsource ▸ hscan),
    restart, restart, hsource, hlimit]

/-- A parser that does not cut the text stays as it is. -/
lemma parse_fst_of_not_cuts (h : ¬ Step.parse.Cuts p.source) : p.parse.1 = p := by
  cases hblank : isBlankText p.source.toList with
  | true => exact parse_fst_of_isBlankText hblank
  | false =>
    cases hscan : Token.scan p.source with
    | error fault => exact parse_fst_of_scan_eq_error hscan
    | ok tokens => exact absurd ⟨.inr ⟨rfl, hblank⟩, tokens, hscan⟩ h

/-! ## The end of the input -/

/-- **Parsing leaves a parser at the end of the input**, with all other tokens taken and as many
closing parentheses among them as opening ones. -/
lemma parse_fst_of_ok (h : p.parse.2 = .ok e) :
    ∃ front, Token.scan p.source = .ok (front ++ [⟨.endOfInput, p.source.length⟩]) ∧
      p.parse.1 =
        ⟨p.source, p.limit, front ++ [⟨.endOfInput, p.source.length⟩], front.length, 0⟩ ∧
      p.parse.1.current = .ok ⟨.endOfInput, p.source.length⟩ ∧ Token.surplus front = 0 := by
  rw [parse_snd] at h
  have hblank := Expr.isBlankText_of_parse h (by simp)
  obtain ⟨front, last, hscan, hlast, houtcome⟩ := exists_done_of_parse h
  have hend : last = ⟨.endOfInput, p.source.length⟩ := by
    obtain ⟨front', htokens, -⟩ := (Token.cut_of_scanFrom hscan).map_eq_solidPieces
    rw [Nat.zero_add, String.length_toList] at htokens
    exact List.singleton_inj.mp (List.append_inj' htokens rfl).2
  rw [← hend]
  -- From here on the parser has started over with the tokens of the text.
  let start := p.restart (front ++ [last])
  have hstart : start.remaining = front ++ [last] := rfl
  have hproduce : start.produce .expression = (start.leaving [last], .ok e) :=
    produce_of_done houtcome
  have hremaining : (start.leaving [last]).remaining = [last] := remaining_leaving hstart
  have hok : (start.produce .expression).2 = .ok e := by rw [hproduce]
  obtain ⟨-, taken, htaken, hsurplus⟩ := nesting_produce hok
  rw [hproduce, hremaining, hstart] at htaken
  obtain rfl : front = taken := List.append_cancel_right htaken
  rw [parse_fst_of_scan hblank hscan, hproduce]
  refine ⟨front, hscan, ?_, ?_, hsurplus⟩
  · simp [leaving, start, restart]
  · rw [current, hremaining]

/-! ## All steps -/

/-- **Parsing does not depend on the steps before.** Whatever steps have been asked of a parser, and
whether they succeeded or not, it makes of the whole text what a new parser makes of it, and this is
the last answer of the run. If the text can be cut it is then in the same state as the new one, and
otherwise it stays as it is. When parsing succeeds, the tokens are those of the text, the cursor is
at the end of the input, and no parenthesis is open: of the tokens before the cursor as many are
closing parentheses as opening ones. -/
theorem parse_forgets_steps (source : String) (limit : NestingLimit) (steps : List Step) :
    let fresh := new source limit
    let used := fresh.after steps
    fresh.run (steps ++ [.parse]) =
      fresh.run steps ++ [(used.parse.1, (fresh.step .parse).2)] ∧
    used.parse.2 = fresh.parse.2 ∧
    (Step.parse.Cuts source → used.parse.1 = fresh.parse.1) ∧
    (¬ Step.parse.Cuts source → used.parse.1 = used) ∧
    ∀ e, used.parse.2 = .ok e →
      ∃ front, Token.scan source = .ok (front ++ [⟨.endOfInput, source.length⟩]) ∧
        used.parse.1 =
          ⟨source, limit, front ++ [⟨.endOfInput, source.length⟩], front.length, 0⟩ ∧
        used.parse.1.current = .ok ⟨.endOfInput, source.length⟩ ∧ Token.surplus front = 0 := by
  intro fresh used
  obtain ⟨hsource, hlimit, -⟩ := after_new source limit steps
  change used.source = source at hsource
  change used.limit = limit at hlimit
  have hanswer : used.parse.2 = fresh.parse.2 := by
    rw [parse_snd, hsource, hlimit]
    rfl
  refine ⟨?run, hanswer, ?cuts, ?stays, ?succeeds⟩
  case run =>
    rw [run_concat, step, step, ← hanswer]
  case cuts =>
    intro hcuts
    exact parse_fst_congr hsource hlimit (hsource.symm ▸ hcuts)
  case stays =>
    intro hcuts
    exact parse_fst_of_not_cuts (hsource.symm ▸ hcuts)
  case succeeds =>
    intro e h
    have hended := parse_fst_of_ok h
    rwa [hsource, hlimit] at hended

end Parser

end SumProduct
