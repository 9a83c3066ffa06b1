import SumProduct.Proofs.Token.Piece

/-!
# The first malformed run

A text that cannot be cut has a run that is no numeral and no name. The scan finds the tokens in
front of the first such run and stops where this run begins. It cannot stop earlier, as all is well
up to there. It cannot stop later either: a numeral or name that the run begins with is shorter than
the run, so the character behind it is no delimiter.

## Main results

* `SumProduct.Token.IsMalformed.scanFrom_eq` — what the scan says of a malformed run.
* `SumProduct.Token.scan_error_first_malformed_run` — the scan fails at the first malformed run.
-/

namespace SumProduct

namespace Token

variable {c : Char} {cs run after : List Char}

/-! ## Malformed runs -/

/-- A run in front of a delimiter is what the text begins with up to there. -/
lemma run_append (hrun : IsRun run) (hafter : isDelimited after = true) :
    Token.run (run ++ after) = run := by
  refine (takeWhile_append_of_head (List.all_eq_true.mpr fun c hc => ?_) fun c hc => ?_).1
  · simp [hrun c hc]
  · cases after with
    | nil => cases hc
    | cons d after =>
      obtain rfl : d = c := by simpa using hc
      simpa [isDelimited] using hafter

/-- There is no delimiter behind a word that a malformed run begins with.

**Proof sketch.** Otherwise the word would be all of the run. -/
lemma IsMalformed.isDelimited_eq_false {l : Lexeme} {text : List Char} (h : IsMalformed run after)
    (hword : l.isWord = true) (htext : l.chars ++ text = run ++ after) :
    Token.isDelimited text = false := by
  by_contra hdelimited
  have hchars : l.chars = run := by
    rw [← run_append (isRun_chars hword) (by simpa using hdelimited), htext,
      run_append h.isRun h.isDelimited]
  exact h.not_isNumeralOrName (hchars ▸ isNumeralOrName_chars hword)

/-- The fault of a malformed run depends on its first character. -/
def malformedFault (c : Char) (cs : List Char) : SyntaxFault :=
  if isDigit c then .malformedNumber (String.ofList (c :: cs))
  else if isLetter c then .malformedVariable (String.ofList (c :: cs))
  else .invalidCharacter c

/-- **The scan refuses a malformed run where it begins.** -/
lemma IsMalformed.scanFrom_eq (h : IsMalformed (c :: cs) after) (position : Nat) :
    scanFrom position (c :: cs ++ after) = .error ⟨malformedFault c cs, position⟩ := by
  have hdelimiter := h.isRun c List.mem_cons_self
  simp only [isDelimiter, Bool.or_eq_false_iff, Option.isSome_eq_false_iff,
    Option.isNone_iff_eq_none] at hdelimiter
  obtain ⟨hblank, hsymbol⟩ := hdelimiter
  have hrun : Token.run (c :: (cs ++ after)) = c :: cs := run_append h.isRun h.isDelimited
  rw [List.cons_append, scanFrom_cons, hblank, hsymbol, hrun]
  by_cases hdigit : isDigit c = true
  · have hnumeral := h.isDelimited_eq_false (l := .number _) rfl
      (chars_split_append c (cs ++ after) hdigit)
    simp [malformedFault, hdigit, hnumeral]
  · by_cases hletter : isLetter c = true
    · have hname := h.isDelimited_eq_false (l := .var _) rfl
        (chars_leadingName_append c (cs ++ after) hletter)
      simp [malformedFault, hdigit, hletter, hname]
    · simp [malformedFault, hdigit, hletter]

/-- The scan of a text fails at a malformed run up to which the text can be cut. -/
lemma exists_malformed_of_scanFrom {position : Nat} {text : List Char} {err : SyntaxError}
    (h : scanFrom position text = .error err) :
    ∃ c cs after found, IsMalformed (c :: cs) after ∧
      PartialCut err.position (c :: cs ++ after) position text found ∧
      err.fault = malformedFault c cs := by
  obtain ⟨stop, rest, found, hcut, rfl | ⟨run, after, rfl, hrun⟩⟩ := exists_partialCut text position
  · rw [hcut.scanFrom_eq, scanFrom_nil] at h
    cases h
  · obtain ⟨c, cs, rfl⟩ := List.exists_cons_of_ne_nil hrun.ne_nil
    rw [hcut.scanFrom_eq, hrun.scanFrom_eq] at h
    cases h
    exact ⟨c, cs, after, found, hrun, hcut, rfl⟩

/-! ## The first malformed run -/

/-- **The scan fails at the first malformed run.** The position of the error is where the first run
begins that is no numeral and no name as a whole; all runs in front of it are. The tokens found so
far are the runs and symbols in front of it. Whatever stands at this position instead, the scan
finds them first; and alone the text up to there has these tokens and the end of the input. If the
run begins with a digit or a letter, the error names a malformed number or variable and has the
whole run as its token, and otherwise it names an invalid character, which is the first one of the
run. -/
theorem scan_error_first_malformed_run (source : String) (err : SyntaxError)
    (h : scan source = .error err) :
    ∃ (before : List (Nat × List Char)) (c : Char) (cs after : List Char)
      (behind : List (Nat × List Char)) (found : List Token),
      source.toList.drop err.position = c :: cs ++ after ∧
      locate 0 (pieces source.toList) = before ++ (err.position, c :: cs) :: behind ∧
      IsMalformed (c :: cs) after ∧ (∀ p ∈ before, IsRun p.2 → IsNumeralOrName p.2) ∧
      (found.map fun t => (t.position, t.text.toList)) =
        (before.filter fun p => !isBlankText p.2) ∧
      (∀ rest, scanFrom 0 (source.toList.take err.position ++ rest) =
        (scanFrom err.position rest).map (found ++ ·)) ∧
      scan (String.ofList (source.toList.take err.position)) =
        .ok (found ++ [⟨.endOfInput, err.position⟩]) ∧
      err.fault.summary =
        (if isDigit c then "Malformed number"
          else if isLetter c then "Malformed variable" else "Invalid character") ∧
      err.fault.token? =
        some (if isDigit c || isLetter c then String.ofList (c :: cs) else String.singleton c) := by
  obtain ⟨c, cs, after, found, hrun, hcut, hfault⟩ := exists_malformed_of_scanFrom h
  obtain ⟨before, hpieces, hwhole, hsolid⟩ := hcut.exists_pieces
  rw [hrun.pieces_append, locate] at hpieces
  obtain ⟨front, hsource, hstop, hfront⟩ := hcut.exists_front
  rw [Nat.zero_add] at hstop
  have htake : source.toList.take err.position = front := by rw [hsource, hstop, List.take_left]
  -- The run does not begin with a delimiter, so anything may stand in its place.
  have hscan (rest : List Char) :
      scanFrom 0 (front ++ rest) = (scanFrom err.position rest).map (found ++ ·) := by
    refine (hfront rest fun hdelimited => ?_).scanFrom_eq
    exact absurd (hdelimited.symm.trans (hrun.isRun c List.mem_cons_self)) (by decide)
  refine ⟨before, c, cs, after, _, found, ?_, hpieces, hrun, hwhole, ?_, ?_, ?_, ?_, ?_⟩
  · rw [hsource, hstop, List.drop_left]
  · simpa only [toList_text] using hsolid
  · rwa [htake]
  · have hall := hscan []
    rw [List.append_nil, scanFrom_nil] at hall
    rw [htake, scan, String.toList_ofList, hall]
    rfl
  · rw [hfault, malformedFault]
    split_ifs <;> rfl
  · rw [hfault, malformedFault]
    split_ifs <;> simp_all [SyntaxFault.token?]

/-- In `x + 1.2.3 * 4y` the first malformed run begins with the numeral `1.2`. The name and the sign
in front of it are found whatever stands there. -/
theorem scan_error_first_malformed_run_number :
    let source := "x + 1.2.3 * 4y"
    let found : List Token := [⟨.var ⟨"x", by decide⟩, 0⟩, ⟨.operator .add, 2⟩]
    scan source = .error ⟨.malformedNumber "1.2.3", 4⟩ ∧ ¬ IsNumeralOrName "1.2.3".toList ∧
      (∀ rest, scanFrom 0 ("x + ".toList ++ rest) = (scanFrom 4 rest).map (found ++ ·)) ∧
      scan "x + " = .ok (found ++ [⟨.endOfInput, 4⟩]) := by
  intro source found
  have hcut (rest : List Char) : PartialCut 4 rest 0 ("x + ".toList ++ rest) found :=
    .lexeme (l := .var ⟨"x", by decide⟩) nofun (fun _ => rfl) (.blank (c := ' ') (by decide)
      (.symbol (c := '+') rfl (.blank (c := ' ') (by decide) .done)))
  have hbehind : source.toList.drop 4 = '1' :: ".2.3 * 4y".toList := by decide
  have hfrontText : source.toList.take 4 = "x + ".toList := by decide
  have herror : scan source = .error ⟨.malformedNumber "1.2.3", 4⟩ := by
    rw [scan, ← List.take_append_drop 4 source.toList, hfrontText, hbehind, (hcut _).scanFrom_eq,
      scanFrom_cons]
    rfl
  obtain ⟨before, c, cs, after, behind, found', hdrop, -, hrun, -, -, hany, hfront, -, htoken⟩ :=
    scan_error_first_malformed_run source _ herror
  -- The first character behind the front tells the run from the token.
  obtain rfl : '1' = c := (List.cons.inj (hbehind.symm.trans hdrop)).1
  have hcs : '1' :: cs = "1.2.3".toList := by
    have hdigit : isDigit '1' = true := by decide
    rw [SyntaxFault.token?, hdigit, Bool.true_or, if_pos rfl, Option.some.injEq] at htoken
    rw [htoken, String.toList_ofList]
  rw [hfrontText, String.ofList_toList] at hfront
  have hfound : found' = found := by
    have hscan : scan "x + " = .ok (found ++ [⟨.endOfInput, 4⟩]) := by
      rw [scan, ← List.append_nil "x + ".toList, (hcut []).scanFrom_eq, scanFrom_nil]
      rfl
    exact List.append_cancel_right (Except.ok.inj (hfront.symm.trans hscan))
  rw [hfound] at hany hfront
  rw [hfrontText] at hany
  exact ⟨herror, hcs ▸ hrun.not_isNumeralOrName, hany, hfront⟩

end Token

end SumProduct
