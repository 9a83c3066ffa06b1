import SumProduct.Proofs.Journal.History

/-!
# Changing the level and setting up anew

The level of a journal may be changed, and the journal may be set up anew with this level. Both let
the same messages pass, but only a setup attaches handlers, and it attaches the console unless its
level is silent. So what arrives at the console after the level is changed depends on the level of
the last setup: the console hears what it would hear after a new setup exactly if both levels are
silent or neither is.

## Main definitions

* `SumProduct.Journal.passed` — the messages that a level lets pass.
* `SumProduct.Journal.setUpLevel` — the level that a journal is set up with when another is given.

## Main results

* `SumProduct.Journal.received_run` — what arrives at a handler while the journal stays as it is.
* `SumProduct.Journal.setLevel_reaches_console_iff` — the console after a change of the level.
* `SumProduct.Journal.setLevel_reaches_console_raised` — a silent journal that stays unheard.
-/

namespace SumProduct

namespace Journal

/-- The messages among several steps that a level lets pass. -/
def passed (level : Level) (messages : List Step) : List Message :=
  messages.filterMap fun s =>
    s.message?.bind fun m => if level.allows m.1 then some m.2 else none

/-- The level of the last setup behind several calls when a level is given: the last one among
these, or the level itself, which sets up a journal that has not been used. -/
def setUpLevel (steps : List Step) (level : Level) : Level :=
  ((setups steps).getLast?.map Setup.level).getD level

variable {j : Journal} {steps messages : List Step} {level : Level} {k : Handler}

/-! ## Messages to a journal in use -/

/-- A level lets everything pass that requires none. -/
lemma allows_silent (level : Level) : level.allows .silent = true := by
  cases level <;> rfl

/-- A step with a message leaves a journal in use as it is. -/
lemma step_fst_of_message? {s : Step} (hlevel : j.level = some level) (hs : s.message?.isSome) :
    (j.step s).1 = j := by
  obtain ⟨m, hm⟩ := Option.isSome_iff_exists.mp hs
  rw [step_of_message? hm, opened, hlevel]

/-- What arrives at a handler of a journal in use: if it is attached, what the level lets pass. -/
lemma received_run (hlevel : j.level = some level) (hnodup : j.handlers.Nodup)
    (hmessages : ∀ s ∈ messages, s.message?.isSome) (k : Handler) :
    received k (j.run messages) = if k ∈ j.handlers then passed level messages else [] := by
  induction messages with
  | nil => simp [run, received, passed]
  | cons s rest ih =>
    have hs := hmessages s List.mem_cons_self
    have hrest := ih fun t ht => hmessages t (List.mem_cons_of_mem s ht)
    obtain ⟨m, hm⟩ := Option.isSome_iff_exists.mp hs
    have hopened : j.opened = j := by rw [opened, hlevel]
    have hcurrent : j.currentLevel = level := by rw [currentLevel, hopened, hlevel]; rfl
    have hfirst : (j.step s).2.1.filterMap (Delivery.messageAt? k) =
        if k ∈ j.handlers then passed level [s] else [] := by
      rw [step_of_message? hm, hopened, hcurrent]
      by_cases hallows : level.allows m.1 = true
      · simp [hallows, filterMap_deliver hnodup, passed, hm]
      · simp [hallows, passed, hm]
    rw [received] at hrest ⊢
    rw [run, List.flatMap_cons, step_fst_of_message? hlevel hs, hrest, hfirst]
    split_ifs
    · exact List.filterMap_append.symm
    · rfl

/-! ## The console -/

/-- The console is a handler of the setups whose level is not silent. -/
lemma Setup.console_mem_handlers_iff {setup : Setup} :
    .console ∈ setup.handlers ↔ setup.level ≠ .silent := by
  rcases setup with ⟨level, _ | f⟩ <;> by_cases hlevel : level = .silent <;>
    simp [handlers, hlevel]

/-- While nothing is closed, the handlers are those of the last setup. -/
lemma attached_of_not_isClose (hopen : ∀ s ∈ steps, s.isClose = false) :
    attached steps = ((setups steps).getLast?.map Setup.handlers).getD [] := by
  have hdropped : dropped steps = false := by
    rw [dropped, List.any_eq_false]
    intro s hs
    simp [hopen s ((List.rtakeWhile_suffix _ _).mem hs)]
  rw [attached, hdropped]
  rfl

/-- After the level is changed, the console is attached unless the last setup was silent. -/
lemma console_mem_attached_setLevel (hopen : ∀ s ∈ steps, s.isClose = false) (level : Level) :
    .console ∈ attached (steps ++ [.setLevel level]) ↔ setUpLevel steps level ≠ .silent := by
  by_cases hsteps : steps = []
  · subst hsteps
    exact Setup.console_mem_handlers_iff
  · obtain ⟨first, rest, rfl⟩ := List.exists_cons_of_ne_nil hsteps
    rw [attached_concat hsteps]
    change .console ∈ attached (first :: rest) ↔ _
    rw [attached_of_not_isClose hopen, setUpLevel]
    cases hlast : (setups (first :: rest)).getLast? with
    | none => simp [setups] at hlast
    | some setup => exact Setup.console_mem_handlers_iff

/-- After a setup, the console is attached unless the setup is silent. -/
lemma console_mem_attached_configure (steps : List Step) (level : Level) (file : Option LogFile) :
    .console ∈ attached (steps ++ [.configure level file]) ↔ level ≠ .silent := by
  by_cases hsteps : steps = []
  · subst hsteps
    exact Setup.console_mem_handlers_iff
  · rw [attached_concat hsteps]
    exact Setup.console_mem_handlers_iff

/-- What arrives at the console behind calls of which the last one gives the level. -/
lemma received_console_after {s : Step} (hcalls : ∀ t ∈ steps, t.isCall) (hs : s.isCall)
    (hlevel : s.level? = some level) (hmessages : ∀ t ∈ messages, t.message?.isSome) :
    received .console ((unused.after (steps ++ [s])).run messages) =
      if .console ∈ attached (steps ++ [s]) then passed level messages else [] := by
  have hfollows : Follows (steps ++ [s]) (unused.after (steps ++ [s])) := by
    rw [after_concat]
    exact (follows_after hcalls).step hs
  have hgiven : (unused.after (steps ++ [s])).level = some level := by
    rw [hfollows.level_eq, if_neg (List.concat_ne_nil s steps), given_concat, hlevel,
      Option.getD_some]
  rw [received_run hgiven (hfollows.handlers_eq ▸ nodup_attached _) hmessages,
    hfollows.handlers_eq]

/-- **What reaches the console after a change of the level.** Behind any calls that close nothing,
let the level be changed, or the journal be set up anew with that level. Both times the level lets
the same messages pass; they arrive at the console after the change unless the last setup before it
was silent (where a change of the level that is the first call counts as a setup), and after the new
setup unless that is silent. So the console hears the same messages both times exactly if both
setups are silent or neither is.

**Proof sketch.** Messages leave a journal in use as it is (`received_run`), so that the handlers
decide. A message that requires no level passes always and tells the two journals apart if the
console is attached to only one of them. -/
theorem setLevel_reaches_console_iff {steps : List Step} (hcalls : ∀ s ∈ steps, s.isCall)
    (hopen : ∀ s ∈ steps, s.isClose = false) (level : Level) (file : Option LogFile) :
    let changed := unused.after (steps ++ [.setLevel level])
    let configured := unused.after (steps ++ [.configure level file])
    (∀ messages : List Step, (∀ s ∈ messages, s.message?.isSome) →
      received .console (changed.run messages) =
        (if setUpLevel steps level = .silent then [] else passed level messages) ∧
      received .console (configured.run messages) =
        (if level = .silent then [] else passed level messages)) ∧
    ((∀ messages : List Step, (∀ s ∈ messages, s.message?.isSome) →
      received .console (changed.run messages) = received .console (configured.run messages)) ↔
        (setUpLevel steps level = .silent ↔ level = .silent)) := by
  intro changed configured
  have hreceived (messages : List Step) (hmessages : ∀ s ∈ messages, s.message?.isSome) :
      received .console (changed.run messages) =
          (if setUpLevel steps level = .silent then [] else passed level messages) ∧
        received .console (configured.run messages) =
          (if level = .silent then [] else passed level messages) := by
    have hchanged : received .console (changed.run messages) = _ :=
      received_console_after hcalls rfl rfl hmessages
    have hconfigured : received .console (configured.run messages) = _ :=
      received_console_after hcalls rfl rfl hmessages
    simp only [hchanged, hconfigured, console_mem_attached_setLevel hopen,
      console_mem_attached_configure, ne_eq, ite_not, and_self]
  refine ⟨hreceived, fun hsame => ?_, fun hsilent messages hmessages => ?_⟩
  · -- A message that requires no level tells an attached console from one that is not.
    have hprobe : ∀ s ∈ [Step.info .silent ""], s.message?.isSome := by decide
    have hpassed : passed level [.info .silent ""] = [⟨.info, ""⟩] := by
      simp [passed, Step.message?, allows_silent]
    have hequal := hsame _ hprobe
    obtain ⟨hchanged, hconfigured⟩ := hreceived _ hprobe
    rw [hchanged, hconfigured, hpassed] at hequal
    by_cases hsetup : setUpLevel steps level = .silent <;> by_cases hlevel : level = .silent <;>
      simp_all
  · obtain ⟨hchanged, hconfigured⟩ := hreceived messages hmessages
    simp only [hchanged, hconfigured, hsilent]

/-- A journal that is set up with its defaults and then made silent is heard again when its level is
raised, as it would be after a new setup. -/
theorem setLevel_reaches_console_iff_lowered :
    let steps : List Step := [.getLevel, .setLevel .silent]
    (∀ s ∈ steps, s.isCall) ∧ (∀ s ∈ steps, s.isClose = false) ∧
      received .console ((unused.after (steps ++ [.setLevel .verbose])).run [.debug "m"]) =
        [⟨.debug, "DEBUG: m"⟩] ∧
      received .console ((unused.after (steps ++ [.setLevel .verbose])).run [.debug "m"]) =
        received .console
          ((unused.after (steps ++ [.configure .verbose none])).run [.debug "m"]) := by
  intro steps
  have hcalls : ∀ s ∈ steps, s.isCall := by decide
  have hopen : ∀ s ∈ steps, s.isClose = false := by decide
  have hmessages : ∀ s ∈ [Step.debug "m"], s.message?.isSome := by decide
  obtain ⟨hreceived, hsame⟩ := setLevel_reaches_console_iff hcalls hopen .verbose none
  exact ⟨hcalls, hopen, (hreceived _ hmessages).1.trans (by decide),
    hsame.mpr (by decide) _ hmessages⟩

/-- **A journal that is set up silent stays unheard.** When its level is raised, no information
reaches the console, while it does after a new setup with the same level. -/
theorem setLevel_reaches_console_raised :
    received .console ((unused.after [.configure .silent none, .setLevel .verbose]).run
        [.info .moderate "m"]) = [] ∧
      received .console ((unused.after [.configure .silent none, .configure .verbose none]).run
        [.info .moderate "m"]) = [⟨.info, "m"⟩] := by
  decide

end Journal

end SumProduct
