import Mathlib.Data.List.DropRight
import Mathlib.Data.List.Induction
import Mathlib.Data.List.Infix
import SumProduct.Journal.Tracing
import SumProduct.Proofs.Journal.Delivery

/-!
# What a journal has been through

A journal is set up by its first use, and again each time it is configured; its level may be changed
and its handlers dropped at any time in between. However these calls follow one another, the
handlers are those of the last setup, or none once they have been dropped, and the level is the one
that was given last. So handlers never add up, and a message arrives at each of them once.

## Main definitions

* `SumProduct.Journal.Setup` — what a journal is set up with, and the handlers of that.
* `SumProduct.Journal.setups`, `SumProduct.Journal.dropped` — the setups in the course of several
  steps, and whether the last handlers have been dropped.
* `SumProduct.Journal.attached`, `SumProduct.Journal.given` — the handlers and the level that these
  steps ask for.
* `SumProduct.Journal.received`, `SumProduct.Journal.due` — the messages that arrive at a handler,
  and those that should.

## Main results

* `SumProduct.Journal.step_of_level_eq_none`, `SumProduct.Journal.step_of_level_eq_some` — what one
  call does to a journal.
* `SumProduct.Journal.Follows.step` — each call keeps handlers and level as they are asked for.
* `SumProduct.Journal.run_delivers_once` — so do all calls, and each message arrives once.

## Implementation notes

Handlers belong to the journal and not to the setup that attached them, so dropping them leaves
none, whichever setup it is asked of.
-/

namespace SumProduct

/-- The message of a delivery at a handler. -/
def Delivery.messageAt? (k : Handler) : Delivery → Option Message
  | .at handler message => if handler = k then some message else none
  | .bare _ => none

namespace Journal

/-! ## Setups -/

/-- What a journal is set up with. -/
structure Setup where
  /-- The level. -/
  level : Level
  /-- The log file, if there is one. -/
  file : Option LogFile
  deriving DecidableEq

/-- The handlers of a setup: the console unless the level is silent, then the log file. -/
def Setup.handlers (s : Setup) : List Handler :=
  (if s.level = .silent then [] else [.console]) ++ (s.file.map Handler.file).toList

namespace Step

/-- The steps that are calls to the journal itself, for its settings or for a message. -/
def isCall : Step → Bool
  | configure _ _ => true
  | setLevel _ => true
  | getLevel => true
  | enabled _ => true
  | info _ _ => true
  | warning _ => true
  | debug _ => true
  | close => true
  | parse _ => false
  | simplify _ _ => false
  | evaluate _ _ => false
  | evaluateBatch _ _ => false

/-- Whether a step drops the handlers. -/
def isClose : Step → Bool
  | close => true
  | _ => false

/-- The setup that a step asks for. -/
def setup? : Step → Option Setup
  | configure level file => some ⟨level, file⟩
  | _ => none

/-- What a step sets a journal up with that has not been used. -/
def firstSetup : Step → Setup
  | configure level file => ⟨level, file⟩
  | setLevel level => ⟨level, none⟩
  | _ => ⟨.minimal, none⟩

/-- The level that a step gives. -/
def level? : Step → Option Level
  | configure level _ => some level
  | setLevel level => some level
  | _ => none

/-- The message of a step, with the level that it requires. -/
def message? : Step → Option (Level × Message)
  | info level text => some (level, ⟨.info, text⟩)
  | warning text => some (.minimal, ⟨.warning, text⟩)
  | debug text => some (.verbose, ⟨.debug, "DEBUG: " ++ text⟩)
  | _ => none

end Step

/-- The setups in the course of several calls: the first call sets the journal up, whatever it is,
and after it each call that asks for a setup. -/
def setups : List Step → List Setup
  | [] => []
  | s :: rest => s.firstSetup :: rest.filterMap Step.setup?

/-- Whether the handlers have been dropped and not been set up again. -/
def dropped (steps : List Step) : Bool :=
  (steps.rtakeWhile fun s => s.setup?.isNone).any Step.isClose

/-- The handlers after several calls: those of the last setup, unless they have been dropped. -/
def attached (steps : List Step) : List Handler :=
  if dropped steps then [] else ((setups steps).getLast?.map Setup.handlers).getD []

/-- The level after several calls: the last one that was given. -/
def given (steps : List Step) : Level := (steps.filterMap Step.level?).getLast?.getD .minimal

/-- The journal after several steps. -/
def after (j : Journal) (steps : List Step) : Journal := steps.foldl (fun j s => (j.step s).1) j

/-! ## Messages at a handler -/

/-- The messages that arrive at a handler in a run. -/
def received (k : Handler) (results : List (Journal × List Delivery × Answer)) : List Message :=
  results.flatMap fun r => r.2.1.filterMap (Delivery.messageAt? k)

/-- The message that the last of several calls should bring to a handler: its own, if the level is
at least the one that the message requires and the handler is attached. -/
def due (k : Handler) (steps : List Step) : Option Message :=
  (steps.getLast?.bind Step.message?).bind fun m =>
    if (given steps).allows m.1 ∧ k ∈ attached steps then some m.2 else none

variable {j : Journal} {s : Step} {steps : List Step} {k : Handler}

/-! ## What is asked for -/

/-- A setup has no handler twice. -/
lemma Setup.nodup_handlers (setup : Setup) : setup.handlers.Nodup := by
  rcases setup with ⟨level, _ | f⟩ <;> by_cases hlevel : level = .silent <;>
    simp [Setup.handlers, hlevel]

/-- No handler is attached twice. -/
lemma nodup_attached (steps : List Step) : (attached steps).Nodup := by
  rw [attached]
  split_ifs
  · exact List.nodup_nil
  · cases (setups steps).getLast? with
    | none => exact List.nodup_nil
    | some setup => exact setup.nodup_handlers

/-- The handlers after the first call. -/
lemma attached_singleton (s : Step) :
    attached [s] = if s.isClose then [] else s.firstSetup.handlers := by
  cases s <;> rfl

/-- The handlers after one more call. -/
lemma attached_concat (hsteps : steps ≠ []) (s : Step) :
    attached (steps ++ [s]) =
      if s.isClose then [] else (s.setup?.map Setup.handlers).getD (attached steps) := by
  obtain ⟨first, rest, rfl⟩ := List.exists_cons_of_ne_nil hsteps
  have hsetups : setups (first :: rest ++ [s]) = setups (first :: rest) ++ s.setup?.toList := by
    cases h : s.setup? <;> simp [setups, h]
  rw [attached, attached, hsetups, dropped, List.rtakeWhile_concat]
  cases s <;> simp [Step.setup?, Step.isClose, dropped]

/-- The level after one more call. -/
lemma given_concat (steps : List Step) (s : Step) :
    given (steps ++ [s]) = s.level?.getD (given steps) := by
  cases h : s.level? <;> simp [given, h]

/-! ## What a call does -/

/-- The handlers that a journal is set up with. -/
lemma handlers_setUp (j : Journal) (level : Level) (file : Option LogFile) :
    (j.setUp level file).handlers = (Setup.mk level file).handlers := by
  rcases file with _ | f <;> by_cases hlevel : level = .silent <;>
    simp [setUp, detachAll, attach, Setup.handlers, hlevel]

/-- The first call sets a journal up, and drops the handlers again if it is asked to. -/
lemma step_of_level_eq_none (hj : j.level = none) (hs : s.isCall) :
    (j.step s).1.level = some s.firstSetup.level ∧
      (j.step s).1.handlers = if s.isClose then [] else s.firstSetup.handlers := by
  cases s with
  | parse | simplify | evaluate | evaluateBatch => cases hs
  | configure | setLevel | getLevel | enabled | info | warning | debug | close =>
    simp [step, configure, setLevel, info, warning, debug, record, close, opened, hj, detachAll,
      level_setUp, handlers_setUp, Step.firstSetup, Step.isClose]

/-- A further call changes the level if it gives one, and the handlers if it drops them or asks for
a setup. -/
lemma step_of_level_eq_some {level : Level} (hj : j.level = some level) (hs : s.isCall) :
    (j.step s).1.level = some (s.level?.getD level) ∧
      (j.step s).1.handlers =
        if s.isClose then [] else (s.setup?.map Setup.handlers).getD j.handlers := by
  cases s with
  | parse | simplify | evaluate | evaluateBatch => cases hs
  | configure | setLevel | getLevel | enabled | info | warning | debug | close =>
    simp [step, configure, setLevel, info, warning, debug, record, close, opened, hj, detachAll,
      level_setUp, handlers_setUp, Step.level?, Step.setup?, Step.isClose]

/-- A call with a message passes it on if the level allows it. -/
lemma step_of_message? {required : Level} {message : Message}
    (h : s.message? = some (required, message)) :
    j.step s = (j.opened,
      if j.currentLevel.allows required then deliver j.opened.handlers message else [], .done) := by
  cases s <;> cases h <;> rfl

/-- Any other call passes nothing on. -/
lemma deliveries_of_message?_eq_none (hs : s.isCall) (h : s.message? = none) :
    (j.step s).2.1 = [] := by
  cases s with
  | parse | simplify | evaluate | evaluateBatch => cases hs
  | info | warning | debug => cases h
  | configure | setLevel | getLevel | enabled | close => rfl

/-- A message that is passed on arrives once at each handler. -/
lemma filterMap_deliver {handlers : List Handler} (hhandlers : handlers.Nodup) (message : Message)
    (k : Handler) :
    (deliver handlers message).filterMap (Delivery.messageAt? k) =
      if k ∈ handlers then [message] else [] := by
  have hat : (handlers.map (Delivery.at · message)).filterMap (Delivery.messageAt? k) =
      if k ∈ handlers then [message] else [] := by
    induction handlers with
    | nil => rfl
    | cons h rest ih =>
      obtain ⟨hfirst, hrest⟩ := List.nodup_cons.mp hhandlers
      rw [List.map_cons, List.filterMap_cons, ih hrest]
      by_cases hk : h = k
      · subst hk
        simp [Delivery.messageAt?, hfirst]
      · simp [Delivery.messageAt?, hk, Ne.symm hk]
  by_cases hnil : handlers = []
  · subst hnil
    by_cases hwarning : message.severity = .warning <;>
      simp [deliver, hwarning, Delivery.messageAt?]
  · rwa [deliver, if_neg hnil]

/-! ## All calls -/

/-- A journal has the level and the handlers that several calls ask for. -/
structure Follows (steps : List Step) (j : Journal) : Prop where
  /-- There is a level from the first call on. -/
  level_eq : j.level = if steps = [] then none else some (given steps)
  /-- The handlers are those that are asked for. -/
  handlers_eq : j.handlers = attached steps

/-- A journal that has not been used follows no calls. -/
lemma follows_unused : Follows [] unused := ⟨rfl, rfl⟩

/-- **Each call keeps a journal to what is asked for.** -/
theorem Follows.step (h : Follows steps j) (hs : s.isCall) :
    Follows (steps ++ [s]) (j.step s).1 := by
  have hnonempty : steps ++ [s] ≠ [] := List.concat_ne_nil s steps
  by_cases hsteps : steps = []
  · subst hsteps
    obtain ⟨hlevel, hhandlers⟩ := step_of_level_eq_none h.level_eq hs
    refine ⟨?_, hhandlers.trans (attached_singleton s).symm⟩
    rw [if_neg hnonempty, hlevel]
    cases s <;> rfl
  · have hused := h.level_eq
    rw [if_neg hsteps] at hused
    obtain ⟨hlevel, hhandlers⟩ := step_of_level_eq_some hused hs
    refine ⟨?_, ?_⟩
    · rw [if_neg hnonempty, hlevel, given_concat]
    · rw [hhandlers, attached_concat hsteps, h.handlers_eq]

/-- The level of a journal that follows calls. -/
lemma Follows.currentLevel_eq (h : Follows steps j) : j.currentLevel = given steps := by
  by_cases hsteps : steps = []
  · subst hsteps
    rw [currentLevel, opened, h.level_eq, if_pos rfl, level_setUp]
    rfl
  · have hlevel := h.level_eq
    rw [if_neg hsteps] at hlevel
    rw [currentLevel, opened, hlevel, hlevel, Option.getD_some]

/-- **Each call brings to a handler what is due there, once.** -/
lemma Follows.filterMap_step (h : Follows steps j) (hs : s.isCall) (k : Handler) :
    (j.step s).2.1.filterMap (Delivery.messageAt? k) = (due k (steps ++ [s])).toList := by
  have hnext := h.step hs
  rw [due, List.getLast?_concat, Option.bind_some]
  cases hmessage : s.message? with
  | none => rw [deliveries_of_message?_eq_none hs hmessage]; rfl
  | some m =>
    rw [step_of_message? hmessage] at hnext ⊢
    have hlevel := hnext.currentLevel_eq
    rw [currentLevel_opened] at hlevel
    have hdeliver := filterMap_deliver (nodup_attached (steps ++ [s])) m.2 k
    rw [← hnext.handlers_eq] at hdeliver
    by_cases hallows : (given (steps ++ [s])).allows m.1 = true
    · simp only [hlevel, hallows, if_true, hdeliver, ← hnext.handlers_eq, true_and,
        Option.bind_some]
      split_ifs <;> rfl
    · simp [hlevel, hallows]

/-- The journal after one more step. -/
lemma after_concat (j : Journal) (steps : List Step) (s : Step) :
    j.after (steps ++ [s]) = ((j.after steps).step s).1 :=
  List.foldl_concat _ _ _ _

/-- A run over one more step ends with this step of the journal after the others. -/
lemma run_concat (j : Journal) (steps : List Step) (s : Step) :
    j.run (steps ++ [s]) = j.run steps ++ [(j.after steps).step s] := by
  induction steps generalizing j with
  | nil => rfl
  | cons t steps ih =>
    rw [List.cons_append, run, ih, run]
    rfl

/-- After any calls a journal has the handlers and the level that they ask for. -/
lemma follows_after (hcalls : ∀ s ∈ steps, s.isCall) : Follows steps (unused.after steps) := by
  induction steps using List.reverseRecOn with
  | nil => exact follows_unused
  | append_singleton steps s ih =>
    rw [after_concat]
    exact (ih fun t ht => hcalls t (List.mem_append_left [s] ht)).step (hcalls s (by simp))

/-- **A journal never has other handlers than those of its last setup, and each message arrives at
each of them once.** Whatever calls are made, from the first use on, the handlers are those that the
last setup asked for, none of them twice, or none at all if they have been dropped since; the level
is the one that was given last, or the default. The messages that arrive at a handler are, in the
order of the calls, those of the calls at which the handler was attached and the level was at least
the one that the message requires.

**Proof sketch.** Induction on the calls, with the last one set apart (`Follows.step`,
`Follows.filterMap_step`). -/
theorem run_delivers_once {steps : List Step} (hcalls : ∀ s ∈ steps, s.isCall) :
    let j := unused.after steps
    j.handlers = attached steps ∧ j.handlers.Nodup ∧ j.currentLevel = given steps ∧
      ∀ k, received k (unused.run steps) = steps.inits.filterMap (due k) := by
  intro j
  have hfollows : Follows steps j := follows_after hcalls
  refine ⟨hfollows.handlers_eq, hfollows.handlers_eq ▸ nodup_attached steps,
    hfollows.currentLevel_eq, fun k => ?_⟩
  clear hfollows
  induction steps using List.reverseRecOn with
  | nil => rfl
  | append_singleton steps s ih =>
    have hbefore : ∀ t ∈ steps, t.isCall := fun t ht => hcalls t (List.mem_append_left [s] ht)
    have hlast := (follows_after hbefore).filterMap_step (hcalls s (by simp)) k
    have hearlier := ih hbefore
    rw [received] at hearlier ⊢
    rw [run_concat, List.flatMap_append, hearlier, List.flatMap_singleton, hlast,
      List.inits_append, List.filterMap_append]
    cases hdue : due k (steps ++ [s]) <;> simp [hdue]

/-- A journal that is first used by a warning, then configured with a file, set to another level,
closed, and configured again without the console. -/
theorem run_delivers_once_reconfigured :
    let steps : List Step := [.warning "a", .configure .verbose (some .named), .debug "b",
      .setLevel .minimal, .debug "c", .close, .warning "d",
      .configure .silent (some .stamped), .info .silent "e"]
    (∀ s ∈ steps, s.isCall) ∧ (unused.after steps).handlers = [.file .stamped] ∧
      received .console (unused.run steps) = [⟨.warning, "a"⟩, ⟨.debug, "DEBUG: b"⟩] ∧
      received (.file .named) (unused.run steps) = [⟨.debug, "DEBUG: b"⟩] ∧
      received (.file .stamped) (unused.run steps) = [⟨.info, "e"⟩] := by
  intro steps
  have hcalls : ∀ s ∈ steps, s.isCall := by decide
  obtain ⟨hhandlers, -, -, hreceived⟩ := run_delivers_once hcalls
  exact ⟨hcalls, hhandlers.trans (by decide), (hreceived _).trans (by decide),
    (hreceived _).trans (by decide), (hreceived _).trans (by decide)⟩

end Journal

end SumProduct
