import Mathlib.Tactic.Common
import SumProduct.Journal.Basic

/-!
# Where warnings arrive

A journal whose level passes warnings on delivers each of them at each of its handlers, in order,
and bare on the console if it has none. So no warning is lost.

## Main results

* `SumProduct.Journal.snd_warnings` — what is delivered of several warnings.
* `SumProduct.Journal.snd_warnings_ne_nil_iff` — something is delivered when there is a warning.
-/

namespace SumProduct

namespace Journal

/-- Setting a journal up with a level gives it this level. -/
lemma level_setUp (j : Journal) (level : Level) (file : Option LogFile) :
    (j.setUp level file).level = some level := by
  rcases file with _ | f <;> by_cases hlevel : level = .silent <;>
    simp [setUp, detachAll, attach, hlevel]

/-- A journal in use is not set up again. -/
@[simp] lemma opened_opened (j : Journal) : j.opened.opened = j.opened := by
  have hlevel : ∃ level, j.opened.level = some level := by
    cases h : j.level with
    | none => exact ⟨.minimal, by rw [opened, h, level_setUp]⟩
    | some level => exact ⟨level, by rw [opened, h, h]⟩
  obtain ⟨level, hlevel⟩ := hlevel
  rw [opened.eq_def j.opened, hlevel]

/-- Using a journal does not change its level. -/
@[simp] lemma currentLevel_opened (j : Journal) : j.opened.currentLevel = j.currentLevel := by
  rw [currentLevel, opened_opened, ← currentLevel]

/-- A warning arrives somewhere, whatever the handlers are. -/
lemma deliver_warning_ne_nil (handlers : List Handler) (text : String) :
    deliver handlers ⟨.warning, text⟩ ≠ [] := by
  by_cases hhandlers : handlers = [] <;> simp [deliver, hhandlers]

/-- A journal whose level passes warnings on delivers them one after the other, each as a message of
its own. -/
theorem snd_warnings {j : Journal} (hlevel : j.currentLevel.allows .minimal = true)
    (texts : List String) :
    (j.warnings texts).2 =
      texts.flatMap fun text => deliver j.opened.handlers ⟨.warning, text⟩ := by
  induction texts generalizing j with
  | nil => rfl
  | cons text rest ih =>
    have hrest : j.opened.currentLevel.allows .minimal = true := by rwa [currentLevel_opened]
    have hothers := ih hrest
    rw [opened_opened] at hothers
    simp only [warnings, warning, record, if_pos hlevel, List.flatMap_cons, hothers]

/-- Something is delivered exactly if there is a warning. -/
theorem snd_warnings_ne_nil_iff {j : Journal} (hlevel : j.currentLevel.allows .minimal = true)
    (texts : List String) : (j.warnings texts).2 ≠ [] ↔ texts ≠ [] := by
  rw [snd_warnings hlevel]
  cases texts with
  | nil => simp
  | cons text rest =>
    simp only [List.flatMap_cons, ne_eq, List.append_eq_nil_iff, deliver_warning_ne_nil, false_and,
      not_false_eq_true, reduceCtorEq]

end Journal

end SumProduct
