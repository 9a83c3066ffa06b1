import SumProduct.Expr.Simplification
import SumProduct.Journal.Basic
import SumProduct.Request

/-!
# Requests that leave traces

Reading, simplifying and batch evaluation with what they tell the journal: reading traces its
outcome, simplification warns about operations that overflow, and batch evaluation about results
that are not finite.

## Main definitions

* `SumProduct.Journal.parse`, `SumProduct.Journal.readSource`, `SumProduct.Journal.simplify`,
  `SumProduct.Journal.evaluateBatch` — the requests with their traces.
* `SumProduct.Journal.Step`, `SumProduct.Journal.step` — what can be asked of a journal.
-/

namespace SumProduct

namespace Journal

/-- The trace of reading a text. -/
def parseTrace (source : String) (outcome : Except ParserFault (Expr Binary64)) (tokens : Nat) :
    String :=
  match outcome with
  | .ok _ => "Parsed " ++ quoted source ++ " into " ++ naturalText (tokens - 1) ++ " tokens"
  | .error fault => "Rejected expression " ++ quoted source ++ ": " ++ fault.message

/-- Reads a value as a text and traces the outcome. What is no text leaves no trace. -/
def parse (j : Journal) (text : Value) :
    Journal × List Delivery × Except Failure (Expr Binary64) :=
  match text with
  | .text s =>
    let (parser, outcome) := (Parser.new s NestingLimit.standard).parse
    let (j, deliveries) :=
      if j.currentLevel.allows .verbose then
        j.debug (parseTrace s outcome parser.tokens.length)
      else (j.opened, [])
    (j, deliveries, outcome.mapError .parser)
  | v => (j, [], .error (.notText v.kindName))

/-- Reads a source. -/
def readSource (j : Journal) : Source → Journal × List Delivery × Except Failure (Expr Binary64)
  | .text v => j.parse v
  | .steps instructions =>
    (j, [], (Instruction.build instructions).mapError .construction)

/-- Simplifies an expression and warns about operations that overflow. -/
def simplify (j : Journal) (e : Expr Binary64) (env : Environment) :
    Journal × List Delivery × Except Failure (Expr Binary64) :=
  let (j, deliveries) := j.warnings (e.simplifyWarnings env)
  (j, deliveries, (e.simplify env).mapError .conversion)

/-- Evaluates an expression over data and warns about a result that is not finite. -/
def evaluateBatch (j : Journal) (e : Expr Binary64) (data : Environment) :
    Journal × List Delivery × Except Failure (List Binary64) :=
  let (j, deliveries) := j.warnings (e.batchWarnings data)
  (j, deliveries, (e.evaluateBatch data).mapError .batch)

/-! ## Steps -/

/-- What can be asked of a journal. -/
inductive Step where
  /-- To set the journal up anew. -/
  | configure (level : Level) (file : Option LogFile)
  /-- To change the level. -/
  | setLevel (level : Level)
  /-- To show the level. -/
  | getLevel
  /-- To tell whether what requires a level is passed on. -/
  | enabled (level : Level)
  /-- To pass information on. -/
  | info (level : Level) (text : String)
  /-- To pass a warning on. -/
  | warning (text : String)
  /-- To pass a trace on. -/
  | debug (text : String)
  /-- To drop all handlers. -/
  | close
  /-- To read a text. -/
  | parse (text : Value)
  /-- To simplify an expression. -/
  | simplify (e : Source) (env : Environment)
  /-- To evaluate an expression. -/
  | evaluate (e : Source) (env : Environment)
  /-- To evaluate an expression over data. -/
  | evaluateBatch (e : Source) (data : Environment)

/-- What a journal answers. -/
inductive Answer where
  /-- The step was done. -/
  | done
  /-- A level. -/
  | level (l : Level)
  /-- A truth value. -/
  | truth (b : Bool)
  /-- An expression. -/
  | expression (e : Expr Binary64)
  /-- A number. -/
  | number (x : Binary64)
  /-- A column of numbers. -/
  | numbers (xs : List Binary64)
  /-- A failure. -/
  | failed (f : Failure)

/-- An outcome as an answer. -/
def Answer.ofOutcome {β : Type} (f : β → Answer) : Except Failure β → Answer
  | .ok b => f b
  | .error fault => failed fault

/-- Reads a source and goes on with its expression. -/
def withSource (j : Journal) (source : Source)
    (next : Journal → Expr Binary64 → Journal × List Delivery × Answer) :
    Journal × List Delivery × Answer :=
  match j.readSource source with
  | (j, deliveries, .error fault) => (j, deliveries, .failed fault)
  | (j, deliveries, .ok e) =>
    let (j, more, answer) := next j e
    (j, deliveries ++ more, answer)

/-- One step of a journal. -/
def step (j : Journal) : Step → Journal × List Delivery × Answer
  | .configure level file => (j.configure level file, [], .level level)
  | .setLevel level => (j.setLevel level, [], .done)
  | .getLevel => (j.opened, [], .level j.currentLevel)
  | .enabled level => (j.opened, [], .truth (j.currentLevel.allows level))
  | .info level text => ((j.info level text).1, (j.info level text).2, .done)
  | .warning text => ((j.warning text).1, (j.warning text).2, .done)
  | .debug text => ((j.debug text).1, (j.debug text).2, .done)
  | .close => (j.close, [], .done)
  | .parse text =>
    let (j, deliveries, outcome) := j.parse text
    (j, deliveries, .ofOutcome .expression outcome)
  | .simplify source env =>
    j.withSource source fun j e =>
      let (j, deliveries, outcome) := j.simplify e env
      (j, deliveries, .ofOutcome .expression outcome)
  | .evaluate source env =>
    j.withSource source fun j e =>
      (j, [], .ofOutcome .number ((e.evaluate env).mapError .evaluation))
  | .evaluateBatch source data =>
    j.withSource source fun j e =>
      let (j, deliveries, outcome) := j.evaluateBatch e data
      (j, deliveries, .ofOutcome .numbers outcome)

/-- The journal after each of several steps, with what the step delivers and answers. -/
def run (j : Journal) : List Step → List (Journal × List Delivery × Answer)
  | [] => []
  | s :: rest => j.step s :: run (j.step s).1 rest

end Journal

end SumProduct
