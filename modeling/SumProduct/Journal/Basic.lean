/-!
# The journal

The journal passes messages on to its handlers: the console and a log file. Every message has a
level that it requires, and it is passed on when the level of the journal is at least that. The
journal comes into being with its first use.

## Main definitions

* `SumProduct.Level`, `SumProduct.Severity` — how much is passed on, and what kind of message it is.
* `SumProduct.Journal` — the level, the attached handlers and the log files so far.
* `SumProduct.Journal.configure`, `SumProduct.Journal.setLevel`, `SumProduct.Journal.close` — its
  settings.
* `SumProduct.Journal.record` — passing a message on.
* `SumProduct.Delivery` — a message at a handler.

## Implementation notes

Handlers are attached when the journal is set up; setting it up again detaches the old ones first.
Changing the level leaves the handlers alone. Without any handler a warning still goes to the
console, as bare text.
-/

namespace SumProduct

/-- How much a journal passes on. -/
inductive Level where
  /-- Nothing but what requires no level. -/
  | silent
  /-- Warnings. -/
  | minimal
  /-- General information. -/
  | moderate
  /-- Information on each operation. -/
  | detailed
  /-- Everything, traces included. -/
  | verbose
  deriving DecidableEq

namespace Level

/-- All levels, in increasing order. -/
def all : List Level := [silent, minimal, moderate, detailed, verbose]

/-- The place of a level in the order. -/
def rank : Level → Nat
  | silent => 0
  | minimal => 1
  | moderate => 2
  | detailed => 3
  | verbose => 4

/-- The name of a level. -/
def name : Level → String
  | silent => "SILENT"
  | minimal => "MINIMAL"
  | moderate => "MODERATE"
  | detailed => "DETAILED"
  | verbose => "VERBOSE"

/-- The level with a name. -/
def ofName? (name : String) : Option Level := all.find? fun l => l.name == name

/-- Whether a journal of this level passes on what requires the other. -/
def allows (level required : Level) : Bool := required.rank ≤ level.rank

end Level

/-- The kinds of messages. -/
inductive Severity where
  /-- A trace. -/
  | debug
  /-- Information. -/
  | info
  /-- A warning. -/
  | warning
  deriving DecidableEq

/-- The name of a kind of message. -/
def Severity.name : Severity → String
  | debug => "DEBUG"
  | info => "INFO"
  | warning => "WARNING"

/-- The log files: those that are asked for by their path, and the one named after the time. -/
inductive LogFile where
  /-- The file at a path. -/
  | path (p : String)
  /-- The file named after the time. -/
  | stamped
  deriving DecidableEq

/-- The log file at a fixed path. -/
def LogFile.named : LogFile := .path "expressions.log"

/-- Where messages are passed on to. -/
inductive Handler where
  /-- The console. -/
  | console
  /-- A log file. -/
  | file (f : LogFile)
  deriving DecidableEq

/-- A message of a kind. -/
structure Message where
  /-- The kind. -/
  severity : Severity
  /-- The text. -/
  text : String
  deriving DecidableEq

/-- A message where it arrives: at a handler, or on the console because there is no handler. -/
inductive Delivery where
  /-- At a handler. -/
  | at (handler : Handler) (message : Message)
  /-- On the console, for want of a handler. -/
  | bare (message : Message)
  deriving DecidableEq

namespace Delivery

/-- The line that is written. The time stands for itself. -/
def line : Delivery → String
  | .at _ message => "T - " ++ message.severity.name ++ " - " ++ message.text ++ "\n"
  | .bare message => message.text ++ "\n"

/-- Whether the line is written to the console. -/
def isConsole : Delivery → Bool
  | .at handler _ => handler == .console
  | .bare _ => true

/-- What deliveries write to the console. -/
def consoleText (ds : List Delivery) : String :=
  String.join ((ds.filter isConsole).map line)

/-- What deliveries write to log files. -/
def fileText (ds : List Delivery) : String :=
  String.join ((ds.filter fun d => !d.isConsole).map line)

end Delivery

/-- The journal. -/
structure Journal where
  /-- The level, from the first use on. -/
  level : Option Level
  /-- The attached handlers, in the order in which they were attached. -/
  handlers : List Handler
  /-- The log files so far. -/
  files : List LogFile
  deriving DecidableEq

namespace Journal

/-- A journal that has not been used. -/
def unused : Journal := ⟨none, [], []⟩

/-! ## Settings -/

/-- Attaches a handler; a log file comes into being with the first handler that writes to it. -/
def attach (j : Journal) : Handler → Journal
  | .console => { j with handlers := j.handlers ++ [.console] }
  | .file f =>
    { j with
      handlers := j.handlers ++ [.file f]
      files := if f ∈ j.files then j.files else j.files ++ [f] }

/-- Detaches all handlers. -/
def detachAll (j : Journal) : Journal := { j with handlers := [] }

/-- Sets the journal up: detaches what is attached, then attaches the console unless the level is
silent, and a log file if one is given. -/
def setUp (j : Journal) (level : Level) (file : Option LogFile) : Journal :=
  let j := { j.detachAll with level := some level }
  let j := if level = .silent then j else j.attach .console
  match file with
  | none => j
  | some f => j.attach (.file f)

/-- The journal in use, set up with its defaults if it has not been used. -/
def opened (j : Journal) : Journal :=
  match j.level with
  | none => j.setUp .minimal none
  | some _ => j

/-- The level in use. -/
def currentLevel (j : Journal) : Level := j.opened.level.getD .minimal

/-- Drops all handlers of the journal in use. -/
def close (j : Journal) : Journal := j.opened.detachAll

/-- Closes the journal if it is in use, and sets it up anew. -/
def configure (j : Journal) (level : Level) (file : Option LogFile) : Journal :=
  match j.level with
  | none => j.setUp level file
  | some _ => j.close.setUp level file

/-- Changes the level; a journal that has not been used is set up with it. -/
def setLevel (j : Journal) (level : Level) : Journal :=
  match j.level with
  | none => j.setUp level none
  | some _ => { j with level := some level }

/-! ## Messages -/

/-- Where a message arrives: at every handler; without handlers a warning arrives as it is. -/
def deliver (handlers : List Handler) (message : Message) : List Delivery :=
  if handlers = [] then
    if message.severity = .warning then [.bare message] else []
  else handlers.map (.at · message)

/-- Passes a message on that requires a level. -/
def record (j : Journal) (required : Level) (message : Message) : Journal × List Delivery :=
  (j.opened,
    if j.currentLevel.allows required then deliver j.opened.handlers message else [])

/-- Passes information on. -/
def info (j : Journal) (required : Level) (text : String) : Journal × List Delivery :=
  j.record required ⟨.info, text⟩

/-- Passes a warning on. -/
def warning (j : Journal) (text : String) : Journal × List Delivery :=
  j.record .minimal ⟨.warning, text⟩

/-- Passes a trace on. -/
def debug (j : Journal) (text : String) : Journal × List Delivery :=
  j.record .verbose ⟨.debug, "DEBUG: " ++ text⟩

/-- Passes several warnings on. -/
def warnings (j : Journal) : List String → Journal × List Delivery
  | [] => (j, [])
  | text :: rest =>
    let (j, first) := j.warning text
    let (j, others) := j.warnings rest
    (j, first ++ others)

end Journal

end SumProduct
