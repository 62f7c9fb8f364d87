import IdlLinker.Entity
import IdlLinker.Number.Shortest

/-!
# Journals

Compiling and linking keep a journal of what happened.  A logger turns the
entries of a journal into labelled lines, or keeps silent.
-/

namespace IdlLinker

/-- One event of a compilation. -/
inductive JournalEntry
  | definitionCompiled (name kind : String) (line : Number)
  | scopeBuilt (typeCount serviceCount : Nat) (includes : List String)
  | specLinked (name : String) (kind : EntityKind)
  | warning (message : String) (line : Number)
  deriving DecidableEq

/-- The events of a compilation, in order. -/
abbrev Journal := List JournalEntry

/-- How loud a line of a log is. -/
inductive LogLevel
  | debug
  | warn
  deriving DecidableEq, Repr

namespace JournalEntry

/-- The level an entry is logged at. -/
def level : JournalEntry → LogLevel
  | warning .. => .warn
  | _ => .debug

/-- The text of an entry, after the label. -/
def text : JournalEntry → String
  | definitionCompiled name kind line =>
    "compiled " ++ kind ++ " \"" ++ name ++ "\" (line " ++ line.text ++ ")"
  | scopeBuilt typeCount serviceCount includes =>
    let included := if includes.isEmpty then "" else " over includes " ++ ", ".intercalate includes
    "scope built with " ++ toString typeCount ++ " type(s), " ++
      toString serviceCount ++ " service(s)" ++ included
  | specLinked name kind => "linked " ++ kind.word ++ " \"" ++ name ++ "\""
  | warning message line => "line " ++ line.text ++ ": " ++ message

end JournalEntry

/-- Where the entries of a journal go. -/
inductive Logger
  | silent
  | labelled (label : String)
  deriving DecidableEq, Repr

namespace Logger

/-- The label of a logger that is not given one. -/
def defaultLabel : String := "[idl-compile]"

/-- A logger writes unless it is silent. -/
def enabled : Logger → Bool
  | silent => false
  | labelled _ => true

/-- The lines a logger writes for a journal. -/
def lines : Logger → Journal → List (LogLevel × String)
  | silent, _ => []
  | labelled label, journal =>
    journal.map fun entry => (entry.level, label ++ " " ++ entry.text)

@[simp]
theorem lines_append (logger : Logger) (first second : Journal) :
    logger.lines (first ++ second) = logger.lines first ++ logger.lines second := by
  cases logger with
  | silent => rfl
  | labelled label => exact List.map_append

theorem lines_flatMap {α : Type} (logger : Logger) (items : List α) (journal : α → Journal) :
    logger.lines (items.flatMap journal) =
      items.flatMap fun item => logger.lines (journal item) := by
  induction items with
  | nil => cases logger <;> rfl
  | cons item rest hypothesis => rw [List.flatMap_cons, lines_append, hypothesis, List.flatMap_cons]

end Logger

end IdlLinker
