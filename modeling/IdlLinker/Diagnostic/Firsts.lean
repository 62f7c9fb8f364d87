import IdlLinker.Diagnostic

/-!
# First diagnostics

Of the items of a list that have one mark the first one is kept.  A diagnostic
is to be dropped for one before it that says the same; the key by which they
are compared holds the words of both, cut at separators.
-/

namespace IdlLinker

/-- The items before which no item of the list has their mark. -/
def firstsBy {α β : Type} [DecidableEq β] (mark : α → β) (items : List α) : List α :=
  (items.zipIdx.filter fun entry => mark entry.1 ∉ (items.take entry.2).map mark).map (·.1)

namespace Diagnostic

/-- What a diagnostic says: all of it but the suggestion. -/
def said (diagnostic : Diagnostic) : String × String × Severity × String × Option Number :=
  (diagnostic.code, diagnostic.path, diagnostic.severity, diagnostic.message, diagnostic.line)

/-- The character between the parts of a key. -/
def separator : Char := '\x1f'

/-- The words of code, path, severity and message in a row, and the line: each
text is cut at its separators. -/
def words (diagnostic : Diagnostic) : List (List Char) × Option Number :=
  (diagnostic.code.toList.splitOn separator ++ diagnostic.path.toList.splitOn separator ++
    diagnostic.severity.word.toList :: diagnostic.message.toList.splitOn separator,
    diagnostic.line)

/-- Dropping repetitions drops a diagnostic exactly if one before it says the
same; doing it twice is doing it once, and errors stay errors. -/
structure DropsRepetitions (diagnostics : List Diagnostic) : Prop where
  kept : dedupe diagnostics = firstsBy said diagnostics
  again : dedupe (dedupe diagnostics) = dedupe diagnostics
  errors : hasErrors (dedupe diagnostics) = hasErrors diagnostics

/-- No two of the diagnostics have the same words and lines and do not say the
same. -/
def WordsTell (diagnostics : List Diagnostic) : Prop :=
  ∀ one ∈ diagnostics, ∀ other ∈ diagnostics, one.words = other.words → one.said = other.said

end Diagnostic

end IdlLinker
