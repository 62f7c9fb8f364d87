import IdlLinker.CompileError
import IdlLinker.Journal

/-!
# Compilations

A compilation gives a result or an error, and a journal of what happened up to
there.  The journal of a failed step is kept.
-/

namespace IdlLinker

/-- A result or an error with the journal that led to it. -/
structure Compilation (α : Type) where
  journal : Journal
  outcome : Except CompileError α

namespace Compilation

variable {α β : Type}

/-- A compilation that has nothing to do. -/
protected def pure (value : α) : Compilation α := ⟨[], .ok value⟩

/-- Go on with the result of a compilation; after an error nothing follows. -/
protected def bind (first : Compilation α) (next : α → Compilation β) :
    Compilation β :=
  match first.outcome with
  | .ok value =>
    let second := next value
    ⟨first.journal ++ second.journal, second.outcome⟩
  | .error error => ⟨first.journal, .error error⟩

instance : Monad Compilation where
  pure := Compilation.pure
  bind := Compilation.bind

/-- Stop with an error. -/
def fail (error : CompileError) : Compilation α := ⟨[], .error error⟩

/-- Write an entry into the journal. -/
def log (entry : JournalEntry) : Compilation Unit := ⟨[entry], .ok ()⟩

/-- A step without a journal. -/
def ofExcept (outcome : Except CompileError α) : Compilation α := ⟨[], outcome⟩

/-- Wrap the error of a compilation with the name of its owner. -/
def ownedBy (compilation : Compilation α) (owner : String) : Compilation α :=
  ⟨compilation.journal, withOwner .compile owner compilation.outcome⟩

end Compilation

end IdlLinker
