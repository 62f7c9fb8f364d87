/-!
# Results with notes

Reading does not stop at a fault: a step gives a result in any case, with notes
about what was found on the way to it, in the order in which it was found.
-/

namespace IdlLinker

/-- A result and the notes taken on the way to it. -/
structure Noted (Note : Type) (α : Type) where
  value : α
  notes : List Note := []

namespace Noted

variable {Note α β : Type}

/-- Go on with a result; the notes taken before come first. -/
protected def bind (first : Noted Note α) (next : α → Noted Note β) : Noted Note β :=
  let second := next first.value
  ⟨second.value, first.notes ++ second.notes⟩

instance : Monad (Noted Note) where
  pure value := ⟨value, []⟩
  bind := Noted.bind

/-- Take a note. -/
def note (note : Note) : Noted Note Unit := ⟨(), [note]⟩

@[simp]
theorem value_pure (value : α) : (pure value : Noted Note α).value = value := rfl

@[simp]
theorem notes_pure (value : α) : (pure value : Noted Note α).notes = [] := rfl

@[simp]
theorem value_bind (first : Noted Note α) (next : α → Noted Note β) :
    (first >>= next).value = (next first.value).value := rfl

@[simp]
theorem notes_bind (first : Noted Note α) (next : α → Noted Note β) :
    (first >>= next).notes = first.notes ++ (next first.value).notes := rfl

/-- A result without notes changes nothing. -/
@[simp]
theorem pure_bind (value : α) (next : α → Noted Note β) : pure value >>= next = next value := by
  change Noted.mk (next value).value ([] ++ (next value).notes) = next value
  rw [List.nil_append]

end Noted

end IdlLinker
