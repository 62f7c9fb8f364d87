import Mathlib.Data.List.Defs
import IdlLinker.Definition.Loadable
import IdlLinker.Proofs.Diagnostics
import IdlLinker.Proofs.Grammar
import IdlLinker.Proofs.Related
import IdlLinker.Written.Meaning

/-!
# What written documents mean

Reading a written document takes only notes of errors, one for each text that
is no type.  Without a note every type that was read can be written on its
line, and the types of definitions that are written out are read back.
-/

namespace IdlLinker.Written

open Diagnostic (AllErrors)

/-! ## Reading a type -/

/-- A type that is written out is read back. -/
theorem readType_text {type : TypeExpression} {line : Number} (loadable : type.Loadable line)
    (path : String) : readType path type.text line = pure type := by
  have read : TypeExpression.parse type.text line = .ok type :=
    TypeExpression.parse_eq_ok_iff.mpr
      ⟨loadable.wellFormed, loadable.onLine, TypeExpression.spread_text type⟩
  simp [readType, read]

theorem parse_of_readType {path expression : String} {line : Number}
    (clean : (readType path expression line).notes = []) :
    TypeExpression.parse expression line = .ok (readType path expression line).value := by
  unfold readType at clean ⊢
  split
  · next type read => exact read
  · next rejection read => simp [read] at clean

theorem loadable_readType {path expression : String} {line : Number}
    (clean : (readType path expression line).notes = []) :
    (readType path expression line).value.Loadable line := by
  rcases TypeExpression.parse_eq_ok_iff.mp (parse_of_readType clean) with ⟨wellFormed, onLine, _⟩
  exact ⟨wellFormed, onLine⟩

/-! ## Reading a list -/

section Lists

variable {α β : Type} {read : String → α → Diagnosed β}

theorem forall_notes_readEach {holds : Diagnostic → Prop}
    (each : ∀ path item, ∀ note ∈ (read path item).notes, holds note) (path : String)
    (position : Nat) (items : List α) :
    ∀ note ∈ (readEach read path position items).notes, holds note := by
  induction items generalizing position with
  | nil => exact List.forall_mem_nil holds
  | cons item rest hypothesis =>
      simp only [readEach, Noted.notes_bind, Noted.notes_pure, List.append_nil]
      exact List.forall_mem_append.mpr ⟨each _ item, hypothesis (position + 1)⟩

/-- Items that are each read back are read back together. -/
theorem readEach_map {write : β → α} {items : List β}
    (each : ∀ item ∈ items, ∀ path, read path (write item) = pure item) (path : String)
    (position : Nat) : readEach read path position (items.map write) = pure items := by
  induction items generalizing position with
  | nil => rfl
  | cons item rest hypothesis =>
      have others := hypothesis (fun item member => each item (List.mem_cons_of_mem _ member))
        (position + 1)
      rw [List.map_cons, readEach, each item List.mem_cons_self, others]
      rfl

/-- A list that is read without a note is read item by item without one. -/
theorem forall₂_readEach {items : List α} {path : String} {position : Nat}
    (clean : (readEach read path position items).notes = []) :
    List.Forall₂ (fun item result => ∃ path, (read path item).notes = [] ∧
      (read path item).value = result) items (readEach read path position items).value := by
  induction items generalizing position with
  | nil => exact List.Forall₂.nil
  | cons item rest hypothesis =>
      simp only [readEach, Noted.notes_bind, Noted.notes_pure, List.append_nil,
        List.append_eq_nil_iff] at clean
      exact List.Forall₂.cons ⟨_, clean.1, rfl⟩ (hypothesis clean.2)

/-- What holds of every item that is read without a note holds of the whole
list. -/
theorem forall_mem_readEach {holds : β → Prop} {items : List α}
    (each : ∀ item ∈ items, ∀ path, (read path item).notes = [] → holds (read path item).value)
    {path : String} {position : Nat} (clean : (readEach read path position items).notes = []) :
    ∀ result ∈ (readEach read path position items).value, holds result := by
  intro result member
  rcases exists_left_of_forall₂ (forall₂_readEach clean) member with
    ⟨item, inside, _, noteless, rfl⟩
  exact each item inside _ noteless

end Lists

/-! ## What is noted -/

section Notes

variable {holds : Diagnostic → Prop}
  (rejected : ∀ path line message, holds (rejectedType path line message))

include rejected

theorem forall_notes_readType (path expression : String) (line : Number) :
    ∀ note ∈ (readType path expression line).notes, holds note := by
  unfold readType
  split
  · exact List.forall_mem_nil holds
  · exact List.forall_mem_singleton.mpr (rejected _ _ _)

theorem forall_notes_readField (path : String) (field : Field) :
    ∀ note ∈ (field.read path).notes, holds note := by
  simpa [Field.read] using forall_notes_readType rejected _ _ _

theorem forall_notes_readFunction (path : String) (function : Function) :
    ∀ note ∈ (function.read path).notes, holds note := by
  have fields := forall_notes_readEach (forall_notes_readField rejected)
  have parts := List.forall_mem_append.mpr
    ⟨fields (path ++ ".args") 0 function.args, fields (path ++ ".throws") 0 function.throws⟩
  cases returns : function.returns with
  | none => simpa [Function.read, returns] using parts
  | some expression =>
      have type := forall_notes_readType rejected (path ++ ".returns") expression function.line
      simpa [Function.read, returns] using List.forall_mem_append.mpr ⟨type, parts⟩

theorem forall_notes_readDefinition (path : String) (definition : Definition) :
    ∀ note ∈ (definition.read path).notes, holds note := by
  cases definition with
  | struct body =>
      simpa [Definition.read] using
        forall_notes_readEach (forall_notes_readField rejected) _ _ _
  | typedef body => simpa [Definition.read] using forall_notes_readType rejected _ _ _
  | enum body => exact List.forall_mem_nil holds
  | service body =>
      simpa [Definition.read] using
        forall_notes_readEach (forall_notes_readFunction rejected) _ _ _

/-- Reading a document takes notes of texts that are no types only. -/
theorem forall_notes_readDocument (document : Document) :
    ∀ note ∈ document.read.notes, holds note :=
  forall_notes_readEach (forall_notes_readDefinition rejected) _ _ _

end Notes

theorem allErrors_readDocument (document : Document) : AllErrors document.read.notes :=
  forall_notes_readDocument (fun _ _ _ => rfl) document

end IdlLinker.Written
