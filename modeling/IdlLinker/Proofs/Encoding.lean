import Mathlib.Tactic.Simps.Basic
import IdlLinker.Definition.Loadable
import IdlLinker.Proofs.Documents
import IdlLinker.Proofs.Grammar
import IdlLinker.Written.Data

/-!
# Written definitions are accepted

The data of definitions that can be loaded has the shape of a document.  What
its check gives is the written form of the definitions.
-/

namespace IdlLinker

/-! ## Records with members that may be absent -/

namespace Record

variable {α : Type} {members : List (String × Option α)} {key : String}

@[simp]
theorem get?_present_nil : get? (present ([] : List (String × Option α))) key = none := rfl

@[simp]
theorem get?_present_cons {own : String} {value : Option α} :
    get? (present ((own, value) :: members)) key =
      if own = key then value.or (get? (present members) key) else get? (present members) key := by
  cases value with
  | none => simp [present]
  | some found => by_cases same : own = key <;> simp [present, get?, same]

theorem mem_keys_of_present (member : key ∈ (present members).map (·.1)) :
    key ∈ members.map (·.1) := by
  simp only [present, List.mem_map, List.mem_filterMap, Option.map_eq_some_iff] at member ⊢
  rcases member with ⟨_, ⟨found, inside, _, _, rfl⟩, rfl⟩
  exact ⟨found, inside, rfl⟩

end Record

/-! ## Written forms -/

/-- A field with its type as text. -/
@[simps]
def Field.written (field : Field) : Written.Field where
  id := field.id
  name := field.name
  type := field.type.text
  required := field.requiredness.map Requiredness.isRequired
  default := field.defaultValue
  line := field.line

/-- A function with its types as text. -/
@[simps]
def Function.written (function : Function) : Written.Function where
  name := function.name
  returns := function.returnType.map TypeExpression.text
  oneway := function.oneway
  args := function.parameters.map Field.written
  throws := function.exceptions.map Field.written
  line := function.line

/-- An enum item with its line. -/
def EnumItem.written (item : EnumItem) : Written.EnumItem :=
  .full item.name item.value item.line

/-- A definition with its types as text. -/
def Definition.written : Definition → Written.Definition
  | struct definition =>
    .struct { definition with fields := definition.fields.map Field.written }
  | typedef definition => .typedef { definition with type := definition.target.text }
  | enum definition => .enum { definition with items := definition.items.map EnumItem.written }
  | service definition =>
    .service
      { name := definition.name
        parent := definition.parent.map ServiceParent.name
        functions := definition.functions.map Function.written
        line := definition.line }

/-! ## Members -/

namespace Shape

variable {α β : Type} {check : Check α} {write : β → Value} {read : β → α}

theorem optional_map {value : Option β}
    (accepted : ∀ found ∈ value, check (some (write found)) = .valid (read found)) :
    optional check (value.map write) = .valid (value.map read) := by
  rw [optional_eq_valid_iff]
  cases value with
  | none => exact .inl ⟨rfl, rfl⟩
  | some found => exact .inr ⟨_, _, rfl, accepted found rfl, rfl⟩

theorem withDefault_list {spelling : Spelling} {items : List β}
    (accepted : ∀ item ∈ items, check (some (write item)) = .valid (read item)) :
    withDefault [] (list check) (spelling.list (items.map write)) = .valid (items.map read) := by
  rw [withDefault_eq_valid_iff]
  unfold Spelling.list
  split
  · next left =>
      simp only [List.isEmpty_map, Bool.and_eq_true, List.isEmpty_iff] at left
      exact .inl ⟨rfl, by rw [left.1, List.map_nil]⟩
  · refine .inr ⟨_, rfl, list_eq_valid_iff.mpr ⟨_, rfl, ?_⟩⟩
    rw [List.forall₂_map_left_iff, List.forall₂_map_right_iff]
    exact List.forall₂_same.mpr accepted

theorem withDefault_flag {spelling : Spelling} {value : Bool} :
    withDefault false boolean (spelling.flag value) = .valid value := by
  rw [withDefault_eq_valid_iff]
  unfold Spelling.flag
  split
  · next left =>
      simp only [Bool.and_eq_true, Bool.not_eq_true'] at left
      exact .inl ⟨rfl, left.1⟩
  · exact .inr ⟨_, rfl, boolean_eq_valid_iff.mpr rfl⟩

end Shape

namespace Written

open Shape

theorem line_number {number : Number} (isLine : number.IsLine) :
    line (some (.number number)) = .valid number :=
  line_eq_valid_iff.mpr ⟨rfl, isLine⟩

theorem identifier_text {name : String} (isIdentifier : Name.isIdentifier name = true) :
    identifier (some (.text name)) = .valid name :=
  identifier_eq_valid_iff.mpr ⟨rfl, isIdentifier⟩

theorem optional_integer {number : Option Number}
    (whole : ∀ found ∈ number, found.isInteger = true) :
    optional integer (number.map .number) = .valid number := by
  simpa using optional_map fun found member => integer_eq_valid_iff.mpr ⟨rfl, whole found member⟩

theorem typeText_text {type : TypeExpression} {line : Number} (loadable : type.Loadable line) :
    typeText (some (.text type.text)) = .valid type.text :=
  typeText_eq_valid_iff.mpr ⟨rfl, TypeExpression.text_ne_empty loadable.wellFormed⟩

theorem checkField_data {field : IdlLinker.Field} (loadable : field.Loadable) :
    checkField (some field.data) = .valid field.written := by
  refine checkField_eq_valid_iff.mpr
    ⟨_, rfl, fun key => Record.mem_keys_of_present, ?_, ?_, ?_, ?_, ?_, ?_⟩
  · simpa using optional_integer loadable.id
  · simpa using identifier_text loadable.name
  · simpa using typeText_text loadable.type
  · simpa using optional_map fun found member => boolean_eq_valid_iff.mpr rfl
  · simpa using optional_map fun found member => loadable.default found member
  · simpa using line_number loadable.line

theorem checkFunction_data {function : IdlLinker.Function} (loadable : function.Loadable)
    (spelling : Spelling) :
    checkFunction (some (function.data spelling)) = .valid function.written := by
  refine checkFunction_eq_valid_iff.mpr
    ⟨_, rfl, fun key => Record.mem_keys_of_present, ?_, ?_, ?_, ?_, ?_, ?_⟩
  · simpa using identifier_text loadable.name
  · simpa using optional_map fun type member => typeText_text (loadable.returnType type member)
  · simpa using withDefault_flag
  · simpa using withDefault_list fun field member =>
      checkField_data (loadable.parameters field member)
  · simpa using withDefault_list fun field member =>
      checkField_data (loadable.exceptions field member)
  · simpa using line_number loadable.line

theorem checkEnumItem_data {item : IdlLinker.EnumItem} (loadable : item.Loadable) :
    checkEnumItem (some item.data) = .valid item.written := by
  refine checkEnumItem_eq_valid_iff.mpr (.inr (checkFullItem_eq_valid_iff.mpr
    ⟨_, _, _, _, rfl, rfl, fun key => Record.mem_keys_of_present, ?_, ?_, ?_⟩))
  · simpa using identifier_text loadable.name
  · simpa using optional_integer loadable.value
  · simpa using line_number loadable.line

section Definitions

open IdlLinker.Definition (bodyData kindWord name)

theorem checkOfKind?_word (kind : StructKind) :
    checkOfKind? kind.word = some fun value => (checkStruct kind value).map .struct := by
  cases kind <;> rfl

/-- The data of a definition that can be loaded is accepted. -/
theorem checkDefinition_data {definition : IdlLinker.Definition} (loadable : definition.Loadable)
    (spelling : Spelling) :
    checkDefinition (some (definition.data spelling)) = .valid definition.written := by
  have body := loadable.body
  cases definition with
  | struct definition =>
      refine checkDefinition_eq_valid_iff.mpr ⟨_, definition.kind.word, _, rfl, rfl,
        checkOfKind?_word _, Verdict.map_eq_valid_iff.mpr ⟨_, checkStruct_eq_valid_iff.mpr
          ⟨_, rfl, fun key => Record.mem_keys_of_present, ?_, ?_, ?_, ?_, rfl⟩, rfl⟩⟩
      · simp [kindWord]
      · simpa [name] using identifier_text loadable.name
      · simpa [bodyData] using withDefault_list fun field member =>
          checkField_data (body field member)
      · simpa [bodyData, IdlLinker.Definition.line] using line_number loadable.line
  | typedef definition =>
      refine checkDefinition_eq_valid_iff.mpr ⟨_, "typedef", _, rfl, rfl, rfl,
        Verdict.map_eq_valid_iff.mpr ⟨_, checkTypedef_eq_valid_iff.mpr
          ⟨_, rfl, fun key => Record.mem_keys_of_present, ?_, ?_, ?_, ?_⟩, rfl⟩⟩
      · simp [kindWord]
      · simpa [name] using identifier_text loadable.name
      · simpa [bodyData] using typeText_text body
      · simpa [bodyData, IdlLinker.Definition.line] using line_number loadable.line
  | enum definition =>
      refine checkDefinition_eq_valid_iff.mpr ⟨_, "enum", _, rfl, rfl, rfl,
        Verdict.map_eq_valid_iff.mpr ⟨_, checkEnum_eq_valid_iff.mpr
          ⟨_, rfl, fun key => Record.mem_keys_of_present, ?_, ?_, ?_, ?_⟩, rfl⟩⟩
      · simp [kindWord]
      · simpa [name] using identifier_text loadable.name
      · simpa [bodyData] using withDefault_list fun item member =>
          checkEnumItem_data (body item member)
      · simpa [bodyData, IdlLinker.Definition.line] using line_number loadable.line
  | service definition =>
      refine checkDefinition_eq_valid_iff.mpr ⟨_, "service", _, rfl, rfl, rfl,
        Verdict.map_eq_valid_iff.mpr ⟨_, checkService_eq_valid_iff.mpr
          ⟨_, rfl, fun key => Record.mem_keys_of_present, ?_, ?_, ?_, ?_, ?_⟩, rfl⟩⟩
      · simp [kindWord]
      · simpa [name] using identifier_text loadable.name
      · simpa [bodyData] using optional_map fun parent member => serviceName_eq_valid_iff.mpr
          ⟨rfl, Name.isQualified_iff.mpr (body.1 parent member).1⟩
      · simpa [bodyData] using withDefault_list fun function member =>
          checkFunction_data (body.2 function member) spelling
      · simpa [bodyData, IdlLinker.Definition.line] using line_number loadable.line

end Definitions

/-- The data of definitions that can be loaded is accepted as a document. -/
theorem checkDocument_data {definitions : List IdlLinker.Definition} {line : Number}
    (loadable : ∀ definition ∈ definitions, definition.Loadable) (isLine : line.IsLine)
    (spelling : Spelling) :
    checkDocument (some (documentData spelling line definitions)) =
      .valid { definitions := definitions.map IdlLinker.Definition.written, line } := by
  refine checkDocument_eq_valid_iff.mpr
    ⟨_, rfl, fun key => Record.mem_keys_of_present, ?_, ?_⟩
  · simpa using withDefault_list fun definition member =>
      checkDefinition_data (loadable definition member) spelling
  · simpa using line_number isLine

end Written

end IdlLinker
