import IdlLinker.Proofs.Verdicts
import IdlLinker.Written

/-!
# What documents are accepted

Each check of a document accepts a record of known keys whose parts are
accepted.  Whatever it refuses it gives an issue for, and the path of an issue is
made of words and numbers.
-/

namespace IdlLinker.Written

open Shape

variable {data : Option Value}

/-! ## Records of known keys -/

theorem checkField_eq_valid_iff {field : Field} : checkField data = .valid field ↔
    ∃ entries, data = some (.record entries) ∧
      (∀ key ∈ entries.map (·.1), key ∈ ["id", "name", "type", "required", "default", "line"]) ∧
      optional integer (Record.get? entries "id") = .valid field.id ∧
      identifier (Record.get? entries "name") = .valid field.name ∧
      typeText (Record.get? entries "type") = .valid field.type ∧
      optional boolean (Record.get? entries "required") = .valid field.required ∧
      optional constant (Record.get? entries "default") = .valid field.default ∧
      line (Record.get? entries "line") = .valid field.line := by
  rcases field with ⟨id, name, type, required, default, line⟩
  simp only [checkField, record_eq_valid_iff, Verdict.applicative_seq_eq_valid_iff,
    Verdict.applicative_map_eq_valid_iff, part_eq_valid_iff]
  refine exists_congr fun entries => and_congr_right fun _ => and_congr_right fun _ => ?_
  simp [and_assoc]

theorem checkFunction_eq_valid_iff {function : Function} :
    checkFunction data = .valid function ↔
      ∃ entries, data = some (.record entries) ∧
        (∀ key ∈ entries.map (·.1), key ∈ ["name", "returns", "oneway", "args", "throws", "line"]) ∧
        identifier (Record.get? entries "name") = .valid function.name ∧
        optional typeText (Record.get? entries "returns") = .valid function.returns ∧
        withDefault false boolean (Record.get? entries "oneway") = .valid function.oneway ∧
        withDefault [] (list checkField) (Record.get? entries "args") = .valid function.args ∧
        withDefault [] (list checkField) (Record.get? entries "throws") = .valid function.throws ∧
        line (Record.get? entries "line") = .valid function.line := by
  rcases function with ⟨name, returns, oneway, args, throws, line⟩
  simp only [checkFunction, record_eq_valid_iff, Verdict.applicative_seq_eq_valid_iff,
    Verdict.applicative_map_eq_valid_iff, part_eq_valid_iff]
  refine exists_congr fun entries => and_congr_right fun _ => and_congr_right fun _ => ?_
  simp [and_assoc]

theorem checkStruct_eq_valid_iff {kind : StructKind} {body : Struct} :
    checkStruct kind data = .valid body ↔
      ∃ entries, data = some (.record entries) ∧
        (∀ key ∈ entries.map (·.1), key ∈ ["kind", "name", "fields", "line"]) ∧
        Record.get? entries "kind" = some (.text kind.word) ∧
        identifier (Record.get? entries "name") = .valid body.name ∧
        withDefault [] (list checkField) (Record.get? entries "fields") = .valid body.fields ∧
        line (Record.get? entries "line") = .valid body.line ∧ body.kind = kind := by
  rcases body with ⟨own, name, fields, line⟩
  simp only [checkStruct, record_eq_valid_iff, Verdict.applicative_seq_eq_valid_iff,
    Verdict.applicative_map_eq_valid_iff, part_eq_valid_iff, literal_eq_valid_iff]
  refine exists_congr fun entries => and_congr_right fun _ => and_congr_right fun _ => ?_
  simp [and_assoc, eq_comm]

theorem checkTypedef_eq_valid_iff {body : Typedef} : checkTypedef data = .valid body ↔
    ∃ entries, data = some (.record entries) ∧
      (∀ key ∈ entries.map (·.1), key ∈ ["kind", "name", "type", "line"]) ∧
      Record.get? entries "kind" = some (.text "typedef") ∧
      identifier (Record.get? entries "name") = .valid body.name ∧
      typeText (Record.get? entries "type") = .valid body.type ∧
      line (Record.get? entries "line") = .valid body.line := by
  rcases body with ⟨name, type, line⟩
  simp only [checkTypedef, record_eq_valid_iff, Verdict.applicative_seq_eq_valid_iff,
    Verdict.applicative_map_eq_valid_iff, part_eq_valid_iff, literal_eq_valid_iff]
  refine exists_congr fun entries => and_congr_right fun _ => and_congr_right fun _ => ?_
  simp [and_assoc]

theorem checkFullItem_eq_valid_iff {item : EnumItem} : checkFullItem data = .valid item ↔
    ∃ entries name value own, data = some (.record entries) ∧ item = .full name value own ∧
      (∀ key ∈ entries.map (·.1), key ∈ ["name", "value", "line"]) ∧
      identifier (Record.get? entries "name") = .valid name ∧
      optional integer (Record.get? entries "value") = .valid value ∧
      line (Record.get? entries "line") = .valid own := by
  simp only [checkFullItem, record_eq_valid_iff, Verdict.applicative_seq_eq_valid_iff,
    Verdict.applicative_map_eq_valid_iff, part_eq_valid_iff]
  constructor
  · rintro ⟨entries, rfl, known, _, ⟨_, ⟨_, name, rfl⟩, _, value, rfl⟩, _, line, rfl⟩
    exact ⟨entries, _, _, _, rfl, rfl, known, name, value, line⟩
  · rintro ⟨entries, _, _, _, rfl, rfl, known, name, value, line⟩
    exact ⟨entries, rfl, known, _, ⟨_, ⟨_, name, rfl⟩, _, value, rfl⟩, _, line, rfl⟩

theorem checkEnumItem_eq_valid_iff {item : EnumItem} : checkEnumItem data = .valid item ↔
    (∃ name, item = .bare name ∧ identifier data = .valid name) ∨
      checkFullItem data = .valid item := by
  rw [checkEnumItem, Verdict.orElse_eq_valid_iff, Verdict.map_eq_valid_iff]
  refine or_congr ⟨?_, ?_⟩ (and_iff_right_of_imp fun accepted => ?_)
  · rintro ⟨name, accepted, rfl⟩
    exact ⟨name, rfl, accepted⟩
  · rintro ⟨name, rfl, accepted⟩
    exact ⟨name, accepted, rfl⟩
  · -- A record is no bare name, so the first check does not shadow the second.
    rcases checkFullItem_eq_valid_iff.mp accepted with ⟨entries, _, _, _, rfl, _⟩
    rfl

theorem checkEnum_eq_valid_iff {body : Enum} : checkEnum data = .valid body ↔
    ∃ entries, data = some (.record entries) ∧
      (∀ key ∈ entries.map (·.1), key ∈ ["kind", "name", "items", "line"]) ∧
      Record.get? entries "kind" = some (.text "enum") ∧
      identifier (Record.get? entries "name") = .valid body.name ∧
      withDefault [] (list checkEnumItem) (Record.get? entries "items") = .valid body.items ∧
      line (Record.get? entries "line") = .valid body.line := by
  rcases body with ⟨name, items, line⟩
  simp only [checkEnum, record_eq_valid_iff, Verdict.applicative_seq_eq_valid_iff,
    Verdict.applicative_map_eq_valid_iff, part_eq_valid_iff, literal_eq_valid_iff]
  refine exists_congr fun entries => and_congr_right fun _ => and_congr_right fun _ => ?_
  simp [and_assoc]

theorem checkService_eq_valid_iff {body : Service} : checkService data = .valid body ↔
    ∃ entries, data = some (.record entries) ∧
      (∀ key ∈ entries.map (·.1), key ∈ ["kind", "name", "extends", "functions", "line"]) ∧
      Record.get? entries "kind" = some (.text "service") ∧
      identifier (Record.get? entries "name") = .valid body.name ∧
      optional serviceName (Record.get? entries "extends") = .valid body.parent ∧
      withDefault [] (list checkFunction) (Record.get? entries "functions") =
        .valid body.functions ∧
      line (Record.get? entries "line") = .valid body.line := by
  rcases body with ⟨name, parent, functions, line⟩
  simp only [checkService, record_eq_valid_iff, Verdict.applicative_seq_eq_valid_iff,
    Verdict.applicative_map_eq_valid_iff, part_eq_valid_iff, literal_eq_valid_iff]
  refine exists_congr fun entries => and_congr_right fun _ => and_congr_right fun _ => ?_
  simp [and_assoc]

theorem checkDefinition_eq_valid_iff {definition : Definition} :
    checkDefinition data = .valid definition ↔
      ∃ entries kind check, data = some (.record entries) ∧
        Record.get? entries "kind" = some (.text kind) ∧ checkOfKind? kind = some check ∧
        check data = .valid definition := by
  constructor
  · intro accepted
    unfold checkDefinition at accepted
    split at accepted
    · next entries =>
        dsimp only at accepted
        split at accepted
        · next check selected =>
            split at selected
            · next kind found => exact ⟨entries, kind, check, rfl, found, selected, accepted⟩
            · cases selected
        · simp at accepted
    · simp at accepted
  · rintro ⟨entries, kind, check, rfl, found, selected, accepted⟩
    simpa only [checkDefinition, found, selected] using accepted

theorem checkDocument_eq_valid_iff {document : Document} :
    checkDocument data = .valid document ↔
      ∃ entries, data = some (.record entries) ∧
        (∀ key ∈ entries.map (·.1), key ∈ ["definitions", "line"]) ∧
        withDefault [] (list checkDefinition) (Record.get? entries "definitions") =
          .valid document.definitions ∧
        line (Record.get? entries "line") = .valid document.line := by
  rcases document with ⟨definitions, line⟩
  simp only [checkDocument, record_eq_valid_iff, Verdict.applicative_seq_eq_valid_iff,
    Verdict.applicative_map_eq_valid_iff, part_eq_valid_iff]
  refine exists_congr fun entries => and_congr_right fun _ => and_congr_right fun _ => ?_
  simp

/-- The check that a kind selects is the one of a struct, a typedef, an enum or
a service. -/
theorem check_of_kind {kind : String} {check : Check Definition}
    (selected : checkOfKind? kind = some check) :
    (∃ structKind : StructKind, kind = structKind.word ∧
        check = fun value => (checkStruct structKind value).map .struct) ∨
      kind = "typedef" ∧ check = (fun value => (checkTypedef value).map .typedef) ∨
      kind = "enum" ∧ check = (fun value => (checkEnum value).map .enum) ∨
      kind = "service" ∧ check = (fun value => (checkService value).map .service) := by
  unfold checkOfKind? at selected
  split at selected <;> cases selected
  · exact .inl ⟨.struct, rfl, rfl⟩
  · exact .inl ⟨.union, rfl, rfl⟩
  · exact .inl ⟨.exception, rfl, rfl⟩
  · exact .inr (.inl ⟨rfl, rfl⟩)
  · exact .inr (.inr (.inl ⟨rfl, rfl⟩))
  · exact .inr (.inr (.inr ⟨rfl, rfl⟩))

/-! ## What checks give in any case -/

section Inherited

variable {property : {α : Type} → Verdict α → Prop} (inherited : Verdict.Inherited @property)

include inherited

theorem always_checkField : Always @property checkField := by
  apply always_record inherited
  intro entries
  iterate 5 refine inherited.applicative_seq ?_ (holds_part inherited (by decide) ?_ entries)
  · exact inherited.applicative_map (holds_part inherited (by decide)
      (always_optional inherited (always_number inherited _)) entries) _
  · exact always_text inherited _
  · exact always_text inherited _
  · exact always_optional inherited (always_boolean inherited)
  · exact always_optional inherited (always_constant inherited)
  · exact always_number inherited _

theorem always_checkFunction : Always @property checkFunction := by
  have fields := always_items inherited (always_checkField inherited)
  apply always_record inherited
  intro entries
  iterate 5 refine inherited.applicative_seq ?_ (holds_part inherited (by decide) ?_ entries)
  · exact inherited.applicative_map
      (holds_part inherited (by decide) (always_text inherited _) entries) _
  · exact always_optional inherited (always_text inherited _)
  · exact always_withDefault inherited false (always_boolean inherited)
  · exact fields
  · exact fields
  · exact always_number inherited _

theorem always_checkStruct (kind : StructKind) : Always @property (checkStruct kind) := by
  apply always_record inherited
  intro entries
  iterate 3 refine inherited.applicative_seq ?_ (holds_part inherited (by decide) ?_ entries)
  · exact inherited.applicative_map
      (holds_part inherited (by decide) (always_literal inherited _) entries) _
  · exact always_text inherited _
  · exact always_items inherited (always_checkField inherited)
  · exact always_number inherited _

theorem always_checkTypedef : Always @property checkTypedef := by
  apply always_record inherited
  intro entries
  iterate 3 refine inherited.applicative_seq ?_ (holds_part inherited (by decide) ?_ entries)
  · exact inherited.applicative_map
      (holds_part inherited (by decide) (always_literal inherited _) entries) _
  · exact always_text inherited _
  · exact always_text inherited _
  · exact always_number inherited _

theorem always_checkEnumItem : Always @property checkEnumItem := by
  have full : Always @property checkFullItem := by
    apply always_record inherited
    intro entries
    iterate 2 refine inherited.applicative_seq ?_ (holds_part inherited (by decide) ?_ entries)
    · exact inherited.applicative_map
        (holds_part inherited (by decide) (always_text inherited _) entries) _
    · exact always_optional inherited (always_number inherited _)
    · exact always_number inherited _
  intro data
  exact inherited.orElse (inherited.map EnumItem.bare (always_text inherited _ data)) (full data)

theorem always_checkEnum : Always @property checkEnum := by
  apply always_record inherited
  intro entries
  iterate 3 refine inherited.applicative_seq ?_ (holds_part inherited (by decide) ?_ entries)
  · exact inherited.applicative_map
      (holds_part inherited (by decide) (always_literal inherited _) entries) _
  · exact always_text inherited _
  · exact always_items inherited (always_checkEnumItem inherited)
  · exact always_number inherited _

theorem always_checkService : Always @property checkService := by
  apply always_record inherited
  intro entries
  iterate 4 refine inherited.applicative_seq ?_ (holds_part inherited (by decide) ?_ entries)
  · exact inherited.applicative_map
      (holds_part inherited (by decide) (always_literal inherited _) entries) _
  · exact always_text inherited _
  · exact always_optional inherited (always_text inherited _)
  · exact always_items inherited (always_checkFunction inherited)
  · exact always_number inherited _

theorem always_checkDefinition : Always @property checkDefinition := by
  intro data
  unfold checkDefinition
  split
  · dsimp only
    split
    · next check selected =>
        split at selected
        · rcases check_of_kind selected with ⟨kind, _, rfl⟩ | ⟨_, rfl⟩ | ⟨_, rfl⟩ | ⟨_, rfl⟩
          · exact inherited.map _ (always_checkStruct inherited kind _)
          · exact inherited.map _ (always_checkTypedef inherited _)
          · exact inherited.map _ (always_checkEnum inherited _)
          · exact inherited.map _ (always_checkService inherited _)
        · cases selected
    · exact inherited.under (by decide) (inherited.refused _)
  · exact holds_wrongKind inherited _ _

/-- What verdicts get from the verdicts on parts, the verdict on a document
has. -/
theorem always_checkDocument : Always @property checkDocument := by
  apply always_record inherited
  intro entries
  refine inherited.applicative_seq ?_ (holds_part inherited (by decide) ?_ entries)
  · exact inherited.applicative_map (holds_part inherited (by decide)
      (always_items inherited (always_checkDefinition inherited)) entries) _
  · exact always_number inherited _

end Inherited

/-- A document that is refused has an issue. -/
theorem explained_checkDocument (data : Option Value) : (checkDocument data).Explained :=
  always_checkDocument Verdict.inherited_explained data

/-- The paths of a document's issues have plain steps only. -/
theorem traced_checkDocument (data : Option Value) : (checkDocument data).Traced :=
  always_checkDocument Verdict.inherited_traced data

end IdlLinker.Written
