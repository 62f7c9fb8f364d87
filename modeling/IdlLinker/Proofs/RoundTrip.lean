import IdlLinker.Proofs.Encoding
import IdlLinker.Proofs.Loading

/-!
# Definitions and their data

Definitions that can be loaded are given back from their data, without a
diagnostic, however members that may be left out are spelled.  Whatever a text
is loaded as can be loaded.
-/

namespace IdlLinker

/-! ## Reading written forms back -/

namespace Written

theorem requirednessOf_isRequired (requiredness : Requiredness) :
    requirednessOf requiredness.isRequired = requiredness := by
  cases requiredness <;> rfl

theorem read_writtenField {field : IdlLinker.Field} (loadable : field.Loadable) (path : String) :
    field.written.read path = pure field := by
  have requiredness : (field.requiredness.map Requiredness.isRequired).map requirednessOf =
      field.requiredness := by
    cases field.requiredness <;> simp [requirednessOf_isRequired]
  simp [Field.read, readType_text loadable.type, requiredness]

theorem read_writtenFunction {function : IdlLinker.Function} (loadable : function.Loadable)
    (path : String) : function.written.read path = pure function := by
  have parameters := readEach_map fun field member =>
    read_writtenField (loadable.parameters field member)
  have exceptions := readEach_map fun field member =>
    read_writtenField (loadable.exceptions field member)
  rcases function with ⟨name, _ | type, fields, faults, oneway, line⟩
  · simp [Function.read, parameters, exceptions]
  · have returns := readType_text (loadable.returnType type rfl)
    simp [Function.read, parameters, exceptions, returns]

theorem read_writtenItem (line : Number) (item : IdlLinker.EnumItem) :
    item.written.read line = item := rfl

/-- The written form of a definition that can be loaded is read back. -/
theorem read_writtenDefinition {definition : IdlLinker.Definition} (loadable : definition.Loadable)
    (path : String) : definition.written.read path = pure definition := by
  have body := loadable.body
  cases definition with
  | struct definition =>
      have fields := readEach_map fun field member => read_writtenField (body field member)
      simp [IdlLinker.Definition.written, Definition.read, fields]
  | typedef definition =>
      simp [IdlLinker.Definition.written, Definition.read, readType_text body]
  | enum definition =>
      simp [IdlLinker.Definition.written, Definition.read, Function.comp_def, read_writtenItem]
  | service definition =>
      have functions := readEach_map fun function member =>
        read_writtenFunction (body.2 function member)
      rcases definition with ⟨name, _ | ⟨parent, own⟩, _, line⟩
      · simp [IdlLinker.Definition.written, Definition.read, functions]
      · obtain rfl : own = line := (body.1 _ rfl).2
        simp [IdlLinker.Definition.written, Definition.read, functions]

end Written

/-! ## What is accepted can be loaded -/

namespace Shape

mutual

/-- A constant is kept as it is. -/
theorem constant?_of_constant? : ∀ {value kept : Value}, constant? value = some kept →
    constant? kept = some kept
  | .boolean _, _, found | .text _, _, found | .number (.infinite _), _, found
  | .number (.finite _), _, found => by
      cases found
      rfl
  | .list items, _, found => by
      rcases Option.map_eq_some_iff.mp found with ⟨kept, inside, rfl⟩
      simp [constant?, constantItems?_of_constantItems? inside]
  | .record entries, _, found => by
      rcases Option.map_eq_some_iff.mp found with ⟨kept, inside, rfl⟩
      simp [constant?, constantEntries?_of_constantEntries? inside]

theorem constantItems?_of_constantItems? : ∀ {items kept : List Value},
    constantItems? items = some kept → constantItems? kept = some kept
  | [], _, found => by
      cases found
      rfl
  | item :: rest, _, found => by
      simp only [constantItems?, Option.bind_eq_bind, Option.bind_eq_some_iff, Option.pure_def,
        Option.some.injEq] at found
      rcases found with ⟨first, isFirst, others, areOthers, rfl⟩
      simp [constantItems?, constant?_of_constant? isFirst,
        constantItems?_of_constantItems? areOthers]

theorem constantEntries?_of_constantEntries? : ∀ {entries kept : List (String × Value)},
    constantEntries? entries = some kept → constantEntries? kept = some kept
  | [], _, found => by
      cases found
      rfl
  | (key, value) :: rest, _, found => by
      simp only [constantEntries?, Option.bind_eq_bind, Option.bind_eq_some_iff, Option.pure_def,
        Option.some.injEq] at found
      rcases found with ⟨first, isFirst, others, areOthers, rfl⟩
      have kept := constantEntries?_of_constantEntries? areOthers
      split
      · exact kept
      · next named => simp [constantEntries?, constant?_of_constant? isFirst, kept, named]

end

variable {α : Type} {check : Check α} {data : Option Value}

theorem accepted_of_mem_optional {result : Option α}
    (accepted : optional check data = .valid result) :
    ∀ value ∈ result, ∃ found, check (some found) = .valid value := by
  rcases optional_eq_valid_iff.mp accepted with ⟨_, rfl⟩ | ⟨found, value, _, valid, rfl⟩
  · simp
  · simpa using ⟨found, valid⟩

theorem accepted_of_mem {values : List Value} {results : List α}
    (each : List.Forall₂ (fun value result => check (some value) = .valid result) values results) :
    ∀ result ∈ results, ∃ found, check (some found) = .valid result := by
  induction each with
  | nil => simp
  | cons first _ hypothesis => exact List.forall_mem_cons.mpr ⟨⟨_, first⟩, hypothesis⟩

theorem accepted_of_mem_list {results : List α}
    (accepted : withDefault [] (list check) data = .valid results) :
    ∀ result ∈ results, ∃ found, check (some found) = .valid result := by
  rcases withDefault_eq_valid_iff.mp accepted with ⟨_, rfl⟩ | ⟨_, _, valid⟩
  · simp
  · rcases list_eq_valid_iff.mp valid with ⟨values, _, each⟩
    exact accepted_of_mem each

theorem isInteger_of_optional {result : Option Number}
    (accepted : optional integer data = .valid result) :
    ∀ value ∈ result, value.isInteger = true := by
  intro value member
  rcases accepted_of_mem_optional accepted value member with ⟨found, whole⟩
  exact (integer_eq_valid_iff.mp whole).2

end Shape

namespace Written

open Shape

variable {data : Option Value} {path : String}

theorem loadable_readField {field : Field} (accepted : checkField data = .valid field)
    (clean : (field.read path).notes = []) : (field.read path).value.Loadable := by
  rcases checkField_eq_valid_iff.mp accepted with
    ⟨entries, _, _, id, name, _, _, default, line⟩
  refine ⟨isInteger_of_optional id, (identifier_eq_valid_iff.mp name).2, ?_, ?_,
    (line_eq_valid_iff.mp line).2⟩
  · simp only [Field.read, Noted.notes_bind, Noted.notes_pure, List.append_nil] at clean
    exact loadable_readType clean
  · intro value member
    rcases accepted_of_mem_optional default value member with ⟨found, isConstant⟩
    rcases constant_eq_valid_iff.mp isConstant with ⟨_, _, kept⟩
    exact constant_eq_valid_iff.mpr ⟨_, rfl, constant?_of_constant? kept⟩

theorem loadable_readFields {fields : List Field}
    (accepted : withDefault [] (list checkField) data = .valid fields) {position : Nat}
    (clean : (readEach Field.read path position fields).notes = []) :
    ∀ field ∈ (readEach Field.read path position fields).value, field.Loadable := by
  refine forall_mem_readEach (fun field member path clean => ?_) clean
  rcases accepted_of_mem_list accepted field member with ⟨found, valid⟩
  exact loadable_readField valid clean

theorem loadable_readFunction {function : Function}
    (accepted : checkFunction data = .valid function) (clean : (function.read path).notes = []) :
    (function.read path).value.Loadable := by
  rcases checkFunction_eq_valid_iff.mp accepted with
    ⟨entries, _, _, name, _, _, args, throws, line⟩
  have named := (identifier_eq_valid_iff.mp name).2
  have lined := (line_eq_valid_iff.mp line).2
  rcases function with ⟨name, _ | returns, oneway, args, throws, line⟩
  · simp only [Function.read, Noted.pure_bind, Noted.notes_bind, Noted.notes_pure, List.append_nil,
      List.append_eq_nil_iff] at clean
    exact ⟨named, by simp [Function.read], loadable_readFields args clean.1,
      loadable_readFields throws clean.2, lined⟩
  · simp only [Function.read, Noted.pure_bind, Noted.notes_bind, Noted.notes_pure, List.append_nil,
      List.append_eq_nil_iff] at clean
    refine ⟨named, ?_, loadable_readFields args clean.2.1, loadable_readFields throws clean.2.2,
      lined⟩
    rintro type ⟨⟩
    exact loadable_readType clean.1

theorem loadable_readItem {item : EnumItem} (accepted : checkEnumItem data = .valid item)
    {line : Number} (isLine : line.IsLine) : (item.read line).Loadable := by
  rcases checkEnumItem_eq_valid_iff.mp accepted with ⟨name, rfl, isName⟩ | accepted
  · exact ⟨(identifier_eq_valid_iff.mp isName).2, by simp [EnumItem.read], isLine⟩
  · rcases checkFullItem_eq_valid_iff.mp accepted with
      ⟨entries, name, value, own, _, rfl, _, isName, isValue, isOwn⟩
    exact ⟨(identifier_eq_valid_iff.mp isName).2, isInteger_of_optional isValue,
      (line_eq_valid_iff.mp isOwn).2⟩

theorem loadable_readStruct {kind : StructKind} {body : Struct}
    (accepted : checkStruct kind data = .valid body)
    (clean : ((Definition.struct body).read path).notes = []) :
    ((Definition.struct body).read path).value.Loadable := by
  rcases checkStruct_eq_valid_iff.mp accepted with ⟨_, _, _, _, name, fields, line, _⟩
  simp only [Definition.read, Noted.notes_bind, Noted.notes_pure, List.append_nil] at clean
  exact ⟨(identifier_eq_valid_iff.mp name).2, loadable_readFields fields clean,
    (line_eq_valid_iff.mp line).2⟩

theorem loadable_readTypedef {body : Typedef} (accepted : checkTypedef data = .valid body)
    (clean : ((Definition.typedef body).read path).notes = []) :
    ((Definition.typedef body).read path).value.Loadable := by
  rcases checkTypedef_eq_valid_iff.mp accepted with ⟨_, _, _, _, name, _, line⟩
  simp only [Definition.read, Noted.notes_bind, Noted.notes_pure, List.append_nil] at clean
  exact ⟨(identifier_eq_valid_iff.mp name).2, loadable_readType clean,
    (line_eq_valid_iff.mp line).2⟩

theorem loadable_readEnum {body : Enum} (accepted : checkEnum data = .valid body) :
    ((Definition.enum body).read path).value.Loadable := by
  rcases checkEnum_eq_valid_iff.mp accepted with ⟨_, _, _, _, name, items, line⟩
  have isLine := (line_eq_valid_iff.mp line).2
  refine ⟨(identifier_eq_valid_iff.mp name).2, List.forall_mem_map.mpr fun item member => ?_,
    isLine⟩
  rcases accepted_of_mem_list items item member with ⟨found, valid⟩
  exact loadable_readItem valid isLine

theorem loadable_readService {body : Service} (accepted : checkService data = .valid body)
    (clean : ((Definition.service body).read path).notes = []) :
    ((Definition.service body).read path).value.Loadable := by
  rcases checkService_eq_valid_iff.mp accepted with ⟨_, _, _, _, name, parent, functions, line⟩
  simp only [Definition.read, Noted.notes_bind, Noted.notes_pure, List.append_nil] at clean
  refine ⟨(identifier_eq_valid_iff.mp name).2, ⟨?_, ?_⟩, (line_eq_valid_iff.mp line).2⟩
  · intro found member
    rcases Option.map_eq_some_iff.mp member with ⟨parentName, isParent, rfl⟩
    rcases accepted_of_mem_optional parent parentName isParent with ⟨_, valid⟩
    exact ⟨Name.isQualified_iff.mp (serviceName_eq_valid_iff.mp valid).2, rfl⟩
  · refine forall_mem_readEach (fun function member path clean => ?_) clean
    rcases accepted_of_mem_list functions function member with ⟨found, valid⟩
    exact loadable_readFunction valid clean

/-- A definition that is accepted and read without a note can be loaded. -/
theorem loadable_readDefinition {definition : Definition}
    (accepted : checkDefinition data = .valid definition)
    (clean : (definition.read path).notes = []) : (definition.read path).value.Loadable := by
  rcases checkDefinition_eq_valid_iff.mp accepted with ⟨_, kind, _, _, _, selected, valid⟩
  rcases check_of_kind selected with ⟨_, _, rfl⟩ | ⟨_, rfl⟩ | ⟨_, rfl⟩ | ⟨_, rfl⟩
  · rcases Verdict.map_eq_valid_iff.mp valid with ⟨body, isStruct, rfl⟩
    exact loadable_readStruct isStruct clean
  · rcases Verdict.map_eq_valid_iff.mp valid with ⟨body, isTypedef, rfl⟩
    exact loadable_readTypedef isTypedef clean
  · rcases Verdict.map_eq_valid_iff.mp valid with ⟨body, isEnum, rfl⟩
    exact loadable_readEnum isEnum
  · rcases Verdict.map_eq_valid_iff.mp valid with ⟨body, isService, rfl⟩
    exact loadable_readService isService clean

theorem loadable_readDocument {document : Document}
    (accepted : checkDocument data = .valid document) (clean : document.read.notes = []) :
    ∀ definition ∈ document.read.value, definition.Loadable := by
  rcases checkDocument_eq_valid_iff.mp accepted with ⟨_, _, _, definitions, _⟩
  refine forall_mem_readEach (fun definition member path clean => ?_) clean
  rcases accepted_of_mem_list definitions definition member with ⟨found, valid⟩
  exact loadable_readDefinition valid clean

end Written

namespace Load

open Yaml (Reader)

/-! ## Loading -/

/-- Definitions that can be loaded are given back from their data. -/
theorem loadData_data {definitions : List Definition} {line : Number}
    (loadable : ∀ definition ∈ definitions, definition.Loadable) (isLine : line.IsLine)
    (spelling : Spelling) (limit : Nat) :
    loadData limit (documentData spelling line definitions) = ⟨some definitions, []⟩ := by
  have accepted := Written.checkDocument_data loadable isLine spelling
  have read : Written.Document.read ⟨definitions.map Definition.written, line⟩ =
      pure definitions :=
    Written.readEach_map (fun definition member =>
      Written.read_writtenDefinition (loadable definition member)) _ _
  simp [loadData, accepted, Verdict.valid, read]

/-- What data is loaded as is read from its written form without a note. -/
theorem exists_document_of_loadData {limit : Nat} {data : Value} {definitions : List Definition}
    (loaded : (loadData limit data).definitions = some definitions) :
    ∃ document, Written.checkDocument (some data) = .valid document ∧
      document.read.notes = [] ∧ document.read.value = definitions := by
  unfold loadData at loaded
  dsimp only at loaded
  split at loaded
  · next document value issues =>
      have errors := Written.allErrors_readDocument document
      split at loaded
      · cases loaded
      · next clean =>
          cases loaded
          rw [errors.hasErrors_iff_ne_nil, not_not] at clean
          exact ⟨document, Verdict.eq_valid_iff.mpr ⟨value, issues⟩, clean, rfl⟩
  · cases loaded

theorem exists_document_of_load {read : Reader} {text : String} {limits : Limits}
    {definitions : List Definition}
    (loaded : (loadWith read text limits).definitions = some definitions) :
    ∃ document, Written.checkDocument (some (sourceData (read text))) = .valid document ∧
      document.read.notes = [] ∧ document.read.value = definitions := by
  unfold loadWith loadParsed at loaded
  dsimp only at loaded
  split at loaded
  · cases loaded
  · split at loaded
    · unfold sourceData
      split at loaded
      · next none =>
          rw [none]
          exact exists_document_of_loadData loaded
      · next content given =>
          rw [given]
          split at loaded
          · cases loaded
          · exact exists_document_of_loadData loaded
    · cases loaded

/-- What a text is loaded as can be loaded. -/
theorem loadable_of_load {read : Reader} {text : String} {limits : Limits}
    {definitions : List Definition}
    (loaded : (loadWith read text limits).definitions = some definitions) :
    ∀ definition ∈ definitions, definition.Loadable := by
  rcases exists_document_of_load loaded with ⟨document, accepted, clean, rfl⟩
  exact Written.loadable_readDocument accepted clean

/-- Definitions that can be loaded are given back from their data without a
diagnostic, and only such definitions are ever loaded, whatever reads the text. -/
theorem loaded_exact :
    (∀ (limit : Nat) (spelling : Spelling) (line : Number) (definitions : List Definition),
      line.IsLine → (∀ definition ∈ definitions, definition.Loadable) →
        loadData limit (documentData spelling line definitions) = ⟨some definitions, []⟩) ∧
    (∀ (read : Reader) (text : String) (limits : Limits) (definitions : List Definition),
      (loadWith read text limits).definitions = some definitions →
        ∀ definition ∈ definitions, definition.Loadable) := by
  refine ⟨?_, fun read text limits definitions loaded => loadable_of_load loaded⟩
  intro limit spelling line definitions isLine loadable
  exact loadData_data loadable isLine spelling limit

/-- A union with a default and a service with a parent. -/
def choiceAndStore : List Definition :=
  [.struct
    { kind := .union
      name := "Choice"
      fields :=
        [{ id := some (.ofInt 2)
           name := "left"
           type := .list (.named "shared.Item" (.ofInt 3)) (.ofInt 3)
           requiredness := some .optional
           defaultValue := some (.list [])
           line := .ofInt 3 }]
      line := .ofInt 2 },
   .service
    { name := "Store"
      parent := some ⟨"base.Store", .ofInt 5⟩
      functions :=
        [{ name := "drop", parameters := [], exceptions := [], oneway := true, line := .ofInt 6 }]
      line := .ofInt 5 }]

theorem loadable_choiceAndStore : ∀ definition ∈ choiceAndStore, definition.Loadable := by
  have item : TypeExpression.Loadable (.ofInt 3)
      (.list (.named "shared.Item" (.ofInt 3)) (.ofInt 3)) := by
    refine ⟨⟨Or.inr ⟨"shared", "Item", by decide, by decide, by decide⟩, ?_, by decide⟩, rfl, rfl⟩
    intro base
    cases base <;> decide
  have default : Shape.constant (some (.list [])) = .valid (.list []) := rfl
  refine List.forall_mem_cons.mpr ⟨⟨by decide, ?_, by decide⟩,
    List.forall_mem_singleton.mpr ⟨by decide, ⟨?_, ?_⟩, by decide⟩⟩
  · refine List.forall_mem_singleton.mpr ⟨?_, by decide, item, ?_, by decide⟩
    · rintro id ⟨⟩
      decide
    · rintro value ⟨⟩
      exact default
  · rintro parent ⟨⟩
    exact ⟨Or.inr ⟨"base", "Store", by decide, by decide, by decide⟩, rfl⟩
  · exact List.forall_mem_singleton.mpr
      ⟨by decide, by simp, by simp, by simp, by decide⟩

/-- A text that declares an enum. -/
def colorText : String :=
  "\x7bdefinitions: [\x7bkind: enum, name: Color, items: [red]\x7d]\x7d"

/-- An enum with one item. -/
def colorEnum : EnumDefinition where
  name := "Color"
  items := [{ name := "red", line := .ofInt 1 }]
  line := .ofInt 1

/-- Both directions at once: the data of a union and a service, and a text that
declares an enum. -/
theorem loaded_choiceAndStore :
    loadData 100 (documentData {} (.ofInt 1) choiceAndStore) = ⟨some choiceAndStore, []⟩ ∧
      (load colorText).definitions = some [.enum colorEnum] ∧
        ∀ definition ∈ [Definition.enum colorEnum], definition.Loadable := by
  have found : ((load colorText).definitions.map fun definitions =>
      definitions.map fun definition =>
        match definition with
        | .enum body => some body
        | _ => none) = some [some colorEnum] := by
    decide +kernel
  have loaded : (load colorText).definitions = some [.enum colorEnum] := by
    rcases Option.map_eq_some_iff.mp found with ⟨definitions, given, bodies⟩
    rcases List.map_eq_singleton_iff.mp bodies with ⟨definition, rfl, isEnum⟩
    cases definition with
    | enum body => rw [given, Option.some.inj isEnum]
    | _ => cases isEnum
  exact ⟨loaded_exact.1 100 {} (.ofInt 1) choiceAndStore (by decide) loadable_choiceAndStore,
    loaded, loaded_exact.2 Yaml.read colorText {} [.enum colorEnum] loaded⟩

end Load

end IdlLinker
