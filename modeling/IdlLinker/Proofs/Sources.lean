import IdlLinker.Proofs.Defaults
import IdlLinker.Proofs.RoundTrip

/-!
# The nodes of loaded definitions

What is accepted at a node and read without a note stands at that node: each
definition at a mapping of the document, its fields, functions and items at the
mappings in it, in order, and a bare name at an item.
-/

namespace IdlLinker.Load

open Value (lineKey)
open Yaml (Node Parsed Reader)
open Shape

/-! ## Paths -/

theorem isDigit_of_mem_toString {number : Nat} {character : Char}
    (member : character ∈ (toString number).toList) : character.isDigit = true := by
  have digits : character ∈ Nat.toDigits 10 number := by simpa using member
  exact Nat.isDigit_of_mem_toDigits (by decide) (by decide) digits

/-- The items of a definition are the only part of it where bare names are
taken as items. -/
theorem isItemsPath_part (position : Nat) {key : String} (plain : '.' ∉ key.toList) :
    isItemsPath (pathOf (pathOf (pathOf "document" "definitions") (toString position)) key) =
      (key == "items") := by
  have undotted : '.' ∉ (toString position).toList :=
    fun member => absurd (isDigit_of_mem_toString member) (by decide)
  have segments : Name.segments
      (pathOf (pathOf (pathOf "document" "definitions") (toString position)) key).toList =
        ["document".toList, "definitions".toList, (toString position).toList, key.toList] := by
    have path : (pathOf (pathOf (pathOf "document" "definitions") (toString position)) key).toList =
        "document".toList ++ '.' :: ("definitions".toList ++ '.' ::
          ((toString position).toList ++ '.' :: key.toList)) := by
      simp [pathOf]
    rw [path, Name.segments_append_dot (by decide), Name.segments_append_dot (by decide),
      Name.segments_append_dot undotted, Name.segments_of_not_mem plain]
  have digits : (toString position).toList.all Char.isDigit = true :=
    List.all_eq_true.mpr fun character member => isDigit_of_mem_toString member
  have some : (toString position).toList.isEmpty = false := by simp
  unfold isItemsPath
  rw [segments]
  dsimp only
  rw [digits, some, Bool.eq_iff_iff]
  simp [← String.toList_inj]

variable {document : Parsed} {path readPath : String} {position : Nat} {item : Node}
  {entries : List (String × Value)}

/-- A record at an item is located there, or a bare name is taken as an item. -/
theorem record_cases (same : itemData document path position item = .record entries)
    (lined : Record.get? entries lineKey ≠ none) :
    Recorded document (pathOf path (toString position)) item entries ∨
      isItemsPath path = true ∧ ∃ name start, item = .scalar (.text name) start ∧
        entries = ("name", .text name) :: lineEntry (start.map document.lineAt) := by
  by_cases bare : ∃ name start, item = .scalar (.text name) start
  · rcases bare with ⟨name, start, rfl⟩
    rw [itemData] at same
    split at same
    · next inItems =>
        cases same
        exact Or.inr ⟨inItems, name, start, rfl, rfl⟩
    · cases same
  · rw [itemData.eq_2 _ _ _ _ fun name start same => bare ⟨name, start, same⟩] at same
    exact Or.inl ⟨same, lined⟩

theorem get?_bareItem {name key : String} (line : Option Number)
    (ordinary : key ≠ "name" ∧ key ≠ lineKey) :
    Record.get? (("name", Value.text name) :: lineEntry line) key = none := by
  rw [Record.get?_cons, if_neg (Ne.symm ordinary.1)]
  cases line with
  | none => rfl
  | some line =>
      rw [lineEntry, Option.toList_some, List.map_singleton, Record.get?_cons,
        if_neg (Ne.symm ordinary.2)]
      rfl

theorem ne_none_of_line {line : Number}
    (accepted : Shape.line (Record.get? entries "line") = .valid line) :
    Record.get? entries lineKey ≠ none := by
  rw [show Record.get? entries lineKey = some (.number line) from (line_eq_valid_iff.mp accepted).1]
  exact nofun

/-- A record with more than a name and a line is located at a mapping. -/
theorem recorded_of_get? (same : itemData document path position item = .record entries)
    (lined : Record.get? entries lineKey ≠ none) (key : String)
    (ordinary : key ≠ "name" ∧ key ≠ lineKey) (found : Record.get? entries key ≠ none) :
    Recorded document (pathOf path (toString position)) item entries := by
  rcases record_cases same lined with located | ⟨_, name, start, rfl, rfl⟩
  · exact located
  · exact absurd (get?_bareItem _ ordinary) found

theorem eq_text_of_typeText (data : Value) (text : String)
    (valid : typeText (some data) = .valid text) : data = .text text :=
  Option.some.inj (typeText_eq_valid_iff.mp valid).1

theorem eq_text_of_serviceName (data : Value) (text : String)
    (valid : serviceName (some data) = .valid text) : data = .text text :=
  Option.some.inj (serviceName_eq_valid_iff.mp valid).1

section Members

variable {node : Node} (record : Recorded document path node entries)

include record

theorem text?_of_identifier {name : String}
    (accepted : identifier (Record.get? entries "name") = .valid name) :
    document.text? node "name" = some name :=
  text?_of_get? record (by decide) (identifier_eq_valid_iff.mp accepted).1

theorem nodeLine?_of_line {line : Number}
    (accepted : Shape.line (Record.get? entries "line") = .valid line) :
    nodeLine? document node = some line :=
  nodeLine?_of_get? record (line_eq_valid_iff.mp accepted).1

end Members

/-! ## Fields and functions -/

theorem typeAt_of_readType {node : Node} {key expression : String} {line : Number}
    (given : document.text? node key = some expression)
    (clean : (Written.readType readPath expression line).notes = []) :
    TypeAt document node key line (Written.readType readPath expression line).value where
  parsed := ⟨expression, given, Written.parse_of_readType clean⟩
  onLine := (Written.loadable_readType clean).onLine

theorem fieldAt_of_check {field : Written.Field}
    (accepted : Written.checkField (some (itemData document path position item)) = .valid field)
    (clean : (field.read readPath).notes = []) :
    FieldAt document item (field.read readPath).value := by
  rcases Written.checkField_eq_valid_iff.mp accepted with
    ⟨entries, same, _, id, name, type, _, default, line⟩
  have typed := (typeText_eq_valid_iff.mp type).1
  have record := recorded_of_get? (Option.some.inj same) (ne_none_of_line line) "type" (by decide)
    (by rw [typed]; exact nofun)
  simp only [Written.Field.read, Noted.notes_bind, Noted.notes_pure, List.append_nil] at clean
  exact {
    id := number?_of_optional record (by decide) id
    name := text?_of_identifier record name
    type := typeAt_of_readType (text?_of_get? record (by decide) typed) clean
    default := defaultAt_of_check record default
    line := nodeLine?_of_line record line }

/-- Results that are accepted at the items of a mapping, and read without a note,
stand there. -/
theorem forall₂_of_read {α β : Type} {check : Check α} {read : String → α → Written.Diagnosed β}
    {stands : Node → β → Prop} {node : Node} {key : String} {results : List α}
    (each : ∀ position item result readPath,
      check (some (itemData document (pathOf path key) position item)) = .valid result →
        (read readPath result).notes = [] → stands item (read readPath result).value)
    (record : Recorded document path node entries)
    (ordinary : key ≠ lineKey ∧ key ≠ defaultKey)
    (accepted : withDefault [] (list check) (Record.get? entries key) = .valid results)
    (clean : (Written.readEach read readPath 0 results).notes = []) :
    List.Forall₂ stands (document.parts node key)
      (Written.readEach read readPath 0 results).value := by
  refine forall₂_compose ?_ (forall₂_of_list record ordinary accepted)
    (Written.forall₂_readEach clean)
  rintro item result value ⟨position, valid⟩ ⟨path, noteless, rfl⟩
  exact each position item result path valid noteless

theorem functionAt_of_check {function : Written.Function} (functions : isItemsPath path = false)
    (accepted : Written.checkFunction (some (itemData document path position item)) =
      .valid function)
    (clean : (function.read readPath).notes = []) :
    FunctionAt document item (function.read readPath).value := by
  rcases Written.checkFunction_eq_valid_iff.mp accepted with
    ⟨entries, same, _, name, returns, _, args, throws, line⟩
  have record := (record_cases (Option.some.inj same) (ne_none_of_line line)).resolve_right
    (by simp [functions])
  have named := text?_of_identifier record name
  have lined := nodeLine?_of_line record line
  have returned := text?_of_optional eq_text_of_typeText record (by decide) returns
  rcases function with ⟨_, _ | expression, _, _, _, _⟩
  · simp only [Written.Function.read, Noted.pure_bind, Noted.notes_bind, Noted.notes_pure,
      List.append_nil, List.append_eq_nil_iff] at clean
    exact {
      name := named
      returns := fun _ none => absurd none (Option.not_mem_none _)
      args := forall₂_of_read (fun _ _ _ _ => fieldAt_of_check) record (by decide) args clean.1
      throws := forall₂_of_read (fun _ _ _ _ => fieldAt_of_check) record (by decide) throws clean.2
      line := lined }
  · simp only [Written.Function.read, Noted.pure_bind, Noted.notes_bind, Noted.notes_pure,
      List.append_nil, List.append_eq_nil_iff] at clean
    refine {
      name := named
      returns := ?_
      args := forall₂_of_read (fun _ _ _ _ => fieldAt_of_check) record (by decide) args clean.2.1
      throws :=
        forall₂_of_read (fun _ _ _ _ => fieldAt_of_check) record (by decide) throws clean.2.2
      line := lined }
    rintro type ⟨⟩
    exact typeAt_of_readType returned clean.1

/-! ## Enum items -/

theorem declaredName?_of_record (record : Recorded document path item entries) :
    declaredName? document item = document.text? item "name" := by
  rcases record.exists_pairs with ⟨pairs, start, rfl, _⟩
  rfl

/-- Among items no text is left bare. -/
theorem itemData_ne_text (items : isItemsPath path = true) (text : String) :
    itemData document path position item ≠ .text text := by
  intro same
  by_cases bare : ∃ name start, item = .scalar (.text name) start
  · rcases bare with ⟨name, start, rfl⟩
    rw [itemData, if_pos items] at same
    cases same
  · rw [itemData.eq_2 _ _ _ _ fun name start same => bare ⟨name, start, same⟩] at same
    rcases eq_scalar_of_text same with ⟨start, rfl⟩
    exact bare ⟨text, start, rfl⟩

theorem itemAt_bareItem {name given : String} {start : Option Nat} {value : Option Number}
    {line : Number} (isName : identifier (Record.get?
      (("name", .text name) :: lineEntry (start.map document.lineAt)) "name") = .valid given)
    (isValue : optional integer (Record.get?
      (("name", .text name) :: lineEntry (start.map document.lineAt)) "value") = .valid value)
    (isLine : Shape.line (Record.get?
      (("name", .text name) :: lineEntry (start.map document.lineAt)) "line") = .valid line) :
    ItemAt document (.scalar (.text name) start) ⟨given, value, line⟩ := by
  cases start with
  | none => cases (line_eq_valid_iff.mp isLine).1
  | some start =>
      cases (identifier_eq_valid_iff.mp isName).1
      cases (line_eq_valid_iff.mp isLine).1
      cases isValue
      exact ⟨rfl, rfl, rfl⟩

theorem itemAt_of_check {result : Written.EnumItem} (items : isItemsPath path = true)
    (accepted : Written.checkEnumItem (some (itemData document path position item)) =
      .valid result) (line : Number) : ItemAt document item (result.read line) := by
  rcases Written.checkEnumItem_eq_valid_iff.mp accepted with ⟨name, rfl, bare⟩ | full
  · exact absurd (Option.some.inj (identifier_eq_valid_iff.mp bare).1) (itemData_ne_text items name)
  · rcases Written.checkFullItem_eq_valid_iff.mp full with
      ⟨entries, name, value, own, same, rfl, _, isName, isValue, isLine⟩
    rcases record_cases (Option.some.inj same) (ne_none_of_line isLine) with
      record | ⟨_, text, start, rfl, rfl⟩
    · exact {
        name := (declaredName?_of_record record).trans
          (text?_of_identifier record isName)
        value := number?_of_optional record (by decide) isValue
        line := nodeLine?_of_line record isLine }
    · exact itemAt_bareItem isName isValue isLine

/-! ## Definitions -/

section Definitions

variable (record : Recorded document
  (pathOf (pathOf "document" "definitions") (toString position)) item entries)

include record

theorem structAt_of_check {kind : StructKind} {body : Written.Struct}
    (accepted : Written.checkStruct kind (some (.record entries)) = .valid body)
    (clean : ((Written.Definition.struct body).read readPath).notes = []) :
    DefinitionAt document item ((Written.Definition.struct body).read readPath).value := by
  rcases Written.checkStruct_eq_valid_iff.mp accepted with
    ⟨_, same, _, kindWord, name, fields, line, rfl⟩
  cases same
  simp only [Written.Definition.read, Noted.notes_bind, Noted.notes_pure, List.append_nil] at clean
  exact {
    kind := text?_of_get? record (by decide) kindWord
    name := text?_of_identifier record name
    body := forall₂_of_read (fun _ _ _ _ => fieldAt_of_check) record (by decide) fields clean
    line := nodeLine?_of_line record line }

theorem typedefAt_of_check {body : Written.Typedef}
    (accepted : Written.checkTypedef (some (.record entries)) = .valid body)
    (clean : ((Written.Definition.typedef body).read readPath).notes = []) :
    DefinitionAt document item ((Written.Definition.typedef body).read readPath).value := by
  rcases Written.checkTypedef_eq_valid_iff.mp accepted with
    ⟨_, same, _, kindWord, name, type, line⟩
  cases same
  simp only [Written.Definition.read, Noted.notes_bind, Noted.notes_pure, List.append_nil] at clean
  exact {
    kind := text?_of_get? record (by decide) kindWord
    name := text?_of_identifier record name
    body := typeAt_of_readType
      (text?_of_get? record (by decide) (typeText_eq_valid_iff.mp type).1) clean
    line := nodeLine?_of_line record line }

theorem enumAt_of_check {body : Written.Enum}
    (accepted : Written.checkEnum (some (.record entries)) = .valid body) :
    DefinitionAt document item ((Written.Definition.enum body).read readPath).value := by
  rcases Written.checkEnum_eq_valid_iff.mp accepted with
    ⟨_, same, _, kindWord, name, items, line⟩
  cases same
  -- the path of the items is the one place where a bare name is an item
  have inItems := isItemsPath_part position (show '.' ∉ "items".toList by decide)
  have each := forall₂_of_list record (by decide) items
  exact {
    kind := text?_of_get? record (by decide) kindWord
    name := text?_of_identifier record name
    body := List.forall₂_map_right_iff.mpr (each.imp fun _ _ accepted =>
      itemAt_of_check inItems accepted.choose_spec body.line)
    line := nodeLine?_of_line record line }

theorem serviceAt_of_check {body : Written.Service}
    (accepted : Written.checkService (some (.record entries)) = .valid body)
    (clean : ((Written.Definition.service body).read readPath).notes = []) :
    DefinitionAt document item ((Written.Definition.service body).read readPath).value := by
  rcases Written.checkService_eq_valid_iff.mp accepted with
    ⟨_, same, _, kindWord, name, parent, functions, line⟩
  cases same
  have notItems := isItemsPath_part position (show '.' ∉ "functions".toList by decide)
  simp only [Written.Definition.read, Noted.notes_bind, Noted.notes_pure, List.append_nil] at clean
  refine {
    kind := text?_of_get? record (by decide) kindWord
    name := text?_of_identifier record name
    body := ⟨?_, ?_, forall₂_of_read (fun _ _ _ _ => functionAt_of_check notItems) record
      (by decide) functions clean⟩
    line := nodeLine?_of_line record line }
  · rw [text?_of_optional eq_text_of_serviceName record (by decide) parent, Option.map_map]
    exact Option.map_id'.symm
  · intro found member
    rcases Option.map_eq_some_iff.mp member with ⟨own, _, rfl⟩
    rfl

end Definitions

/-- The check that a kind selects accepts no record without a line. -/
theorem ne_none_of_selected {kind : String} {check : Check Written.Definition}
    {definition : Written.Definition} (selected : Written.checkOfKind? kind = some check)
    (valid : check (some (.record entries)) = .valid definition) :
    Record.get? entries lineKey ≠ none := by
  rcases Written.check_of_kind selected with ⟨_, _, rfl⟩ | ⟨_, rfl⟩ | ⟨_, rfl⟩ | ⟨_, rfl⟩
  · rcases Verdict.map_eq_valid_iff.mp valid with ⟨body, isStruct, rfl⟩
    rcases Written.checkStruct_eq_valid_iff.mp isStruct with ⟨_, ⟨⟩, _, _, _, _, line, _⟩
    exact ne_none_of_line line
  · rcases Verdict.map_eq_valid_iff.mp valid with ⟨body, isTypedef, rfl⟩
    rcases Written.checkTypedef_eq_valid_iff.mp isTypedef with ⟨_, ⟨⟩, _, _, _, _, line⟩
    exact ne_none_of_line line
  · rcases Verdict.map_eq_valid_iff.mp valid with ⟨body, isEnum, rfl⟩
    rcases Written.checkEnum_eq_valid_iff.mp isEnum with ⟨_, ⟨⟩, _, _, _, _, line⟩
    exact ne_none_of_line line
  · rcases Verdict.map_eq_valid_iff.mp valid with ⟨body, isService, rfl⟩
    rcases Written.checkService_eq_valid_iff.mp isService with ⟨_, ⟨⟩, _, _, _, _, _, line⟩
    exact ne_none_of_line line

/-- An item that is accepted as a definition is located at a mapping, whose kind
selects the check. -/
theorem exists_recorded_of_check {definition : Written.Definition}
    (accepted : Written.checkDefinition (some (itemData document path position item)) =
      .valid definition) :
    ∃ entries kind check, Recorded document (pathOf path (toString position)) item entries ∧
      Record.get? entries "kind" = some (.text kind) ∧
      Written.checkOfKind? kind = some check ∧
      check (some (.record entries)) = .valid definition := by
  rcases Written.checkDefinition_eq_valid_iff.mp accepted with
    ⟨entries, kind, check, same, found, selected, valid⟩
  rw [same] at valid
  have record := recorded_of_get? (Option.some.inj same) (ne_none_of_selected selected valid)
    "kind" (by decide) (by rw [found]; exact nofun)
  exact ⟨entries, kind, check, record, found, selected, valid⟩

theorem definitionAt_of_check {definition : Written.Definition}
    (accepted : Written.checkDefinition
      (some (itemData document (pathOf "document" "definitions") position item)) =
        .valid definition) (clean : (definition.read readPath).notes = []) :
    DefinitionAt document item (definition.read readPath).value := by
  rcases exists_recorded_of_check accepted with ⟨entries, kind, _, record, _, selected, valid⟩
  rcases Written.check_of_kind selected with ⟨_, _, rfl⟩ | ⟨_, rfl⟩ | ⟨_, rfl⟩ | ⟨_, rfl⟩
  · rcases Verdict.map_eq_valid_iff.mp valid with ⟨body, isStruct, rfl⟩
    exact structAt_of_check record isStruct clean
  · rcases Verdict.map_eq_valid_iff.mp valid with ⟨body, isTypedef, rfl⟩
    exact typedefAt_of_check record isTypedef clean
  · rcases Verdict.map_eq_valid_iff.mp valid with ⟨body, isEnum, rfl⟩
    exact enumAt_of_check record isEnum
  · rcases Verdict.map_eq_valid_iff.mp valid with ⟨body, isService, rfl⟩
    exact serviceAt_of_check record isService clean

/-- The root of an accepted document is a mapping. -/
theorem recorded_root {content : Node} (given : document.content = some content)
    (same : some (sourceData document) = some (.record entries)) {line : Number}
    (accepted : Shape.line (Record.get? entries "line") = .valid line) :
    Recorded document "document" content entries := by
  rw [sourceData, given] at same
  exact ⟨Option.some.inj same, ne_none_of_line accepted⟩

/-- The definitions of a text stand at its nodes, one by one and in order. -/
theorem forall₂_definitionAt {read : Reader} {text : String} {limits : Limits}
    {definitions : List Definition}
    (loaded : (loadWith read text limits).definitions = some definitions) :
    List.Forall₂ (DefinitionAt (read text)) (definitionNodes (read text)) definitions := by
  rcases exists_document_of_load loaded with ⟨document, accepted, clean, rfl⟩
  rcases Written.checkDocument_eq_valid_iff.mp accepted with ⟨entries, same, _, each, line⟩
  cases given : (read text).content with
  | some content =>
      have record := recorded_root given same line
      rw [definitionNodes, given]
      exact forall₂_of_read (fun _ _ _ _ => definitionAt_of_check) record (by decide) each clean
  | none =>
      rw [definitionNodes, given]
      rw [sourceData, given] at same
      cases Option.some.inj same
      rcases withDefault_eq_valid_iff.mp each with ⟨_, empty⟩ | ⟨data, found, _⟩
      · rw [Written.Document.read, empty]
        exact List.Forall₂.nil
      · cases found

end IdlLinker.Load
