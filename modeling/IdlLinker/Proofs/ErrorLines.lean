import IdlLinker.Proofs.Pointing
import IdlLinker.Proofs.Sources

/-!
# Errors of loaded units

Where no mapping says its own line, what a loaded unit declares and mentions is
what its document does, on the same lines.  So the error that compiling or
linking the unit starts with points into the document.
-/

namespace IdlLinker.Load

open Value (lineKey)
open Yaml (Node Parsed Reader)

variable {document : Parsed} {nodes : List Node} {node : Node}

theorem lineOf?_eq_of_unlined {line : Number} (given : nodeLine? document node = some line)
    (unlined : document.has node lineKey = false) : document.lineOf? node = some line := by
  rw [nodeLine?, unlined] at given
  exact given

theorem mem_documentNamespaces (member : node ∈ definitionNodes document)
    (inside : nodes ∈ innerNodes document node) : nodes ∈ documentNamespaces document :=
  List.mem_cons_of_mem _ (List.mem_flatMap.mpr ⟨node, member, inside⟩)

/-! ## Declarations -/

/-- What stands at nodes declares what they declare. -/
theorem namesAt_eq {α : Type} {name : α → String} {line : α → Number} {items : List α}
    (stands : List.Forall₂ (fun node item => declaredName? document node = some (name item) ∧
      nodeLine? document node = some (line item)) nodes items)
    (unlined : ∀ node ∈ nodes, document.has node lineKey = false) :
    namesAt document nodes = items.map fun item => (name item, line item) := by
  induction stands with
  | nil => rfl
  | cons here _ hypothesis =>
      rw [List.forall_mem_cons] at unlined
      have others := hypothesis unlined.2
      unfold namesAt at others ⊢
      rw [List.filterMap_cons, here.1, lineOf?_eq_of_unlined here.2 unlined.1, List.map_cons,
        others]
      rfl

theorem declaredName?_of_text? {name : String} (given : document.text? node "name" = some name) :
    declaredName? document node = some name := by
  cases node with
  | scalar content start => cases given
  | _ => exact given

theorem namesAt_fields {fields : List Field} (stands : List.Forall₂ (FieldAt document) nodes fields)
    (unlined : ∀ node ∈ nodes, document.has node lineKey = false) :
    namesAt document nodes = Field.names fields :=
  namesAt_eq (stands.imp fun _ _ field => ⟨declaredName?_of_text? field.name, field.line⟩) unlined

theorem idsAt_fields {fields : List Field} (stands : List.Forall₂ (FieldAt document) nodes fields)
    (unlined : ∀ node ∈ nodes, document.has node lineKey = false) :
    idsAt document nodes = Field.ids fields := by
  apply filterMap_eq_of_forall₂ _ ((List.forall₂_and_left nodes fields).mpr ⟨unlined, stands⟩)
  rintro node field ⟨unlined, here⟩
  rw [here.id, lineOf?_eq_of_unlined here.line unlined]
  cases field.id <;> rfl

/-- The field groups of a definition stand at nodes in it. -/
theorem exists_fieldNodes {definition : Definition}
    (stands : DefinitionAt document node definition) {fields : List Field}
    (member : fields ∈ definition.fieldGroups) :
    ∃ nodes ∈ innerNodes document node, List.Forall₂ (FieldAt document) nodes fields := by
  have body := stands.body
  cases definition with
  | struct definition =>
      rw [List.mem_singleton.mp member]
      exact ⟨_, by simp [innerNodes], body⟩
  | typedef definition => cases member
  | enum definition => cases member
  | service definition =>
      rcases List.mem_flatMap.mp member with ⟨function, inside, isGroup⟩
      rcases exists_left_of_forall₂ body.2.2 inside with ⟨functionNode, nodeInside, held⟩
      have parts (key : String) (part : key = "args" ∨ key = "throws") :
          document.parts functionNode key ∈ innerNodes document node := by
        apply List.mem_append_right
        apply List.mem_flatMap.mpr
        exact ⟨functionNode, nodeInside, by rcases part with rfl | rfl <;> simp⟩
      rcases List.mem_cons.mp isGroup with rfl | isLast
      · exact ⟨_, parts "args" (Or.inl rfl), held.args⟩
      · rw [List.mem_singleton.mp isLast]
        exact ⟨_, parts "throws" (Or.inr rfl), held.throws⟩

/-- The names of the items or functions of a definition are declared at nodes in
it. -/
theorem exists_memberNodes {definition : Definition}
    (stands : DefinitionAt document node definition) {declared : List (String × Number)}
    (member : declared ∈ definition.memberNames) :
    ∃ nodes ∈ innerNodes document node, (∀ node ∈ nodes, document.has node lineKey = false) →
      namesAt document nodes = declared := by
  have body := stands.body
  cases definition with
  | struct definition => cases member
  | typedef definition => cases member
  | enum definition =>
      rw [List.mem_singleton.mp member]
      refine ⟨document.parts node "items", by simp [innerNodes], fun unlined => ?_⟩
      exact namesAt_eq (body.imp fun _ _ item => ⟨item.name, item.line⟩) unlined
  | service definition =>
      rw [List.mem_singleton.mp member]
      refine ⟨document.parts node "functions", by simp [innerNodes], fun unlined => ?_⟩
      exact namesAt_eq (body.2.2.imp fun _ _ function =>
        ⟨declaredName?_of_text? function.name, function.line⟩) unlined

/-! ## Mentions -/

/-- What a type mentions, the node that writes it does. -/
theorem mention_of_typeAt {key : String} (own : key = "type" ∨ key = "returns") {line : Number}
    {type : TypeExpression} (written : TypeAt document node key line type)
    (same : document.lineOf? node = some line) {reference : Reference}
    (mentioned : reference ∈ type.references) : reference.mention ∈ mentionsAt document node := by
  rcases written.parsed with ⟨expression, given, parsed⟩
  rw [mentionsAt, same]
  apply List.mem_append_left
  apply List.mem_map_of_mem
  apply List.mem_flatMap.mpr
  refine ⟨expression, ?_, ?_⟩
  · rcases own with rfl | rfl
    · exact List.mem_append_left _ (Option.mem_toList.mpr given)
    · exact List.mem_append_right _ (Option.mem_toList.mpr given)
  · rw [typeReferences, parsed]
    exact mentioned

/-- A node is the one of a definition, or one of those in it that declare
something. -/
def InDefinition (document : Parsed) (definition node : Node) : Prop :=
  node = definition ∨ ∃ nodes ∈ innerNodes document definition, node ∈ nodes

variable {definition : Definition}

/-- What a field group mentions, one of the nodes of its fields does. -/
theorem exists_mention_of_field (stands : DefinitionAt document node definition)
    {fields : List Field} (group : fields ∈ definition.fieldGroups) {field : Field}
    (member : field ∈ fields) {reference : Reference}
    (mentioned : reference ∈ field.type.references) :
    ∃ other, InDefinition document node other ∧
      (document.has other lineKey = false → reference.mention ∈ mentionsAt document other) := by
  rcases exists_fieldNodes stands group with ⟨nodes, inside, each⟩
  rcases exists_left_of_forall₂ each member with ⟨other, otherInside, held⟩
  refine ⟨other, Or.inr ⟨nodes, inside, otherInside⟩, fun unlined => ?_⟩
  exact mention_of_typeAt (Or.inl rfl) held.type (lineOf?_eq_of_unlined held.line unlined) mentioned

/-- What a function of a service mentions, its own node or one of its fields'
does. -/
theorem exists_mention_of_function {service : ServiceDefinition}
    (stands : DefinitionAt document node (.service service)) {function : Function}
    (member : function ∈ service.functions) {type : TypeExpression} (own : type ∈ function.types)
    {reference : Reference} (mentioned : reference ∈ type.references) :
    ∃ other, InDefinition document node other ∧
      (document.has other lineKey = false → reference.mention ∈ mentionsAt document other) := by
  have group (fields : List Field) (part : fields ∈ [function.parameters, function.exceptions]) :
      fields ∈ (Definition.service service).fieldGroups :=
    List.mem_flatMap.mpr ⟨function, member, part⟩
  rcases List.mem_append.mp own with front | inExceptions
  · rcases List.mem_append.mp front with inParameters | returned
    · rcases List.mem_map.mp inParameters with ⟨field, fieldMember, rfl⟩
      exact exists_mention_of_field stands (group _ List.mem_cons_self) fieldMember mentioned
    · rcases exists_left_of_forall₂ stands.body.2.2 member with ⟨other, otherInside, held⟩
      refine ⟨other, Or.inr ⟨_, by simp [innerNodes], otherInside⟩, fun unlined => ?_⟩
      have written := held.returns type (Option.mem_toList.mp returned)
      exact mention_of_typeAt (Or.inr rfl) written (lineOf?_eq_of_unlined held.line unlined)
        mentioned
  · rcases List.mem_map.mp inExceptions with ⟨field, fieldMember, rfl⟩
    exact exists_mention_of_field stands
      (group _ (List.mem_cons_of_mem _ (List.mem_singleton_self _))) fieldMember mentioned

/-- A service mentions the one it extends. -/
theorem mention_of_parent (stands : DefinitionAt document node definition) {parent : ServiceParent}
    (member : definition.parent? = some parent) (unlined : document.has node lineKey = false) :
    parent.reference.mention ∈ mentionsAt document node := by
  have line := lineOf?_eq_of_unlined stands.line unlined
  have body := stands.body
  cases definition with
  | service definition =>
      rw [mentionsAt, line]
      apply List.mem_append_right
      apply List.mem_map.mpr
      refine ⟨parent.name, ?_, congrArg (parent.name, ·) (body.2.1 parent member).symm⟩
      rw [body.1, show definition.parent = some parent from member]
      exact List.mem_singleton_self _
  | _ => cases member

/-- What a definition mentions, a node in it does. -/
theorem exists_mention (stands : DefinitionAt document node definition) {reference : Reference}
    (mentioned : reference ∈ definition.references) :
    ∃ other, InDefinition document node other ∧
      (document.has other lineKey = false → reference.mention ∈ mentionsAt document other) := by
  rcases List.mem_append.mp mentioned with inTypes | inParent
  · rcases List.mem_flatMap.mp inTypes with ⟨type, member, inside⟩
    cases definition with
    | struct definition =>
        rcases List.mem_map.mp member with ⟨field, fieldMember, rfl⟩
        exact exists_mention_of_field stands (List.mem_singleton_self _) fieldMember inside
    | typedef definition =>
        rw [List.mem_singleton.mp member] at inside
        refine ⟨node, Or.inl rfl, fun unlined => ?_⟩
        have same := lineOf?_eq_of_unlined stands.line unlined
        exact mention_of_typeAt (Or.inl rfl) stands.body same inside
    | enum definition => cases member
    | service definition =>
        rcases List.mem_flatMap.mp member with ⟨function, functionMember, own⟩
        exact exists_mention_of_function stands functionMember own inside
  · rcases List.mem_map.mp inParent with ⟨parent, member, rfl⟩
    exact ⟨node, Or.inl rfl, mention_of_parent stands (Option.mem_toList.mp member)⟩

/-! ## Units -/

section Units

variable {definitions : List Definition}
  (each : List.Forall₂ (DefinitionAt document) (definitionNodes document) definitions)
  (unlined : ∀ nodes ∈ documentNamespaces document, ∀ node ∈ nodes,
    document.has node lineKey = false)

include each unlined

theorem names_subset_documentOrigins :
    (Origins.ofUnit definitions).names ⊆ (documentOrigins document).names := by
  intro declared member
  apply List.mem_map.mpr
  rcases List.mem_append.mp member with front | inGroups
  · rcases List.mem_cons.mp front with rfl | inMembers
    · refine ⟨_, List.mem_cons_self, namesAt_eq ?_ (unlined _ List.mem_cons_self)⟩
      exact each.imp fun _ _ here => ⟨declaredName?_of_text? here.name, here.line⟩
    · rcases List.mem_flatMap.mp inMembers with ⟨definition, definitionMember, inside⟩
      rcases exists_left_of_forall₂ each definitionMember with ⟨node, nodeMember, stands⟩
      rcases exists_memberNodes stands inside with ⟨nodes, nodesInside, same⟩
      have isNamespace := mem_documentNamespaces nodeMember nodesInside
      exact ⟨nodes, isNamespace, same (unlined nodes isNamespace)⟩
  · rcases List.mem_map.mp inGroups with ⟨fields, isGroup, rfl⟩
    rcases List.mem_flatMap.mp isGroup with ⟨definition, definitionMember, inside⟩
    rcases exists_left_of_forall₂ each definitionMember with ⟨node, nodeMember, stands⟩
    rcases exists_fieldNodes stands inside with ⟨nodes, nodesInside, held⟩
    have isNamespace := mem_documentNamespaces nodeMember nodesInside
    exact ⟨nodes, isNamespace, namesAt_fields held (unlined nodes isNamespace)⟩

theorem ids_subset_documentOrigins :
    (Origins.ofUnit definitions).ids ⊆ (documentOrigins document).ids := by
  intro declared member
  apply List.mem_map.mpr
  rcases List.mem_map.mp member with ⟨fields, isGroup, rfl⟩
  rcases List.mem_flatMap.mp isGroup with ⟨definition, definitionMember, inside⟩
  rcases exists_left_of_forall₂ each definitionMember with ⟨node, nodeMember, stands⟩
  rcases exists_fieldNodes stands inside with ⟨nodes, nodesInside, held⟩
  have isNamespace := mem_documentNamespaces nodeMember nodesInside
  exact ⟨nodes, isNamespace, idsAt_fields held (unlined nodes isNamespace)⟩

theorem mentions_subset_documentOrigins :
    (Origins.ofUnit definitions).mentions ⊆ (documentOrigins document).mentions := by
  intro mention member
  rcases List.mem_map.mp member with ⟨reference, inUnit, rfl⟩
  rcases List.mem_flatMap.mp inUnit with ⟨definition, definitionMember, mentioned⟩
  rcases exists_left_of_forall₂ each definitionMember with ⟨node, nodeMember, stands⟩
  rcases exists_mention stands mentioned with ⟨other, place, holds⟩
  have found : ∃ nodes ∈ documentNamespaces document, other ∈ nodes := by
    rcases place with rfl | ⟨nodes, inside, otherMember⟩
    · exact ⟨_, List.mem_cons_self, nodeMember⟩
    · exact ⟨nodes, mem_documentNamespaces nodeMember inside, otherMember⟩
  rcases found with ⟨nodes, isNamespace, otherMember⟩
  apply List.mem_flatMap.mpr
  exact ⟨other, List.mem_flatten.mpr ⟨nodes, isNamespace, otherMember⟩,
    holds (unlined nodes isNamespace other otherMember)⟩

end Units

/-- Over included modules, the error that a loaded unit starts with points into
its document, whatever reads the text, if no mapping there says its own line: an
error about what is declared twice tells the line of the first node that declares
it, and an error about a name that stands for nothing tells the line of a node
that mentions it. -/
theorem loaded_error_pointsInto (read : Reader) (calls : List Call) (text : String)
    (limits : Limits) (definitions : List Definition) (includes : Includes) (error : CompileError)
    (loaded : (loadWith read text limits).definitions = some definitions)
    (unlined : ∀ nodes ∈ documentNamespaces (read text), ∀ node ∈ nodes,
      (read text).has node lineKey = false)
    (modules : ∀ entry ∈ includes, ∃ module ∈ (Session.run calls).modules,
      entry.2 = module.scope)
    (ended : (Module.compile (Session.run calls).workspace definitions includes).outcome =
      .error (.compile error)) : error.root.PointsInto (documentOrigins (read text)) := by
  have each := forall₂_definitionAt loaded
  have points := Module.pointsInto_of_compile calls modules (loadable_of_load loaded) ended
  apply points.within
  exact Origins.within_of_subset (names_subset_documentOrigins each unlined)
    (ids_subset_documentOrigins each unlined) (mentions_subset_documentOrigins each unlined)

/-- A struct with a field of the included type and one of a type that is
missing. -/
def missingType : String :=
  "\x7bdefinitions: [\x7bkind: struct, name: Line, fields: [
  \x7bid: 1, name: start, type: inc.Point\x7d,
  \x7bid: 2, name: rest, type: list<Missing>\x7d]\x7d]\x7d"

/-- The error about the missing type tells the line of its field. -/
theorem loaded_error_missingType : ∃ definitions error,
    (load missingType).definitions = some definitions ∧
      (Module.compile (Session.run Module.pointUnit).workspace definitions
        [("inc", Module.pointScope)]).outcome = .error (.compile error) ∧
      error.root = .unresolvedReference "Missing" (.ofInt 3) ∧
      error.root.PointsInto (documentOrigins (Yaml.read missingType)) := by
  have refused : ((load missingType).definitions.map fun definitions =>
      match (Module.compile (Session.run Module.pointUnit).workspace definitions
        [("inc", Module.pointScope)]).outcome with
      | .error (.compile error) => some error.root
      | _ => none) = some (some (.unresolvedReference "Missing" (.ofInt 3))) := by
    decide +kernel
  have modules : ∀ entry ∈ [("inc", Module.pointScope)],
      ∃ module ∈ (Session.run Module.pointUnit).modules, entry.2 = module.scope := by
    intro entry member
    rw [List.mem_singleton.mp member]
    exact ⟨⟨[("Point", 0)], [], Module.pointScope⟩, List.mem_singleton_self _, rfl⟩
  rcases Option.map_eq_some_iff.mp refused with ⟨definitions, loaded, failed⟩
  split at failed
  · next error ended =>
      have points := loaded_error_pointsInto Yaml.read Module.pointUnit missingType {} definitions
        [("inc", Module.pointScope)] error loaded (by decide +kernel) modules ended
      exact ⟨definitions, error, loaded, ended, Option.some.inj failed, points⟩
  · cases failed

end IdlLinker.Load
