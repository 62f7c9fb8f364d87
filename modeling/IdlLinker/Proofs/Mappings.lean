import Mathlib.Data.List.Perm.Basic
import IdlLinker.Load.Mappings
import IdlLinker.Proofs.Sources

/-!
# Every mapping declares something

A document that is loaded has no mapping but its root, those that declare
something, and those in default values; each of them occurs once.
-/

namespace IdlLinker.Load

open Value (lineKey)
open Yaml (Node Parsed Reader)
open Shape

/-! ## Mappings under keys -/

section Members

variable (document : Parsed)

/-- The mappings under a key of a mapping. -/
def memberMappings (node : Node) (key : String) : List Node :=
  match document.member? node key with
  | some value => if key = defaultKey then [] else mappings document value
  | none => []

theorem lastPair?_cons (pair : Node × Option Node) (rest : List (Node × Option Node))
    (key : String) : document.lastPair? (pair :: rest) key =
      (document.lastPair? rest key).or
        (if document.keyText pair.1 = key then some pair else none) := by
  rw [Parsed.lastPair?, List.reverse_cons, List.find?_append, Parsed.lastPair?]
  by_cases same : document.keyText pair.1 = key <;> simp [same]

theorem member?_mapping (pairs : List (Node × Option Node)) (start : Option Nat)
    (key : String) :
    document.member? (.mapping pairs start) key = (document.lastPair? pairs key).bind (·.2) := rfl

/-- Keys other than the one of the first pair lead to the pairs behind it, and so
does its own key where it is given again. -/
theorem memberMappings_cons_of_lastPair? {pair : Node × Option Node}
    {rest : List (Node × Option Node)} {key : String} (start : Option Nat)
    (same : document.lastPair? (pair :: rest) key = document.lastPair? rest key) :
    memberMappings document (.mapping (pair :: rest) start) key =
      memberMappings document (.mapping rest start) key := by
  rw [memberMappings, memberMappings, member?_mapping, member?_mapping, same]

/-- The mappings in a pair that counts are those under its key. -/
theorem memberMappings_cons_self {key : Node} {value : Option Node}
    {rest : List (Node × Option Node)} (start : Option Nat)
    (last : document.lastPair? rest (document.keyText key) = none) :
    memberMappings document (.mapping ((key, value) :: rest) start) (document.keyText key) ++
        pairMappings document rest = pairMappings document ((key, value) :: rest) := by
  rw [memberMappings, member?_mapping, lastPair?_cons, if_pos rfl, last, Option.none_or,
    Option.bind_some]
  cases value with
  | none => rfl
  | some value =>
      have passed : isPassedOver document key rest = (document.keyText key == defaultKey) := by
        rw [isPassedOver, (lastPair?_eq_none_iff document).mp last, Bool.or_false]
      rw [pairMappings, passed]
      simp only [beq_iff_eq]

/-- A pair whose key is given again counts for nothing. -/
theorem lastPair?_cons_of_again {key : Node} {value : Option Node}
    {rest : List (Node × Option Node)}
    (again : document.lastPair? rest (document.keyText key) ≠ none) (other : String) :
    document.lastPair? ((key, value) :: rest) other = document.lastPair? rest other := by
  rw [lastPair?_cons]
  by_cases same : document.keyText key = other
  · rcases Option.ne_none_iff_exists'.mp again with ⟨last, found⟩
    rw [← same, found, Option.some_or]
  · rw [if_neg same, Option.or_none]

theorem pairMappings_cons_of_again {key : Node} {value : Option Node}
    {rest : List (Node × Option Node)}
    (again : document.lastPair? rest (document.keyText key) ≠ none) :
    pairMappings document ((key, value) :: rest) = pairMappings document rest := by
  have among := Bool.not_eq_false _ |>.mp (mt (lastPair?_eq_none_iff document).mpr again)
  cases value with
  | none => rfl
  | some value =>
      rw [pairMappings, isPassedOver, among, Bool.or_true, if_pos rfl, List.nil_append]

/-- The mappings in the values that count are found key by key. -/
theorem pairMappings_perm {pairs : List (Node × Option Node)} {keys : List String}
    (known : ∀ pair ∈ pairs, document.keyText pair.1 ∈ keys) (nodup : keys.Nodup)
    (start : Option Nat) : (pairMappings document pairs).Perm
      (keys.flatMap (memberMappings document (.mapping pairs start))) := by
  induction pairs generalizing keys with
  | nil =>
      have none : keys.flatMap (memberMappings document (.mapping [] start)) = [] :=
        List.flatMap_eq_nil_iff.mpr fun _ _ => rfl
      rw [none]
      exact List.Perm.nil
  | cons pair rest hypothesis =>
      rcases pair with ⟨key, value⟩
      rcases List.forall_mem_cons.mp known with ⟨first, others⟩
      by_cases again : document.lastPair? rest (document.keyText key) = none
      · -- the pair counts, and its key is not among those of the others
        have left : ∀ pair ∈ rest, document.keyText pair.1 ∈ keys.erase (document.keyText key) := by
          intro pair member
          refine (List.mem_erase_of_ne fun same => ?_).mpr (others pair member)
          have apart := List.any_eq_false.mp ((lastPair?_eq_none_iff document).mp again)
          exact apart pair member (beq_iff_eq.mpr same)
        have there : ∀ other ∈ keys.erase (document.keyText key),
            memberMappings document (.mapping rest start) other =
              memberMappings document (.mapping ((key, value) :: rest) start) other := by
          intro other member
          have apart : document.keyText key ≠ other := fun same =>
            nodup.not_mem_erase (same ▸ member)
          refine (memberMappings_cons_of_lastPair? document start ?_).symm
          rw [lastPair?_cons, if_neg apart, Option.or_none]
        have behind := hypothesis left (nodup.erase _)
        rw [List.flatMap_congr there] at behind
        rw [← memberMappings_cons_self document start again]
        refine (behind.append_left _).trans ?_
        rw [← List.flatMap_cons]
        exact (List.perm_cons_erase first).symm.flatMap_right _
      · rw [pairMappings_cons_of_again document again, List.flatMap_congr fun other _ =>
          memberMappings_cons_of_lastPair? document start
            (lastPair?_cons_of_again document again other)]
        exact hypothesis others nodup

end Members

/-! ## Mappings that are accepted -/

/-- Data is null, a boolean, a number or a text, and has nothing in it. -/
def IsLeaf : Value → Prop
  | .list _ => False
  | .record _ => False
  | .other _ => False
  | _ => True

/-- A check accepts nothing that has something in it. -/
def OnlyLeaves {α : Type} (check : Check α) : Prop :=
  ∀ data result, check (some data) = .valid result → IsLeaf data

theorem onlyLeaves_text (rules : String → List Flaw) : OnlyLeaves (Shape.text rules) := by
  intro data result accepted
  cases data with
  | list | record | other => cases accepted
  | _ => trivial

theorem onlyLeaves_number (rules : Number → List Flaw) : OnlyLeaves (Shape.number rules) := by
  intro data result accepted
  cases data with
  | list | record | other => cases accepted
  | _ => trivial

theorem onlyLeaves_boolean : OnlyLeaves boolean := by
  intro data result accepted
  cases data with
  | list | record | other => cases accepted
  | _ => trivial

theorem OnlyLeaves.optional {α : Type} {check : Check α} (leaves : OnlyLeaves check) :
    OnlyLeaves (Shape.optional check) := by
  intro data result accepted
  rcases optional_eq_valid_iff.mp accepted with ⟨absent, _⟩ | ⟨_, value, ⟨⟩, valid, _⟩
  · cases absent
  · exact leaves data value valid

theorem OnlyLeaves.withDefault {α : Type} {check : Check α} (leaves : OnlyLeaves check)
    (default : α) : OnlyLeaves (Shape.withDefault default check) := by
  intro data result accepted
  rcases withDefault_eq_valid_iff.mp accepted with ⟨absent, _⟩ | ⟨_, ⟨⟩, valid⟩
  · cases absent
  · exact leaves data result valid

section Accepted

variable {document : Parsed} {path : String} {node : Node}

/-- Foreign data is no leaf. -/
theorem not_isLeaf (object : Foreign) : ¬ IsLeaf object.data := by
  rcases record_or_other object with ⟨_, same, _⟩ | ⟨_, same⟩ <;> rw [same] <;> exact id

theorem mappings_eq_nil (leaf : IsLeaf (located document path node).value) :
    mappings document node = [] := by
  cases node with
  | aliased name start => rfl
  | scalar content start => rfl
  | mapping pairs start => exact absurd leaf id
  | sequence items start => exact absurd leaf id
  | pair key value object => exact absurd leaf (not_isLeaf object)

variable {entries : List (String × Value)} (record : Recorded document path node entries)

include record

/-- Under a key with a leaf there is no mapping. -/
theorem memberMappings_eq_nil {key : String}
    (leaf : ∀ data ∈ Record.get? entries key, IsLeaf data) :
    memberMappings document node key = [] := by
  rcases record.exists_pairs with ⟨pairs, start, rfl, gives⟩
  rw [memberMappings, member?_mapping]
  cases last : document.lastPair? pairs key with
  | none => rfl
  | some pair =>
      rcases pair with ⟨own, _ | value⟩
      · rfl
      · rw [Option.bind_some]
        dsimp only
        split
        · rfl
        · next ordinary =>
            have data := leaf (memberData document path key (some value)) (by
              rw [gives, last, Option.map_some, Option.some_or]
              rfl)
            rw [memberData, if_neg ordinary] at data
            exact mappings_eq_nil data

theorem memberMappings_of_text {key text : String}
    (found : Record.get? entries key = some (.text text)) :
    memberMappings document node key = [] :=
  memberMappings_eq_nil record fun data member => by
    cases found.symm.trans member
    trivial

theorem memberMappings_of_leaves {α : Type} {check : Check α} (leaves : OnlyLeaves check)
    {key : String} {result : α} (accepted : check (Record.get? entries key) = .valid result) :
    memberMappings document node key = [] :=
  memberMappings_eq_nil record fun data member => leaves data result (member ▸ accepted)

omit record in
theorem memberMappings_default : memberMappings document node "default" = [] := by
  unfold memberMappings
  split <;> rfl

/-- A list under a key has the mappings of its items. -/
theorem memberMappings_of_list {α : Type} {check : Check α} {key : String} {results : List α}
    (ordinary : key ≠ lineKey ∧ key ≠ defaultKey)
    (accepted : withDefault [] (list check) (Record.get? entries key) = .valid results) :
    memberMappings document node key = (document.parts node key).flatMap (mappings document) := by
  rcases withDefault_eq_valid_iff.mp accepted with ⟨absent, _⟩ | ⟨data, found, valid⟩
  · rw [memberMappings, Parsed.parts, member?_of_none record absent]
    rfl
  · rcases list_eq_valid_iff.mp valid with ⟨values, same, _⟩
    cases same
    have some : Value.list values ≠ .null := by simp
    rcases exists_member record ordinary found some with ⟨value, member, located⟩
    rcases eq_sequence_of_list located with ⟨items, start, rfl, _⟩
    rw [memberMappings, Parsed.parts, member]
    dsimp only
    rw [if_neg ordinary.2, mappings, itemMappings_eq_flatMap]

/-- Under a key that is not known there is nothing. -/
theorem parts_of_unknown {keys : List String} (known : ∀ key ∈ entries.map (·.1), key ∈ keys)
    {key : String} (unknown : key ∉ keys) : document.parts node key = [] := by
  have absent : Record.get? entries key = none :=
    Record.get?_eq_none_iff.mpr fun member => unknown (known key member)
  rw [Parsed.parts, member?_of_none record absent]

/-- The mappings in a mapping with known keys are itself and those under its
keys. -/
theorem mappings_perm {keys : List String} (nodup : keys.Nodup)
    (known : ∀ key ∈ entries.map (·.1), key ∈ keys) :
    (mappings document node).Perm (node :: keys.flatMap (memberMappings document node)) := by
  rcases record.exists_pairs with ⟨pairs, start, rfl, gives⟩
  have among : ∀ pair ∈ pairs, document.keyText pair.1 ∈ keys := by
    intro pair member
    refine known _ (not_not.mp fun missing => ?_)
    have absent := Record.get?_eq_none_iff.mpr missing
    rw [gives, Option.or_eq_none_iff, Option.map_eq_none_iff] at absent
    exact List.find?_eq_none.mp absent.1 pair (List.mem_reverse.mpr member) (beq_iff_eq.mpr rfl)
  exact (pairMappings_perm document among nodup start).cons _

/-- A node with a record is a mapping. -/
theorem isMapping_of_recorded : isMapping node = true := by
  rcases record.exists_pairs with ⟨pairs, start, rfl, _⟩
  rfl

end Accepted

section Declared

variable (document : Parsed)

/-! ## What a node declares -/

/-- The mappings in a node are itself, if it is one, and those declared in it. -/
def Declares (node : Node) (inner : List Node) : Prop :=
  (mappings document node).Perm ([node].filter isMapping ++ inner)

variable {document}

theorem flatMap_mappings_perm {nodes : List Node} {inner : Node → List Node}
    (each : ∀ node ∈ nodes, Declares document node (inner node)) :
    (nodes.flatMap (mappings document)).Perm (nodes.filter isMapping ++ nodes.flatMap inner) := by
  have own : nodes.flatMap (fun node => [node].filter isMapping) = nodes.filter isMapping := by
    rw [← List.filter_flatMap, List.flatMap_singleton']
  rw [← own]
  exact (List.Perm.flatMap_left nodes each).trans (List.flatMap_append_perm nodes _ _).symm

variable (document)

/-- The mappings declared in a function. -/
def functionMappings (function : Node) : List Node :=
  (document.parts function "args" ++ document.parts function "throws").filter isMapping

/-- The mappings declared in a definition. -/
def innerMappings (definition : Node) : List Node :=
  (innerNodes document definition).flatten.filter isMapping

theorem innerMappings_eq (definition : Node) : innerMappings document definition =
    (document.parts definition "fields" ++ document.parts definition "items" ++
        document.parts definition "functions").filter isMapping ++
      (document.parts definition "functions").flatMap (functionMappings document) := by
  have parts : ((document.parts definition "functions").flatMap fun function =>
      [document.parts function "args", document.parts function "throws"]).flatten =
        (document.parts definition "functions").flatMap fun function =>
          document.parts function "args" ++ document.parts function "throws" := by
    rw [← List.flatMap_id, List.flatMap_assoc]
    simp
  rw [innerMappings, innerNodes, List.flatten_append, parts, List.filter_append,
    List.filter_flatMap]
  simp only [List.flatten_cons, List.flatten_nil, List.append_nil, List.append_assoc]
  rfl

end Declared

section Checks

variable {document : Parsed} {path : String} {position : Nat} {item node : Node}
  {entries : List (String × Value)}

/-- A mapping with known keys declares what is under its keys. -/
theorem declares_of_members (record : Recorded document path node entries) {keys : List String}
    (nodup : keys.Nodup) (known : ∀ key ∈ entries.map (·.1), key ∈ keys) {inner : List Node}
    (members : (keys.flatMap (memberMappings document node)).Perm inner) :
    Declares document node inner := by
  rw [Declares, List.filter_cons_of_pos (isMapping_of_recorded record)]
  exact (mappings_perm record nodup known).trans (members.cons node)

/-- What is said of all items that a check accepts holds of the items of a list
that is accepted. -/
theorem memberMappings_perm {α : Type} {check : Check α} {inner : Node → List Node}
    (each : ∀ path position item result, check (some (itemData document path position item)) =
      .valid result → Declares document item (inner item))
    (record : Recorded document path node entries)
    {key : String} (ordinary : key ≠ lineKey ∧ key ≠ defaultKey) {results : List α}
    (accepted : withDefault [] (list check) (Record.get? entries key) = .valid results) :
    (memberMappings document node key).Perm ((document.parts node key).filter isMapping ++
      (document.parts node key).flatMap inner) := by
  rw [memberMappings_of_list record ordinary accepted]
  refine flatMap_mappings_perm fun item member => ?_
  rcases exists_right_of_forall₂ (forall₂_of_list record ordinary accepted) member with
    ⟨result, _, position, valid⟩
  exact each _ position item result valid

/-- The case of items in which nothing is declared. -/
theorem memberMappings_perm_filter {α : Type} {check : Check α}
    (each : ∀ path position item result, check (some (itemData document path position item)) =
      .valid result → Declares document item [])
    (record : Recorded document path node entries)
    {key : String} (ordinary : key ≠ lineKey ∧ key ≠ defaultKey) {results : List α}
    (accepted : withDefault [] (list check) (Record.get? entries key) = .valid results) :
    (memberMappings document node key).Perm ((document.parts node key).filter isMapping) := by
  have split := memberMappings_perm each record ordinary accepted
  rwa [List.flatMap_eq_nil_iff.mpr fun _ _ => rfl, List.append_nil] at split

theorem declares_field (path : String) (position : Nat) (item : Node) (field : Written.Field)
    (accepted : Written.checkField (some (itemData document path position item)) =
      .valid field) : Declares document item [] := by
  rcases Written.checkField_eq_valid_iff.mp accepted with
    ⟨entries, same, known, id, name, type, required, _, line⟩
  have typed := (typeText_eq_valid_iff.mp type).1
  have record := recorded_of_get? (Option.some.inj same) (ne_none_of_line line) "type" (by decide)
    (by rw [typed]; exact nofun)
  have members : ["id", "name", "type", "required", "default", "line"].flatMap
      (memberMappings document item) = [] := by
    simp only [List.flatMap_cons, List.flatMap_nil, memberMappings_default,
      memberMappings_of_leaves record (onlyLeaves_number _).optional id,
      memberMappings_of_leaves record (onlyLeaves_text _) name,
      memberMappings_of_leaves record (onlyLeaves_text _) type,
      memberMappings_of_leaves record onlyLeaves_boolean.optional required,
      memberMappings_of_leaves record (onlyLeaves_number _) line, List.append_nil]
  exact declares_of_members record (by decide) known (List.Perm.of_eq members)

theorem declares_function (path : String) (position : Nat) (item : Node)
    (function : Written.Function)
    (accepted : Written.checkFunction (some (itemData document path position item)) =
      .valid function) : Declares document item (functionMappings document item) := by
  rcases Written.checkFunction_eq_valid_iff.mp accepted with
    ⟨entries, same, known, name, returns, oneway, args, throws, line⟩
  rcases record_cases (Option.some.inj same) (ne_none_of_line line) with
    record | ⟨_, bare, start, rfl, _⟩
  · have inArgs := memberMappings_perm_filter declares_field record (by decide) args
    have inThrows := memberMappings_perm_filter declares_field record (by decide) throws
    have members : ["name", "returns", "oneway", "args", "throws", "line"].flatMap
        (memberMappings document item) =
          memberMappings document item "args" ++ memberMappings document item "throws" := by
      simp only [List.flatMap_cons, List.flatMap_nil,
        memberMappings_of_leaves record (onlyLeaves_text _) name,
        memberMappings_of_leaves record (onlyLeaves_text _).optional returns,
        memberMappings_of_leaves record (onlyLeaves_boolean.withDefault false) oneway,
        memberMappings_of_leaves record (onlyLeaves_number _) line, List.nil_append,
        List.append_nil]
    refine declares_of_members record (by decide) known ?_
    rw [members, functionMappings, List.filter_append]
    exact inArgs.append inThrows
  · exact List.Perm.refl []

theorem declares_item (path : String) (position : Nat) (item : Node) (result : Written.EnumItem)
    (accepted : Written.checkEnumItem (some (itemData document path position item)) =
      .valid result) : Declares document item [] := by
  rcases Written.checkEnumItem_eq_valid_iff.mp accepted with ⟨name, rfl, bare⟩ | full
  · have text := Option.some.inj (identifier_eq_valid_iff.mp bare).1
    by_cases scalar : ∃ name start, item = .scalar (.text name) start
    · rcases scalar with ⟨_, start, rfl⟩
      exact List.Perm.refl []
    · rw [itemData.eq_2 _ _ _ _ fun name start same => scalar ⟨name, start, same⟩] at text
      rcases eq_scalar_of_text text with ⟨start, rfl⟩
      exact List.Perm.refl []
  · rcases Written.checkFullItem_eq_valid_iff.mp full with
      ⟨entries, name, value, own, same, rfl, known, isName, isValue, isLine⟩
    rcases record_cases (Option.some.inj same) (ne_none_of_line isLine) with
      record | ⟨_, text, start, rfl, _⟩
    · have members : ["name", "value", "line"].flatMap (memberMappings document item) = [] := by
        simp only [List.flatMap_cons, List.flatMap_nil,
          memberMappings_of_leaves record (onlyLeaves_text _) isName,
          memberMappings_of_leaves record (onlyLeaves_number _).optional isValue,
          memberMappings_of_leaves record (onlyLeaves_number _) isLine, List.append_nil]
      exact declares_of_members record (by decide) known (List.Perm.of_eq members)
    · exact List.Perm.refl []

/-! ## Definitions -/

theorem declares_struct {kind : StructKind} {body : Written.Struct}
    (record : Recorded document path node entries)
    (accepted : Written.checkStruct kind (some (.record entries)) = .valid body) :
    Declares document node (innerMappings document node) := by
  rcases Written.checkStruct_eq_valid_iff.mp accepted with
    ⟨_, same, known, kindWord, name, fields, line, _⟩
  cases same
  have inFields := memberMappings_perm_filter declares_field record (by decide) fields
  have members : ["kind", "name", "fields", "line"].flatMap (memberMappings document node) =
      memberMappings document node "fields" := by
    simp only [List.flatMap_cons, List.flatMap_nil, memberMappings_of_text record kindWord,
      memberMappings_of_leaves record (onlyLeaves_text _) name,
      memberMappings_of_leaves record (onlyLeaves_number _) line, List.nil_append, List.append_nil]
  have inner : innerMappings document node = (document.parts node "fields").filter isMapping := by
    simp [innerMappings_eq, parts_of_unknown record known (show "items" ∉ _ by decide),
      parts_of_unknown record known (show "functions" ∉ _ by decide)]
  rw [inner]
  exact declares_of_members record (by decide) known
    ((List.Perm.of_eq members).trans inFields)

theorem declares_typedef {body : Written.Typedef}
    (record : Recorded document path node entries)
    (accepted : Written.checkTypedef (some (.record entries)) = .valid body) :
    Declares document node (innerMappings document node) := by
  rcases Written.checkTypedef_eq_valid_iff.mp accepted with
    ⟨_, same, known, kindWord, name, type, line⟩
  cases same
  have members : ["kind", "name", "type", "line"].flatMap (memberMappings document node) = [] := by
    simp only [List.flatMap_cons, List.flatMap_nil, memberMappings_of_text record kindWord,
      memberMappings_of_leaves record (onlyLeaves_text _) name,
      memberMappings_of_leaves record (onlyLeaves_text _) type,
      memberMappings_of_leaves record (onlyLeaves_number _) line, List.append_nil]
  have inner : innerMappings document node = [] := by
    simp [innerMappings_eq, parts_of_unknown record known (show "fields" ∉ _ by decide),
      parts_of_unknown record known (show "items" ∉ _ by decide),
      parts_of_unknown record known (show "functions" ∉ _ by decide)]
  rw [inner]
  exact declares_of_members record (by decide) known (List.Perm.of_eq members)

theorem declares_enum {body : Written.Enum}
    (record : Recorded document path node entries)
    (accepted : Written.checkEnum (some (.record entries)) = .valid body) :
    Declares document node (innerMappings document node) := by
  rcases Written.checkEnum_eq_valid_iff.mp accepted with
    ⟨_, same, known, kindWord, name, items, line⟩
  cases same
  have inItems := memberMappings_perm_filter declares_item record (by decide) items
  have members : ["kind", "name", "items", "line"].flatMap (memberMappings document node) =
      memberMappings document node "items" := by
    simp only [List.flatMap_cons, List.flatMap_nil, memberMappings_of_text record kindWord,
      memberMappings_of_leaves record (onlyLeaves_text _) name,
      memberMappings_of_leaves record (onlyLeaves_number _) line, List.nil_append, List.append_nil]
  have inner : innerMappings document node = (document.parts node "items").filter isMapping := by
    simp [innerMappings_eq, parts_of_unknown record known (show "fields" ∉ _ by decide),
      parts_of_unknown record known (show "functions" ∉ _ by decide)]
  rw [inner]
  exact declares_of_members record (by decide) known
    ((List.Perm.of_eq members).trans inItems)

theorem declares_service {body : Written.Service}
    (record : Recorded document path node entries)
    (accepted : Written.checkService (some (.record entries)) = .valid body) :
    Declares document node (innerMappings document node) := by
  rcases Written.checkService_eq_valid_iff.mp accepted with
    ⟨_, same, known, kindWord, name, parent, functions, line⟩
  cases same
  have inFunctions := memberMappings_perm declares_function record (by decide) functions
  have members :
      ["kind", "name", "extends", "functions", "line"].flatMap (memberMappings document node) =
      memberMappings document node "functions" := by
    simp only [List.flatMap_cons, List.flatMap_nil, memberMappings_of_text record kindWord,
      memberMappings_of_leaves record (onlyLeaves_text _) name,
      memberMappings_of_leaves record (onlyLeaves_text _).optional parent,
      memberMappings_of_leaves record (onlyLeaves_number _) line, List.nil_append, List.append_nil]
  have inner : innerMappings document node = (document.parts node "functions").filter isMapping ++
      (document.parts node "functions").flatMap (functionMappings document) := by
    simp [innerMappings_eq, parts_of_unknown record known (show "fields" ∉ _ by decide),
      parts_of_unknown record known (show "items" ∉ _ by decide)]
  rw [inner]
  exact declares_of_members record (by decide) known
    ((List.Perm.of_eq members).trans inFunctions)

theorem declares_definition (path : String) (position : Nat) (item : Node)
    (definition : Written.Definition)
    (accepted : Written.checkDefinition (some (itemData document path position item)) =
      .valid definition) : Declares document item (innerMappings document item) := by
  rcases exists_recorded_of_check accepted with ⟨entries, kind, _, record, _, selected, valid⟩
  rcases Written.check_of_kind selected with ⟨_, _, rfl⟩ | ⟨_, rfl⟩ | ⟨_, rfl⟩ | ⟨_, rfl⟩
  · rcases Verdict.map_eq_valid_iff.mp valid with ⟨body, isStruct, rfl⟩
    exact declares_struct record isStruct
  · rcases Verdict.map_eq_valid_iff.mp valid with ⟨body, isTypedef, rfl⟩
    exact declares_typedef record isTypedef
  · rcases Verdict.map_eq_valid_iff.mp valid with ⟨body, isEnum, rfl⟩
    exact declares_enum record isEnum
  · rcases Verdict.map_eq_valid_iff.mp valid with ⟨body, isService, rfl⟩
    exact declares_service record isService

theorem declares_document {definitions : List Written.Definition} {line : Number}
    (record : Recorded document path node entries)
    (known : ∀ key ∈ entries.map (·.1), key ∈ ["definitions", "line"])
    (each : withDefault [] (list Written.checkDefinition) (Record.get? entries "definitions") =
      .valid definitions)
    (isLine : Shape.line (Record.get? entries "line") = .valid line) :
    Declares document node ((document.parts node "definitions" ++
      (document.parts node "definitions").flatMap fun definition =>
        (innerNodes document definition).flatten).filter isMapping) := by
  have inDefinitions := memberMappings_perm declares_definition record (by decide) each
  have members : ["definitions", "line"].flatMap (memberMappings document node) =
      memberMappings document node "definitions" := by
    simp only [List.flatMap_cons, List.flatMap_nil,
      memberMappings_of_leaves record (onlyLeaves_number _) isLine, List.append_nil]
  rw [List.filter_append, List.filter_flatMap]
  exact declares_of_members record (by decide) known
    ((List.Perm.of_eq members).trans inDefinitions)

end Checks

/-- The mappings of a text that is loaded are its root and those that declare
something. -/
theorem documentMappings_perm {read : Reader} {text : String} {limits : Limits}
    {definitions : List Definition}
    (loaded : (loadWith read text limits).definitions = some definitions) :
    (documentMappings (read text)).Perm ((read text).content.toList ++
      (documentNamespaces (read text)).flatten.filter isMapping) := by
  rcases exists_document_of_load loaded with ⟨document, accepted, _, _⟩
  rcases Written.checkDocument_eq_valid_iff.mp accepted with ⟨entries, same, known, each, line⟩
  cases given : (read text).content with
  | none =>
      rw [documentMappings, documentNamespaces, definitionNodes, given]
      exact List.Perm.refl []
  | some content =>
      have record := recorded_root given same line
      have declared := declares_document record known each line
      rw [Declares, List.filter_cons_of_pos (isMapping_of_recorded record),
        List.filter_nil] at declared
      rw [documentMappings, documentNamespaces, definitionNodes, given, Option.toList_some,
        List.flatMap_singleton, List.flatten_cons, ← List.flatMap_id, List.flatMap_assoc]
      simpa using declared

end IdlLinker.Load
