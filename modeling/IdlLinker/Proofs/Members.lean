import IdlLinker.Proofs.DefinitionAt
import IdlLinker.Proofs.Documents
import IdlLinker.Proofs.Names
import IdlLinker.Proofs.Related

/-!
# The members of a located mapping

Locating a mapping makes a record of what it gives under its keys.  A line is
there in any case, and tells where the mapping starts unless it says something
else; whatever a check accepts under another key, the mapping gives it there.
-/

namespace IdlLinker.Load

open Value (lineKey)
open Yaml (Node Parsed)
open Shape

/-! ## Foreign data -/

theorem get?_lineKey_of_lineless {entries : List (String × Value)}
    (lineless : Value.linelessEntries entries = true) : Record.get? entries lineKey = none := by
  induction entries with
  | nil => rfl
  | cons entry rest hypothesis =>
      rcases entry with ⟨own, value⟩
      simp only [Value.linelessEntries, Bool.and_eq_true, bne_iff_ne] at lineless
      rw [Record.get?_cons, if_neg lineless.1.1, hypothesis lineless.2]

/-- Foreign data is a record without a line, or data of another kind. -/
theorem record_or_other (object : Foreign) :
    (∃ entries, object.data = .record entries ∧ Record.get? entries lineKey = none) ∨
      ∃ word, object.data = .other word := by
  rcases object with ⟨data, kind, lineless⟩
  cases data with
  | record entries => exact Or.inl ⟨entries, rfl, get?_lineKey_of_lineless lineless⟩
  | other word => exact Or.inr ⟨word, rfl⟩
  | number number => cases number <;> simp [Value.kind] at kind
  | _ => simp [Value.kind] at kind

/-! ## Records of mappings -/

section Records

variable (document : Parsed)

/-- What is located under a key. -/
def memberData (path key : String) : Option Node → Value
  | none => .null
  | some value =>
    if key = defaultKey then document.plain value
    else (located document (pathOf path key) value).value

theorem value_locatedPairs (path : String) (pairs : List (Node × Option Node)) :
    (locatedPairs document path pairs).value = pairs.map fun pair =>
      (document.keyText pair.1, memberData document path (document.keyText pair.1) pair.2) := by
  induction pairs with
  | nil => rfl
  | cons pair rest hypothesis =>
      obtain ⟨key, value⟩ := pair
      cases value with
      | none => simp [locatedPairs, hypothesis, memberData]
      | some value =>
          by_cases plain : document.keyText key = defaultKey <;>
            simp [locatedPairs, hypothesis, memberData, plain]

omit document in
theorem get?_stamp (line : Option Number) (entries : List (String × Value)) (key : String) :
    Record.get? (stamp line entries).reverse key =
      (Record.get? entries.reverse key).or
        (if key = lineKey then line.map .number else none) := by
  have stamped : (entries.any fun entry => entry.1 == lineKey) = true ↔
      Record.get? entries.reverse lineKey ≠ none := by
    rw [Ne, Record.get?_eq_none_iff]
    simp
  cases line with
  | none => simp [stamp, lineEntry]
  | some line =>
      by_cases same : key = lineKey
      · subst same
        by_cases present : (entries.any fun entry => entry.1 == lineKey) = true
        · rw [stamp, if_pos present, if_pos rfl]
          rcases Option.ne_none_iff_exists'.mp (stamped.mp present) with ⟨value, found⟩
          rw [found, Option.some_or]
        · rw [stamp, if_neg present, if_pos rfl, lineEntry, Option.toList_some, List.map_singleton,
            List.reverse_append, List.reverse_singleton, List.singleton_append, Record.get?_cons,
            if_pos rfl, not_not.mp (stamped.not.mp present), Option.none_or, Option.map_some]
      · unfold stamp
        rw [if_neg same, Option.or_none]
        split
        · rfl
        · rw [lineEntry, Option.toList_some, List.map_singleton, List.reverse_append,
            List.reverse_singleton, List.singleton_append, Record.get?_cons,
            if_neg (Ne.symm same)]

theorem get?_locatedPairs (path : String) (pairs : List (Node × Option Node)) (key : String) :
    Record.get? (locatedPairs document path pairs).value.reverse key =
      (document.lastPair? pairs key).map fun pair => memberData document path key pair.2 := by
  rw [value_locatedPairs, ← List.map_reverse, Record.get?, List.find?_map, Option.map_map]
  apply Option.map_congr
  intro pair found
  have same : document.keyText pair.1 = key := by simpa using List.find?_some found
  rw [Function.comp_apply, same]

theorem lastPair?_eq_none_iff {pairs : List (Node × Option Node)} {key : String} :
    document.lastPair? pairs key = none ↔
      (pairs.any fun pair => document.keyText pair.1 == key) = false := by
  simp [Parsed.lastPair?]

/-- What located data has under a key of a mapping. -/
theorem get?_mapping (path : String) (pairs : List (Node × Option Node)) (start : Option Nat)
    (key : String) : (located document path (.mapping pairs start)).value.get? key =
      ((document.lastPair? pairs key).map fun pair => memberData document path key pair.2).or
        (if key = lineKey then (start.map document.lineAt).map .number else none) := by
  change Record.get? (Record.ofEntries (stamp (start.map document.lineAt)
    (locatedPairs document path pairs).value)) key = _
  rw [Record.get?_ofEntries, get?_stamp, get?_locatedPairs]

/-- A record is located at a node, and it has a line. -/
structure Recorded (path : String) (node : Node) (entries : List (String × Value)) : Prop where
  located : (located document path node).value = .record entries
  lined : Record.get? entries lineKey ≠ none

end Records

variable {document : Parsed} {path key : String} {node : Node}
  {entries : List (String × Value)}

/-- A record with a line is located at a mapping. -/
theorem Recorded.exists_pairs (record : Recorded document path node entries) :
    ∃ pairs start, node = .mapping pairs start ∧ ∀ key, Record.get? entries key =
      ((document.lastPair? pairs key).map fun pair => memberData document path key pair.2).or
        (if key = lineKey then (start.map document.lineAt).map .number else none) := by
  have unlined (object : Foreign) : object.data ≠ .record entries := by
    intro same
    rcases record_or_other object with ⟨_, own, absent⟩ | ⟨_, own⟩
    · cases own.symm.trans same
      exact record.lined absent
    · cases own.symm.trans same
  rcases record with ⟨same, _⟩
  cases node with
  | aliased name start => cases same
  | scalar content start =>
      cases content with
      | other object spelling => exact absurd same (unlined object)
      | _ => cases same
  | sequence items start => cases same
  | pair key value object => exact absurd same (unlined object)
  | mapping pairs start =>
      refine ⟨pairs, start, rfl, fun key => ?_⟩
      have gives := get?_mapping document path pairs start key
      rw [same] at gives
      exact gives

/-! ## What a mapping gives -/

theorem member?_of_none (record : Recorded document path node entries)
    (absent : Record.get? entries key = none) : document.member? node key = none := by
  rcases record.exists_pairs with ⟨pairs, start, rfl, gives⟩
  rw [gives, Option.or_eq_none_iff, Option.map_eq_none_iff] at absent
  rw [Parsed.member?, absent.1]
  rfl

/-- What a record has under an ordinary key, and is not null, was located
there. -/
theorem exists_member (record : Recorded document path node entries)
    (ordinary : key ≠ lineKey ∧ key ≠ defaultKey) {data : Value}
    (found : Record.get? entries key = some data) (present : data ≠ .null) :
    ∃ value, document.member? node key = some value ∧
      (located document (pathOf path key) value).value = data := by
  rcases record.exists_pairs with ⟨pairs, start, rfl, gives⟩
  rw [gives, if_neg ordinary.1, Option.or_none] at found
  rcases Option.map_eq_some_iff.mp found with ⟨⟨own, value⟩, last, same⟩
  cases value with
  | none => exact absurd same.symm present
  | some value =>
      rw [memberData, if_neg ordinary.2] at same
      refine ⟨value, ?_, same⟩
      rw [Parsed.member?, last]
      rfl

/-- Text is located at a text. -/
theorem eq_scalar_of_text {value : Node} {text : String}
    (found : (located document path value).value = .text text) :
    ∃ start, value = .scalar (.text text) start := by
  have foreign (object : Foreign) : object.data ≠ .text text := by
    rcases record_or_other object with ⟨_, same, _⟩ | ⟨_, same⟩ <;> simp [same]
  cases value with
  | scalar content start =>
      cases content with
      | text own =>
          cases found
          exact ⟨start, rfl⟩
      | other object spelling => exact absurd found (foreign object)
      | _ => cases found
  | pair key value object => exact absurd found (foreign object)
  | _ => cases found

theorem eq_scalar_of_number {value : Node} {number : Number}
    (found : (located document path value).value = .number number) :
    ∃ start, value = .scalar (.number number) start := by
  have foreign (object : Foreign) : object.data ≠ .number number := by
    rcases record_or_other object with ⟨_, same, _⟩ | ⟨_, same⟩ <;> simp [same]
  cases value with
  | scalar content start =>
      cases content with
      | number own =>
          cases found
          exact ⟨start, rfl⟩
      | other object spelling => exact absurd found (foreign object)
      | _ => cases found
  | pair key value object => exact absurd found (foreign object)
  | _ => cases found

theorem eq_sequence_of_list {value : Node} {values : List Value}
    (found : (located document path value).value = .list values) :
    ∃ items start, value = .sequence items start ∧
      values = (locatedItems document path 0 items).value := by
  have foreign (object : Foreign) : object.data ≠ .list values := by
    rcases record_or_other object with ⟨_, same, _⟩ | ⟨_, same⟩ <;> simp [same]
  cases value with
  | aliased name start => cases found
  | scalar content start =>
      cases content with
      | other object spelling => exact absurd found (foreign object)
      | _ => cases found
  | mapping pairs start => cases found
  | pair key value object => exact absurd found (foreign object)
  | sequence items start =>
      cases found
      exact ⟨items, start, rfl, rfl⟩

theorem text?_of_get? (record : Recorded document path node entries)
    (ordinary : key ≠ lineKey ∧ key ≠ defaultKey) {text : String}
    (found : Record.get? entries key = some (.text text)) :
    document.text? node key = some text := by
  rcases exists_member record ordinary found nofun with ⟨value, member, same⟩
  rcases eq_scalar_of_text same with ⟨start, rfl⟩
  rw [Parsed.text?, member]

theorem number?_of_get? (record : Recorded document path node entries)
    (ordinary : key ≠ lineKey ∧ key ≠ defaultKey) {number : Number}
    (found : Record.get? entries key = some (.number number)) :
    document.number? node key = some number := by
  rcases exists_member record ordinary found nofun with ⟨value, member, same⟩
  rcases eq_scalar_of_number same with ⟨start, rfl⟩
  rw [Parsed.number?, member]

/-- The line of a record is the one that its mapping gives. -/
theorem nodeLine?_of_get? (record : Recorded document path node entries)
    {line : Number} (found : Record.get? entries lineKey = some (.number line)) :
    nodeLine? document node = some line := by
  rcases record.exists_pairs with ⟨pairs, start, rfl, gives⟩
  rw [gives, if_pos rfl] at found
  cases last : document.lastPair? pairs lineKey with
  | none =>
      rw [last, Option.map_none, Option.none_or, Option.map_eq_some_iff] at found
      rcases found with ⟨own, given, ⟨⟩⟩
      have without : document.has (.mapping pairs start) lineKey = false :=
        (lastPair?_eq_none_iff document).mp last
      rw [nodeLine?, without]
      exact given
  | some pair =>
      rcases pair with ⟨own, value⟩
      have has : document.has (.mapping pairs start) lineKey = true := by
        refine Bool.not_eq_false _ |>.mp fun without => ?_
        rw [(lastPair?_eq_none_iff document).mpr without] at last
        cases last
      rw [nodeLine?, has, if_pos rfl]
      cases value with
      | none =>
          rw [last] at found
          cases found
      | some value =>
          have located : (located document (pathOf path lineKey) value).value =
              .number line := by
            rw [last] at found
            exact Option.some.inj found
          rcases eq_scalar_of_number located with ⟨place, rfl⟩
          have given : document.member? (.mapping pairs start) lineKey =
              some (.scalar (.number line) place) := by
            rw [Parsed.member?, last]
            rfl
          rw [Parsed.number?, given]

/-! ## What checks accept -/

theorem text?_of_optional {check : Check String} {result : Option String}
    (texts : ∀ data text, check (some data) = .valid text → data = .text text)
    (record : Recorded document path node entries)
    (ordinary : key ≠ lineKey ∧ key ≠ defaultKey)
    (accepted : optional check (Record.get? entries key) = .valid result) :
    document.text? node key = result := by
  rcases optional_eq_valid_iff.mp accepted with ⟨absent, rfl⟩ | ⟨data, text, found, valid, rfl⟩
  · rw [Parsed.text?, member?_of_none record absent]
  · rw [texts data text valid] at found
    exact text?_of_get? record ordinary found

theorem number?_of_optional {result : Option Number}
    (record : Recorded document path node entries)
    (ordinary : key ≠ lineKey ∧ key ≠ defaultKey)
    (accepted : optional integer (Record.get? entries key) = .valid result) :
    document.number? node key = result := by
  rcases optional_eq_valid_iff.mp accepted with ⟨absent, rfl⟩ | ⟨data, number, found, valid, rfl⟩
  · rw [Parsed.number?, member?_of_none record absent]
  · rw [(integer_eq_valid_iff.mp valid).1] at found
    exact number?_of_get? record ordinary found

/-! ## Lists -/

section Items

variable (document : Parsed)

/-- What is located at an item of a list. -/
def itemData (path : String) (position : Nat) : Node → Value
  | .scalar (.text name) start =>
    if isItemsPath path then bareItem name (start.map document.lineAt) else .text name
  | item => (located document (pathOf path (toString position)) item).value

theorem locatedItems_cons (path : String) (position : Nat) (item : Node)
    (rest : List Node) : (locatedItems document path position (item :: rest)).value =
      itemData document path position item ::
        (locatedItems document path (position + 1) rest).value := by
  by_cases bare : ∃ name start, item = .scalar (.text name) start
  · rcases bare with ⟨name, start, rfl⟩
    rfl
  · have plain : ∀ name start, item ≠ .scalar (.text name) start :=
      fun name start same => bare ⟨name, start, same⟩
    rw [locatedItems.eq_3 _ _ _ _ _ plain, itemData.eq_2 _ _ _ _ plain]
    rfl

theorem getElem?_locatedItems (path : String) (items : List Node)
    (position index : Nat) : (locatedItems document path position items).value[index]? =
      items[index]?.map (itemData document path (position + index)) := by
  induction items generalizing position index with
  | nil => rfl
  | cons item rest hypothesis =>
      rw [locatedItems_cons]
      cases index with
      | zero => rfl
      | succ index =>
          rw [List.getElem?_cons_succ, List.getElem?_cons_succ, hypothesis, Nat.add_right_comm,
            Nat.add_assoc]

theorem forall₂_locatedItems (path : String) (items : List Node) (position : Nat) :
    List.Forall₂ (fun item data => ∃ position, itemData document path position item = data) items
      (locatedItems document path position items).value := by
  induction items generalizing position with
  | nil => exact List.Forall₂.nil
  | cons item rest hypothesis =>
      rw [locatedItems_cons]
      exact List.Forall₂.cons ⟨position, rfl⟩ (hypothesis (position + 1))

end Items

/-- The results of a list that is accepted come from the items that a mapping
gives. -/
theorem forall₂_of_list {α : Type} {check : Check α} {results : List α}
    (record : Recorded document path node entries)
    (ordinary : key ≠ lineKey ∧ key ≠ defaultKey)
    (accepted : withDefault [] (list check) (Record.get? entries key) = .valid results) :
    List.Forall₂ (fun item result => ∃ position,
        check (some (itemData document (pathOf path key) position item)) = .valid result)
      (document.parts node key) results := by
  rcases withDefault_eq_valid_iff.mp accepted with ⟨absent, rfl⟩ | ⟨data, found, valid⟩
  · rw [Parsed.parts, member?_of_none record absent]
    exact List.Forall₂.nil
  · rcases list_eq_valid_iff.mp valid with ⟨values, same, each⟩
    cases same
    rcases exists_member record ordinary found nofun with ⟨value, member, located⟩
    rcases eq_sequence_of_list located with ⟨items, start, rfl, rfl⟩
    rw [Parsed.parts, member]
    refine forall₂_compose ?_ (forall₂_locatedItems document _ items 0) each
    rintro item data result ⟨position, rfl⟩ valid
    exact ⟨position, valid⟩

end IdlLinker.Load
