import IdlLinker.Load.Nearest
import IdlLinker.Proofs.Mappings
import IdlLinker.Proofs.TypeReports

/-!
# The lines of issues

Walking along the path of an issue in located data finds the line on which the
innermost mapping or bare enum item met in the text starts, as long as no
mapping has a line of its own.  Data in default values is plain, though, and a
number that it holds under the key of lines is taken for a line.
-/

namespace IdlLinker

/-! ## Paths of items -/

/-- The parts of a dotted path in a document. -/
theorem PathStep.segments_pathFrom {steps : List PathStep} (plain : ∀ step ∈ steps, step.Plain) :
    Name.segments (pathFrom "document" steps).toList =
      "document".toList :: steps.map fun step => step.text.toList := by
  rw [toList_pathFrom]
  cases steps with
  | nil => rfl
  | cons step rest =>
      have parts := segments_flatMap plain
      rw [List.flatMap_cons, List.cons_append, Name.segments] at parts
      rw [List.flatMap_cons, List.cons_append, Name.segments_append_dot (by decide),
        (List.cons.inj parts).2]

namespace Load

open Shape
open Value (lineKey)
open Yaml (Node Parsed Reader)
open PathStep (pathFrom)

theorem isItems_iff {steps : List PathStep} : isItems steps = true ↔
    ∃ position, steps = [.key "definitions", .index position, .key "items"] := by
  unfold isItems
  split
  · next position => simp
  · next other =>
      simp only [Bool.false_eq_true, false_iff, not_exists]
      exact other

/-- A plain path is the one of an enum's items when its steps are. -/
theorem isItemsPath_pathFrom {steps : List PathStep} (plain : ∀ step ∈ steps, step.Plain) :
    isItemsPath (pathFrom "document" steps) = isItems steps := by
  rw [Bool.eq_iff_iff, isItems_iff, isItemsPath, PathStep.segments_pathFrom plain]
  rcases steps with _ | ⟨first, _ | ⟨second, _ | ⟨third, _ | ⟨_, _⟩⟩⟩⟩
  · simp
  · simp
  · simp
  · simp only [List.forall_mem_cons, List.map_cons, List.map_nil, Bool.and_eq_true, beq_iff_eq,
      String.toList_inj, List.cons.injEq, and_true] at plain ⊢
    constructor
    · rintro ⟨⟨⟨⟨_, isDefinitions⟩, nonempty⟩, digits⟩, isItems⟩
      have named {step : PathStep} (plainStep : step.Plain) {key : String}
          (plainKey : (PathStep.key key).Plain) (same : step.text = key) : step = .key key :=
        plainStep.text_inj plainKey same
      cases second with
      | key name =>
          rcases plain.2.1.exists_isAlpha with ⟨character, member, letter⟩
          have digit := List.all_eq_true.mp digits character member
          exact absurd letter (PathStep.isAlpha_ne_true_of_isDigit digit)
      | index position =>
          exact ⟨position, named plain.1 (by decide) isDefinitions, rfl,
            named plain.2.2.1 (by decide) isItems⟩
    · rintro ⟨position, rfl, rfl, rfl⟩
      have digits : (toString position).toList.all Char.isDigit = true :=
        List.all_eq_true.mpr fun character member => isDigit_of_mem_toString member
      simpa [PathStep.text] using digits
  · simp
/-! ## Walking -/

theorem nearestLine_or (given : Option Number) (value : Value) (steps : List PathStep) :
    nearestLine given value steps = (nearestLine none value steps).or given := by
  induction steps generalizing given value with
  | nil => simp [nearestLine]
  | cons step rest hypothesis =>
      simp only [nearestLine]
      cases partAt? value step with
      | none => simp
      | some part =>
          dsimp only
          rw [hypothesis, hypothesis ((ownLine? value).or none), Option.or_none, Option.or_assoc]

theorem lineless_of_item? {items : List Value} {position : Nat} {value : Value}
    (lineless : Value.linelessItems items = true) (found : items[position]? = some value) :
    value.lineless = true := by
  induction items generalizing position with
  | nil => cases found
  | cons item rest hypothesis =>
      simp only [Value.linelessItems, Bool.and_eq_true] at lineless
      cases position with
      | zero => exact Option.some.inj found ▸ lineless.1
      | succ position => exact hypothesis lineless.2 found

theorem lineless_of_get? {entries : List (String × Value)} {key : String} {value : Value}
    (lineless : Value.linelessEntries entries = true)
    (found : Record.get? entries key = some value) : value.lineless = true := by
  induction entries with
  | nil => cases found
  | cons entry rest hypothesis =>
      rcases entry with ⟨own, data⟩
      simp only [Value.linelessEntries, Bool.and_eq_true] at lineless
      rw [Record.get?_cons] at found
      split at found
      · exact Option.some.inj found ▸ lineless.1.2
      · exact hypothesis lineless.2 found

/-- The parts of data without lines have no lines. -/
theorem lineless_of_partAt? {value part : Value} {step : PathStep}
    (lineless : value.lineless = true) (found : partAt? value step = some part) :
    part.lineless = true := by
  cases step with
  | key name =>
      cases value with
      | record entries => exact lineless_of_get? lineless found
      | _ => cases found
  | index position =>
      cases value with
      | list items => exact lineless_of_item? lineless found
      | _ => cases found

theorem ownLine?_of_lineless {value : Value} (lineless : value.lineless = true) :
    ownLine? value = none := by
  cases value with
  | record entries =>
      have absent : (Value.record entries).get? lineKey = none :=
        get?_lineKey_of_lineless lineless
      rw [ownLine?, absent]
  | _ => rfl

/-- In data without lines nothing is found. -/
theorem nearestLine_of_lineless {value : Value} (lineless : value.lineless = true)
    (given : Option Number) (steps : List PathStep) : nearestLine given value steps = given := by
  induction steps generalizing value with
  | nil => rw [nearestLine, ownLine?_of_lineless lineless, Option.none_or]
  | cons step rest hypothesis =>
      rw [nearestLine, ownLine?_of_lineless lineless, Option.none_or]
      cases found : partAt? value step with
      | none => rfl
      | some part => exact hypothesis (lineless_of_partAt? lineless found)

section Data

variable (document : Parsed)

theorem innermostLine_cons (place : List PathStep × Node) (rest : List (List PathStep × Node)) :
    innermostLine document (place :: rest) =
      (innermostLine document rest).or (toldLine? document place) := by
  unfold innermostLine
  rw [List.filterMap_cons]
  cases toldLine? document place with
  | none => rw [Option.or_none]
  | some line =>
      dsimp only
      rw [List.getLast?_cons]
      cases (rest.filterMap (toldLine? document)).getLast? <;> rfl

/-- A way from a mapping that starts somewhere has a line: the mapping itself is
met. -/
theorem exists_innermostLine {node : Node} (root : isMapping node = true)
    (placed : node.start ≠ none) (before rest : List PathStep) :
    ∃ line, innermostLine document (onWay document before node rest) = some line := by
  rcases Option.ne_none_iff_exists'.mp placed with ⟨start, starts⟩
  have tells : toldLine? document (before, node) = some (document.lineAt start) := by
    cases node with
    | mapping pairs own =>
        rw [toldLine?, Parsed.lineOf?, starts]
        rfl
    | _ => cases root
  have first : ∃ others, onWay document before node rest = (before, node) :: others := by
    cases rest <;> exact ⟨_, rfl⟩
  rcases first with ⟨others, same⟩
  rw [same, innermostLine_cons, tells]
  cases innermostLine document others with
  | none => exact ⟨_, rfl⟩
  | some line => exact ⟨line, rfl⟩

/-! ## Data on a way -/

/-- The data of a node that steps lead to. -/
def dataAt (before : List PathStep) (node : Node) : Value :=
  match node with
  | .scalar (.text name) start =>
    if tellsLine before node then bareItem name (start.map document.lineAt) else .text name
  | node => (located document (pathFrom "document" before) node).value

variable {document} {before rest : List PathStep} {step : PathStep} {node part : Node}

theorem lastPair?_eq_none_of_has {pairs : List (Node × Option Node)} {start : Option Nat}
    {key : String} (without : document.has (.mapping pairs start) key = false) :
    document.lastPair? pairs key = none :=
  (lastPair?_eq_none_iff document).mpr without

/-- Data has a line of its own where the node tells one. -/
theorem ownLine?_dataAt (before : List PathStep)
    (unlined : ∀ mapping ∈ mappings document node, document.has mapping lineKey = false) :
    ownLine? (dataAt document before node) = toldLine? document (before, node) := by
  cases node with
  | aliased name start => rfl
  | sequence items start => rfl
  | pair key value object => exact ownLine?_of_lineless object.lineless
  | scalar content start =>
      cases content with
      | text name =>
          unfold dataAt toldLine?
          cases start <;> dsimp only <;> split <;> rfl
      | other object spelling => exact ownLine?_of_lineless object.lineless
      | _ => rfl
  | mapping pairs start =>
      have stamped := get?_mapping document (pathFrom "document" before) pairs start lineKey
      rw [lastPair?_eq_none_of_has (unlined _ List.mem_cons_self), if_pos rfl] at stamped
      have own : (dataAt document before (.mapping pairs start)).get? lineKey =
          (start.map document.lineAt).map .number := stamped
      rw [ownLine?, own]
      cases start <;> rfl

theorem mappings_subset_of_mem {item : Node} {items : List Node} (member : item ∈ items)
    (start : Option Nat) : mappings document item ⊆ mappings document (.sequence items start) := by
  intro mapping inItem
  rw [mappings, itemMappings_eq_flatMap]
  exact List.mem_flatMap.mpr ⟨item, member, inItem⟩

/-- The mappings in the last value under a key are among those of its pairs. -/
theorem mappings_subset_pairMappings {pairs : List (Node × Option Node)} {key : String}
    {own value : Node} (ordinary : key ≠ defaultKey)
    (last : document.lastPair? pairs key = some (own, some value)) :
    mappings document value ⊆ pairMappings document pairs := by
  induction pairs with
  | nil => cases last
  | cons pair rest hypothesis =>
      rw [lastPair?_cons] at last
      intro mapping member
      cases later : document.lastPair? rest key with
      | some found =>
          rw [later, Option.some_or] at last
          have inside := hypothesis (later.trans last) member
          rcases pair with ⟨key, _ | first⟩
          · exact inside
          · exact List.mem_append_right _ inside
      | none =>
          rw [later, Option.none_or] at last
          split at last
          · next same =>
              cases last
              have counts : isPassedOver document own rest = false := by
                have apart := (lastPair?_eq_none_iff document).mp later
                rw [isPassedOver, same, apart, Bool.or_false]
                exact beq_eq_false_iff_ne.mpr ordinary
              rw [pairMappings, counts]
              exact List.mem_append_left _ member
          · cases last

/-- The mappings in what a step leads to are mappings of the node, but for those in
default values. -/
theorem mappings_subset_of_part (ordinary : step ≠ .key defaultKey)
    (found : partOf? document node step = some part) :
    mappings document part ⊆ mappings document node := by
  cases step with
  | key name =>
      have plain : name ≠ defaultKey := fun same => ordinary (congrArg PathStep.key same)
      cases node with
      | mapping pairs start =>
          rcases Option.bind_eq_some_iff.mp found with ⟨⟨own, _⟩, last, rfl⟩
          intro mapping member
          exact List.mem_cons_of_mem _ (mappings_subset_pairMappings plain last member)
      | _ => cases found
  | index position =>
      cases node with
      | sequence items start => exact mappings_subset_of_mem (List.mem_of_getElem? found) start
      | _ => cases found

/-- What steps lead to under a key is located there. -/
theorem dataAt_key (before : List PathStep) (name : String) (part : Node) :
    dataAt document (before ++ [.key name]) part =
      (located document (pathOf (pathFrom "document" before) name) part).value := by
  have path : pathFrom "document" (before ++ [.key name]) =
      pathOf (pathFrom "document" before) name := PathStep.pathFrom_append _ _ _
  rw [← path]
  unfold dataAt
  split
  · simp only [tellsLine, List.getLast?_append, List.getLast?_singleton, Option.some_or]
    rfl
  · rfl

/-- What steps lead to in a list is the data of an item. -/
theorem dataAt_index (plain : ∀ other ∈ before, other.Plain) (position : Nat) (item : Node) :
    dataAt document (before ++ [.index position]) item =
      itemData document (pathFrom "document" before) position item := by
  have path : pathFrom "document" (before ++ [.index position]) =
      pathOf (pathFrom "document" before) (toString position) := PathStep.pathFrom_append _ _ _
  cases item with
  | scalar content start =>
      cases content with
      | text name =>
          have tells : tellsLine (before ++ [.index position]) (.scalar (.text name) start) =
              isItems before := by
            simp [tellsLine]
          rw [dataAt, tells, itemData, isItemsPath_pathFrom plain]
      | _ => rfl
  | _ => exact congrArg (fun path => (located document path _).value) path

/-- A step to a part of a node leads to the data of the part, or to plain data
under the key of default values. -/
theorem partAt?_of_part (plain : ∀ other ∈ before, other.Plain)
    (found : partOf? document node step = some part) :
    partAt? (dataAt document before node) step =
      some (if step = .key defaultKey then document.plain part
        else dataAt document (before ++ [step]) part) := by
  cases step with
  | key name =>
      cases node with
      | mapping pairs start =>
          rcases Option.bind_eq_some_iff.mp found with ⟨⟨own, _⟩, last, rfl⟩
          have gives := get?_mapping document (pathFrom "document" before) pairs start name
          rw [last, Option.map_some, Option.some_or] at gives
          rw [dataAt_key]
          refine gives.trans ?_
          simp only [memberData, PathStep.key.injEq]
      | _ => cases found
  | index position =>
      cases node with
      | sequence items start =>
          have gives := getElem?_locatedItems document (pathFrom "document" before) items 0 position
          rw [show items[position]? = some part from found, Nat.zero_add] at gives
          rw [if_neg (by simp), dataAt_index plain]
          exact gives
      | _ => cases found

theorem lineless_of_bareItem {name : String} {line : Option Number} {value : Value}
    (found : partAt? (bareItem name line) step = some value) : value.lineless = true := by
  cases step with
  | index position => cases found
  | key own =>
      rcases List.mem_cons.mp (Record.mem_of_get? found) with isName | isLine
      · cases isName
        rfl
      · rcases List.mem_map.mp isLine with ⟨number, _, pair⟩
        cases pair
        rfl

/-- A text is located as it is, or as a bare item. -/
theorem dataAt_text (before : List PathStep) (name : String) (start : Option Nat) :
    dataAt document before (.scalar (.text name) start) = .text name ∨
      dataAt document before (.scalar (.text name) start) =
        bareItem name (start.map document.lineAt) := by
  unfold dataAt
  dsimp only
  split
  · exact Or.inr rfl
  · exact Or.inl rfl

/-- Where no part of a node is, the data has no lines in it. -/
theorem lineless_of_missing (missing : partOf? document node step = none) {value : Value}
    (found : partAt? (dataAt document before node) step = some value) :
    value.lineless = true := by
  cases node with
  | aliased name start => cases step <;> cases found
  | pair key written object => exact lineless_of_partAt? object.lineless found
  | scalar content start =>
      cases content with
      | text name =>
          rcases dataAt_text before name start with same | same
          · rw [same] at found
            cases step <;> cases found
          · rw [same] at found
            exact lineless_of_bareItem found
      | other object spelling => exact lineless_of_partAt? object.lineless found
      | _ => cases step <;> cases found
  | mapping pairs start =>
      cases step with
      | index position => cases found
      | key name =>
          have gives :=
            (get?_mapping document (pathFrom "document" before) pairs start name).symm.trans found
          cases last : document.lastPair? pairs name with
          | none =>
              -- only the line that is added has no pair
              rw [last, Option.map_none, Option.none_or] at gives
              split at gives
              · rcases Option.map_eq_some_iff.mp gives with ⟨line, _, rfl⟩
                rfl
              · cases gives
          | some pair =>
              have valueless : pair.2 = none := by
                rw [partOf?, member?_mapping, last] at missing
                exact missing
              rw [last, Option.map_some, valueless] at gives
              cases gives
              rfl
  | sequence items start =>
      cases step with
      | key name => cases found
      | index position =>
          have gives := getElem?_locatedItems document (pathFrom "document" before) items 0 position
          rw [show items[position]? = none from missing] at gives
          cases gives.symm.trans found

/-- Walking in located data finds what seems to be the line of a default value,
or else the line on which the innermost node starts that tells its line. -/
theorem nearestLine_dataAt (given : Option Number)
    (plain : ∀ step ∈ before ++ rest, step.Plain)
    (unlined : ∀ mapping ∈ mappings document node, document.has mapping lineKey = false) :
    nearestLine given (dataAt document before node) rest =
      ((defaultLine? document node rest).or
        (innermostLine document (onWay document before node rest))).or given := by
  induction rest generalizing before node given with
  | nil =>
      rw [nearestLine, ownLine?_dataAt before unlined, onWay, innermostLine_cons]
      rfl
  | cons step rest hypothesis =>
      rw [nearestLine, ownLine?_dataAt before unlined, onWay, innermostLine_cons, defaultLine?]
      cases found : partOf? document node step with
      | none =>
          have nothing : innermostLine document
              (if step = .key defaultKey then [] else []) = none := by
            split <;> rfl
          dsimp only
          rw [nothing, Option.none_or, Option.none_or]
          cases value : partAt? (dataAt document before node) step with
          | none => rfl
          | some value => exact nearestLine_of_lineless (lineless_of_missing found value) _ rest
      | some part =>
          have early := fun other member => plain other (List.mem_append_left _ member)
          rw [partAt?_of_part early found]
          dsimp only
          by_cases isDefault : step = .key defaultKey
          · rw [if_pos isDefault, if_pos isDefault, if_pos isDefault, nearestLine_or,
              Option.or_assoc]
            rfl
          · rw [if_neg isDefault, if_neg isDefault, if_neg isDefault,
              hypothesis _ (by simpa using plain) fun mapping member =>
                unlined mapping (mappings_subset_of_part isDefault found member)]
            simp only [Option.or_assoc]

end Data

/-! ## Reports -/

section Reports

variable {read : Reader} {text : String} {limits : Limits}

/-- What can be reported of a document. -/
inductive Reported (document : Parsed) : Diagnostic → Prop
  | tooLong (bytes limit : Nat) : Reported document (tooLong bytes limit)
  | fault (error : Yaml.ReadError) : Reported document (faultDiagnostic error)
  | aliased (path name : String) (line : Option Number) :
    Reported document (unsupportedAlias path name line)
  | misshapen {issue : Issue}
      (member : issue ∈ (Written.checkDocument (some (sourceData document))).issues) :
      Reported document (shapeDiagnostic (sourceData document) issue)
  | rejected (path : String) (line : Number) (message : String) :
    Reported document (Written.rejectedType path line message)
  | truncated (count : Nat) : Reported document (Diagnostic.truncated count)

variable {document : Parsed} {limit : Nat} {diagnostic : Diagnostic}

theorem reported_of_mem_rejected {found : List Diagnostic}
    (each : ∀ other ∈ found, Reported document other)
    (member : diagnostic ∈ (rejected limit found).diagnostics) : Reported document diagnostic := by
  rcases Diagnostic.mem_or_eq_of_mem_settle member with inside | ⟨count, rfl⟩
  · exact each diagnostic inside
  · exact .truncated count

theorem reported_of_mem_loadData
    (member : diagnostic ∈ (loadData limit (sourceData document)).diagnostics) :
    Reported document diagnostic := by
  rcases mem_loadData_cases member with ⟨path, line, message, rfl⟩ | ⟨_, among, rfl⟩ | ⟨count, rfl⟩
  · exact .rejected path line message
  · exact .misshapen among
  · exact .truncated count

theorem reported_of_mem_loadParsed (member : diagnostic ∈ (loadParsed limit document).diagnostics) :
    Reported document diagnostic := by
  have fromData := @reported_of_mem_loadData document limit diagnostic
  unfold loadParsed at member
  unfold sourceData at fromData
  split at member
  · split at member
    · next none =>
        rw [none] at fromData
        exact fromData member
    · next content given =>
        rw [given] at fromData
        dsimp only at member
        split at member
        · rw [notes_located] at member
          refine reported_of_mem_rejected (fun other inside => ?_) member
          rcases List.mem_map.mp inside with ⟨use, _, rfl⟩
          exact .aliased _ _ _
        · exact fromData member
  · refine reported_of_mem_rejected (fun other inside => ?_) member
    rcases List.mem_map.mp inside with ⟨error, _, rfl⟩
    exact .fault error

theorem reported_of_mem (member : diagnostic ∈ (loadWith read text limits).diagnostics) :
    Reported (read text) diagnostic := by
  unfold loadWith at member
  dsimp only at member
  split at member
  · rw [List.mem_singleton.mp member]
    exact .tooLong _ _
  · exact reported_of_mem_loadParsed member

/-- What is reported of the shape of a document's data is an issue. -/
theorem exists_issue_of_reported
    (member : diagnostic ∈ (loadWith read text limits).diagnostics)
    (code : diagnostic.code = "IDL_DOC_SCHEMA_INVALID") :
    ∃ issue ∈ (Written.checkDocument (some (sourceData (read text)))).issues,
      diagnostic = shapeDiagnostic (sourceData (read text)) issue := by
  cases reported_of_mem member with
  | misshapen among => exact ⟨_, among, rfl⟩
  | tooLong | fault | aliased | rejected | truncated =>
      simp [tooLong, faultDiagnostic, unsupportedAlias, Written.rejectedType,
        Diagnostic.truncated] at code

end Reports

/-- In a text whose root is a mapping that starts somewhere, and in which no mapping
outside of default values has a line of its own, the report of an issue has a
line, whatever reads the text.  It is the one on which the innermost mapping or
bare enum item outside of default values starts that is met on the path of the
issue, unless a number that is met in a default value is taken for it. -/
theorem misshapen_line_exact (read : Reader) (text : String) (limits : Limits) (content : Node)
    (given : (read text).content = some content) (root : isMapping content = true)
    (placed : content.start ≠ none)
    (unlined : ∀ mapping ∈ documentMappings (read text),
      (read text).has mapping lineKey = false) :
    ∀ diagnostic ∈ (loadWith read text limits).diagnostics,
      diagnostic.code = "IDL_DOC_SCHEMA_INVALID" →
        ∃ issue ∈ (Written.checkDocument (some (sourceData (read text)))).issues,
          diagnostic = shapeDiagnostic (sourceData (read text)) issue ∧
            ∃ line, innermostLine (read text) (onWay (read text) [] content issue.path) =
                some line ∧
              diagnostic.line =
                some ((defaultLine? (read text) content issue.path).getD line) ∧
              (diagnostic.line = some line ↔
                ∀ other ∈ defaultLine? (read text) content issue.path, other = line) := by
  intro diagnostic member code
  rcases exists_issue_of_reported member code with ⟨issue, among, rfl⟩
  refine ⟨issue, among, rfl, ?_⟩
  have plain := Written.traced_checkDocument (some (sourceData (read text))) issue among
  rw [documentMappings, given, Option.toList_some, List.flatMap_singleton] at unlined
  have walked := @nearestLine_dataAt (read text) [] issue.path content none plain unlined
  have data : dataAt (read text) [] content = sourceData (read text) := by
    rw [sourceData, given]
    cases content with
    | mapping pairs start => rfl
    | _ => cases root
  rcases exists_innermostLine (read text) root placed [] issue.path with ⟨line, found⟩
  rw [data, found, Option.or_none] at walked
  have told : (shapeDiagnostic (sourceData (read text)) issue).line =
      some ((defaultLine? (read text) content issue.path).getD line) := by
    rw [shapeDiagnostic, walked]
    cases defaultLine? (read text) content issue.path <;> rfl
  refine ⟨line, found, told, ?_⟩
  rw [told]
  cases defaultLine? (read text) content issue.path <;> simp

/-- Of each issue, the line on which the innermost mapping or bare enum item met
on its path starts, and the one that a default value there seems to have. -/
def issueLines (document : Parsed) (content : Node) : List (Option Number × Option Number) :=
  (Written.checkDocument (some (sourceData document))).issues.map fun issue =>
    (innermostLine document (onWay document [] content issue.path),
      defaultLine? document content issue.path)

theorem mem_issueLines {document : Parsed} {issue : Issue}
    (among : issue ∈ (Written.checkDocument (some (sourceData document))).issues)
    (content : Node) : (innermostLine document (onWay document [] content issue.path),
      defaultLine? document content issue.path) ∈ issueLines document content :=
  List.mem_map.mpr ⟨issue, among, rfl⟩

/-- An enum on two lines with an item that is no name. -/
def misspelledItem : String :=
  "\x7bdefinitions: [\x7bkind: enum, name: E, items: [A,\n  2b]\x7d]\x7d"

/-- The item is reported on its own line. -/
theorem misshapen_line_misspelledItem : ∃ content diagnostic,
    (Yaml.read misspelledItem).content = some content ∧ isMapping content = true ∧
      content.start ≠ none ∧
      (∀ mapping ∈ documentMappings (Yaml.read misspelledItem),
        (Yaml.read misspelledItem).has mapping lineKey = false) ∧
      (load misspelledItem).diagnostics = [diagnostic] ∧
      diagnostic.code = "IDL_DOC_SCHEMA_INVALID" ∧ diagnostic.line = some (.ofNat 2) := by
  have facts : (load misspelledItem).diagnostics.map (·.code) = ["IDL_DOC_SCHEMA_INVALID"] ∧
      (∀ mapping ∈ documentMappings (Yaml.read misspelledItem),
        (Yaml.read misspelledItem).has mapping lineKey = false) ∧
      ((Yaml.read misspelledItem).content.map fun content =>
        (isMapping content, content.start, issueLines (Yaml.read misspelledItem) content)) =
          some (true, some 0, [(some (.ofNat 2), none)]) := by
    decide +kernel
  rcases facts with ⟨codes, unlined, found⟩
  rcases Option.map_eq_some_iff.mp found with ⟨content, given, same⟩
  simp only [Prod.mk.injEq] at same
  rcases same with ⟨root, starts, lines⟩
  have placed : content.start ≠ none := by simp [starts]
  rcases List.map_eq_singleton_iff.mp codes with ⟨diagnostic, only, code⟩
  have exact := misshapen_line_exact Yaml.read misspelledItem {} content given root placed unlined
    diagnostic (by rw [load] at only; rw [only]; exact List.mem_singleton_self _) code
  rcases exact with ⟨issue, among, _, line, innermost, told, _⟩
  have pair := mem_issueLines among content
  rw [lines, List.mem_singleton, innermost] at pair
  rcases Prod.mk.inj pair with ⟨second, none⟩
  rw [none, Option.getD_none, second] at told
  exact ⟨content, diagnostic, given, root, placed, unlined, only, code, told⟩

/-- A struct whose field has a default value that is no constant and holds a
number under the key of lines. -/
def numberedDefault : String :=
  "\x7bdefinitions: [\x7bkind: struct, name: P, fields: [
  \x7bname: a, type: i32, default: \x7bline: 7, x: null\x7d\x7d]\x7d]\x7d"

/-- The default value is reported on the line that the number tells, and not on
that of its field: no issue of the text has the line of the report. -/
theorem load_numberedDefault_misplaced :
    (Yaml.read numberedDefault).errors = [] ∧ documentAliases (Yaml.read numberedDefault) = [] ∧
      (∀ mapping ∈ documentMappings (Yaml.read numberedDefault),
        (Yaml.read numberedDefault).has mapping lineKey = false) ∧
      ∃ content diagnostic, (Yaml.read numberedDefault).content = some content ∧
        isMapping content = true ∧ content.start ≠ none ∧
        (load numberedDefault).diagnostics = [diagnostic] ∧
        diagnostic.code = "IDL_DOC_SCHEMA_INVALID" ∧
        diagnostic.path = "document.definitions.0.fields.0.default" ∧
        diagnostic.line = some (.ofNat 7) ∧
        issueLines (Yaml.read numberedDefault) content = [(some (.ofNat 2), some (.ofNat 7))] ∧
        ¬ ∃ issue ∈ (Written.checkDocument
            (some (sourceData (Yaml.read numberedDefault)))).issues,
          diagnostic.line = innermostLine (Yaml.read numberedDefault)
            (onWay (Yaml.read numberedDefault) [] content issue.path) := by
  have facts : (Yaml.read numberedDefault).errors = [] ∧
      documentAliases (Yaml.read numberedDefault) = [] ∧
      (∀ mapping ∈ documentMappings (Yaml.read numberedDefault),
        (Yaml.read numberedDefault).has mapping lineKey = false) ∧
      ((load numberedDefault).diagnostics.map fun diagnostic =>
        (diagnostic.code, diagnostic.path, diagnostic.line)) =
          [("IDL_DOC_SCHEMA_INVALID", "document.definitions.0.fields.0.default",
            some (.ofNat 7))] ∧
      ((Yaml.read numberedDefault).content.map fun content =>
        (isMapping content, content.start, issueLines (Yaml.read numberedDefault) content)) =
          some (true, some 0, [(some (.ofNat 2), some (.ofNat 7))]) := by
    decide +kernel
  rcases facts with ⟨clean, unaliased, unlined, reports, found⟩
  rcases Option.map_eq_some_iff.mp found with ⟨content, given, same⟩
  simp only [Prod.mk.injEq] at same
  rcases same with ⟨root, starts, lines⟩
  rcases List.map_eq_singleton_iff.mp reports with ⟨diagnostic, only, parts⟩
  simp only [Prod.mk.injEq] at parts
  rcases parts with ⟨code, path, line⟩
  refine ⟨clean, unaliased, unlined, content, diagnostic, given, root, by simp [starts], only,
    code, path, line, lines, ?_⟩
  rintro ⟨issue, among, told⟩
  have pair := mem_issueLines among content
  rw [lines, List.mem_singleton, ← told, line] at pair
  exact absurd (Prod.mk.inj pair).1 (by decide)

end Load

end IdlLinker
