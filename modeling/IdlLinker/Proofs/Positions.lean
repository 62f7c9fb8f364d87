import Mathlib.Data.List.Nodup
import IdlLinker.Proofs.Sources
import IdlLinker.Written.Positions

/-!
# Reports of types

Reading a document takes one note for each place whose text is no type.  Steps
to a place are words and numbers, so different places have different paths, and
reports of different places have different keys: no report is lost as a
repeated one.
-/

namespace IdlLinker

namespace PathStep

variable {step other : PathStep} {steps others : List PathStep} {character : Char} {path : String}

theorem pathFrom_append (path : String) (steps others : List PathStep) :
    pathFrom path (steps ++ others) = pathFrom (pathFrom path steps) others :=
  List.foldl_append

theorem Plain.isAlphanum (plain : step.Plain) (member : character ∈ step.text.toList) :
    character.isAlphanum = true := by
  cases step with
  | key name => rw [Char.isAlphanum, List.all_eq_true.mp plain.1 character member, Bool.true_or]
  | index position =>
      rw [Char.isAlphanum, Load.isDigit_of_mem_toString member, Bool.or_true]

theorem isAlpha_ne_true_of_isDigit (digit : character.isDigit = true) :
    character.isAlpha ≠ true := by
  intro letter
  change (decide ('A'.val ≤ character.val ∧ character.val ≤ 'Z'.val) ||
    decide ('a'.val ≤ character.val) && decide (character.val ≤ 'z'.val)) = true at letter
  change (decide ('0'.val ≤ character.val) && decide (character.val ≤ '9'.val)) = true at digit
  simp only [Bool.or_eq_true, Bool.and_eq_true, decide_eq_true_eq, UInt32.le_iff_toNat_le]
    at letter digit
  have last : '9'.val.toNat = 57 := rfl
  have first : 'A'.val.toNat = 65 := rfl
  have small : 'a'.val.toNat = 97 := rfl
  omega

/-- A word has a letter. -/
theorem Plain.exists_isAlpha {name : String} (plain : (key name).Plain) :
    ∃ character ∈ name.toList, character.isAlpha = true := by
  rcases List.exists_mem_of_ne_nil name.toList (by simpa using plain.2) with ⟨character, member⟩
  exact ⟨character, member, List.all_eq_true.mp plain.1 character member⟩

theorem Plain.text_ne_toString {name : String} (plain : (key name).Plain) (position : Nat) :
    name ≠ toString position := by
  intro same
  rcases plain.exists_isAlpha with ⟨character, member, letter⟩
  exact isAlpha_ne_true_of_isDigit (Load.isDigit_of_mem_toString (same ▸ member)) letter

theorem toString_inj {position otherPosition : Nat}
    (same : toString position = toString otherPosition) : position = otherPosition := by
  have digits : Nat.toDigits 10 position = Nat.toDigits 10 otherPosition := by
    simpa [Nat.toString_eq_ofList_toDigits] using congrArg String.toList same
  simpa using congrArg (Nat.ofDigitChars 10 · 0) digits

/-- A word is no number. -/
theorem Plain.text_inj (plain : step.Plain) (otherPlain : other.Plain)
    (same : step.text = other.text) : step = other := by
  cases step with
  | key name =>
      cases other with
      | key otherName => exact congrArg key same
      | index position => exact absurd same (plain.text_ne_toString position)
  | index position =>
      cases other with
      | key name => exact absurd same.symm (otherPlain.text_ne_toString position)
      | index otherPosition => exact congrArg index (toString_inj same)

theorem toList_pathFrom (path : String) (steps : List PathStep) :
    (pathFrom path steps).toList =
      path.toList ++ steps.flatMap fun step => '.' :: step.text.toList := by
  induction steps generalizing path with
  | nil => simp [pathFrom]
  | cons step rest hypothesis =>
      have next := hypothesis (path ++ "." ++ step.text)
      rw [pathFrom, List.foldl_cons, ← pathFrom, next]
      simp

/-- The parts of a path between its dots are the texts of its steps. -/
theorem segments_flatMap (plain : ∀ step ∈ steps, step.Plain) :
    Name.segments (steps.flatMap fun step => '.' :: step.text.toList) =
      [] :: steps.map fun step => step.text.toList := by
  induction steps with
  | nil => rfl
  | cons step rest hypothesis =>
      rw [List.forall_mem_cons] at plain
      have undotted : '.' ∉ step.text.toList :=
        fun member => absurd (plain.1.isAlphanum member) (by decide)
      have others := hypothesis plain.2
      rw [List.flatMap_cons, List.cons_append, Name.segments, List.map_cons]
      congr 1
      cases rest with
      | nil =>
          rw [List.flatMap_nil, List.append_nil]
          exact Name.segments_of_not_mem undotted
      | cons next more =>
          rw [List.flatMap_cons, List.cons_append, Name.segments] at others
          rw [List.flatMap_cons, List.cons_append, Name.segments_append_dot undotted,
            (List.cons.inj others).2]

/-- Different plain steps make different paths. -/
theorem pathFrom_inj (plain : ∀ step ∈ steps, step.Plain)
    (otherPlain : ∀ step ∈ others, step.Plain)
    (same : pathFrom path steps = pathFrom path others) : steps = others := by
  have lists := congrArg String.toList same
  rw [toList_pathFrom, toList_pathFrom] at lists
  have segments := congrArg Name.segments (List.append_cancel_left lists)
  rw [segments_flatMap plain, segments_flatMap otherPlain] at segments
  have texts := (List.cons.inj segments).2
  clear same lists segments
  induction steps generalizing others with
  | nil => exact (List.map_eq_nil_iff.mp texts.symm).symm
  | cons step rest hypothesis =>
      cases others with
      | nil => simp at texts
      | cons other more =>
          rw [List.forall_mem_cons] at plain otherPlain
          rw [List.map_cons, List.map_cons, List.cons.injEq] at texts
          rw [plain.1.text_inj otherPlain.1 (String.toList_inj.mp texts.1),
            hypothesis plain.2 otherPlain.2 texts.2]

end PathStep

namespace Written

open PathStep (pathFrom)
open TypePosition (inEach under)

/-! ## Places are told apart -/

/-- Places are told apart by plain steps that begin with one of some keys. -/
structure ToldApart (keys : List String) (positions : List TypePosition) : Prop where
  plain : ∀ position ∈ positions, ∀ step ∈ position.steps, step.Plain
  begins : ∀ position ∈ positions, ∃ key ∈ keys, position.steps.head? = some (.key key)
  distinct : (positions.map TypePosition.steps).Nodup

namespace ToldApart

variable {α : Type} {keys others : List String} {key : String}
  {positions more : List TypePosition} {within : α → List TypePosition} {items : List α}

theorem nil (keys : List String) : ToldApart keys [] := by
  constructor <;> simp

theorem single (plain : (PathStep.key key).Plain) (expression : String) (line : Number) :
    ToldApart [key] [⟨[.key key], expression, line⟩] := by
  constructor <;> simp [plain]

theorem append (first : ToldApart keys positions) (second : ToldApart others more)
    (disjoint : ∀ key ∈ keys, key ∉ others) : ToldApart (keys ++ others) (positions ++ more) where
  plain := List.forall_mem_append.mpr ⟨first.plain, second.plain⟩
  begins := by
    intro position member
    rcases List.mem_append.mp member with early | late
    · rcases first.begins position early with ⟨key, among, head⟩
      exact ⟨key, List.mem_append_left _ among, head⟩
    · rcases second.begins position late with ⟨key, among, head⟩
      exact ⟨key, List.mem_append_right _ among, head⟩
  distinct := by
    rw [List.map_append]
    refine first.distinct.append second.distinct fun steps early late => ?_
    rcases List.mem_map.mp early with ⟨position, member, rfl⟩
    rcases List.mem_map.mp late with ⟨other, otherMember, same⟩
    rcases first.begins position member with ⟨key, among, head⟩
    rcases second.begins other otherMember with ⟨otherKey, otherAmong, otherHead⟩
    rw [same, head] at otherHead
    cases otherHead
    exact disjoint key among otherAmong

theorem mem_inEach_iff {position : TypePosition} :
    position ∈ inEach key within items ↔ ∃ index item, items[index]? = some item ∧
      ∃ inner ∈ within item, inner.under [.key key, .index index] = position := by
  simp only [inEach, List.mem_flatMap, Prod.exists, List.mk_mem_zipIdx_iff_getElem?, List.mem_map]
  exact exists_comm

/-- Places in the items of a list are told apart by the index of the item. -/
theorem inEach (plain : (PathStep.key key).Plain)
    (each : ∀ item ∈ items, ∃ keys, ToldApart keys (within item)) :
    ToldApart [key] (inEach key within items) where
  plain := by
    intro position member step among
    rcases mem_inEach_iff.mp member with ⟨index, item, found, inner, inside, rfl⟩
    rcases each item (List.mem_of_getElem? found) with ⟨_, told⟩
    rcases List.mem_append.mp among with front | back
    · simp only [List.mem_cons, List.not_mem_nil, or_false] at front
      rcases front with rfl | rfl
      · exact plain
      · trivial
    · exact told.plain inner inside step back
  begins := by
    intro position member
    rcases mem_inEach_iff.mp member with ⟨index, item, found, inner, inside, rfl⟩
    exact ⟨key, List.mem_singleton_self _, rfl⟩
  distinct := by
    have steps (entry : α × Nat) :
        ((within entry.1).map (under [.key key, .index entry.2])).map TypePosition.steps =
          ((within entry.1).map TypePosition.steps).map ([.key key, .index entry.2] ++ ·) := by
      simp [Function.comp_def, under]
    rw [TypePosition.inEach, List.map_flatMap, List.nodup_flatMap]
    constructor
    · rintro ⟨item, index⟩ member
      rcases each item (List.mem_of_getElem? (List.mk_mem_zipIdx_iff_getElem?.mp member)) with
        ⟨_, told⟩
      rw [steps]
      exact told.distinct.map (List.append_right_injective _)
    · have indices : (items.zipIdx.map Prod.snd).Nodup := by
        rw [List.zipIdx_map_snd]
        exact List.nodup_range'
      refine (List.pairwise_map.mp indices).imp fun different => ?_
      change List.Disjoint (((within _).map (under _)).map TypePosition.steps)
        (((within _).map (under _)).map TypePosition.steps)
      rw [steps, steps]
      intro place early late
      rcases List.mem_map.mp early with ⟨_, _, rfl⟩
      rcases List.mem_map.mp late with ⟨_, _, same⟩
      exact different (by simpa using (List.append_inj_left same rfl).symm)

end ToldApart

theorem Field.toldApart (field : Field) : ToldApart ["type"] field.typePositions :=
  .single (by decide) field.type field.line

theorem Function.toldApart (function : Function) :
    ToldApart ["returns", "args", "throws"] function.typePositions := by
  have fields (key : String) (plain : (PathStep.key key).Plain) (fields : List Field) :
      ToldApart [key] (inEach key Field.typePositions fields) :=
    .inEach plain fun field _ => ⟨_, field.toldApart⟩
  have returns : ToldApart ["returns"] (function.returns.toList.map fun expression =>
      ⟨[.key "returns"], expression, function.line⟩) := by
    cases function.returns with
    | none => exact .nil _
    | some expression => exact .single (by decide) expression function.line
  exact (returns.append (fields "args" (by decide) function.args) (by decide)).append
    (fields "throws" (by decide) function.throws) (by decide)

theorem Definition.toldApart (definition : Definition) :
    ∃ keys, ToldApart keys definition.typePositions := by
  cases definition with
  | struct body => exact ⟨_, .inEach (by decide) fun field _ => ⟨_, field.toldApart⟩⟩
  | typedef body => exact ⟨_, .single (by decide) body.type body.line⟩
  | enum body => exact ⟨[], .nil _⟩
  | service body => exact ⟨_, .inEach (by decide) fun function _ => ⟨_, function.toldApart⟩⟩

theorem Document.toldApart (document : Document) :
    ToldApart ["definitions"] document.typePositions :=
  .inEach (by decide) fun definition _ => definition.toldApart

/-- Places that are told apart have different paths. -/
theorem ToldApart.nodup_paths {keys : List String} {positions : List TypePosition}
    (told : ToldApart keys positions) : (positions.map TypePosition.path).Nodup := by
  have paths : positions.map TypePosition.path =
      (positions.map TypePosition.steps).map (pathFrom "document") := by
    simp [TypePosition.path, Function.comp_def]
  rw [paths]
  refine told.distinct.map_on fun steps member others otherMember same => ?_
  rcases List.mem_map.mp member with ⟨position, inside, rfl⟩
  rcases List.mem_map.mp otherMember with ⟨other, otherInside, rfl⟩
  exact PathStep.pathFrom_inj (told.plain position inside) (told.plain other otherInside) same

/-! ## Notes of reading -/

namespace TypePosition

/-- Read the type at a place, below a path. -/
def readFrom (path : String) (position : TypePosition) : Diagnosed TypeExpression :=
  readType (pathFrom path position.steps) position.expression position.line

/-- What is noted at a place is its report. -/
theorem notes_readFrom (position : TypePosition) :
    (position.readFrom "document").notes = position.report?.toList := by
  rw [readFrom, readType, report?, path]
  cases TypeExpression.parse position.expression position.line <;> rfl

theorem parse_of_not_rejected (position : TypePosition) (isType : ¬ position.Rejected)
    (path : String) : TypeExpression.parse position.expression position.line =
      .ok (position.readFrom path).value := by
  rw [readFrom, readType]
  cases parsed : TypeExpression.parse position.expression position.line with
  | ok type => rfl
  | error rejection => exact absurd ⟨rejection, parsed⟩ isType

theorem exists_of_report? (position : TypePosition) {report : Diagnostic}
    (reported : position.report? = some report) :
    ∃ message, report = rejectedType position.path position.line message := by
  unfold report? at reported
  split at reported
  · cases reported
  · exact ⟨_, (Option.some.inj reported).symm⟩

/-- A place is reported just when its text is no type. -/
theorem report?_ne_none_iff (position : TypePosition) :
    position.report? ≠ none ↔ position.Rejected := by
  unfold report? Rejected
  cases TypeExpression.parse position.expression position.line <;> simp

theorem readFrom_under (path : String) (steps : List PathStep) (position : TypePosition) :
    (position.under steps).readFrom path = position.readFrom (pathFrom path steps) := by
  rw [readFrom, readFrom, ← PathStep.pathFrom_append]
  rfl

end TypePosition

open TypePosition (readFrom)

/-- What is noted at some places below a path. -/
def notesAt (path : String) (positions : List TypePosition) : List Diagnostic :=
  positions.flatMap fun position => (position.readFrom path).notes

theorem notesAt_append (path : String) (positions more : List TypePosition) :
    notesAt path (positions ++ more) = notesAt path positions ++ notesAt path more :=
  List.flatMap_append

theorem notesAt_under (path : String) (steps : List PathStep) (positions : List TypePosition) :
    notesAt path (positions.map (under steps)) = notesAt (pathFrom path steps) positions := by
  simp [notesAt, List.flatMap_map, TypePosition.readFrom_under]

theorem notes_readEach {α β : Type} {read : String → α → Diagnosed β}
    {positions : α → List TypePosition}
    (each : ∀ path item, (read path item).notes = notesAt path (positions item))
    (path key : String) (items : List α) :
    (readEach read (path ++ "." ++ key) 0 items).notes =
      notesAt path (inEach key positions items) := by
  have onward (start : Nat) : (readEach read (path ++ "." ++ key) start items).notes =
      notesAt path ((items.zipIdx start).flatMap fun entry =>
        (positions entry.1).map (under [.key key, .index entry.2])) := by
    induction items generalizing start with
    | nil => rfl
    | cons item rest hypothesis =>
        simp only [readEach, Noted.notes_bind, Noted.notes_pure, List.append_nil, hypothesis, each,
          List.zipIdx_cons, List.flatMap_cons, notesAt_append, notesAt_under]
        rfl
  exact onward 0

theorem notes_readField (path : String) (field : Field) :
    (field.read path).notes = notesAt path field.typePositions := by
  simp [Field.read, notesAt, Field.typePositions, readFrom, pathFrom, PathStep.text,
    String.append_assoc]

theorem notes_readFunction (path : String) (function : Function) :
    (function.read path).notes = notesAt path function.typePositions := by
  have fields := notes_readEach notes_readField path
  simp only [Function.typePositions, notesAt_append, ← fields]
  cases returns : function.returns <;>
    simp [Function.read, returns, notesAt, readFrom, pathFrom, PathStep.text, String.append_assoc]

theorem notes_readDefinition (path : String) (definition : Definition) :
    (definition.read path).notes = notesAt path definition.typePositions := by
  cases definition with
  | struct body =>
      simp [Definition.read, Definition.typePositions, ← notes_readEach notes_readField,
        String.append_assoc]
  | typedef body =>
      simp [Definition.read, Definition.typePositions, notesAt, readFrom, pathFrom, PathStep.text,
        String.append_assoc]
  | enum body => rfl
  | service body =>
      simp [Definition.read, Definition.typePositions, ← notes_readEach notes_readFunction,
        String.append_assoc]

/-- Reading a document notes the report of each place whose text is no type. -/
theorem notes_readDocument (document : Document) :
    document.read.notes = document.typePositions.filterMap TypePosition.report? := by
  have notes := notes_readEach notes_readDefinition "document" "definitions" document.definitions
  rw [List.filterMap_eq_flatMap_toList]
  simp only [← TypePosition.notes_readFrom]
  exact notes

/-! ## What is read -/

section Types

variable {α β : Type} {read : String → α → Diagnosed β} {types : β → List TypeExpression}
  {positions : α → List TypePosition}

/-- The types in what is read are those that stand at some places. -/
def TypesFrom (types : β → List TypeExpression) (positions : List TypePosition) (path : String)
    (result : β) : Prop :=
  ∀ type ∈ types result, ∃ position ∈ positions, type = (position.readFrom path).value

theorem mem_readEach {path : String} {start : Nat} {items : List α} {result : β}
    (member : result ∈ (readEach read path start items).value) :
    ∃ index item, items[index]? = some item ∧
      result = (read (path ++ "." ++ toString (start + index)) item).value := by
  induction items generalizing start with
  | nil => cases member
  | cons item rest hypothesis =>
      rcases List.mem_cons.mp member with rfl | later
      · exact ⟨0, item, rfl, rfl⟩
      · rcases hypothesis later with ⟨index, other, found, same⟩
        refine ⟨index + 1, other, found, ?_⟩
        rw [same, Nat.add_right_comm, Nat.add_assoc]

theorem typesFrom_readEach
    (each : ∀ path item, TypesFrom types (positions item) path (read path item).value)
    (path key : String) (items : List α) :
    ∀ result ∈ (readEach read (path ++ "." ++ key) 0 items).value,
      TypesFrom types (inEach key positions items) path result := by
  intro result member type among
  rcases mem_readEach member with ⟨index, item, found, rfl⟩
  rw [Nat.zero_add] at among
  rcases each _ item type among with ⟨position, inside, rfl⟩
  refine ⟨_, ToldApart.mem_inEach_iff.mpr ⟨index, item, found, position, inside, rfl⟩, ?_⟩
  rw [TypePosition.readFrom_under]
  rfl

end Types

theorem typesFrom_readField (path : String) (field : Field) :
    TypesFrom (fun field : IdlLinker.Field => [field.type]) field.typePositions path
      (field.read path).value := by
  intro type among
  rw [List.mem_singleton.mp among]
  refine ⟨_, List.mem_singleton_self _, ?_⟩
  simp [Field.read, readFrom, pathFrom, PathStep.text, String.append_assoc]

theorem TypesFrom.mono {β : Type} {types : β → List TypeExpression}
    {positions more : List TypePosition} {path : String} {result : β}
    (within : TypesFrom types positions path result) (subset : positions ⊆ more) :
    TypesFrom types more path result := by
  intro type among
  rcases within type among with ⟨position, inside, same⟩
  exact ⟨position, subset inside, same⟩

theorem typesFrom_readFields (path key dotted : String) (fields : List Field)
    (same : "." ++ key = dotted) :
    TypesFrom (List.map (·.type)) (inEach key Field.typePositions fields) path
      (readEach Field.read (path ++ dotted) 0 fields).value := by
  intro type among
  rcases List.mem_map.mp among with ⟨field, member, rfl⟩
  rw [← same, ← String.append_assoc] at member
  exact typesFrom_readEach typesFrom_readField path key fields field member _
    (List.mem_singleton_self _)

/-- What is read of a function, whether it returns anything or not. -/
theorem value_readFunction (path : String) (function : Function) :
    (function.read path).value.parameters =
        (readEach Field.read (path ++ ".args") 0 function.args).value ∧
      (function.read path).value.returnType = function.returns.map (fun expression =>
        (readType (path ++ ".returns") expression function.line).value) ∧
      (function.read path).value.exceptions =
        (readEach Field.read (path ++ ".throws") 0 function.throws).value := by
  unfold Function.read
  cases function.returns <;> exact ⟨rfl, rfl, rfl⟩

theorem typesFrom_readFunction (path : String) (function : Function) :
    TypesFrom IdlLinker.Function.types function.typePositions path
      (function.read path).value := by
  rcases value_readFunction path function with ⟨parameters, returnType, exceptions⟩
  intro type among
  rw [IdlLinker.Function.types, parameters, returnType, exceptions] at among
  rcases List.mem_append.mp among with front | inExceptions
  · rcases List.mem_append.mp front with inParameters | returned
    · refine (typesFrom_readFields path "args" ".args" function.args rfl).mono ?_ type inParameters
      exact fun position member => List.mem_append_left _ (List.mem_append_right _ member)
    · rcases Option.map_eq_some_iff.mp (Option.mem_toList.mp returned) with
        ⟨expression, returns, rfl⟩
      refine ⟨⟨[.key "returns"], expression, function.line⟩, ?_, ?_⟩
      · exact List.mem_append_left _ (List.mem_append_left _
          (List.mem_map_of_mem (Option.mem_toList.mpr returns)))
      · simp [readFrom, pathFrom, PathStep.text, String.append_assoc]
  · refine (typesFrom_readFields path "throws" ".throws" function.throws rfl).mono ?_ type
      inExceptions
    exact fun position member => List.mem_append_right _ member

theorem typesFrom_readDefinition (path : String) (definition : Definition) :
    TypesFrom IdlLinker.Definition.types definition.typePositions path
      (definition.read path).value := by
  cases definition with
  | struct body => exact typesFrom_readFields path "fields" ".fields" body.fields rfl
  | typedef body =>
      intro type among
      refine ⟨_, List.mem_singleton_self _, ?_⟩
      simpa [Definition.read, IdlLinker.Definition.types, readFrom, pathFrom, PathStep.text,
        String.append_assoc] using among
  | enum body => exact fun type among => absurd among List.not_mem_nil
  | service body =>
      intro type among
      rcases List.mem_flatMap.mp among with ⟨function, member, inFunction⟩
      have same : path ++ ".functions" = path ++ "." ++ "functions" := by
        simp [String.append_assoc]
      change function ∈ (readEach Function.read (path ++ ".functions") 0 body.functions).value
        at member
      rw [same] at member
      exact typesFrom_readEach typesFrom_readFunction path "functions" body.functions function
        member type inFunction

/-- The types of the definitions that are read are those at the places of the
document. -/
theorem typesFrom_readDocument (document : Document) :
    ∀ definition ∈ document.read.value, ∀ type ∈ definition.types,
      ∃ position ∈ document.typePositions, type = (position.readFrom "document").value :=
  typesFrom_readEach typesFrom_readDefinition "document" "definitions" document.definitions

/-! ## No report is lost -/

/-- Two lists that agree are cut alike at the first place of an element. -/
theorem append_cons_inj_of_not_mem_left {α : Type} [DecidableEq α]
    {front back otherFront otherBack : List α} {cut : α} (first : cut ∉ front)
    (otherFirst : cut ∉ otherFront)
    (same : front ++ cut :: back = otherFront ++ cut :: otherBack) : front = otherFront := by
  have taken {part rest : List α} (absent : cut ∉ part) :
      (part ++ cut :: rest).takeWhile (· ≠ cut) = part := by
    have others : ∀ other ∈ part, decide (other ≠ cut) = true :=
      fun other member => decide_eq_true (ne_of_mem_of_not_mem member absent)
    rw [List.takeWhile_append_of_pos others]
    simp
  rw [← @taken front back first, same, taken otherFirst]

/-- The key of a rejected text begins with the code and the path. -/
theorem key_rejectedType (path : String) (line : Number) (message : String) :
    (rejectedType path line message).key.toList =
      "IDL_DOC_TYPE_EXPRESSION_INVALID\x1f".toList ++ (path.toList ++
        '\x1f' :: ("error\x1f" ++ message ++ "\x1f" ++ line.text).toList) := by
  have joined : (rejectedType path line message).key =
      "IDL_DOC_TYPE_EXPRESSION_INVALID" ++ "\x1f" ++ path ++ "\x1f" ++ "error" ++ "\x1f" ++
        message ++ "\x1f" ++ line.text := rfl
  rw [joined]
  simp

namespace ToldApart

variable {keys : List String} {positions : List TypePosition}

/-- No path has a separator of keys. -/
theorem not_mem_path (told : ToldApart keys positions) {position : TypePosition}
    (member : position ∈ positions) : '\x1f' ∉ position.path.toList := by
  rw [TypePosition.path, PathStep.toList_pathFrom]
  intro separator
  rcases List.mem_append.mp separator with inDocument | inSteps
  · exact absurd inDocument (by decide)
  · rcases List.mem_flatMap.mp inSteps with ⟨step, among, inStep⟩
    rcases List.mem_cons.mp inStep with dot | inText
    · exact absurd dot (by decide)
    · have plain := told.plain position member step among
      exact absurd (plain.isAlphanum inText) (by decide)

/-- Reports of places that are told apart have different keys. -/
theorem nodup_keys (told : ToldApart keys positions) :
    ((positions.filterMap TypePosition.report?).map Diagnostic.key).Nodup := by
  have apart := List.pairwise_map.mp told.nodup_paths
  refine List.pairwise_map.mpr (List.pairwise_filterMap.mpr (apart.imp_of_mem ?_))
  intro position other member otherMember different report reported otherReport otherReported same
  rcases position.exists_of_report? reported with ⟨message, rfl⟩
  rcases other.exists_of_report? otherReported with ⟨otherMessage, rfl⟩
  have lists := congrArg String.toList same
  rw [key_rejectedType, key_rejectedType] at lists
  apply different
  apply String.toList_inj.mp
  exact append_cons_inj_of_not_mem_left (told.not_mem_path member)
    (told.not_mem_path otherMember) (List.append_cancel_left lists)

end ToldApart

end Written

end IdlLinker
