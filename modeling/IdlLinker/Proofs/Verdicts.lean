import Mathlib.Data.List.Forall2
import IdlLinker.Shape

/-!
# What checks accept

A verdict is valid when it has a value and no issues.  Each way to build a
verdict from verdicts on parts is valid just when these are, and each check of
a shape accepts just the data of that shape.  Some properties are inherited from
verdicts on parts: one without a value has an issue that says why, and issues
have plain paths.
-/

namespace IdlLinker

namespace Verdict

variable {α β : Type} {verdict : Verdict α} {value : α} {result : β}

@[simp]
theorem valid_eq_valid_iff {other : α} : valid other = valid value ↔ other = value := by
  simp [valid]

@[simp]
theorem refused_ne_valid (flaw : Flaw) : (refused flaw : Verdict α) ≠ valid value := by
  simp [refused, valid]

@[simp]
theorem flawed_eq_valid_iff {other : α} {flaws : List Flaw} :
    flawed other flaws = valid value ↔ other = value ∧ flaws = [] := by
  simp [flawed, valid]

@[simp]
theorem map_eq_valid_iff {change : α → β} :
    verdict.map change = valid result ↔
      ∃ value, verdict = valid value ∧ change value = result := by
  rcases verdict with ⟨_ | value, issues⟩ <;> simp [Verdict.map, valid, and_comm]

@[simp]
theorem seq_eq_valid_iff {change : Verdict (α → β)} :
    Verdict.seq change verdict = valid result ↔
      ∃ function, change = valid function ∧ ∃ value, verdict = valid value ∧
        function value = result := by
  rcases change with ⟨_ | function, issues⟩ <;> rcases verdict with ⟨_ | value, others⟩ <;>
    simp [Verdict.seq, valid]
  tauto

@[simp]
theorem applicative_map_eq_valid_iff {change : α → β} :
    change <$> verdict = valid result ↔
      ∃ value, verdict = valid value ∧ change value = result := by
  change Verdict.seq (valid change) verdict = valid result ↔ _
  simp

@[simp]
theorem applicative_seq_eq_valid_iff {change : Verdict (α → β)} :
    change <*> verdict = valid result ↔
      ∃ function, change = valid function ∧ ∃ value, verdict = valid value ∧
        function value = result :=
  seq_eq_valid_iff

@[simp]
theorem under_eq_valid_iff {step : PathStep} :
    verdict.under step = valid value ↔ verdict = valid value := by
  rcases verdict with ⟨found, issues⟩
  simp [under, valid]

@[simp]
theorem withFlaw_ne_valid (flaw : Flaw) : verdict.withFlaw flaw ≠ valid value := by
  simp [withFlaw, valid]

theorem items_eq_valid_iff {check : Value → Verdict α} {position : Nat} {values : List Value}
    {results : List α} : items check position values = valid results ↔
      List.Forall₂ (fun value result => check value = valid result) values results := by
  induction values generalizing position results with
  | nil => simp [items, eq_comm]
  | cons value rest hypothesis =>
      simp only [items, seq_eq_valid_iff, map_eq_valid_iff, under_eq_valid_iff, hypothesis]
      constructor
      · rintro ⟨_, ⟨first, accepted, rfl⟩, others, follows, rfl⟩
        exact .cons accepted follows
      · rintro (_ | ⟨accepted, follows⟩)
        exact ⟨_, ⟨_, accepted, rfl⟩, _, follows, rfl⟩

theorem eq_valid_iff :
    verdict = valid value ↔ verdict.value? = some value ∧ verdict.issues = [] := by
  rcases verdict with ⟨found, issues⟩
  simp [valid]

theorem exists_of_isValid (accepted : verdict.isValid = true) :
    ∃ value, verdict = valid value := by
  simp only [isValid, Bool.and_eq_true, List.isEmpty_iff, Option.isSome_iff_exists] at accepted
  rcases accepted with ⟨⟨value, found⟩, issues⟩
  exact ⟨value, eq_valid_iff.mpr ⟨found, issues⟩⟩

/-- The better of two verdicts is valid when the first one is, or else the
second. -/
theorem orElse_eq_valid_iff {second : Verdict α} : verdict.orElse second = valid value ↔
    verdict = valid value ∨ verdict.isValid = false ∧ second = valid value := by
  have isValid_valid : (valid value).isValid = true := rfl
  unfold orElse
  split
  · next accepted => simp [accepted]
  · next refused =>
      have fails : ∀ {other : Verdict α}, other.isValid ≠ true → other ≠ valid value := by
        rintro other invalid rfl
        exact invalid isValid_valid
      split
      · next accepted => simp [refused, fails refused]
      · next alsoRefused =>
          split <;> simp [fails refused, fails alsoRefused]
          split <;> simp [fails alsoRefused]

/-! ## What every verdict has -/

/-- A property that verdicts get from the verdicts on parts that they are built
from. -/
structure Inherited (property : {α : Type} → Verdict α → Prop) : Prop where
  valid : ∀ {α : Type} (value : α), property (valid value)
  refused : ∀ {α : Type} (flaw : Flaw), property (refused flaw : Verdict α)
  flawed : ∀ {α : Type} (value : α) (flaws : List Flaw), property (flawed value flaws)
  map : ∀ {α β : Type} {verdict : Verdict α} (change : α → β), property verdict →
    property (verdict.map change)
  seq : ∀ {α β : Type} {change : Verdict (α → β)} {verdict : Verdict α}, property change →
    property verdict → property (Verdict.seq change verdict)
  under : ∀ {α : Type} {verdict : Verdict α} {step : PathStep}, step.Plain →
    property verdict → property (verdict.under step)
  withFlaw : ∀ {α : Type} {verdict : Verdict α} (flaw : Flaw), property verdict →
    property (verdict.withFlaw flaw)
  orElse : ∀ {α : Type} {verdict second : Verdict α}, property verdict → property second →
    property (verdict.orElse second)

namespace Inherited

variable {property : {α : Type} → Verdict α → Prop} (inherited : Inherited @property)

include inherited

theorem applicative_map (holds : property verdict) (change : α → β) :
    property (change <$> verdict) :=
  inherited.seq (inherited.valid change) holds

theorem applicative_seq {change : Verdict (α → β)} (first : property change)
    (second : property verdict) : property (change <*> verdict) :=
  inherited.seq first second

theorem items {check : Value → Verdict α} (holds : ∀ value, property (check value))
    (position : Nat) (values : List Value) : property (Verdict.items check position values) := by
  induction values generalizing position with
  | nil => exact inherited.valid []
  | cons value rest hypothesis =>
      exact inherited.seq (inherited.map List.cons (inherited.under trivial (holds value)))
        (hypothesis (position + 1))

end Inherited

/-- A verdict without a value has an issue. -/
def Explained (verdict : Verdict α) : Prop := verdict.value? = none → verdict.issues ≠ []

theorem Explained.seq {change : Verdict (α → β)} (first : change.Explained)
    (second : verdict.Explained) : (Verdict.seq change verdict).Explained := by
  intro nothing empty
  rcases List.append_eq_nil_iff.mp empty with ⟨noFirst, noSecond⟩
  cases function : change.value? with
  | none => exact first function noFirst
  | some found =>
      cases value : verdict.value? with
      | none => exact second value noSecond
      | some argument => simp [Verdict.seq, function, value] at nothing

/-- One of two verdicts is the better one, or both are without a value. -/
theorem orElse_cases (verdict second : Verdict α) :
    verdict.orElse second = verdict ∨ verdict.orElse second = second ∨
      verdict.orElse second = refused .noAlternative := by
  unfold Verdict.orElse
  split
  · exact .inl rfl
  · split
    · exact .inr (.inl rfl)
    · split
      · exact .inl rfl
      · split
        · exact .inr (.inl rfl)
        · exact .inr (.inr rfl)

theorem inherited_explained : Inherited @Explained where
  valid value := by simp [Explained, valid]
  refused flaw := by simp [Explained, refused]
  flawed value flaws := by simp [Explained, flawed]
  map change explained := by simpa [Explained, Verdict.map] using explained
  seq := Explained.seq
  under _ explained := by simpa [Explained, Verdict.under] using explained
  withFlaw flaw _ := by simp [Explained, Verdict.withFlaw]
  orElse {_ verdict second} first other := by
    rcases verdict.orElse_cases second with same | same | same
    · rwa [same]
    · rwa [same]
    · rw [same]
      simp [Explained, refused]

/-- The paths of issues have plain steps only. -/
def Traced (verdict : Verdict α) : Prop :=
  ∀ issue ∈ verdict.issues, ∀ step ∈ issue.path, step.Plain

theorem inherited_traced : Inherited @Traced where
  valid value := by simp [Traced, valid]
  refused flaw := by simp [Traced, refused]
  flawed value flaws := by simp [Traced, flawed]
  map change traced := traced
  seq first second := List.forall_mem_append.mpr ⟨first, second⟩
  under plain traced := by
    intro issue member
    rcases List.mem_map.mp member with ⟨inner, inside, rfl⟩
    exact List.forall_mem_cons.mpr ⟨plain, traced inner inside⟩
  withFlaw flaw traced := by
    refine List.forall_mem_append.mpr ⟨traced, ?_⟩
    simp
  orElse {_ verdict second} first other := by
    rcases verdict.orElse_cases second with same | same | same
    · rwa [same]
    · rwa [same]
    · rw [same]
      simp [Traced, refused]

end Verdict

namespace Shape

variable {α : Type} {data : Option Value} {check : Check α} {value : α}

@[simp]
theorem wrongKind_ne_valid (expected : Value.Kind) : (wrongKind expected data : Verdict α) ≠
    .valid value := by
  cases data <;> simp [wrongKind]

@[simp]
theorem demand_eq_nil_iff {holds : Bool} {flaw : Flaw} :
    demand holds flaw = [] ↔ holds = true := by
  cases holds <;> simp [demand]

theorem text_eq_valid_iff {rules : String → List Flaw} {text : String} :
    Shape.text rules data = .valid text ↔ data = some (.text text) ∧ rules text = [] := by
  cases data with
  | none => simp [Shape.text]
  | some found =>
      cases found with
      | text other =>
          simp only [Shape.text, Verdict.flawed_eq_valid_iff, Option.some.injEq, Value.text.injEq]
          exact and_congr_right fun same => by rw [same]
      | _ => simp [Shape.text]

theorem number_eq_valid_iff {rules : Number → List Flaw} {number : Number} :
    Shape.number rules data = .valid number ↔
      data = some (.number number) ∧ number ≠ .nan ∧ rules number = [] := by
  cases data with
  | none => simp [Shape.number]
  | some found =>
      cases found with
      | number other =>
          by_cases undefined : other = .nan
          · subst undefined
            simp only [Shape.number, Verdict.refused_ne_valid, false_iff, Option.some.injEq,
              Value.number.injEq]
            rintro ⟨rfl, undefined, _⟩
            exact undefined rfl
          · rw [Shape.number.eq_2 _ _ undefined]
            simp only [Verdict.flawed_eq_valid_iff, Option.some.injEq, Value.number.injEq]
            exact and_congr_right fun same => by simp [← same, undefined]
      | _ => simp [Shape.number]

theorem identifier_eq_valid_iff {text : String} :
    identifier data = .valid text ↔ data = some (.text text) ∧ Name.isIdentifier text = true := by
  simp [identifier, text_eq_valid_iff]

theorem serviceName_eq_valid_iff {text : String} :
    serviceName data = .valid text ↔ data = some (.text text) ∧ Name.isQualified text = true := by
  simp [serviceName, text_eq_valid_iff]

theorem typeText_eq_valid_iff {text : String} :
    typeText data = .valid text ↔ data = some (.text text) ∧ text ≠ "" := by
  simp [typeText, text_eq_valid_iff]

theorem integer_eq_valid_iff {number : Number} :
    integer data = .valid number ↔ data = some (.number number) ∧ number.isInteger = true := by
  rw [integer, number_eq_valid_iff, demand_eq_nil_iff]
  refine and_congr_right fun _ => ⟨And.right, fun whole => ⟨?_, whole⟩⟩
  rintro rfl
  cases whole

theorem line_eq_valid_iff {number : Number} :
    line data = .valid number ↔
      data = some (.number number) ∧ number.isInteger = true ∧ number.isPositive = true := by
  rw [line, number_eq_valid_iff, List.append_eq_nil_iff, demand_eq_nil_iff, demand_eq_nil_iff]
  refine and_congr_right fun _ => ⟨And.right, fun counts => ⟨?_, counts⟩⟩
  rintro rfl
  cases counts.1

theorem boolean_eq_valid_iff {truth : Bool} :
    boolean data = .valid truth ↔ data = some (.boolean truth) := by
  cases data with
  | none => simp [boolean]
  | some found => cases found <;> simp [boolean]

theorem literal_eq_valid_iff {expected : String} {result : Unit} :
    literal expected data = .valid result ↔ data = some (.text expected) := by
  cases data with
  | none => simp [literal]
  | some found =>
      cases found with
      | text other =>
          by_cases same : other = expected
          · simp [literal, same]
          · simp [literal, same]
      | _ => simp [literal]

theorem optional_eq_valid_iff {result : Option α} : optional check data = .valid result ↔
    data = none ∧ result = none ∨
      ∃ found value, data = some found ∧ check (some found) = .valid value ∧
        result = some value := by
  cases data with
  | none => simp [optional, eq_comm]
  | some found => simp [optional, eq_comm]

theorem withDefault_eq_valid_iff {default : α} : withDefault default check data = .valid value ↔
    data = none ∧ value = default ∨
      ∃ found, data = some found ∧ check (some found) = .valid value := by
  cases data with
  | none => simp [withDefault, eq_comm]
  | some found => simp [withDefault]

theorem list_eq_valid_iff {results : List α} : list check data = .valid results ↔
    ∃ values, data = some (.list values) ∧
      List.Forall₂ (fun value result => check (some value) = .valid result) values results := by
  cases data with
  | none => simp [Shape.list]
  | some found => cases found <;> simp [Shape.list, Verdict.items_eq_valid_iff]

theorem record_eq_valid_iff {keys : List String} {parts : List (String × Value) → Verdict α} :
    record keys parts data = .valid value ↔
      ∃ entries, data = some (.record entries) ∧ (∀ key ∈ entries.map (·.1), key ∈ keys) ∧
        parts entries = .valid value := by
  cases data with
  | none => simp [record]
  | some found =>
      cases found with
      | record entries =>
          have same : (∃ others, some (Value.record entries) = some (.record others) ∧
              (∀ key ∈ others.map (·.1), key ∈ keys) ∧ parts others = .valid value) ↔
              (∀ key ∈ entries.map (·.1), key ∈ keys) ∧ parts entries = .valid value := by
            simp
          rw [same, record]
          by_cases known : ∀ key ∈ entries.map (·.1), key ∈ keys
          · have none : (entries.map (·.1)).filter (fun key => !keys.contains key) = [] := by
              simpa [List.filter_eq_nil_iff] using known
            simp only [none, List.isEmpty_nil, if_true]
            exact (and_iff_right known).symm
          · have some : (entries.map (·.1)).filter (fun key => !keys.contains key) ≠ [] := by
              simpa [List.filter_eq_nil_iff] using known
            simp only [List.isEmpty_eq_false_iff.mpr some, Bool.false_eq_true, if_false,
              Verdict.withFlaw_ne_valid, false_iff]
            exact fun accepted => known accepted.1
      | _ => simp [record]

theorem part_eq_valid_iff {key : String} {entries : List (String × Value)} :
    part key check entries = .valid value ↔ check (Record.get? entries key) = .valid value := by
  rw [part, Verdict.under_eq_valid_iff]

theorem constant_eq_valid_iff {result : Value} : constant data = .valid result ↔
    ∃ found, data = some found ∧ constant? found = some result := by
  cases data with
  | none => simp [constant]
  | some found => cases kept : constant? found <;> simp [constant, kept]

/-! ## What checks give in any case -/

/-- Whatever the data, the verdict has a property. -/
def Always (property : {α : Type} → Verdict α → Prop) (check : Check α) : Prop :=
  ∀ data, property (check data)

section Inherited

variable {property : {α : Type} → Verdict α → Prop} (inherited : Verdict.Inherited @property)

include inherited

theorem holds_wrongKind (expected : Value.Kind) (data : Option Value) :
    property (wrongKind expected data : Verdict α) := by
  cases data <;> exact inherited.refused _

theorem always_text (rules : String → List Flaw) : Always @property (Shape.text rules) := by
  intro data
  unfold Shape.text
  split
  · exact inherited.flawed _ _
  · exact holds_wrongKind inherited _ _

theorem always_number (rules : Number → List Flaw) : Always @property (Shape.number rules) := by
  intro data
  unfold Shape.number
  split
  · exact inherited.refused _
  · exact inherited.flawed _ _
  · exact holds_wrongKind inherited _ _

theorem always_boolean : Always @property boolean := by
  intro data
  unfold boolean
  split
  · exact inherited.valid _
  · exact holds_wrongKind inherited _ _

theorem always_literal (expected : String) : Always @property (literal expected) := by
  intro data
  unfold literal
  split
  · split
    · exact inherited.valid _
    · exact inherited.refused _
  · exact inherited.refused _

theorem always_constant : Always @property constant := by
  intro data
  unfold constant
  split
  · exact inherited.refused _
  · split
    · exact inherited.valid _
    · exact inherited.refused _

theorem always_optional (always : Always @property check) :
    Always @property (optional check) := by
  intro data
  cases data with
  | none => exact inherited.valid _
  | some found => exact inherited.map some (always (some found))

theorem always_withDefault (default : α) (always : Always @property check) :
    Always @property (withDefault default check) := by
  intro data
  cases data with
  | none => exact inherited.valid _
  | some found => exact always (some found)

theorem always_list (always : Always @property check) : Always @property (list check) := by
  intro data
  unfold Shape.list
  split
  · exact inherited.items (fun value => always (some value)) 0 _
  · exact holds_wrongKind inherited _ _

/-- A list that may be left out. -/
theorem always_items (always : Always @property check) :
    Always @property (withDefault [] (list check)) :=
  always_withDefault inherited [] (always_list inherited always)

theorem holds_part {key : String} (plain : (PathStep.key key).Plain)
    (always : Always @property check) (entries : List (String × Value)) :
    property (part key check entries) :=
  inherited.under plain (always _)

theorem always_record {keys : List String} {parts : List (String × Value) → Verdict α}
    (holds : ∀ entries, property (parts entries)) : Always @property (record keys parts) := by
  intro data
  unfold record
  split
  · dsimp only
    split
    · exact holds _
    · exact inherited.withFlaw _ (holds _)
  · exact holds_wrongKind inherited _ _

end Inherited

end Shape

end IdlLinker
