import IdlLinker.Origins
import IdlLinker.Proofs.Compiled

/-!
# Errors about what is declared twice

A namespace refuses the first name that was declared before, and tells where:
on the line of its first declaration.  So does a field group with explicit
identifiers; the ones it gives out itself are below zero and below one another.
-/

namespace IdlLinker

section Repeats

variable {κ : Type} {declared : List (κ × Number)} {key : κ} {line : Number}

theorem Repeats.append (repeats : Repeats declared key line) (more : List (κ × Number)) :
    Repeats (declared ++ more) key line := by
  rcases repeats with ⟨before, between, after, again, rfl, first⟩
  exact ⟨before, between, after ++ more, again, by simp, first⟩

/-- What is found among the declarations is repeated when it is declared once
more. -/
theorem repeats_of_find? [BEq κ] [LawfulBEq κ]
    (found : (declared.find? fun entry => entry.1 == key).map (·.2) = some line)
    (again : Number) : Repeats (declared ++ [(key, again)]) key line := by
  rcases Option.map_eq_some_iff.mp found with ⟨⟨own, first⟩, here, rfl⟩
  rcases List.find?_eq_some_iff_append.mp here with ⟨same, before, between, rfl, fresh⟩
  obtain rfl : own = key := by simpa using same
  refine ⟨before, between, [], again, by simp, ?_⟩
  intro member
  rcases List.mem_map.mp member with ⟨entry, earlier, equal⟩
  have different := fresh entry earlier
  simp [equal] at different

end Repeats

namespace Origins

/-- What is declared in one place begins what is declared in the other, and what
is mentioned in one is mentioned in the other. -/
structure Within (origins wider : Origins) : Prop where
  names : ∀ declared ∈ origins.names, ∃ longer ∈ wider.names, declared <+: longer
  ids : ∀ declared ∈ origins.ids, ∃ longer ∈ wider.ids, declared <+: longer
  mentions : origins.mentions ⊆ wider.mentions

variable {names more : List (List (String × Number))} {groups others : List (List Field)}

theorem within_of_subset {origins wider : Origins} (names : origins.names ⊆ wider.names)
    (ids : origins.ids ⊆ wider.ids) (mentions : origins.mentions ⊆ wider.mentions) :
    origins.Within wider where
  names declared member := ⟨declared, names member, List.prefix_refl declared⟩
  ids declared member := ⟨declared, ids member, List.prefix_refl declared⟩
  mentions := mentions

theorem within_declared (namesWithin : names ⊆ more) (groupsWithin : groups ⊆ others) :
    (declared names groups).Within (declared more others) := by
  apply within_of_subset
  · exact List.append_subset.mpr
      ⟨List.subset_append_of_subset_left _ namesWithin,
        List.subset_append_of_subset_right _ (List.map_subset _ groupsWithin)⟩
  · exact List.map_subset _ groupsWithin
  · exact List.Subset.refl _

/-- The first fields of a group declare what begins what the group declares. -/
theorem within_append (first second : List Field) :
    (declared [] [first]).Within (declared [] [first ++ second]) where
  names entries member := by
    rw [List.mem_singleton.mp member]
    refine ⟨_, List.mem_singleton_self _, ?_⟩
    rw [Field.names, Field.names, List.map_append]
    exact List.prefix_append _ _
  ids entries member := by
    rw [List.mem_singleton.mp member]
    refine ⟨_, List.mem_singleton_self _, ?_⟩
    rw [Field.ids, Field.ids, List.filterMap_append]
    exact List.prefix_append _ _
  mentions := List.Subset.refl _

end Origins

theorem CompileError.PointsInto.within {origins wider : Origins} {error : CompileError}
    (points : error.PointsInto origins) (within : origins.Within wider) :
    error.PointsInto wider := by
  cases error with
  | duplicateName name line =>
      rcases points with ⟨declared, member, repeats⟩
      rcases within.names declared member with ⟨_, longer, more, rfl⟩
      exact ⟨_, longer, repeats.append more⟩
  | duplicateFieldId id field line =>
      rcases points with ⟨declared, member, repeats⟩
      rcases within.ids declared member with ⟨_, longer, more, rfl⟩
      exact ⟨_, longer, repeats.append more⟩
  | unresolvedReference name line => exact within.mentions points
  | _ => trivial

namespace Namespace

variable {names : Namespace} {name : String} {line : Number} {error : CompileError}

theorem claim_eq_error_iff : names.claim name line = .error error ↔
    ∃ first, names.line? name = some first ∧ error = .duplicateName name first := by
  rw [claim]
  cases names.line? name <;> simp [eq_comm]

/-- A name that is refused is repeated, and the error tells the first line. -/
theorem pointsInto_of_claim {origins : Origins} {declared : List (String × Number)}
    (refused : names.claim name line = .error error) (member : declared ∈ origins.names)
    (starts : names.declared ++ [(name, line)] <+: declared) : error.root.PointsInto origins := by
  rcases claim_eq_error_iff.mp refused with ⟨first, found, rfl⟩
  rcases starts with ⟨rest, rfl⟩
  exact ⟨_, member, (repeats_of_find? found line).append rest⟩

end Namespace

namespace Compilation

variable {α β : Type} {error : CompileError}

/-- A sequence of two steps fails when one of them does. -/
@[simp]
theorem outcome_bind_eq_error {first : Compilation α} {next : α → Compilation β} :
    (first >>= next).outcome = .error error ↔ first.outcome = .error error ∨
      ∃ middle, first.outcome = .ok middle ∧ (next middle).outcome = .error error := by
  change (Compilation.bind first next).outcome = _ ↔ _
  unfold Compilation.bind
  cases first.outcome <;> simp

@[simp]
theorem outcome_ownedBy_eq_error {compilation : Compilation α} {owner : String} :
    (compilation.ownedBy owner).outcome = .error error ↔
      ∃ cause, compilation.outcome = .error cause ∧ error = .wrapped .compile owner cause := by
  unfold ownedBy withOwner
  cases compilation.outcome <;> simp [Except.mapError, eq_comm]

end Compilation

namespace FieldGroup

/-- The identifiers among those taken that were not given out. -/
def explicitIds (ids : List (Int × Number)) : List (Number × Number) :=
  ids.filterMap fun entry => if 0 < entry.1 then some (.ofInt entry.1, entry.2) else none

/-- What fields have taken: their names and explicit identifiers, and above the
next identifier to be given out all that were given. -/
structure Tracks (done : List Field) (taken : Taken) : Prop where
  names : taken.names.declared = Field.names done
  ids : explicitIds taken.ids = Field.ids done
  above : ∀ entry ∈ taken.ids, taken.nextImplicit < entry.1

variable {rules : FieldRules} {done fields : List Field} {taken : Taken} {field : Field}
  {error : CompileError}

theorem explicitId_eq_ok {number : Number} {id : Int}
    (chosen : explicitId field number = .ok id) : 0 < id ∧ number = .ofInt id := by
  unfold explicitId at chosen
  split at chosen
  · next value whole =>
      split at chosen
      · next range =>
          cases chosen
          exact ⟨Int.lt_of_lt_of_le Int.zero_lt_one range.1, Number.eq_ofInt_of_toInt? whole⟩
      · cases chosen
  · cases chosen

/-- A field takes the next identifier to be given out, or its own one. -/
theorem chooseId_eq_ok {id : Int} (chosen : (chooseId taken field).outcome = .ok id) :
    field.id = none ∧ id = taken.nextImplicit ∨ field.id = some (.ofInt id) ∧ 0 < id := by
  unfold chooseId at chosen
  split at chosen
  · next absent =>
      simp only [Compilation.outcome_bind_eq_ok, Compilation.outcome_pure, Except.ok.injEq]
        at chosen
      rcases chosen with ⟨_, _, rfl⟩
      exact Or.inl ⟨absent, rfl⟩
  · next number present =>
      rcases explicitId_eq_ok chosen with ⟨positive, rfl⟩
      exact Or.inr ⟨present, positive⟩

theorem eq_of_chooseId (refused : (chooseId taken field).outcome = .error error) :
    error = .invalidFieldId field.name (field.id.getD .nan) := by
  unfold chooseId at refused
  split at refused
  · simp at refused
  · next number present =>
      rw [present]
      unfold explicitId at refused
      simp only [Compilation.outcome_ofExcept] at refused
      split at refused
      · split at refused <;> cases refused
        rfl
      · cases refused
        rfl

theorem eq_of_checkRules (refused : checkRules rules field = .error error) :
    error = .illegalDefault field.name ∨ error = .illegalRequiredness field.name := by
  unfold checkRules at refused
  split at refused
  · cases refused
    exact Or.inl rfl
  · split at refused <;> cases refused
    exact Or.inr rfl

theorem claimId_eq_ok {id : Int} {ids : List (Int × Number)}
    (claimed : claimId taken field id = .ok ids) : ids = taken.ids ++ [(id, field.line)] := by
  unfold claimId at claimed
  split at claimed
  · cases claimed
  · cases claimed
    rfl

theorem ofInt_injective : Function.Injective Number.ofInt := by
  intro first second same
  simpa using congrArg Number.toInt? same

/-- An identifier that was not given out is repeated among those that were
not. -/
theorem repeats_explicitIds {ids : List (Int × Number)} {id : Int} {line : Number}
    (repeats : Repeats ids id line) (positive : 0 < id) :
    Repeats (explicitIds ids) (.ofInt id) line := by
  rcases repeats with ⟨before, between, after, again, rfl, first⟩
  refine ⟨explicitIds before, explicitIds between, explicitIds after, again, ?_, ?_⟩
  · simp [explicitIds, positive]
  · intro member
    rcases List.mem_map.mp member with ⟨entry, found, same⟩
    rcases List.mem_filterMap.mp found with ⟨own, earlier, kept⟩
    split at kept
    · cases kept
      exact first (List.mem_map.mpr ⟨own, earlier, ofInt_injective same⟩)
    · cases kept

theorem tracks_nil : Tracks [] {} := ⟨rfl, rfl, by simp⟩

theorem nextImplicit_neg (taken : Taken) : taken.nextImplicit < 0 := by
  unfold Taken.nextImplicit
  omega

/-- Where compiling a field can fail. -/
theorem compileField_eq_error {error : CompileError}
    (ended : (compileField rules taken field).outcome = .error error) :
    taken.names.claim field.name field.line = .error error ∨
      ∃ claimed, taken.names.claim field.name field.line = .ok claimed ∧
        ((chooseId taken field).outcome = .error error ∨
          ∃ id, (chooseId taken field).outcome = .ok id ∧
            (claimId taken field id = .error error ∨
              ∃ ids, claimId taken field id = .ok ids ∧
                checkRules rules field = .error error)) := by
  simpa only [compileField, Compilation.outcome_bind_eq_error, Compilation.outcome_pure,
    Compilation.outcome_ofExcept, reduceCtorEq, and_false, exists_false, or_false] using ended

namespace Tracks

theorem names_append (tracks : Tracks done taken) (field : Field) :
    taken.names.declared ++ [(field.name, field.line)] = Field.names (done ++ [field]) := by
  simp [tracks.names, Field.names]

/-- Whichever identifier a field takes, the explicit ones are those of the
fields. -/
theorem ids_append (tracks : Tracks done taken) {id : Int}
    (chosen : (chooseId taken field).outcome = .ok id) :
    explicitIds (taken.ids ++ [(id, field.line)]) = Field.ids (done ++ [field]) := by
  have earlier := tracks.ids
  unfold explicitIds Field.ids at earlier ⊢
  rw [List.filterMap_append, List.filterMap_append, earlier]
  rcases chooseId_eq_ok chosen with ⟨absent, rfl⟩ | ⟨present, positive⟩
  · simp [absent, Int.le_of_lt (nextImplicit_neg taken)]
  · simp [present, positive]

/-- The next identifier to be given out is free: it is below all that were
taken. -/
theorem idLine?_nextImplicit (tracks : Tracks done taken) :
    taken.idLine? taken.nextImplicit = none := by
  rw [Taken.idLine?, Option.map_eq_none_iff, List.find?_eq_none]
  intro entry member same
  exact absurd (beq_iff_eq.mp same).symm (Int.ne_of_lt (tracks.above entry member))

/-- Compiling a field takes its name and its identifier. -/
theorem compileField (tracks : Tracks done taken) {made : FieldSpec TypeExpression × Taken}
    (ended : (compileField rules taken field).outcome = .ok made) :
    Tracks (done ++ [field]) made.2 := by
  rcases compileField_eq_ok ended with ⟨_, _, _, claimed, chosen, taking, _, rfl⟩
  rcases Namespace.claim_eq_ok_iff.mp claimed with ⟨_, rfl⟩
  cases claimId_eq_ok taking
  refine ⟨tracks.names_append field, tracks.ids_append chosen, ?_⟩
  have above := tracks.above
  rcases chooseId_eq_ok chosen with ⟨absent, rfl⟩ | ⟨present, positive⟩
  · simp only [Taken.nextImplicit, absent] at above ⊢
    intro entry member
    rcases List.mem_append.mp member with earlier | own
    · have bound := above entry earlier
      simp only [Option.isNone_none, if_true]
      omega
    · rw [List.mem_singleton.mp own]
      simp only [Option.isNone_none, if_true]
      omega
  · simp only [Taken.nextImplicit, present] at above ⊢
    intro entry member
    rcases List.mem_append.mp member with earlier | own
    · simpa using above entry earlier
    · rw [List.mem_singleton.mp own]
      simp only [Option.isNone_some]
      omega

/-- The name of a field that is refused is repeated, or its explicit identifier
is. -/
theorem pointsInto_of_compileField (tracks : Tracks done taken)
    (ended : (FieldGroup.compileField rules taken field).outcome = .error error) :
    error.root.PointsInto (.declared [] [done ++ [field]]) := by
  rcases compileField_eq_error ended with refused | ⟨_, _, refused | ⟨_, chosen,
    refused | ⟨_, _, refused⟩⟩⟩
  · have same := tracks.names_append field
    exact Namespace.pointsInto_of_claim refused (List.mem_singleton_self _)
      ⟨[], (List.append_nil _).trans same⟩
  · rw [eq_of_chooseId refused]
    trivial
  · unfold claimId at refused
    split at refused
    · next first found =>
        cases refused
        rcases chooseId_eq_ok chosen with ⟨_, rfl⟩ | ⟨_, positive⟩
        · rw [tracks.idLine?_nextImplicit] at found
          cases found
        · have repeats := repeats_explicitIds (repeats_of_find? found field.line) positive
          rw [tracks.ids_append chosen] at repeats
          exact ⟨_, List.mem_singleton_self _, repeats⟩
    · cases refused
  · rcases eq_of_checkRules refused with rfl | rfl <;> trivial

end Tracks

/-- A field group that is refused repeats a name or an explicit identifier, or
breaks a rule. -/
theorem pointsInto_of_compileAfter (tracks : Tracks done taken)
    (ended : (compileAfter rules taken fields).outcome = .error error) :
    error.root.PointsInto (.declared [] [done ++ fields]) := by
  induction fields generalizing done taken with
  | nil => cases ended
  | cons field rest hypothesis =>
      simp only [compileAfter, Compilation.outcome_bind_eq_error, Compilation.outcome_pure,
        reduceCtorEq, and_false, exists_false, or_false] at ended
      rw [List.append_cons]
      rcases ended with refused | ⟨made, first, refused⟩
      · exact (tracks.pointsInto_of_compileField refused).within (Origins.within_append _ rest)
      · exact hypothesis (tracks.compileField first) refused

theorem pointsInto_of_compile (ended : (compile fields rules).outcome = .error error) :
    error.root.PointsInto (.declared [] [fields]) :=
  pointsInto_of_compileAfter tracks_nil ended

end FieldGroup

/-! ## Definitions -/

theorem bind_eq_error_iff {α β : Type} {first : Except CompileError α}
    {next : α → Except CompileError β} {error : CompileError} :
    (first >>= next) = .error error ↔
      first = .error error ∨ ∃ middle, first = .ok middle ∧ next middle = .error error := by
  cases first <;> simp [Bind.bind, Except.bind]

namespace EnumDefinition

variable {error : CompileError}

theorem eq_of_itemValue {item : EnumItem} {implicit : Int}
    (refused : itemValue item implicit = .error error) :
    error = .invalidEnumValue item.name (item.value.getD (.ofInt implicit)) := by
  unfold itemValue at refused
  dsimp only at refused
  split at refused
  · split at refused <;> cases refused
    rfl
  · cases refused
    rfl

/-- Enum items that are refused repeat a name or have an invalid value. -/
theorem pointsInto_of_compileItems {done items : List EnumItem} {names : Namespace}
    {implicit : Int} (tracks : names.declared = EnumItem.names done)
    (ended : compileItems names implicit items = .error error) :
    error.root.PointsInto (.declared [EnumItem.names (done ++ items)] []) := by
  induction items generalizing done names implicit with
  | nil => cases ended
  | cons item rest hypothesis =>
      have step : names.declared ++ [(item.name, item.line)] = EnumItem.names (done ++ [item]) := by
        simp [tracks, EnumItem.names]
      simp only [compileItems, bind_eq_error_iff, pure, Except.pure, reduceCtorEq, and_false,
        exists_false, or_false] at ended
      rcases ended with refused | ⟨claimed, taken, refused | ⟨value, _, refused⟩⟩
      · exact Namespace.pointsInto_of_claim refused List.mem_cons_self
          ⟨EnumItem.names rest, by simp [tracks, EnumItem.names]⟩
      · rw [eq_of_itemValue refused]
        trivial
      · rcases Namespace.claim_eq_ok_iff.mp taken with ⟨_, rfl⟩
        rw [List.append_cons]
        exact hypothesis step refused

theorem pointsInto_of_compile {definition : EnumDefinition}
    (ended : definition.compile = .error error) :
    error.root.PointsInto (.declared [EnumItem.names definition.items] []) := by
  unfold compile withOwner at ended
  cases compiled : compileItems {} 0 definition.items with
  | ok items =>
      rw [compiled] at ended
      cases ended
  | error cause =>
      rw [compiled] at ended
      cases ended
      exact @pointsInto_of_compileItems cause [] definition.items {} 0 rfl compiled

end EnumDefinition

/-- A function that is refused repeats a name or an explicit identifier in a
field group, or breaks a rule. -/
theorem Function.pointsInto_of_compile {function : Function} {error : CompileError}
    (ended : function.compile.outcome = .error error) :
    error.root.PointsInto (.declared [] (Function.fieldGroups [function])) := by
  simp only [Function.compile, Compilation.outcome_bind_eq_error, Compilation.outcome_pure,
    Compilation.outcome_ofExcept, reduceCtorEq, and_false, exists_false, or_false] at ended
  rcases ended with refused | ⟨_, _, refused | ⟨_, _, refused⟩⟩
  · unfold checkOneway at refused
    split at refused
    · cases refused
      trivial
    · split at refused <;> cases refused
      trivial
  · apply (FieldGroup.pointsInto_of_compile refused).within
    exact Origins.within_declared (List.Subset.refl _) (by simp [Function.fieldGroups])
  · apply (FieldGroup.pointsInto_of_compile refused).within
    exact Origins.within_declared (List.Subset.refl _) (by simp [Function.fieldGroups])

namespace ServiceDefinition

variable {error : CompileError}

/-- Functions that are refused repeat a name, or one of them is refused. -/
theorem pointsInto_of_compileFunctions {done functions : List Function} {names : Namespace}
    (tracks : names.declared = Function.names done)
    (ended : (compileFunctions names functions).outcome = .error error) :
    error.root.PointsInto
      (.declared [Function.names (done ++ functions)] (Function.fieldGroups functions)) := by
  induction functions generalizing done names with
  | nil => cases ended
  | cons function rest hypothesis =>
      have step : names.declared ++ [(function.name, function.line)] =
          Function.names (done ++ [function]) := by
        simp [tracks, Function.names]
      simp only [compileFunctions, Compilation.outcome_bind_eq_error,
        Compilation.outcome_ofExcept, Compilation.outcome_ownedBy_eq_error,
        Compilation.outcome_pure, reduceCtorEq, and_false, exists_false, or_false] at ended
      rcases ended with refused | ⟨claimed, taken, ⟨cause, refused, rfl⟩ | ⟨_, _, refused⟩⟩
      · exact Namespace.pointsInto_of_claim refused List.mem_cons_self
          ⟨Function.names rest, by simp [tracks, Function.names]⟩
      · apply (Function.pointsInto_of_compile refused).within
        apply Origins.within_declared (List.nil_subset _)
        simp [Function.fieldGroups]
      · rcases Namespace.claim_eq_ok_iff.mp taken with ⟨_, rfl⟩
        rw [List.append_cons]
        apply (hypothesis step refused).within
        exact Origins.within_declared (List.Subset.refl _) (by simp [Function.fieldGroups])

end ServiceDefinition

namespace Definition

variable {definition : Definition} {error : CompileError}

/-- A definition that is refused repeats a name or an explicit identifier, or
breaks a rule. -/
theorem pointsInto_of_compile (ended : definition.compile.outcome = .error error) :
    error.root.PointsInto (.declared definition.memberNames definition.fieldGroups) := by
  cases definition with
  | struct definition =>
      simp only [compile, StructDefinition.compile, Compilation.outcome_bind_eq_error,
        Compilation.outcome_pure, Compilation.outcome_ownedBy_eq_error, reduceCtorEq, and_false,
        exists_false, or_false] at ended
      rcases ended with ⟨cause, refused, rfl⟩
      rw [CompileError.root_wrapped]
      exact FieldGroup.pointsInto_of_compile refused
  | typedef definition => cases ended
  | enum definition =>
      simp only [compile, Compilation.outcome_bind_eq_error, Compilation.outcome_pure,
        Compilation.outcome_ofExcept, reduceCtorEq, and_false, exists_false, or_false] at ended
      exact EnumDefinition.pointsInto_of_compile ended
  | service definition =>
      simp only [compile, ServiceDefinition.compile, Compilation.outcome_bind_eq_error,
        Compilation.outcome_pure, reduceCtorEq, and_false, exists_false, or_false] at ended
      exact @ServiceDefinition.pointsInto_of_compileFunctions error [] _ {} rfl ended

end Definition

namespace Module

variable {definitions : List Definition} {error : CompileError}

/-- Definitions that are refused repeat a name, or one of them is refused. -/
theorem pointsInto_of_compileAfter {done : List Definition} {names : Namespace}
    (tracks : names.declared = Definition.names done)
    (ended : (compileAfter names definitions).outcome = .error error) :
    error.root.PointsInto (.declared
      (Definition.names (done ++ definitions) :: definitions.flatMap Definition.memberNames)
      (definitions.flatMap Definition.fieldGroups)) := by
  induction definitions generalizing done names with
  | nil => cases ended
  | cons definition rest hypothesis =>
      have step : names.declared ++ [(definition.name, definition.line)] =
          Definition.names (done ++ [definition]) := by
        simp [tracks, Definition.names]
      simp only [compileAfter, Compilation.outcome_bind_eq_error, Compilation.outcome_ofExcept,
        Compilation.outcome_log, Compilation.outcome_pure, reduceCtorEq, and_false, exists_false,
        or_false, false_or] at ended
      rcases ended with refused | ⟨claimed, taken, refused | ⟨_, _, _, _, refused⟩⟩
      · exact Namespace.pointsInto_of_claim refused List.mem_cons_self
          ⟨Definition.names rest, by simp [tracks, Definition.names]⟩
      · apply (Definition.pointsInto_of_compile refused).within
        apply Origins.within_declared
        · exact List.subset_cons_of_subset _ (List.subset_append_left _ _)
        · exact List.subset_append_left _ _
      · rcases Namespace.claim_eq_ok_iff.mp taken with ⟨_, rfl⟩
        rw [List.append_cons]
        apply (hypothesis step refused).within
        apply Origins.within_declared
        · exact List.cons_subset_cons _ (List.subset_append_right _ _)
        · exact List.subset_append_right _ _

end Module

end IdlLinker
