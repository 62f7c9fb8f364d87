import IdlLinker.Proofs.Breaks

/-!
# Values of enum items

The counter that gives values to items without one is, after any items, the
value in closed form: the nearest value that is written and the distance to it,
or the position.  So an enum compiles just when its names are distinct and all
values in closed form are 32-bit integers, and it is refused at the first item
for which this fails.
-/

namespace IdlLinker

namespace Number

theorem plus_ofInt (value : Int) (count : Nat) :
    (ofInt value).plus count = ofInt (value + count) := by
  simp [ofInt, plus]

theorem plus_plus (number : Number) (first second : Nat) :
    (number.plus first).plus second = number.plus (first + second) := by
  cases number <;> simp [plus, Rat.add_assoc]

end Number

namespace EnumDefinition

variable {done items : List EnumItem} {item : EnumItem} {names : Namespace} {implicit : Int}
  {specs : List EnumItemSpec} {error : CompileError}

/-! ## Values in closed form -/

theorem impliedValue_nil : impliedValue [] = .ofInt 0 := rfl

/-- After an item the value without one of its own is the next one. -/
theorem impliedValue_append_singleton (done : List EnumItem) (item : EnumItem) :
    impliedValue (done ++ [item]) = (valueAt done item).plus 1 := by
  unfold valueAt impliedValue
  rw [List.reverse_append, List.reverse_singleton, List.singleton_append, List.findSome?_cons]
  cases own : item.value with
  | some value =>
      rw [List.takeWhile_cons_of_neg (by simp [own])]
      rfl
  | none =>
      rw [List.takeWhile_cons_of_pos (by simp [own]), List.length_cons, Option.getD_none]
      cases done.reverse.findSome? (·.value) with
      | some value => rw [Number.plus_plus]
      | none => simp [Number.plus, Number.ofNat]

/-! ## Validity, item by item -/

theorem valid_nil : Valid [] := ⟨List.nodup_nil, by simp⟩

theorem Valid.begins {first second : List EnumItem} (valid : Valid (first ++ second)) :
    Valid first where
  names := by
    have distinct := valid.names
    rw [List.map_append] at distinct
    exact distinct.of_append_left
  values before item after same := by
    subst same
    exact valid.values before item (after ++ second) (by simp)

/-- An item can follow others just when its name is new and its value in
range. -/
theorem valid_append_singleton_iff :
    Valid (done ++ [item]) ↔
      Valid done ∧ item.name ∉ done.map (·.name) ∧ IsValue (valueAt done item) := by
  constructor
  · intro valid
    exact ⟨valid.begins, (nodup_map_append_singleton.mp valid.names).2,
      valid.values done item [] rfl⟩
  · rintro ⟨valid, fresh, own⟩
    refine ⟨nodup_map_append_singleton.mpr ⟨valid.names, fresh⟩, ?_⟩
    intro before other after same
    rcases List.eq_nil_or_concat after with rfl | ⟨rest, last, rfl⟩
    · rcases List.append_inj' same rfl with ⟨rfl, only⟩
      cases only
      exact own
    · rw [List.concat_eq_append, ← List.cons_append, ← List.append_assoc] at same
      rcases List.append_inj' same rfl with ⟨rfl, _⟩
      exact valid.values before other rest rfl

/-! ## The counter -/

/-- A namespace holds the names of items, and the counter is the value of an item
after them that has none of its own. -/
structure Follows (done : List EnumItem) (names : Namespace) (implicit : Int) : Prop where
  names : names.declared = EnumItem.names done
  value : impliedValue done = .ofInt implicit

theorem follows_nil : Follows [] {} 0 := ⟨rfl, impliedValue_nil⟩

namespace Follows

variable (follows : Follows done names implicit)

include follows

/-- An item takes its value in closed form when that is in range. -/
theorem itemValue_cases (item : EnumItem) :
    (∃ value, itemValue item implicit = .ok value ∧ valueAt done item = .ofInt value ∧
        IsValue (valueAt done item)) ∨
      itemValue item implicit = .error (.invalidEnumValue item.name (valueAt done item)) ∧
        ¬ IsValue (valueAt done item) := by
  rw [valueAt, follows.value]
  unfold itemValue
  generalize item.value.getD (.ofInt implicit) = number
  cases whole : number.toInt? with
  | none =>
      refine Or.inr ⟨by simp [whole], ?_⟩
      rintro ⟨integer, rfl, _⟩
      simp at whole
  | some integer =>
      obtain rfl := Number.eq_ofInt_of_toInt? whole
      by_cases range : minValue ≤ integer ∧ integer ≤ maxValue
      · exact Or.inl ⟨integer, by simp [range], rfl, integer, rfl, range⟩
      · refine Or.inr ⟨by simp [range], ?_⟩
        rintro ⟨other, same, low, high⟩
        rw [FieldGroup.ofInt_injective same] at range
        exact range ⟨low, high⟩

theorem onward {claimed : Namespace} {value : Int}
    (taken : names.claim item.name item.line = .ok claimed)
    (chosen : valueAt done item = .ofInt value) : Follows (done ++ [item]) claimed (value + 1) where
  names := (Namespace.fresh_of_claim follows.names taken).2
  value := by
    rw [impliedValue_append_singleton, chosen, Number.plus_ofInt]
    rfl

/-- Items that compile after valid ones have their values in closed form and are
valid with them. -/
theorem compileItems (valid : Valid done)
    (ended : EnumDefinition.compileItems names implicit items = .ok specs) :
    Valid (done ++ items) ∧ Along ItemAs done items specs := by
  induction items generalizing done names implicit specs with
  | nil =>
      cases ended
      rw [List.append_nil]
      exact ⟨valid, Along.nil⟩
  | cons item rest hypothesis =>
      simp only [EnumDefinition.compileItems, bind_eq_ok_iff, pure, Except.pure,
        Except.ok.injEq] at ended
      rcases ended with ⟨claimed, taken, value, chosen, others, restEnded, rfl⟩
      have fresh := (Namespace.fresh_of_claim follows.names taken).1
      rcases follows.itemValue_cases item with ⟨own, found, closed, isValue⟩ | ⟨refused, _⟩
      · cases found.symm.trans chosen
        have longer := valid_append_singleton_iff.mpr ⟨valid, fresh, isValue⟩
        rcases hypothesis (follows.onward taken closed) longer restEnded with ⟨whole, later⟩
        rw [List.append_cons]
        exact ⟨whole, Along.cons ⟨rfl, closed⟩ later⟩
      · cases refused.symm.trans chosen

/-- Items that are refused after valid ones break at one of them. -/
theorem refused (valid : Valid done)
    (ended : EnumDefinition.compileItems names implicit items = .error error) :
    Refused (done ++ items) error := by
  induction items generalizing done names implicit with
  | nil => cases ended
  | cons item rest hypothesis =>
      simp only [EnumDefinition.compileItems, bind_eq_error_iff, pure, Except.pure, reduceCtorEq,
        and_false, exists_false, or_false] at ended
      rcases ended with refused | ⟨claimed, taken, ended⟩
      · have redeclares := Namespace.redeclares_of_claim follows.names refused
        have broken : ¬ Valid (done ++ [item]) := fun whole =>
          (valid_append_singleton_iff.mp whole).2.1 redeclares.mem
        exact ⟨done, item, ⟨⟨rest, rfl⟩, valid, broken⟩, Or.inl redeclares⟩
      · have fresh := (Namespace.fresh_of_claim follows.names taken).1
        rcases follows.itemValue_cases item with
          ⟨value, found, closed, isValue⟩ | ⟨refused, outside⟩
        · simp only [found, reduceCtorEq, Except.ok.injEq, exists_eq_left', false_or] at ended
          rw [List.append_cons]
          exact hypothesis (follows.onward taken closed)
            (valid_append_singleton_iff.mpr ⟨valid, fresh, isValue⟩) ended
        · simp only [refused, Except.error.injEq, reduceCtorEq, false_and, exists_false,
            or_false] at ended
          have broken : ¬ Valid (done ++ [item]) := fun whole =>
            outside (valid_append_singleton_iff.mp whole).2.2
          exact ⟨done, item, ⟨⟨rest, rfl⟩, valid, broken⟩, Or.inr ⟨fresh, outside, ended.symm⟩⟩

end Follows

theorem Refused.not_valid (refused : Refused items error) : ¬ Valid items := by
  rcases refused with ⟨before, item, breaks, _⟩
  exact breaks.not_valid fun _ _ => Valid.begins

theorem valid_of_compile {definition : EnumDefinition} (ended : definition.compile = .ok specs) :
    Valid definition.items := by
  unfold compile withOwner at ended
  cases made : compileItems {} 0 definition.items with
  | ok specs => exact (follows_nil.compileItems valid_nil made).1
  | error cause =>
      rw [made] at ended
      cases ended

/-- An enum is refused under its name. -/
theorem refused_of_compile {definition : EnumDefinition}
    (ended : definition.compile = .error error) :
    ∃ cause, error = .wrapped .compile definition.name cause ∧ Refused definition.items cause := by
  unfold compile withOwner at ended
  cases made : compileItems {} 0 definition.items with
  | ok specs =>
      rw [made] at ended
      cases ended
  | error cause =>
      rw [made] at ended
      cases ended
      exact ⟨cause, rfl, follows_nil.refused valid_nil made⟩

/-- An enum compiles just when the names of its items are distinct and all values
in closed form are 32-bit integers.  Then its items have these values, in order.
Otherwise it is refused, under its name, at the first item with which it is not
valid. -/
theorem enum_exact (definition : EnumDefinition) :
    ((∃ specs, definition.compile = .ok specs) ↔ Valid definition.items) ∧
    (∀ specs, definition.compile = .ok specs → Along ItemAs [] definition.items specs) ∧
    ∀ error, definition.compile = .error error →
      ∃ cause, error = .wrapped .compile definition.name cause ∧
        Refused definition.items cause := by
  unfold compile withOwner
  cases ended : compileItems {} 0 definition.items with
  | ok specs =>
      rcases follows_nil.compileItems valid_nil ended with ⟨valid, along⟩
      refine ⟨⟨fun _ => valid, fun _ => ⟨specs, rfl⟩⟩, ?_, nofun⟩
      rintro _ ⟨⟩
      exact along
  | error cause =>
      have refused := follows_nil.refused valid_nil ended
      refine ⟨⟨nofun, fun valid => absurd valid refused.not_valid⟩, nofun, ?_⟩
      rintro _ ⟨⟩
      exact ⟨cause, rfl, refused⟩

end EnumDefinition

end IdlLinker
