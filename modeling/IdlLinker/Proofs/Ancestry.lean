import IdlLinker.Graph.Ancestry
import IdlLinker.Proofs.LinkedSpecs

/-!
# Ancestries of services

The ancestry of a service is answered by following parents until there is none,
until a reference stands in its place, or until a service is met again.  Services
are told apart as objects, so equal names in layered units do not matter.  The
chain has one end or none, and the answer says which.
-/

namespace IdlLinker

namespace Graph

variable {graph : Graph} {id last final : ObjectId} {passed others chain : List ObjectId}

/-- A service is followed by no other service. -/
def Topmost (graph : Graph) (id : ObjectId) : Prop :=
  ∀ parent, graph.parent? id ≠ some (.object parent)

/-! ## Chains -/

namespace Ascends

/-- What is passed is a service, and the chain divides there. -/
theorem divide (ascends : graph.Ascends id passed last) {other : ObjectId}
    (member : other ∈ passed) :
    ∃ before after, passed = before ++ other :: after ∧
      graph.Ascends other (other :: after) last := by
  induction ascends with
  | here => cases member
  | @through id parent last passed held rest hypothesis =>
      rcases List.mem_cons.mp member with rfl | inside
      · exact ⟨[], passed, rfl, .through held rest⟩
      · rcases hypothesis inside with ⟨before, after, rfl, remaining⟩
        exact ⟨id :: before, after, rfl, remaining⟩

/-- A chain that ends runs through whatever the service leads to. -/
theorem remaining (ascends : graph.Ascends id passed last)
    (ends : graph.Ascends id others final) (topmost : graph.Topmost final) :
    ∃ rest, others = passed ++ rest ∧ graph.Ascends last rest final := by
  induction ascends generalizing others with
  | here => exact ⟨others, rfl, ends⟩
  | @through id parent last passed held rest hypothesis =>
      cases ends with
      | here => exact absurd held (topmost parent)
      | through otherHeld ends =>
          rw [held] at otherHeld
          cases otherHeld
          rcases hypothesis ends with ⟨rest, rfl, remaining⟩
          exact ⟨rest, rfl, remaining⟩

/-- There is one end. -/
theorem unique (first : graph.Ascends id passed last) (second : graph.Ascends id others final)
    (firstTop : graph.Topmost last) (secondTop : graph.Topmost final) :
    others = passed ∧ final = last := by
  rcases first.remaining second secondTop with ⟨rest, rfl, remaining⟩
  cases remaining with
  | here => exact ⟨List.append_nil passed, rfl⟩
  | through held => exact absurd held (firstTop _)

/-- A chain that ends passes no service twice. -/
theorem nodup (ascends : graph.Ascends id passed last) (topmost : graph.Topmost last) :
    (passed ++ [last]).Nodup := by
  induction ascends with
  | here => exact List.nodup_singleton _
  | @through id parent last passed held rest hypothesis =>
      refine List.nodup_cons.mpr ⟨fun again => ?_, hypothesis topmost⟩
      rcases List.mem_append.mp again with inside | atEnd
      · -- what follows the second time is shorter than what follows the first
        -- time, but the chain from one service has one end
        rcases rest.divide inside with ⟨before, after, rfl, remaining⟩
        have same := (remaining.unique (.through held rest) topmost topmost).1
        have lengths := congrArg List.length same
        simp only [List.length_cons, List.length_append] at lengths
        omega
      · rw [List.mem_singleton.mp atEnd] at held
        exact topmost parent held

/-- A chain that ends does not come back. -/
theorem not_comesBack (ends : graph.Ascends id passed last) (topmost : graph.Topmost last) :
    ¬ graph.ComesBack id := by
  rintro ⟨round, other, back, member⟩
  rcases back.remaining ends topmost with ⟨rest, rfl, remaining⟩
  have distinct := ends.nodup topmost
  rw [List.append_assoc] at distinct
  refine List.disjoint_of_nodup_append distinct member ?_
  cases remaining with
  | here => exact List.mem_singleton_self _
  | through => exact List.mem_cons_self

theorem lt_size (ascends : graph.Ascends id passed last) :
    ∀ other ∈ passed, other < graph.objects.size := by
  intro other member
  rcases ascends.divide member with ⟨_, _, _, inside⟩
  cases inside with
  | through held =>
      unfold parent? at held
      split at held
      · next object => exact (Array.getElem?_eq_some_iff.mp object).1
      · cases held

end Ascends

/-! ## Following a chain -/

/-- The answer at a service that no other service follows. -/
def summit (graph : Graph) (chain : List ObjectId) (id : ObjectId) :
    Except GraphError (List ObjectId) :=
  match graph.parent? id with
  | some (.unresolved reference) => .error (.parentNotLinked reference.name (graph.nameOf id))
  | _ => .ok (chain ++ [id])

theorem ancestryAfter_of_topmost (topmost : graph.Topmost id) (fresh : id ∉ chain) (steps : Nat) :
    graph.ancestryAfter (steps + 1) chain id = graph.summit chain id := by
  rw [ancestryAfter, if_neg fresh, summit]
  cases held : graph.parent? id with
  | none => rfl
  | some slot =>
      cases slot with
      | object parent => exact absurd held (topmost parent)
      | _ => rfl

/-- Following a chain uses up the steps, comes to a service met before, or comes
to the end. -/
theorem ancestryAfter_cases (steps : Nat) (distinct : chain.Nodup) (id : ObjectId) :
    ∃ passed last, graph.Ascends id passed last ∧ (chain ++ passed).Nodup ∧
      (passed.length = steps ∨
        last ∈ chain ++ passed ∧ graph.ancestryAfter steps chain id =
          .error (.inheritanceCycle ((chain ++ passed ++ [last]).map graph.nameOf)) ∨
        graph.Topmost last ∧
          graph.ancestryAfter steps chain id = graph.summit (chain ++ passed) last) := by
  induction steps generalizing chain id with
  | zero => exact ⟨[], id, .here id, by simpa using distinct, .inl rfl⟩
  | succ steps hypothesis =>
      by_cases old : id ∈ chain
      · refine ⟨[], id, .here id, by simpa using distinct, .inr (.inl ⟨by simpa using old, ?_⟩)⟩
        rw [ancestryAfter, if_pos old, List.append_nil]
      · by_cases topmost : graph.Topmost id
        · refine ⟨[], id, .here id, by simpa using distinct, .inr (.inr ⟨topmost, ?_⟩)⟩
          rw [ancestryAfter_of_topmost topmost old, List.append_nil]
        · obtain ⟨parent, held⟩ : ∃ parent, graph.parent? id = some (.object parent) := by
            simpa [Topmost] using topmost
          have fresh : (chain ++ [id]).Nodup :=
            distinct.append (List.nodup_singleton id) (List.disjoint_singleton.mpr old)
          rcases hypothesis fresh parent with ⟨passed, last, ascends, names, outcome⟩
          refine ⟨id :: passed, last, .through held ascends, by simpa using names, ?_⟩
          simpa [ancestryAfter, old, held] using outcome

/-- The steps allowed are never used up: no service is passed twice, so there are
no more than objects. -/
theorem ancestry_cases (graph : Graph) (id : ObjectId) :
    ∃ passed last, graph.Ascends id passed last ∧
      (last ∈ passed ∧
          graph.ancestry id =
            .error (.inheritanceCycle ((passed ++ [last]).map graph.nameOf)) ∨
        graph.Topmost last ∧ graph.ancestry id = graph.summit passed last) := by
  rcases graph.ancestryAfter_cases (graph.objects.size + 1) List.nodup_nil id with
    ⟨passed, last, ascends, distinct, used | outcome⟩
  · have within : passed ⊆ List.range graph.objects.size := fun other member =>
      List.mem_range.mpr (ascends.lt_size other member)
    have bound : passed.length ≤ (List.range graph.objects.size).length :=
      (List.subperm_of_subset distinct within).length_le
    rw [List.length_range] at bound
    omega
  · exact ⟨passed, last, ascends, outcome⟩

/-! ## The answer and the chain -/

/-- What ends a chain of a well typed graph has no parent or a reference. -/
theorem parent?_of_topmost (typed : graph.WellTyped) (topmost : graph.Topmost id) :
    graph.parent? id = none ∨ ∃ reference, graph.parent? id = some (.unresolved reference) := by
  cases held : graph.parent? id with
  | none => exact .inl rfl
  | some slot =>
      cases slot with
      | unresolved reference => exact .inr ⟨reference, rfl⟩
      | object parent => exact absurd held (topmost parent)
      | primitive type =>
          unfold parent? at held
          split at held
          · next name parent functions object =>
              subst held
              have asked := typed id _ 0 _ object rfl
              cases asked
          · cases held

theorem topmost_of_parent?_eq_none (none : graph.parent? id = none) : graph.Topmost id := by
  intro parent held
  rw [none] at held
  cases held

theorem topmost_of_parent?_unresolved {reference : Reference}
    (unresolved : graph.parent? id = some (.unresolved reference)) : graph.Topmost id := by
  intro parent held
  rw [unresolved] at held
  cases held

theorem ancestryExact_of_comesBack (back : graph.ComesBack id) {names : List String}
    (answer : graph.ancestry id = .error (.inheritanceCycle names)) : graph.AncestryExact id where
  chain chain := by
    simp only [answer, reduceCtorEq, false_iff]
    rintro ⟨others, final, ends, none, _⟩
    exact ends.not_comesBack (topmost_of_parent?_eq_none none) back
  distinct chain impossible := by
    rw [answer] at impossible
    cases impossible
  cycle := iff_of_true ⟨names, answer⟩ back
  unlinked parent service := by
    simp only [answer, Except.error.injEq, reduceCtorEq, false_iff]
    rintro ⟨others, final, kind, line, ends, unresolved, _⟩
    exact ends.not_comesBack (topmost_of_parent?_unresolved unresolved) back

theorem ancestryExact_of_none (ascends : graph.Ascends id passed last)
    (none : graph.parent? last = none) (answer : graph.ancestry id = .ok (passed ++ [last])) :
    graph.AncestryExact id where
  chain chain := by
    rw [answer, Except.ok.injEq]
    constructor
    · rintro rfl
      exact ⟨passed, last, ascends, none, rfl⟩
    · rintro ⟨others, final, ends, otherNone, rfl⟩
      rcases ascends.unique ends (topmost_of_parent?_eq_none none)
        (topmost_of_parent?_eq_none otherNone) with ⟨rfl, rfl⟩
      rfl
  distinct chain same := by
    rw [answer] at same
    cases same
    exact ascends.nodup (topmost_of_parent?_eq_none none)
  cycle := by simp [answer, ascends.not_comesBack (topmost_of_parent?_eq_none none)]
  unlinked parent service := by
    simp only [answer, reduceCtorEq, false_iff]
    rintro ⟨others, final, kind, line, ends, unresolved, _⟩
    rcases ascends.unique ends (topmost_of_parent?_eq_none none)
      (topmost_of_parent?_unresolved unresolved) with ⟨_, rfl⟩
    rw [none] at unresolved
    cases unresolved

theorem ancestryExact_of_unresolved {reference : Reference}
    (ascends : graph.Ascends id passed last)
    (unresolved : graph.parent? last = some (.unresolved reference))
    (answer : graph.ancestry id =
      .error (.parentNotLinked reference.name (graph.nameOf last))) : graph.AncestryExact id where
  chain chain := by
    simp only [answer, reduceCtorEq, false_iff]
    rintro ⟨others, final, ends, none, _⟩
    rcases ascends.unique ends (topmost_of_parent?_unresolved unresolved)
      (topmost_of_parent?_eq_none none) with ⟨_, rfl⟩
    rw [unresolved] at none
    cases none
  distinct chain impossible := by
    rw [answer] at impossible
    cases impossible
  cycle := by simp [answer, ascends.not_comesBack (topmost_of_parent?_unresolved unresolved)]
  unlinked parent service := by
    rw [answer]
    constructor
    · rintro ⟨⟩
      exact ⟨passed, last, reference.kind, reference.line, ascends, unresolved, rfl⟩
    · rintro ⟨others, final, otherKind, otherLine, ends, otherUnresolved, rfl⟩
      rcases ascends.unique ends (topmost_of_parent?_unresolved unresolved)
        (topmost_of_parent?_unresolved otherUnresolved) with ⟨_, rfl⟩
      rw [unresolved] at otherUnresolved
      cases otherUnresolved
      rfl

/-- In a well typed graph every answer about an ancestry is exact. -/
theorem ancestryExact (typed : graph.WellTyped) (id : ObjectId) : graph.AncestryExact id := by
  rcases graph.ancestry_cases id with
    ⟨passed, last, ascends, ⟨again, answer⟩ | ⟨topmost, answer⟩⟩
  · exact ancestryExact_of_comesBack ⟨passed, last, ascends, again⟩ answer
  · rcases parent?_of_topmost typed topmost with none | ⟨reference, unresolved⟩
    · rw [summit, none] at answer
      exact ancestryExact_of_none ascends none answer
    · rw [summit, unresolved] at answer
      exact ancestryExact_of_unresolved ascends unresolved answer

/-! ## Looking up a function -/

theorem findFunction_eq_ok_iff {name : String} {found : Option (ObjectId × Slot)} :
    graph.findFunction id name = .ok found ↔ ∃ chain, graph.ancestry id = .ok chain ∧
      (chain.findSome? fun candidate =>
        (graph.ownFunction? candidate name).map fun function => (candidate, function)) = found := by
  unfold findFunction
  cases graph.ancestry id with
  | error error => simp [bind, Except.bind]
  | ok chain => simp [bind, Except.bind, pure, Except.pure]

theorem findFunction_eq_error_iff {name : String} {error : GraphError} :
    graph.findFunction id name = .error error ↔ graph.ancestry id = .error error := by
  unfold findFunction
  cases graph.ancestry id with
  | error other => simp [bind, Except.bind]
  | ok chain => simp [bind, Except.bind, pure, Except.pure]

/-- The functions of a service are function objects. -/
theorem function_of_ownFunction? (typed : graph.WellTyped) {service : ObjectId} {name : String}
    {slot : Slot} (own : graph.ownFunction? service name = some slot) :
    ∃ function body, slot = .object function ∧ graph.object? function = some (.function body) := by
  unfold ownFunction? at own
  split at own
  · next ownName parent functions object =>
      rcases List.getElem?_of_mem (Record.mem_of_get? own) with ⟨index, entry⟩
      have fits := typed service _ (parent.toList.length + index) slot object
        (by rw [Spec.slots_function, entry, Option.map_some])
      rw [Spec.roleAt_function] at fits
      rcases exists_object_of_fits_function fits with ⟨function, rfl⟩
      rcases exists_of_fits_function fits with ⟨body, found⟩
      exact ⟨function, body, rfl, found⟩
  · cases own

/-- In a well typed graph every look-up of a function is exact. -/
theorem lookupExact (typed : graph.WellTyped) (id : ObjectId) (name : String) :
    graph.LookupExact id name where
  throws _ := findFunction_eq_error_iff
  nearest chain answer service function := by
    rw [findFunction_eq_ok_iff, answer]
    simp only [Except.ok.injEq, exists_eq_left', List.findSome?_eq_some_iff,
      Option.map_eq_some_iff, Option.map_eq_none_iff, Prod.mk.injEq]
    constructor
    · rintro ⟨before, _, after, rfl, ⟨_, own, rfl, rfl⟩, nearer⟩
      exact ⟨before, after, rfl, own, nearer⟩
    · rintro ⟨before, after, rfl, own, nearer⟩
      exact ⟨before, service, after, rfl, ⟨function, own, rfl, rfl⟩, nearer⟩
  missing chain answer := by
    rw [findFunction_eq_ok_iff, answer]
    simp
  function service slot found := by
    rcases findFunction_eq_ok_iff.mp found with ⟨chain, _, first⟩
    rcases List.exists_of_findSome?_eq_some first with ⟨candidate, _, own⟩
    rcases Option.map_eq_some_iff.mp own with ⟨_, held, same⟩
    cases same
    exact function_of_ownFunction? typed held

end Graph

namespace Session

/-- After any sequence of calls, what is answered about the ancestry of a
service and about the functions found along it is what its chain of parents
comes to.  If the service is linked, the chain comes back or ends, and never in a
reference. -/
theorem ancestry_exact (calls : List Call) (id : ObjectId) :
    (run calls).graph.AncestryExact id ∧
      (∀ name, (run calls).graph.LookupExact id name) ∧
      (id ∈ (run calls).graph.linked →
        ((run calls).graph.ComesBack id ∨ ∃ chain, (run calls).graph.ancestry id = .ok chain) ∧
        ∀ parent service,
          (run calls).graph.ancestry id ≠ .error (.parentNotLinked parent service)) := by
  have sound := sound_run calls
  have isExact := Graph.ancestryExact sound.typed id
  refine ⟨isExact, Graph.lookupExact sound.typed id, fun marked => ?_⟩
  have linked := sound.closed.ancestryAfter_ne_parentNotLinked
    ((run calls).graph.objects.size + 1) [] marked
  refine ⟨?_, linked⟩
  rcases (run calls).graph.ancestry_cases id with
    ⟨passed, last, ascends, ⟨again, _⟩ | ⟨topmost, answer⟩⟩
  · exact .inl ⟨passed, last, ascends, again⟩
  · rcases Graph.parent?_of_topmost sound.typed topmost with none | ⟨reference, unresolved⟩
    · exact .inr ⟨_, (isExact.chain _).mpr ⟨passed, last, ascends, none, rfl⟩⟩
    · rw [Graph.summit, unresolved] at answer
      exact absurd answer (linked _ _)

/-- A unit with a service, and a unit over it whose service of the same name
extends the first one. -/
def layeredServices : List Call :=
  [.compileModule
      [.service
        { name := "Base",
          functions :=
            [{ name := "ping", parameters := [], exceptions := [], oneway := false,
               line := .ofInt 2 }],
          line := .ofInt 1 }] [],
    .compileModule
      [.service
        { name := "Base", parent := some { name := "a.Base", line := .ofInt 1 },
          functions := [], line := .ofInt 1 }]
      [("a", 1)]]

/-- The second service is linked, and finds the function of the first. -/
theorem ancestry_layeredServices :
    2 ∈ (run layeredServices).graph.linked ∧
      ((run layeredServices).graph.ComesBack 2 ∨
        ∃ chain, (run layeredServices).graph.ancestry 2 = .ok chain) ∧
      (run layeredServices).graph.findFunction 2 "ping" = .ok (some (1, .object 0)) :=
  have marked : 2 ∈ (run layeredServices).graph.linked := by decide
  have answer : (run layeredServices).graph.ancestry 2 = .ok [2, 1] := by decide
  have isExact := ancestry_exact layeredServices 2
  ⟨marked, (isExact.2.2 marked).1,
    ((isExact.2.1 "ping").nearest [2, 1] answer 1 (.object 0)).mpr
      ⟨[2], [], rfl, by decide, by decide⟩⟩

end Session

end IdlLinker
