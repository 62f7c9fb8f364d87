import IdlLinker.Graph.Typedefs
import IdlLinker.Proofs.Session

/-!
# Roots of types

Typedefs are told apart by name while their chain is followed.  As long as
different typedefs on the chain have different names, or the chain comes back,
the answer is what the chain comes to; otherwise a cycle is reported that is
not there.
-/

namespace IdlLinker

namespace Graph

variable {graph : Graph} {slot last final : Slot} {passed others : List ObjectId}

theorem typedef?_eq_some_iff {name : String} {target : Slot} :
    graph.typedef? slot = some (name, target) ↔
      ∃ id, slot = .object id ∧ graph.object? id = some (.typedef name target) := by
  unfold typedef?
  split
  · next id =>
      split
      · next found => simp [found, eq_comm]
      · next other =>
          simp only [Slot.object.injEq, exists_eq_left', false_iff, reduceCtorEq]
          exact other name target
  · next other =>
      simp only [reduceCtorEq, false_iff]
      rintro ⟨id, rfl, _⟩
      exact other id rfl

theorem nameOf_typedef {id : ObjectId} {name : String} {target : Slot}
    (typedef : graph.object? id = some (.typedef name target)) : graph.nameOf id = name := by
  simp [nameOf, name?, typedef, Spec.name?]

/-! ## Chains -/

namespace Leads

theorem trans (first : graph.Leads slot passed last) (second : graph.Leads last others final) :
    graph.Leads slot (passed ++ others) final := by
  induction first with
  | here => exact second
  | through typedef _ hypothesis => exact .through typedef (hypothesis second)

/-- What is passed is a typedef, and the chain divides there. -/
theorem divide (leads : graph.Leads slot passed last) {id : ObjectId} (member : id ∈ passed) :
    ∃ before after, passed = before ++ id :: after ∧
      graph.Leads (.object id) (id :: after) last := by
  induction leads with
  | here => cases member
  | @through head name target last passed typedef rest hypothesis =>
      rcases List.mem_cons.mp member with rfl | inside
      · exact ⟨[], passed, rfl, .through typedef rest⟩
      · rcases hypothesis inside with ⟨before, after, rfl, remaining⟩
        exact ⟨head :: before, after, rfl, remaining⟩

/-- A chain that ends runs through whatever the slot leads to. -/
theorem remaining (leads : graph.Leads slot passed last) (ends : graph.Leads slot others final)
    (stuck : graph.typedef? final = none) :
    ∃ rest, others = passed ++ rest ∧ graph.Leads last rest final := by
  induction leads generalizing others with
  | here => exact ⟨others, rfl, ends⟩
  | @through id name target last passed typedef rest hypothesis =>
      cases ends with
      | here => simp [typedef?, typedef] at stuck
      | through other ends =>
          obtain ⟨rfl, rfl⟩ : name = _ ∧ target = _ := by
            simpa using typedef.symm.trans other
          rcases hypothesis ends with ⟨rest, rfl, remaining⟩
          exact ⟨rest, rfl, remaining⟩

/-- There is one end. -/
theorem unique (first : graph.Leads slot passed last) (second : graph.Leads slot others final)
    (firstStuck : graph.typedef? last = none) (secondStuck : graph.typedef? final = none) :
    others = passed ∧ final = last := by
  rcases first.remaining second secondStuck with ⟨rest, rfl, remaining⟩
  cases remaining with
  | here => exact ⟨List.append_nil passed, rfl⟩
  | through typedef => simp [typedef?, typedef] at firstStuck

/-- A chain that ends passes no typedef twice. -/
theorem nodup (leads : graph.Leads slot passed last) (stuck : graph.typedef? last = none) :
    passed.Nodup := by
  induction leads with
  | here => exact List.nodup_nil
  | @through id name target last passed typedef rest hypothesis =>
      refine List.nodup_cons.mpr ⟨fun again => ?_, hypothesis stuck⟩
      -- What follows the second time is shorter than what follows the first time,
      -- but the chain from one slot has one end.
      rcases rest.divide again with ⟨before, after, rfl, remaining⟩
      have same := (remaining.unique (.through typedef rest) stuck stuck).1
      have lengths := congrArg List.length same
      simp only [List.length_cons, List.length_append] at lengths
      omega

/-- A chain that comes back has no end. -/
theorem typedef?_ne_none_of_loops (loops : graph.Loops slot)
    (leads : graph.Leads slot passed last) : graph.typedef? last ≠ none := by
  intro stuck
  rcases loops with ⟨round, id, back, member⟩
  rcases back.remaining leads stuck with ⟨rest, rfl, remaining⟩
  have distinct := leads.nodup stuck
  rcases back.divide member with ⟨_, _, _, inside⟩
  cases remaining with
  | here =>
      cases inside with
      | through typedef => simp [typedef?, typedef] at stuck
  | through => exact List.disjoint_of_nodup_append distinct member List.mem_cons_self

theorem lt_size (leads : graph.Leads slot passed last) :
    ∀ id ∈ passed, id < graph.objects.size := by
  intro id member
  rcases leads.divide member with ⟨_, _, _, inside⟩
  cases inside with
  | through typedef => exact (Array.getElem?_eq_some_iff.mp typedef).1

/-- A slot of a well typed graph leads to types only. -/
theorem fits (leads : graph.Leads slot passed last) (typed : graph.WellTyped)
    (fits : graph.fits .type slot = true) : graph.fits .type last = true := by
  induction leads with
  | here => exact fits
  | @through id name target last passed typedef rest hypothesis =>
      exact hypothesis (typed id _ 0 target typedef rfl)

end Leads

/-! ## Following a chain -/

/-- The answer at a slot that holds no typedef. -/
def ending : Slot → Except GraphError Slot
  | .unresolved ⟨.type, name, line⟩ => .error (.typeNotLinked name line)
  | slot => .ok slot

theorem rootAfter_of_stuck (stuck : graph.typedef? slot = none) (steps : Nat)
    (seen : List String) : graph.rootAfter (steps + 1) seen slot = ending slot := by
  rcases slot with _ | ⟨_ | _, _, _⟩ | _ <;> simp [rootAfter, stuck, ending]

/-- Following a chain uses up the steps, comes to its end, or comes to a name
that was seen. -/
theorem rootAfter_cases (steps : Nat) {seen : List String} (distinct : seen.Nodup) (slot : Slot) :
    ∃ passed last, graph.Leads slot passed last ∧ (seen ++ passed.map graph.nameOf).Nodup ∧
      (passed.length = steps ∨
        graph.typedef? last = none ∧ graph.rootAfter steps seen slot = ending last ∨
        ∃ id name target, last = .object id ∧ graph.object? id = some (.typedef name target) ∧
          name ∈ seen ++ passed.map graph.nameOf ∧
          graph.rootAfter steps seen slot =
            .error (.typedefCycle (seen ++ passed.map graph.nameOf ++ [name]))) := by
  induction steps generalizing seen slot with
  | zero => exact ⟨[], slot, .here slot, by simpa using distinct, .inl rfl⟩
  | succ steps hypothesis =>
      cases found : graph.typedef? slot with
      | none =>
          exact ⟨[], slot, .here slot, by simpa using distinct,
            .inr (.inl ⟨found, rootAfter_of_stuck found steps seen⟩)⟩
      | some entry =>
          rcases entry with ⟨name, target⟩
          rcases typedef?_eq_some_iff.mp found with ⟨id, rfl, typedef⟩
          by_cases old : name ∈ seen
          · refine ⟨[], .object id, .here _, by simpa using distinct, .inr (.inr
              ⟨id, name, target, rfl, typedef, by simpa using old, ?_⟩)⟩
            simp [rootAfter, found, old]
          · have fresh : (seen ++ [name]).Nodup :=
              distinct.append (List.nodup_singleton name) (List.disjoint_singleton.mpr old)
            rcases hypothesis fresh target with ⟨passed, last, leads, names, outcome⟩
            refine ⟨id :: passed, last, .through typedef leads, ?_, ?_⟩
            · simpa [nameOf_typedef typedef] using names
            · simpa [rootAfter, found, old, nameOf_typedef typedef] using outcome

/-- The steps allowed are never used up: what is passed has different names, so
there are no more than objects. -/
theorem rootType_cases (graph : Graph) (slot : Slot) :
    ∃ passed last, graph.Leads slot passed last ∧ (passed.map graph.nameOf).Nodup ∧
      (graph.typedef? last = none ∧ graph.rootType slot = ending last ∨
        ∃ id name target, last = .object id ∧ graph.object? id = some (.typedef name target) ∧
          name ∈ passed.map graph.nameOf ∧
          graph.rootType slot = .error (.typedefCycle (passed.map graph.nameOf ++ [name]))) := by
  rcases graph.rootAfter_cases (graph.objects.size + 1) List.nodup_nil slot with
    ⟨passed, last, leads, names, used | outcome⟩
  · -- Different names are names of different objects.
    have within : passed ⊆ List.range graph.objects.size := fun id member =>
      List.mem_range.mpr (leads.lt_size id member)
    have bound := (List.subperm_of_subset (List.Nodup.of_map _ names) within).length_le
    rw [List.length_range] at bound
    omega
  · exact ⟨passed, last, leads, names, outcome⟩

/-! ## The answer and the chain -/

theorem namesDiffer_of_nodup (leads : graph.Leads slot passed last)
    (stuck : graph.typedef? last = none) (names : (passed.map graph.nameOf).Nodup) :
    graph.NamesDiffer slot := by
  intro part middle toMiddle first isFirst second isSecond same
  rcases toMiddle.remaining leads stuck with ⟨rest, rfl, _⟩
  rw [List.map_append] at names
  exact List.inj_on_of_nodup_map names.of_append_left isFirst isSecond same

/-- A name is met again on a chain of different names only where the chain
comes back. -/
theorem loops_of_namesDiffer (differ : graph.NamesDiffer slot) {id : ObjectId} {name : String}
    {target : Slot} (leads : graph.Leads slot passed (.object id))
    (typedef : graph.object? id = some (.typedef name target))
    (again : name ∈ passed.map graph.nameOf) : graph.Loops slot := by
  rcases List.mem_map.mp again with ⟨first, member, same⟩
  have further := leads.trans (.through typedef (.here target))
  obtain rfl : first = id := by
    refine differ _ _ further first (List.mem_append_left _ member) id
      (List.mem_append_right _ List.mem_cons_self) ?_
    rw [same, nameOf_typedef typedef]
  exact ⟨passed, first, leads, member⟩

/-- What ends a chain of a well typed graph is a root or a reference to a
type. -/
theorem ending_cases (stuck : graph.typedef? last = none) (fits : graph.fits .type last = true) :
    graph.IsRoot last ∧ ending last = .ok last ∨
      ∃ name line, last = .unresolved ⟨.type, name, line⟩ ∧
        ending last = .error (.typeNotLinked name line) := by
  rcases last with type | ⟨kind, name, line⟩ | id
  · exact .inl ⟨trivial, rfl⟩
  · cases kind with
    | type => exact .inr ⟨name, line, rfl, rfl⟩
    | service => cases fits
  · refine .inl ⟨?_, rfl⟩
    cases object : graph.object? id with
    | none => simp [Graph.fits, object] at fits
    | some spec =>
        refine ⟨spec, object, ?_⟩
        cases spec with
        | typedef => simp [typedef?, object] at stuck
        | function | service | fieldGroup => simp [Graph.fits, object, Spec.role?] at fits
        | _ => trivial

theorem typedef?_eq_none_of_isRoot (root : graph.IsRoot slot) : graph.typedef? slot = none := by
  rcases slot with type | reference | id
  · rfl
  · rfl
  · rcases root with ⟨spec, object, isRoot⟩
    cases spec with
    | typedef => cases isRoot
    | _ => simp [typedef?, object]

theorem IsStruct.isRoot (struct : graph.IsStruct slot) : graph.IsRoot slot := by
  rcases struct with ⟨id, name, kind, fields, rfl, object⟩
  exact ⟨_, object, trivial⟩

/-- A type is a struct just when the answer about its root is one. -/
theorem isStructType_eq_ok_true_iff : graph.isStructType slot = .ok true ↔
    ∃ last, graph.rootType slot = .ok last ∧ graph.IsStruct last := by
  unfold isStructType
  cases answer : graph.rootType slot with
  | error error => simp [bind, Except.bind]
  | ok last =>
      simp only [Except.ok.injEq, exists_eq_left', bind, Except.bind, IsStruct]
      split
      · next id =>
          split
          · next found => simp [pure, Except.pure, found]
          · next other =>
              simp only [pure, Except.pure, Except.ok.injEq, Bool.false_eq_true, false_iff]
              rintro ⟨_, name, kind, fields, ⟨⟩, object⟩
              exact other name kind fields object
      · next other =>
          simp only [pure, Except.pure, Except.ok.injEq, Bool.false_eq_true, false_iff]
          rintro ⟨id, _, _, _, rfl, _⟩
          exact other id rfl

/-- Exact answers about the root make the answer about structs exact. -/
theorem rootExact_of_answers
    (root : ∀ last, graph.rootType slot = .ok last ↔
      (∃ passed, graph.Leads slot passed last) ∧ graph.IsRoot last)
    (cycle : (∃ names, graph.rootType slot = .error (.typedefCycle names)) ↔ graph.Loops slot)
    (unlinked : ∀ name line, graph.rootType slot = .error (.typeNotLinked name line) ↔
      ∃ passed kind, graph.Leads slot passed (.unresolved ⟨kind, name, line⟩)) :
    graph.RootExact slot := by
  refine ⟨root, cycle, unlinked, isStructType_eq_ok_true_iff.trans ⟨?_, ?_⟩⟩
  · rintro ⟨last, answer, struct⟩
    rcases (root last).mp answer with ⟨⟨passed, leads⟩, _⟩
    exact ⟨passed, last, leads, struct⟩
  · rintro ⟨passed, last, leads, struct⟩
    exact ⟨last, (root last).mpr ⟨⟨passed, leads⟩, struct.isRoot⟩, struct⟩

/-- A chain that ends is answered exactly. -/
theorem rootExact_of_ends (leads : graph.Leads slot passed last)
    (stuck : graph.typedef? last = none) (fits : graph.fits .type last = true)
    (answer : graph.rootType slot = ending last) : graph.RootExact slot := by
  have noLoop : ¬ graph.Loops slot := fun loops => Leads.typedef?_ne_none_of_loops loops leads stuck
  have unique : ∀ {others final}, graph.Leads slot others final → graph.typedef? final = none →
      final = last := fun other ends => (leads.unique other stuck ends).2
  rcases ending_cases stuck fits with ⟨isRoot, ends⟩ | ⟨name, line, rfl, ends⟩
  · rw [ends] at answer
    refine rootExact_of_answers (fun final => ?_) ?_ fun name line => ?_
    · rw [answer, Except.ok.injEq]
      constructor
      · rintro rfl
        exact ⟨⟨passed, leads⟩, isRoot⟩
      · rintro ⟨⟨_, other⟩, alsoRoot⟩
        exact (unique other (typedef?_eq_none_of_isRoot alsoRoot)).symm
    · simp [answer, noLoop]
    · simp only [answer, reduceCtorEq, false_iff]
      rintro ⟨_, kind, other⟩
      rw [← unique other rfl] at isRoot
      exact isRoot
  · rw [ends] at answer
    refine rootExact_of_answers (fun final => ?_) ?_ fun otherName otherLine => ?_
    · simp only [answer, reduceCtorEq, false_iff]
      rintro ⟨⟨_, other⟩, isRoot⟩
      rw [unique other (typedef?_eq_none_of_isRoot isRoot)] at isRoot
      exact isRoot
    · simp [answer, noLoop]
    · rw [answer]
      constructor
      · rintro ⟨⟩
        exact ⟨passed, .type, leads⟩
      · rintro ⟨_, kind, other⟩
        cases unique other rfl
        rfl

/-- A chain that comes back is answered exactly. -/
theorem rootExact_of_loops (loops : graph.Loops slot) {names : List String}
    (answer : graph.rootType slot = .error (.typedefCycle names)) : graph.RootExact slot := by
  refine rootExact_of_answers (fun final => ?_) ?_ fun name line => ?_
  · simp only [answer, reduceCtorEq, false_iff]
    rintro ⟨⟨_, leads⟩, isRoot⟩
    exact leads.typedef?_ne_none_of_loops loops (typedef?_eq_none_of_isRoot isRoot)
  · exact iff_of_true ⟨names, answer⟩ loops
  · simp only [answer, Except.error.injEq, reduceCtorEq, false_iff]
    rintro ⟨_, kind, leads⟩
    exact leads.typedef?_ne_none_of_loops loops rfl

/-- In a well typed graph the answer about a type is exact when its chain comes
back or has different names, and a cycle is reported otherwise. -/
theorem rootExact_iff (typed : graph.WellTyped) (fits : graph.fits .type slot = true) :
    (graph.RootExact slot ↔ graph.Loops slot ∨ graph.NamesDiffer slot) ∧
      (¬ graph.RootExact slot → ∃ names, graph.rootType slot = .error (.typedefCycle names)) := by
  rcases graph.rootType_cases slot with
    ⟨passed, last, leads, names, ⟨stuck, answer⟩ | ⟨id, name, target, rfl, typedef, again, answer⟩⟩
  · have isExact := rootExact_of_ends leads stuck (leads.fits typed fits) answer
    have differ := namesDiffer_of_nodup leads stuck names
    exact ⟨iff_of_true isExact (.inr differ), fun inexact => absurd isExact inexact⟩
  · refine ⟨⟨fun isExact => .inl (isExact.cycle.mp ⟨_, answer⟩), ?_⟩, fun _ => ⟨_, answer⟩⟩
    rintro (loops | differ)
    · exact rootExact_of_loops loops answer
    · exact rootExact_of_loops (loops_of_namesDiffer differ leads typedef again) answer

end Graph

namespace Session

/-- In whatever graph a session makes, the answer about the root of a type is
what its chain of typedefs comes to, just when the chain comes back or different
typedefs on it have different names. -/
theorem rootType_exact_iff (calls : List Call) (slot : Slot)
    (fits : (run calls).graph.fits .type slot = true) :
    ((run calls).graph.RootExact slot ↔
        (run calls).graph.Loops slot ∨ (run calls).graph.NamesDiffer slot) ∧
      (¬ (run calls).graph.RootExact slot →
        ∃ names, (run calls).graph.rootType slot = .error (.typedefCycle names)) :=
  Graph.rootExact_iff (sound_run calls).typed fits

/-- A unit with a typedef, and a unit over it whose typedef of the same name
stands for the first one. -/
def layeredTypedefs : List Call :=
  [.compileModule
      [.typedef { name := "Foo", target := .base .i32 (.ofInt 1), line := .ofInt 1 }] [],
    .compileModule
      [.typedef { name := "Foo", target := .named "a.Foo" (.ofInt 1), line := .ofInt 1 }]
      [("a", 1)]]

theorem layeredTypedefs_first :
    ∃ name, (run layeredTypedefs).graph.object? 0 = some (.typedef name (.primitive .i32)) :=
  ⟨_, rfl⟩

/-- The chain of the second typedef ends in a base type, and a cycle is
reported. -/
theorem rootType_layeredTypedefs :
    (run layeredTypedefs).graph.fits .type (.object 1) = true ∧
      ¬ (run layeredTypedefs).graph.RootExact (.object 1) := by
  rcases layeredTypedefs_first with ⟨_, first⟩
  obtain ⟨_, second⟩ :
      ∃ name, (run layeredTypedefs).graph.object? 1 = some (.typedef name (.object 0)) := ⟨_, rfl⟩
  have answer : (run layeredTypedefs).graph.rootType (.object 1) =
      .error (.typedefCycle ["Foo", "Foo"]) := by
    decide
  refine ⟨by decide, fun isExact => ?_⟩
  have root := (isExact.root (.primitive .i32)).mpr
    ⟨⟨_, .through second (.through first (.here _))⟩, trivial⟩
  rw [answer] at root
  cases root

/-- The first typedef of the two is answered exactly. -/
theorem rootExact_layeredTypedefs :
    (run layeredTypedefs).graph.fits .type (.object 0) = true ∧
      (run layeredTypedefs).graph.RootExact (.object 0) := by
  have fits : (run layeredTypedefs).graph.fits .type (.object 0) = true := by decide
  rcases layeredTypedefs_first with ⟨_, only⟩
  have differ : (run layeredTypedefs).graph.NamesDiffer (.object 0) :=
    Graph.namesDiffer_of_nodup (.through only (.here _)) rfl (List.nodup_singleton _)
  exact ⟨fits, (rootType_exact_iff layeredTypedefs (.object 0) fits).1.mpr (.inr differ)⟩

end Session

end IdlLinker
