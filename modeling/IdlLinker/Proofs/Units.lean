import IdlLinker.Proofs.Declared
import IdlLinker.Proofs.Enclosed
import IdlLinker.Proofs.Names

/-!
# Units

The objects of a unit are those that its definitions declare, and its scope
has each of them under its name.  Linking them puts in the place of every
reference what its name means in that scope.
-/

namespace IdlLinker

namespace Definition

/-- The object that a definition compiles to has its name. -/
theorem Keeps.name? {definition : Definition} {compiled : CompiledDefinition}
    (keeps : Keeps definition compiled) : compiled.shape.name? = some definition.name := by
  cases keeps <;> rfl

/-- What a definition mentions, it mentions in one of its parts. -/
theorem exists_part (definition : Definition) {reference : Reference}
    (mentioned : reference ∈ definition.references) :
    ∃ part ∈ definition.parts, reference ∈ part.references := by
  rcases List.mem_append.mp mentioned with inType | inParent
  · rcases List.mem_flatMap.mp inType with ⟨expression, member, inside⟩
    cases definition with
    | struct definition =>
        rcases List.mem_map.mp member with ⟨field, fieldMember, rfl⟩
        exact ⟨.type field.type, List.mem_map.mpr ⟨field, fieldMember, rfl⟩, inside⟩
    | typedef definition =>
        rw [List.mem_singleton.mp member] at inside
        exact ⟨.type definition.target, List.mem_singleton_self _, inside⟩
    | enum definition => cases member
    | service definition =>
        rcases List.mem_flatMap.mp member with ⟨function, functionMember, typeMember⟩
        exact ⟨.function function,
          List.mem_append_right _ (List.mem_map.mpr ⟨function, functionMember, rfl⟩),
          List.mem_flatMap.mpr ⟨expression, typeMember, inside⟩⟩
  · rcases List.mem_map.mp inParent with ⟨parent, member, rfl⟩
    cases definition with
    | service definition =>
        exact ⟨.parent parent, List.mem_append_left _ (List.mem_map.mpr ⟨parent, member, rfl⟩),
          List.mem_singleton_self _⟩
    | _ => cases member

end Definition

namespace Graph

variable {means : Reference → Slot → Prop} {graph : Graph}

theorem Declares.name? {definition : Definition} {id : ObjectId}
    (declares : graph.Declares means definition id) : graph.name? id = some definition.name := by
  rcases declares with ⟨compiled, spec, ended, object, shape, _⟩
  rw [Graph.name?, object, Option.bind_some, ← Spec.name?_shape, shape,
    (Definition.compile_keeps ended).name?]

/-- A name in what stands for a written type means something. -/
theorem Stands.exists_meant {expression : TypeExpression} {slot : Slot}
    (stands : graph.Stands means expression slot) {reference : Reference}
    (mentioned : reference ∈ expression.references) : ∃ slot, means reference slot := by
  induction stands with
  | base => cases mentioned
  | named meant =>
      rw [List.mem_singleton.mp mentioned]
      exact ⟨_, meant⟩
  | map _ _ _ keyMeant valueMeant =>
      rcases List.mem_append.mp mentioned with left | right
      · exact keyMeant left
      · exact valueMeant right
  | list _ _ valueMeant => exact valueMeant mentioned
  | set _ _ valueMeant => exact valueMeant mentioned

theorem StandsAt.exists_meant {part : Part} {slot : Slot} (stands : graph.StandsAt means part slot)
    {reference : Reference} (mentioned : reference ∈ part.references) :
    ∃ slot, means reference slot := by
  cases stands with
  | type stands => exact stands.exists_meant mentioned
  | parent meant =>
      rw [List.mem_singleton.mp mentioned]
      exact ⟨_, meant⟩
  | function _ _ _ stands =>
      rcases List.mem_flatMap.mp mentioned with ⟨expression, member, inside⟩
      rcases exists_right_of_forall₂ stands member with ⟨slot, _, held⟩
      exact held.exists_meant inside

/-- A name that a definition mentions means something. -/
theorem Declares.exists_meant {definition : Definition} {id : ObjectId}
    (declares : graph.Declares means definition id) {reference : Reference}
    (mentioned : reference ∈ definition.references) : ∃ slot, means reference slot := by
  rcases declares with ⟨_, spec, _, _, _, stands⟩
  rcases definition.exists_part mentioned with ⟨part, member, inside⟩
  rcases exists_right_of_forall₂ stands member with ⟨slot, _, held⟩
  exact held.exists_meant inside

/-- A slot and what stands in its place after linking: it is linked, and was
there before or is what the reference there denotes. -/
def Turns (scope : Scope) (graph : Graph) (slot turned : Slot) : Prop :=
  graph.isLinked turned = true ∧
    (turned = slot ∨ ∃ reference, slot = .unresolved reference ∧ scope.Denotes reference turned)

variable {scope : Scope} {fresh : Graph}

theorem BoundIn.turns (bound : BoundIn scope fresh graph) (closed : graph.Closed) {id : ObjectId}
    (marked : id ∈ graph.linked) {position : Nat} {slot turned : Slot}
    (before : fresh.slot? id position = some slot) (held : graph.slot? id position = some turned) :
    Turns scope graph slot turned := by
  refine ⟨closed.isLinked_of_slot? marked held, ?_⟩
  rcases bound id position with same | ⟨reference, written, target, found, replaced⟩
  · rw [same, before] at held
    exact Or.inl (Option.some.inj held).symm
  · rw [written] at before
    rw [replaced] at held
    cases before
    cases held
    exact Or.inr ⟨reference, rfl, target, Scope.lookup_eq_some_iff.mp found, rfl⟩

/-- What is linked holds what was written there, with every reference replaced
by what it denotes. -/
theorem BoundIn.carries (bound : BoundIn scope fresh graph) (closed : graph.Closed)
    (shapes : fresh.SameShapes graph) :
    Carries fresh graph Written scope.Denotes (Turns scope graph) where
  primitive type slot turn := by
    rcases turn.2 with same | ⟨_, impossible, _⟩
    · exact same
    · cases impossible
  object id slot turn := by
    rcases turn.2 with same | ⟨_, impossible, _⟩
    · exact same
    · cases impossible
  kept id spec turn object := by
    have marked : id ∈ graph.linked := by simpa using turn.1
    rcases shapes.exists_object object with ⟨changed, found, shape⟩
    refine ⟨changed, found, shape, ?_⟩
    apply List.forall₂_of_length_eq_of_get
    · exact (Spec.length_slots_eq_of_shape shape).symm
    · intro position bound₁ bound₂
      apply bound.turns closed marked
      · rw [slot?, object]
        exact List.getElem?_eq_getElem bound₁
      · rw [slot?, found]
        exact List.getElem?_eq_getElem bound₂
  meaning reference slot turned written turn := by
    cases written
    rcases turn.2 with rfl | ⟨other, same, denotes⟩
    · cases turn.1
    · cases same
      exact denotes

end Graph

namespace Module

open IdlLinker.Graph

/-- What is made for a definition: its name, its kind, and its object. -/
def Installs (graph : Graph) (means : Reference → Slot → Prop) (definition : Definition)
    (entry : String × EntityKind × ObjectId) : Prop :=
  entry.1 = definition.name ∧ entry.2.1 = definition.kind ∧
    graph.Declares means definition entry.2.2

theorem forall₂_installs {definitions : List Definition}
    {units : List (String × CompiledDefinition)}
    (compiled : List.Forall₂ Compiles definitions units) (graph : Graph) :
    List.Forall₂ (Installs (installAll units graph).2 Written) definitions
      (installAll units graph).1 := by
  induction compiled generalizing graph with
  | nil => exact List.Forall₂.nil
  | @cons definition unit _ rest here _ hypothesis =>
      rcases unit with ⟨name, compiled⟩
      rcases here with ⟨rfl, ended⟩
      have later := installAll_grows (fun _ => True) rest (compiled.install graph).2 0
        (Nat.zero_le _) (by simp)
      rw [installAll_cons]
      refine List.Forall₂.cons ⟨rfl, (Definition.compile_keeps ended).kind, ?_⟩ (hypothesis _)
      exact (compiled.install_declares graph ended).carry
        (carries_of_kept Written (object?_of_grows later)) rfl

theorem names_of_installs {graph : Graph} {means : Reference → Slot → Prop}
    {definitions : List Definition} {entries : List (String × EntityKind × ObjectId)}
    (installs : List.Forall₂ (Installs graph means) definitions entries) :
    entries.map (·.1) = definitions.map (·.name) := by
  induction installs with
  | nil => rfl
  | cons here _ hypothesis => rw [List.map_cons, List.map_cons, here.1, hypothesis]

/-- Objects made for a unit come after all that were there. -/
theorem size_le_installAll (units : List (String × CompiledDefinition)) (graph : Graph) :
    ∀ entry ∈ (installAll units graph).1, graph.objects.size ≤ entry.2.2 := by
  induction units generalizing graph with
  | nil =>
      intro entry member
      cases member
  | cons unit rest hypothesis =>
      rcases unit with ⟨name, compiled⟩
      have first := compiled.install_rooted (fun _ => True) graph 0 (Nat.zero_le _) (by simp)
      rw [installAll_cons]
      intro entry member
      rcases List.mem_cons.mp member with rfl | later
      · exact first.first
      · exact Nat.le_trans first.size (hypothesis _ entry later)

theorem sublist_ofKind (kind : EntityKind) (installed : List (String × EntityKind × ObjectId)) :
    ((ofKind kind installed).map (·.1)).Sublist (installed.map (·.1)) := by
  induction installed with
  | nil => exact List.Sublist.refl _
  | cons entry rest hypothesis =>
      simp only [ofKind, List.filterMap_cons] at hypothesis ⊢
      by_cases same : (entry.2.1 == kind) = true
      · simpa [same] using hypothesis
      · simp only [same]
        exact hypothesis.cons _

/-- The scope of a unit has its objects under their names. -/
theorem table_createScope {workspace : Workspace} {graph : Graph}
    {installed : List (String × EntityKind × ObjectId)} {includes : Includes}
    (named : ∀ entry ∈ installed, graph.name? entry.2.2 = some entry.1)
    (distinct : (installed.map (·.1)).Nodup) (kind : EntityKind) :
    (createScope workspace graph installed includes).1.table kind = ofKind kind installed := by
  have listed :
      Scope.tableOf graph ((ofKind kind installed).map (·.2)) = ofKind kind installed := by
    apply Scope.tableOf_eq
    · intro entry member
      exact named _ (mem_ofKind_iff.mp member)
    · exact distinct.sublist (sublist_ofKind kind installed)
  cases kind with
  | type => exact listed
  | service => exact listed

end Module

end IdlLinker
