import IdlLinker.Definition.Loadable
import IdlLinker.Proofs.Modules
import IdlLinker.Proofs.Repeated

/-!
# Where the errors of a unit point

The error that a unit starts with points into its definitions: at what is
declared twice, or, when all of them compile, at a mention that does not
resolve.  In a unit that was loaded a name has one dot at most, so it leads
into the tables of included modules and no further, and these are linked.
-/

namespace IdlLinker

/-- Names in types that can be written are qualified. -/
theorem TypeExpression.WellFormed.qualified_name {type : TypeExpression}
    (wellFormed : type.WellFormed) {reference : Reference}
    (mentioned : reference ∈ type.references) :
    Name.Qualified reference.name := by
  induction type with
  | base type line => cases mentioned
  | named name line =>
      rw [List.mem_singleton.mp mentioned]
      exact IsTypeName.qualified wellFormed
  | map key value line keyQualified valueQualified =>
      rcases List.mem_append.mp mentioned with inKey | inValue
      · exact keyQualified wellFormed.1 inKey
      · exact valueQualified wellFormed.2 inValue
  | list value line valueQualified => exact valueQualified wellFormed mentioned
  | set value line valueQualified => exact valueQualified wellFormed mentioned

namespace Definition

theorem Loadable.wellFormed {definition : Definition} (loadable : definition.Loadable)
    {type : TypeExpression} (member : type ∈ definition.types) : type.WellFormed := by
  have body := loadable.body
  cases definition with
  | struct definition =>
      rcases List.mem_map.mp member with ⟨field, inside, rfl⟩
      exact (body field inside).type.wellFormed
  | typedef definition =>
      rw [List.mem_singleton.mp member]
      exact body.wellFormed
  | enum definition => cases member
  | service definition =>
      rcases List.mem_flatMap.mp member with ⟨function, inside, inFunction⟩
      have functionLoadable := body.2 function inside
      rcases List.mem_append.mp inFunction with front | inExceptions
      · rcases List.mem_append.mp front with inParameters | returned
        · rcases List.mem_map.mp inParameters with ⟨field, fieldMember, rfl⟩
          exact (functionLoadable.parameters field fieldMember).type.wellFormed
        · exact (functionLoadable.returnType type (Option.mem_toList.mp returned)).wellFormed
      · rcases List.mem_map.mp inExceptions with ⟨field, fieldMember, rfl⟩
        exact (functionLoadable.exceptions field fieldMember).type.wellFormed

/-- A definition that can be loaded mentions qualified names. -/
theorem Loadable.qualified {definition : Definition} (loadable : definition.Loadable)
    {reference : Reference} (mentioned : reference ∈ definition.references) :
    Name.Qualified reference.name := by
  rcases List.mem_append.mp mentioned with inTypes | inParent
  · rcases List.mem_flatMap.mp inTypes with ⟨type, member, inside⟩
    exact (loadable.wellFormed member).qualified_name inside
  · rcases List.mem_map.mp inParent with ⟨parent, member, rfl⟩
    cases definition with
    | service definition => exact (loadable.body.1 parent (Option.mem_toList.mp member)).1
    | _ => cases member

end Definition

/-- What follows a dot of a qualified name has no dot. -/
theorem Name.plain_of_qualified {key rest : String} (qualified : Qualified (key ++ "." ++ rest)) :
    '.' ∉ rest.toList := by
  rcases qualified with whole | ⟨first, second, isFirst, isSecond, same⟩
  · exact absurd (by simp) (plain_of_isIdentifier whole).1
  · have dots := congrArg (fun name => name.toList.count '.') same
    have front := List.count_eq_zero.mpr (plain_of_isIdentifier isFirst).1
    have back := List.count_eq_zero.mpr (plain_of_isIdentifier isSecond).1
    simp only [String.toList_append, List.count_append, front, back] at dots
    exact List.count_eq_zero.mp (by omega)

namespace Session

open IdlLinker.Module

variable {session : Session} {definitions : List Definition} {includes : Includes}

/-- Over scopes of modules, whatever their own includes are, the names of a unit
that was loaded mean linked objects. -/
theorem Standing.supplied_of_loadable (standing : session.Standing)
    (modules : ∀ entry ∈ includes, ∃ module ∈ session.modules, entry.2 = module.scope)
    (loadable : ∀ definition ∈ definitions, definition.Loadable) :
    Supplied session.workspace.graph definitions includes := by
  intro definition member reference mentioned entry included rest id name meant
  have qualified := (loadable definition member).qualified mentioned
  rw [name] at qualified
  have plain := Name.plain_of_qualified qualified
  rcases modules entry included with ⟨module, isModule, same⟩
  rw [same] at meant
  rcases Scope.means_iff.mp meant with own | ⟨_, key, more, _, rfl, _⟩
  · exact standing.linked module isModule id ⟨reference.kind, rest, own⟩
  · exact absurd (by simp) plain

end Session

namespace Module

open IdlLinker.Graph

variable {workspace : Workspace} {definitions : List Definition} {includes : Includes}
  {units : List (String × CompiledDefinition)} {error : CompileError}

/-- What dangles in a unit is mentioned in it. -/
theorem pointsInto_of_dangles (compiled : List.Forall₂ Compiles definitions units) {scope : Scope}
    (dangles : Dangles scope workspace.graph.objects.size (install workspace.graph units).2 error) :
    error.root.PointsInto (.ofUnit definitions) := by
  rcases dangles with ⟨id, position, reference, above, held, _, root⟩
  rcases mentioned_of_held compiled above held with ⟨definition, member, mentioned⟩
  rw [root]
  apply List.mem_map.mpr
  exact ⟨reference, List.mem_flatMap.mpr ⟨definition, member, mentioned⟩, rfl⟩

theorem eq_error_of_assemble
    (ended : (assemble workspace units includes).outcome = .error (.compile error)) :
    (unitLinked workspace units includes).outcome = .error error := by
  simp only [assemble] at ended
  split at ended
  · cases ended
  · next failed =>
      cases ended
      exact failed

/-- A unit without a module had a bad include name, or did not compile, or was
not linked. -/
theorem compile_error_cases
    (ended : (compile workspace definitions includes).outcome = .error (.compile error)) :
    (compileAfter {} definitions).outcome = .error error ∨
      ∃ units, (compileAfter {} definitions).outcome = .ok units ∧
        (unitLinked workspace units includes).outcome = .error error := by
  unfold compile at ended
  split at ended
  · cases ended
  · dsimp only at ended
    split at ended
    · next failed =>
        cases ended
        exact Or.inl failed
    · next units compiled => exact Or.inr ⟨units, compiled, eq_error_of_assemble ended⟩

/-- The error that a unit starts with points into its definitions, when they can
be loaded and all that is included are modules. -/
theorem pointsInto_of_compile (calls : List Call)
    (modules : ∀ entry ∈ includes, ∃ module ∈ (Session.run calls).modules,
      entry.2 = module.scope)
    (loadable : ∀ definition ∈ definitions, definition.Loadable)
    (ended : (compile (Session.run calls).workspace definitions includes).outcome =
      .error (.compile error)) : error.root.PointsInto (.ofUnit definitions) := by
  have sound := Session.sound_run calls
  have standing := Session.standing_run calls
  rcases compile_error_cases ended with refused | ⟨units, compiled, failed⟩
  · apply (@pointsInto_of_compileAfter definitions error [] {} rfl refused).within
    exact Origins.within_of_subset (List.Subset.refl _) (List.Subset.refl _) (List.nil_subset _)
  · rcases compileAfter_empty_eq_ok_iff.mp compiled with ⟨distinct, each⟩
    have known : ∀ entry ∈ includes, entry.2 ∈ (Session.run calls).scopes := by
      intro entry member
      rcases modules entry member with ⟨module, isModule, same⟩
      exact same ▸ standing.known module isModule
    have supplied := standing.supplied_of_loadable modules loadable
    exact pointsInto_of_dangles each
      ((sound.linking_unit known supplied each distinct).2 error failed)

end Module

end IdlLinker
