import IdlLinker.Proofs.EnumValues
import IdlLinker.Proofs.Services

/-!
# What compiling has written when it stops

A definition that compiles is valid and has written its warnings, and one that
is refused stops where its first part is refused.  So the definitions of a unit
write in order what is written about each, up to the first that cannot follow
those before it, which tells the error.
-/

namespace IdlLinker

/-! ## One definition -/

namespace Definition

variable {definition : Definition} {compiled : CompiledDefinition} {error : CompileError}

/-- A definition that compiles is valid, and all its warnings are written. -/
theorem valid_of_compile (ended : definition.compile.outcome = .ok compiled) :
    definition.Valid ∧ definition.compile.journal = definition.warnings := by
  cases definition with
  | struct definition =>
      simp only [compile, StructDefinition.compile, Compilation.outcome_bind_eq_ok,
        Compilation.outcome_ownedBy_eq_ok] at ended
      rcases ended with ⟨_, fieldsEnded, _⟩
      rw [compile, Compilation.journal_bind_pure]
      exact ⟨FieldGroup.valid_of_compile fieldsEnded, FieldGroup.journal_of_compile fieldsEnded⟩
  | typedef definition => exact ⟨trivial, rfl⟩
  | enum definition =>
      simp only [compile, Compilation.outcome_bind_eq_ok, Compilation.outcome_ofExcept] at ended
      rcases ended with ⟨_, itemsEnded, _⟩
      rw [compile, Compilation.journal_bind_pure]
      exact ⟨EnumDefinition.valid_of_compile itemsEnded, rfl⟩
  | service definition =>
      simp only [compile, Compilation.outcome_bind_eq_ok] at ended
      rcases ended with ⟨_, serviceEnded, _⟩
      rw [compile, Compilation.journal_bind_pure]
      exact ⟨ServiceDefinition.valid_of_compile serviceEnded,
        ServiceDefinition.journal_of_compile serviceEnded⟩

/-- A definition that is refused stops where one of its parts does. -/
theorem stops_of_compile (ended : definition.compile.outcome = .error error) :
    definition.Stops error definition.compile.journal := by
  cases definition with
  | struct definition =>
      simp only [compile, StructDefinition.compile, Compilation.outcome_bind_eq_error,
        Compilation.outcome_ownedBy_eq_error, Compilation.outcome_pure, reduceCtorEq, and_false,
        exists_false, or_false] at ended
      rcases ended with ⟨cause, refused, rfl⟩
      rw [compile, Compilation.journal_bind_pure]
      exact ⟨cause, rfl, FieldGroup.stops_of_compile refused⟩
  | typedef definition => cases ended
  | enum definition =>
      simp only [compile, Compilation.outcome_bind_eq_error, Compilation.outcome_ofExcept,
        Compilation.outcome_pure, reduceCtorEq, and_false, exists_false, or_false] at ended
      rcases EnumDefinition.refused_of_compile ended with ⟨cause, rfl, refused⟩
      rw [compile, Compilation.journal_bind_pure]
      exact ⟨cause, rfl, refused, rfl⟩
  | service definition =>
      simp only [compile, Compilation.outcome_bind_eq_error, Compilation.outcome_pure,
        reduceCtorEq, and_false, exists_false, or_false] at ended
      rw [compile, Compilation.journal_bind_pure]
      exact ServiceDefinition.stops_of_compile ended

theorem Stops.not_valid {journal : Journal} (stops : definition.Stops error journal) :
    ¬ definition.Valid := by
  cases definition with
  | struct definition =>
      rcases stops with ⟨_, _, stops⟩
      exact stops.refused.not_valid
  | typedef definition => exact stops.elim
  | enum definition =>
      rcases stops with ⟨_, _, refused, _⟩
      exact refused.not_valid
  | service definition => exact (ServiceDefinition.Stops.refused stops).not_valid

end Definition

/-! ## All definitions of a unit -/

namespace Module

variable {done definitions : List Definition} {definition : Definition} {names : Namespace}
  {units : List (String × CompiledDefinition)} {error : CompileError}

theorem valid_nil : Valid [] := ⟨List.nodup_nil, by simp⟩

theorem tracks_nil : ({} : Namespace).declared = Definition.names [] := rfl

/-- A definition can follow others just when its name is new and it is valid. -/
theorem valid_append_singleton_iff :
    Valid (done ++ [definition]) ↔
      Valid done ∧ definition.name ∉ done.map (·.name) ∧ definition.Valid := by
  constructor
  · intro valid
    rcases nodup_map_append_singleton.mp valid.names with ⟨distinct, fresh⟩
    rcases List.forall_mem_append.mp valid.each with ⟨earlier, own⟩
    exact ⟨⟨distinct, earlier⟩, fresh, own definition List.mem_cons_self⟩
  · rintro ⟨valid, fresh, own⟩
    exact ⟨nodup_map_append_singleton.mpr ⟨valid.names, fresh⟩,
      List.forall_mem_append.mpr ⟨valid.each, List.forall_mem_singleton.mpr own⟩⟩

/-- A definition comes before the rest of its unit, in the journal too. -/
theorem journal_compileAfter {claimed : Namespace} {compiled : CompiledDefinition}
    (taken : names.claim definition.name definition.line = .ok claimed)
    (first : definition.compile.outcome = .ok compiled) (rest : List Definition) :
    (compileAfter names (definition :: rest)).journal =
      definition.journal ++ (compileAfter claimed rest).journal := by
  rw [compileAfter, Compilation.journal_bind_of_ok taken, Compilation.journal_bind_of_ok first,
    Compilation.journal_bind_of_ok (Compilation.outcome_log _), Compilation.journal_bind_pure,
    (Definition.valid_of_compile first).2, Definition.journal, List.append_assoc]
  rfl

/-- Definitions that compile after valid ones are valid with them, and what is
written about each is written in order. -/
theorem valid_of_compileAfter (tracks : names.declared = Definition.names done)
    (valid : Valid done) (ended : (compileAfter names definitions).outcome = .ok units) :
    Valid (done ++ definitions) ∧
      (compileAfter names definitions).journal = definitions.flatMap Definition.journal := by
  induction definitions generalizing done names units with
  | nil =>
      rw [List.append_nil]
      exact ⟨valid, rfl⟩
  | cons definition rest hypothesis =>
      simp only [compileAfter, Compilation.outcome_bind_eq_ok, Compilation.outcome_pure,
        Compilation.outcome_ofExcept, Compilation.outcome_log, Except.ok.injEq] at ended
      rcases ended with ⟨claimed, taken, compiled, first, _, _, others, restEnded, rfl⟩
      rcases Namespace.fresh_of_claim tracks taken with ⟨fresh, onward⟩
      have longer := valid_append_singleton_iff.mpr
        ⟨valid, fresh, (Definition.valid_of_compile first).1⟩
      rcases hypothesis onward longer restEnded with ⟨whole, written⟩
      rw [List.append_cons, journal_compileAfter taken first, written, List.flatMap_cons]
      exact ⟨whole, rfl⟩

/-- Definitions that are refused after valid ones stop at one of them. -/
theorem stops_of_compileAfter (tracks : names.declared = Definition.names done)
    (valid : Valid done) (ended : (compileAfter names definitions).outcome = .error error) :
    Stops (done ++ definitions) error
      (done.flatMap Definition.journal ++ (compileAfter names definitions).journal) := by
  induction definitions generalizing done names with
  | nil => cases ended
  | cons definition rest hypothesis =>
      simp only [compileAfter, Compilation.outcome_bind_eq_error, Compilation.outcome_ofExcept,
        Compilation.outcome_log, Compilation.outcome_pure, reduceCtorEq, and_false, exists_false,
        or_false, false_or, true_and, exists_const] at ended
      rcases ended with refused | ⟨claimed, taken, refused | ⟨compiled, first, refused⟩⟩
      · have redeclares := Namespace.redeclares_of_claim tracks refused
        have broken : ¬ Valid (done ++ [definition]) := fun whole =>
          (valid_append_singleton_iff.mp whole).2.1 redeclares.mem
        refine ⟨done, definition, ⟨⟨rest, rfl⟩, valid, broken⟩, Or.inl ⟨redeclares, ?_⟩⟩
        rw [compileAfter, Compilation.journal_bind_of_error refused]
        exact List.append_nil _
      · have fresh := (Namespace.fresh_of_claim tracks taken).1
        have stops := Definition.stops_of_compile refused
        have broken : ¬ Valid (done ++ [definition]) := fun whole =>
          stops.not_valid (valid_append_singleton_iff.mp whole).2.2
        refine ⟨done, definition, ⟨⟨rest, rfl⟩, valid, broken⟩, Or.inr ⟨fresh, _, stops, ?_⟩⟩
        rw [compileAfter, Compilation.journal_bind_of_ok taken,
          Compilation.journal_bind_of_error refused]
        rfl
      · rcases Namespace.fresh_of_claim tracks taken with ⟨fresh, onward⟩
        have longer := valid_append_singleton_iff.mpr
          ⟨valid, fresh, (Definition.valid_of_compile first).1⟩
        have later := hypothesis onward longer refused
        rw [List.flatMap_append, List.flatMap_singleton] at later
        rwa [journal_compileAfter taken first, ← List.append_assoc, List.append_cons]

end Module

end IdlLinker
