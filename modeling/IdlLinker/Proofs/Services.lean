import IdlLinker.Proofs.FieldGroups

/-!
# Services and functions

A service compiles just when its functions have distinct names and each is
valid.  It keeps its own functions in order and its parent as a reference, and
a function gives something back when it has a returned type or exceptions.  A
service that is not valid is refused at the first function with which it
breaks: for its name, or with the error of its body.
-/

namespace IdlLinker

/-! ## One function -/

namespace Function

variable {function : Function} {spec : FunctionSpec TypeExpression} {error : CompileError}

theorem holds_of_checkOneway (accepted : function.checkOneway = .ok ()) :
    FunctionCheck.Holds function .onewayReturn ∧ FunctionCheck.Holds function .onewayThrows := by
  unfold checkOneway at accepted
  split at accepted
  · cases accepted
  · next returns =>
      split at accepted
      · cases accepted
      · next throws =>
          constructor
          · intro oneway
            simpa [oneway] using returns
          · intro oneway
            simpa [oneway] using throws

theorem reports_of_checkOneway (refused : function.checkOneway = .error error) :
    ¬ FunctionCheck.Holds function .onewayReturn ∧
        FunctionCheck.Reports function error .onewayReturn ∨
      FunctionCheck.Holds function .onewayReturn ∧ ¬ FunctionCheck.Holds function .onewayThrows ∧
        FunctionCheck.Reports function error .onewayThrows := by
  unfold checkOneway at refused
  split at refused
  · next returns =>
      cases refused
      rw [Bool.and_eq_true, Option.isSome_iff_ne_none] at returns
      exact Or.inl ⟨fun holds => returns.2 (holds returns.1), rfl⟩
  · next noReturn =>
      split at refused
      · next throws =>
          cases refused
          simp only [Bool.and_eq_true, Bool.not_eq_true', List.isEmpty_eq_false_iff] at throws
          refine Or.inr ⟨fun oneway => ?_, fun holds => throws.2 (holds throws.1), rfl⟩
          simpa [oneway] using noReturn
      · cases refused

theorem compile_eq_ok (ended : function.compile.outcome = .ok spec) :
    ∃ args exceptions, function.checkOneway = .ok () ∧
      (FieldGroup.compile function.parameters).outcome = .ok args ∧
      (FieldGroup.compile function.exceptions { defaultsAllowed := false }).outcome =
        .ok exceptions ∧
      spec = { name := function.name, args
               result := resultSpec function.returnType exceptions
               oneway := function.oneway } := by
  simp only [compile, Compilation.outcome_bind_eq_ok, Compilation.outcome_pure,
    Compilation.outcome_ofExcept, Except.ok.injEq] at ended
  rcases ended with ⟨_, checked, args, argsEnded, exceptions, exceptionsEnded, rfl⟩
  exact ⟨args, exceptions, checked, argsEnded, exceptionsEnded, rfl⟩

/-- A function that compiles passes every check. -/
theorem valid_of_compile (ended : function.compile.outcome = .ok spec) : function.Valid := by
  rcases compile_eq_ok ended with ⟨args, exceptions, checked, argsEnded, exceptionsEnded, _⟩
  intro check
  cases check with
  | onewayReturn => exact (holds_of_checkOneway checked).1
  | onewayThrows => exact (holds_of_checkOneway checked).2
  | arguments => exact FieldGroup.valid_of_compile argsEnded
  | throws => exact FieldGroup.valid_of_compile exceptionsEnded

/-- The arguments of a function are compiled before what it throws, and warned
about before. -/
theorem journal_compile {args : List (FieldSpec TypeExpression)}
    (checked : function.checkOneway = .ok ())
    (argsEnded : (FieldGroup.compile function.parameters).outcome = .ok args) :
    function.compile.journal = FieldGroup.warnings function.parameters ++
      (FieldGroup.compile function.exceptions { defaultsAllowed := false }).journal := by
  rw [compile, Compilation.journal_bind_of_ok checked, Compilation.journal_bind_of_ok argsEnded,
    Compilation.journal_bind_pure, FieldGroup.journal_of_compile argsEnded]
  rfl

/-- A function that compiles is warned about. -/
theorem journal_of_compile (ended : function.compile.outcome = .ok spec) :
    function.compile.journal = function.warnings := by
  rcases compile_eq_ok ended with ⟨_, _, checked, argsEnded, exceptionsEnded, _⟩
  rw [journal_compile checked argsEnded, FieldGroup.journal_of_compile exceptionsEnded, warnings]

/-- A function that is refused fails a check, and passes those before it. -/
theorem stops_of_compile (ended : function.compile.outcome = .error error) :
    function.Stops error function.compile.journal := by
  simp only [compile, Compilation.outcome_bind_eq_error, Compilation.outcome_pure,
    Compilation.outcome_ofExcept, reduceCtorEq, and_false, exists_false, or_false] at ended
  rcases ended with refused | ⟨_, checked, refused | ⟨args, argsEnded, refused⟩⟩
  · have silent : function.compile.journal = [] := by
      have stuck : (Compilation.ofExcept function.checkOneway).outcome = .error error := refused
      rw [compile, Compilation.journal_bind_of_error stuck, Compilation.journal_ofExcept]
    rcases reports_of_checkOneway refused with ⟨fails, reports⟩ | ⟨noReturn, fails, reports⟩
    · exact ⟨.onewayReturn, ⟨⟨[], _, rfl, nofun⟩, fails⟩, reports, silent⟩
    · exact ⟨.onewayThrows,
        ⟨⟨[.onewayReturn], _, rfl, List.forall_mem_singleton.mpr noReturn⟩, fails⟩, reports, silent⟩
  · have oneway := holds_of_checkOneway checked
    have stops := FieldGroup.stops_of_compile refused
    have written : function.compile.journal = (FieldGroup.compile function.parameters).journal := by
      rw [compile, Compilation.journal_bind_of_ok checked,
        Compilation.journal_bind_of_error refused]
      rfl
    refine ⟨.arguments, ⟨⟨[.onewayReturn, .onewayThrows], _, rfl, ?_⟩, stops.refused.not_valid⟩, ?_⟩
    · simpa using oneway
    · rw [written]
      exact stops
  · have oneway := holds_of_checkOneway checked
    have args : FunctionCheck.Holds function .arguments := FieldGroup.valid_of_compile argsEnded
    have stops := FieldGroup.stops_of_compile refused
    refine ⟨.throws, ⟨⟨[.onewayReturn, .onewayThrows, .arguments], _, rfl, ?_⟩,
      stops.refused.not_valid⟩, _, stops, journal_compile checked argsEnded⟩
    simpa using ⟨oneway.1, oneway.2, args⟩

/-- A function that stops is refused. -/
theorem Stops.refused {journal : Journal} (stops : function.Stops error journal) :
    function.Refused error := by
  rcases stops with ⟨check, failing, leaves⟩
  refine ⟨check, failing, ?_⟩
  cases check with
  | onewayReturn => exact leaves.1
  | onewayThrows => exact leaves.1
  | arguments => exact FieldGroup.Stops.refused leaves
  | throws =>
      rcases leaves with ⟨inner, stops, _⟩
      exact stops.refused

theorem Refused.not_valid (refused : function.Refused error) : ¬ function.Valid := by
  rcases refused with ⟨check, failing, _⟩
  exact fun valid => failing.fails (valid check)

theorem isSome_resultSpec (returnType : Option TypeExpression)
    (exceptions : List (FieldSpec TypeExpression)) :
    (resultSpec returnType exceptions).isSome = true ↔
      returnType.isSome = true ∨ exceptions ≠ [] := by
  cases returnType <;> cases exceptions <;> simp [resultSpec]

theorem compiledAs_of_compile (ended : function.compile.outcome = .ok spec) :
    function.CompiledAs Eq spec := by
  rcases compile_eq_ok ended with ⟨args, exceptions, _, argsEnded, exceptionsEnded, rfl⟩
  have thrown := FieldGroup.fieldsAs_of_compile exceptionsEnded
  refine ⟨rfl, FieldGroup.fieldsAs_of_compile argsEnded, ?_, ?_, rfl⟩
  · rw [isSome_resultSpec, Ne, Ne, ← List.length_eq_zero_iff, Along.length_eq thrown,
      List.length_eq_zero_iff]
  · intro result made
    unfold resultSpec at made
    split at made
    · cases made
      refine ⟨?_, thrown⟩
      cases function.returnType with
      | none => exact Option.Rel.none
      | some type => exact Option.Rel.some rfl
    · cases made

/-- A oneway function gives nothing back. -/
theorem CompiledAs.result_eq_none (compiled : function.CompiledAs Eq spec)
    (valid : function.Valid) (oneway : spec.oneway = true) : spec.result = none := by
  have sends : function.oneway = true := compiled.oneway ▸ oneway
  have noReturn : function.returnType = none := valid .onewayReturn sends
  have noThrows : function.exceptions = [] := valid .onewayThrows sends
  have gives := compiled.gives.not
  simpa [noReturn, noThrows] using gives

end Function

/-! ## All functions -/

namespace ServiceDefinition

variable {done functions : List Function} {function : Function} {names : Namespace}
  {specs : List (FunctionSpec TypeExpression)} {error : CompileError}

theorem valid_nil : Valid [] := ⟨List.nodup_nil, by simp⟩

theorem tracks_nil : ({} : Namespace).declared = Function.names [] := rfl

theorem Valid.begins {first second : List Function} (valid : Valid (first ++ second)) :
    Valid first where
  names := by
    have distinct := valid.names
    rw [List.map_append] at distinct
    exact distinct.of_append_left
  each function member := valid.each function (List.mem_append_left second member)

/-- A function can follow others just when its name is new and it is valid. -/
theorem valid_append_singleton_iff :
    Valid (done ++ [function]) ↔
      Valid done ∧ function.name ∉ done.map (·.name) ∧ function.Valid := by
  constructor
  · intro valid
    have own := valid.each function (List.mem_append_right done List.mem_cons_self)
    exact ⟨valid.begins, (nodup_map_append_singleton.mp valid.names).2, own⟩
  · rintro ⟨valid, fresh, own⟩
    refine ⟨nodup_map_append_singleton.mpr ⟨valid.names, fresh⟩, fun other member => ?_⟩
    rcases List.mem_append.mp member with earlier | last
    · exact valid.each other earlier
    · rwa [List.mem_singleton.mp last]

/-- Functions that compile after valid ones are valid with them. -/
theorem valid_of_compileFunctions (tracks : names.declared = Function.names done)
    (valid : Valid done) (ended : (compileFunctions names functions).outcome = .ok specs) :
    Valid (done ++ functions) := by
  induction functions generalizing done names specs with
  | nil => rwa [List.append_nil]
  | cons function rest hypothesis =>
      simp only [compileFunctions, Compilation.outcome_bind_eq_ok, Compilation.outcome_pure,
        Compilation.outcome_ofExcept, Compilation.outcome_ownedBy_eq_ok, Except.ok.injEq] at ended
      rcases ended with ⟨claimed, taken, spec, first, others, restEnded, rfl⟩
      rcases Namespace.fresh_of_claim tracks taken with ⟨fresh, onward⟩
      rw [List.append_cons]
      exact hypothesis onward
        (valid_append_singleton_iff.mpr ⟨valid, fresh, Function.valid_of_compile first⟩) restEnded

/-- A function comes before the rest of its service, in the journal too. -/
theorem journal_compileFunctions {claimed : Namespace} {spec : FunctionSpec TypeExpression}
    (taken : names.claim function.name function.line = .ok claimed)
    (first : function.compile.outcome = .ok spec) (rest : List Function) :
    (compileFunctions names (function :: rest)).journal =
      function.warnings ++ (compileFunctions claimed rest).journal := by
  have owned : (function.compile.ownedBy function.name).outcome = .ok spec :=
    Compilation.outcome_ownedBy_eq_ok.mpr first
  rw [compileFunctions, Compilation.journal_bind_of_ok taken, Compilation.journal_bind_of_ok owned,
    Compilation.journal_bind_pure, ← Function.journal_of_compile first]
  rfl

/-- Functions that compile are warned about in order. -/
theorem journal_of_compileFunctions
    (ended : (compileFunctions names functions).outcome = .ok specs) :
    (compileFunctions names functions).journal = functions.flatMap Function.warnings := by
  induction functions generalizing names specs with
  | nil => rfl
  | cons function rest hypothesis =>
      simp only [compileFunctions, Compilation.outcome_bind_eq_ok, Compilation.outcome_pure,
        Compilation.outcome_ofExcept, Compilation.outcome_ownedBy_eq_ok, Except.ok.injEq] at ended
      rcases ended with ⟨claimed, taken, spec, first, others, restEnded, rfl⟩
      rw [journal_compileFunctions taken first, hypothesis restEnded, List.flatMap_cons]

/-- Functions that are refused after valid ones stop at one of them. -/
theorem stops_of_compileFunctions (tracks : names.declared = Function.names done)
    (valid : Valid done) (ended : (compileFunctions names functions).outcome = .error error) :
    Stops (done ++ functions) error
      (done.flatMap Function.warnings ++ (compileFunctions names functions).journal) := by
  induction functions generalizing done names with
  | nil => cases ended
  | cons function rest hypothesis =>
      simp only [compileFunctions, Compilation.outcome_bind_eq_error,
        Compilation.outcome_ofExcept, Compilation.outcome_ownedBy_eq_error,
        Compilation.outcome_ownedBy_eq_ok, Compilation.outcome_pure, reduceCtorEq, and_false,
        exists_false, or_false] at ended
      rcases ended with refused | ⟨claimed, taken, ⟨cause, refused, rfl⟩ | ⟨spec, first, refused⟩⟩
      · have redeclares := Namespace.redeclares_of_claim tracks refused
        have broken : ¬ Valid (done ++ [function]) := fun whole =>
          (valid_append_singleton_iff.mp whole).2.1 redeclares.mem
        refine ⟨done, function, ⟨⟨rest, rfl⟩, valid, broken⟩, Or.inl ⟨redeclares, ?_⟩⟩
        rw [compileFunctions, Compilation.journal_bind_of_error refused]
        exact List.append_nil _
      · have fresh := (Namespace.fresh_of_claim tracks taken).1
        have stops := Function.stops_of_compile refused
        have broken : ¬ Valid (done ++ [function]) := fun whole =>
          stops.refused.not_valid (valid_append_singleton_iff.mp whole).2.2
        have owned : (function.compile.ownedBy function.name).outcome =
            .error (.wrapped .compile function.name cause) :=
          Compilation.outcome_ownedBy_eq_error.mpr ⟨cause, refused, rfl⟩
        refine ⟨done, function, ⟨⟨rest, rfl⟩, valid, broken⟩,
          Or.inr ⟨fresh, _, ⟨cause, stops, rfl⟩, ?_⟩⟩
        rw [compileFunctions, Compilation.journal_bind_of_ok taken,
          Compilation.journal_bind_of_error owned]
        rfl
      · rcases Namespace.fresh_of_claim tracks taken with ⟨fresh, onward⟩
        have later := hypothesis onward
          (valid_append_singleton_iff.mpr ⟨valid, fresh, Function.valid_of_compile first⟩) refused
        rw [List.flatMap_append, List.flatMap_singleton] at later
        rwa [journal_compileFunctions taken first, ← List.append_assoc, List.append_cons]

variable {definition : ServiceDefinition} {spec : ServiceSpec}

theorem compile_eq_ok (ended : definition.compile.outcome = .ok spec) :
    (compileFunctions {} definition.functions).outcome = .ok spec.functions ∧
      spec.name = definition.name ∧ spec.parent = definition.parent := by
  simp only [compile, Compilation.outcome_bind_eq_ok, Compilation.outcome_pure,
    Except.ok.injEq] at ended
  rcases ended with ⟨functions, functionsEnded, rfl⟩
  exact ⟨functionsEnded, rfl, rfl⟩

theorem valid_of_compile (ended : definition.compile.outcome = .ok spec) :
    Valid definition.functions :=
  valid_of_compileFunctions tracks_nil valid_nil (compile_eq_ok ended).1

theorem stops_of_compile (ended : definition.compile.outcome = .error error) :
    Stops definition.functions error definition.compile.journal := by
  simp only [compile, Compilation.outcome_bind_eq_error, Compilation.outcome_pure, reduceCtorEq,
    and_false, exists_false, or_false] at ended
  rw [compile, Compilation.journal_bind_pure]
  exact stops_of_compileFunctions tracks_nil valid_nil ended

theorem Stops.refused {journal : Journal} (stops : Stops functions error journal) :
    Refused functions error := by
  rcases stops with
    ⟨before, function, breaks, ⟨redeclares, _⟩ | ⟨fresh, _, ⟨cause, stops, same⟩, _⟩⟩
  · exact ⟨before, function, breaks, Or.inl redeclares⟩
  · exact ⟨before, function, breaks, Or.inr ⟨fresh, cause, stops.refused, same⟩⟩

theorem refused_of_compile (ended : definition.compile.outcome = .error error) :
    Refused definition.functions error :=
  (stops_of_compile ended).refused

theorem journal_of_compile (ended : definition.compile.outcome = .ok spec) :
    definition.compile.journal = definition.functions.flatMap Function.warnings := by
  rw [compile, Compilation.journal_bind_pure]
  exact journal_of_compileFunctions (compile_eq_ok ended).1

theorem Refused.not_valid (refused : Refused functions error) : ¬ Valid functions := by
  rcases refused with ⟨before, function, breaks, _⟩
  exact breaks.not_valid fun _ _ => Valid.begins

theorem compiledAs_of_compile (ended : definition.compile.outcome = .ok spec) :
    definition.CompiledAs spec := by
  rcases compile_eq_ok ended with ⟨functionsEnded, name, parent⟩
  have each := forall₂_compileFunctions functionsEnded
  exact ⟨name, parent, each.imp fun _ _ => Function.compiledAs_of_compile⟩

theorem names_of_forall₂ (compiled :
    List.Forall₂ (fun function spec => function.compile.outcome = .ok spec) functions specs) :
    specs.map (·.name) = functions.map (·.name) := by
  induction compiled with
  | nil => rfl
  | cons first _ hypothesis =>
      rw [List.map_cons, List.map_cons, hypothesis, (Function.compile_keeps first).1]

end ServiceDefinition

/-! ## Objects of functions and services -/

theorem rel_of_forall₂_toList {α β : Type} {relation : α → β → Prop} {left : Option α}
    {right : Option β} (related : List.Forall₂ relation left.toList right.toList) :
    Option.Rel relation left right := by
  cases left with
  | none =>
      cases right with
      | none => exact Option.Rel.none
      | some => cases related
  | some value =>
      cases right with
      | none => cases related
      | some other =>
          rcases related with _ | ⟨here, _⟩
          exact Option.Rel.some here

theorem eq_of_rel {α : Type} {left right : Option α} (related : Option.Rel Eq left right) :
    left = right := by
  cases related with
  | some same => rw [same]
  | none => rfl

/-- A function that has the shape of another one, and types that stand for its
types, stands for it part by part. -/
theorem FunctionSpec.parts_of_shape {ρ σ : Type} {typed : ρ → σ → Prop} {spec : FunctionSpec ρ}
    {body : FunctionSpec σ}
    (shape : (Spec.function body).shape = (Spec.function spec).shape)
    (types : List.Forall₂ typed spec.slots body.slots) :
    body.name = spec.name ∧ body.oneway = spec.oneway ∧
      List.Forall₂ (FieldSpec.Retyped typed) spec.args body.args ∧
        Option.Rel (fun own held => Option.Rel typed own.returnType held.returnType ∧
          List.Forall₂ (FieldSpec.Retyped typed) own.exceptions held.exceptions)
          spec.result body.result := by
  rcases spec with ⟨name, args, result, oneway⟩
  rcases body with ⟨ownName, ownArgs, ownResult, ownOneway⟩
  simp only [Spec.shape, Spec.mapSlots, FunctionSpec.mapSlots, Spec.function.injEq,
    FunctionSpec.mk.injEq] at shape
  rcases shape with ⟨named, argsShape, resultShape, sends⟩
  have length : args.length = ownArgs.length := by
    simpa using (congrArg List.length argsShape).symm
  rcases forall₂_of_append (by simpa using length) types with ⟨argTypes, others⟩
  refine ⟨named, sends, FieldSpec.forall₂_retyped argsShape argTypes, ?_⟩
  cases result with
  | none =>
      cases ownResult with
      | none => exact Option.Rel.none
      | some => cases resultShape
  | some result =>
      cases ownResult with
      | none => cases resultShape
      | some own =>
          simp only [Option.map_some, Option.some.injEq, ResultSpec.mk.injEq] at resultShape
          rcases resultShape with ⟨returns, thrown⟩
          have sizes : own.returnType.toList.length = result.returnType.toList.length := by
            simpa only [Option.toList_map, List.length_map] using
              congrArg (fun made => made.toList.length) returns
          rw [sizes, ← length] at thrown
          rcases forall₂_of_append sizes.symm others with ⟨returnTypes, thrownTypes⟩
          exact Option.Rel.some ⟨rel_of_forall₂_toList returnTypes,
            FieldSpec.forall₂_retyped thrown thrownTypes⟩

/-- What is made of a function stands for what the function compiles to. -/
theorem Function.CompiledAs.retype {σ : Type} {stands : TypeExpression → σ → Prop}
    {function : Function} {spec : FunctionSpec TypeExpression} {body : FunctionSpec σ}
    (compiled : function.CompiledAs Eq spec)
    (shape : (Spec.function body).shape = (Spec.function spec).shape)
    (types : List.Forall₂ stands spec.slots body.slots) : function.CompiledAs stands body := by
  rcases FunctionSpec.parts_of_shape shape types with ⟨name, oneway, args, results⟩
  have same : ∀ type first second, type = first → stands first second → stands type second := by
    rintro type _ second rfl held
    exact held
  refine ⟨name.trans compiled.name, FieldGroup.FieldsAs.retype same compiled.args args, ?_, ?_,
    oneway.trans compiled.oneway⟩
  · rw [← compiled.gives]
    generalize spec.result = first at results
    generalize body.result = second at results
    cases results <;> rfl
  · intro own held
    rw [Option.mem_def.mp held] at results
    generalize result : spec.result = first at results
    cases results with
    | @some first second related =>
        rcases compiled.result first result with ⟨returned, thrown⟩
        rw [eq_of_rel returned]
        exact ⟨related.1, FieldGroup.FieldsAs.retype same thrown related.2⟩

namespace Graph

/-- An entry of a service is a function by its name: an object that holds what the
function compiles to. -/
def HoldsFunction (graph : Graph) (function : Function) (entry : String × Slot) : Prop :=
  entry.1 = function.name ∧ ∃ id body, entry.2 = .object id ∧
    graph.object? id = some (.function body) ∧ function.CompiledAs (graph.Stands Written) body

/-- An object holds what a service compiles to.  Its parent is not resolved. -/
def HoldsService (graph : Graph) (definition : ServiceDefinition) (id : ObjectId) : Prop :=
  ∃ entries, graph.object? id = some (.service definition.name
      (definition.parent.map fun parent => .unresolved parent.reference) entries) ∧
    List.Forall₂ graph.HoldsFunction definition.functions entries

variable {graph : Graph} {definition : ServiceDefinition} {id : ObjectId}

/-- An object that a function stands for holds what the function compiles to. -/
theorem StandsAt.holdsFunction {function : Function} {entry : String × Slot}
    (name : entry.1 = function.name)
    (stands : graph.StandsAt Written (.function function) entry.2) :
    graph.HoldsFunction function entry := by
  rcases entry with ⟨key, slot⟩
  cases stands with
  | @function _ compiled id body ended object shape stands =>
      refine ⟨name, id, body, rfl, object, ?_⟩
      have types := (Function.compile_keeps ended).2
      exact (Function.compiledAs_of_compile ended).retype shape (types ▸ stands)

/-- What stands for the parent of a service just made is its reference. -/
theorem parent_of_standsAt {declared : Option ServiceParent} {parent : Option Slot}
    (stands : List.Forall₂ (graph.StandsAt Written) (declared.toList.map .parent)
      parent.toList) : parent = declared.map fun own => .unresolved own.reference := by
  cases declared with
  | none =>
      cases parent with
      | none => rfl
      | some => cases stands
  | some own =>
      cases parent with
      | none => cases stands
      | some slot =>
          rcases stands with _ | ⟨first, _⟩
          cases first with
          | parent meant => exact congrArg some meant

theorem forall₂_holdsFunction {functions : List Function} {entries : List (String × Slot)}
    (names : entries.map (·.1) = functions.map (·.name))
    (stands : List.Forall₂ (graph.StandsAt Written) (functions.map .function)
      (entries.map (·.2))) : List.Forall₂ graph.HoldsFunction functions entries := by
  induction functions generalizing entries with
  | nil =>
      cases entries with
      | nil => exact List.Forall₂.nil
      | cons => cases names
  | cons function rest hypothesis =>
      cases entries with
      | nil => cases names
      | cons entry others =>
          rcases stands with _ | ⟨first, later⟩
          rcases List.cons.inj names with ⟨name, more⟩
          exact List.Forall₂.cons (first.holdsFunction name) (hypothesis more later)

/-- The object that a service declares holds what the service compiles to. -/
theorem Declares.holdsService (declares : graph.Declares Written (.service definition) id) :
    graph.HoldsService definition id := by
  rcases declares with ⟨compiled, spec, ended, object, shape, stands⟩
  cases Definition.compile_keeps ended with
  | @service _ functions each =>
      cases spec with
      | service name parent entries =>
          rw [Spec.shape_service, CompiledDefinition.shape, Spec.service.injEq] at shape
          rcases shape with ⟨rfl, parents, names⟩
          have sizes : definition.parent.toList.length = parent.toList.length := by
            simpa only [Option.toList_map, List.length_map] using
              congrArg (fun made => made.toList.length) parents.symm
          rcases forall₂_of_append (by simpa using sizes) stands with ⟨parentStands, functionsStand⟩
          have entryNames : entries.map (·.1) = functions.map (·.name) := by
            simpa [Function.comp_def] using congrArg (List.map Prod.fst) names
          rw [parent_of_standsAt parentStands] at object
          exact ⟨entries, object, forall₂_holdsFunction
            (entryNames.trans (ServiceDefinition.names_of_forall₂ each)) functionsStand⟩
      | _ => cases shape

end Graph

namespace ServiceDefinition

variable {definition : ServiceDefinition} {spec : ServiceSpec}

/-- The object made for a compiled service holds it. -/
theorem holdsService_of_compile (ended : definition.compile.outcome = .ok spec) (graph : Graph) :
    (spec.install graph).2.HoldsService definition (spec.install graph).1 := by
  have compiled : (Definition.service definition).compile.outcome = .ok (.service spec) := by
    simp only [Definition.compile, Compilation.outcome_bind_eq_ok, Compilation.outcome_pure,
      Except.ok.injEq]
    exact ⟨spec, ended, rfl⟩
  exact (CompiledDefinition.install_declares graph compiled).holdsService

/-- A service compiles just when its functions have distinct names and each is
valid.  Then its own functions are compiled in order, a oneway function gives
nothing back, and the objects made hold the functions and the parent as a
reference.  Otherwise it is refused at the first function with which it is not
valid. -/
theorem service_exact (definition : ServiceDefinition) :
    ((∃ spec, definition.compile.outcome = .ok spec) ↔ Valid definition.functions) ∧
    (∀ spec, definition.compile.outcome = .ok spec →
      definition.CompiledAs spec ∧
        (∀ function ∈ spec.functions, function.oneway = true → function.result = none) ∧
          ∀ graph, (spec.install graph).2.HoldsService definition (spec.install graph).1) ∧
    ∀ error, definition.compile.outcome = .error error →
      Refused definition.functions error := by
  refine ⟨⟨fun ⟨_, ended⟩ => valid_of_compile ended, ?_⟩, ?_, fun _ => refused_of_compile⟩
  · intro valid
    cases ended : definition.compile.outcome with
    | ok spec => exact ⟨spec, rfl⟩
    | error error => exact absurd valid (refused_of_compile ended).not_valid
  · intro spec ended
    have compiled := compiledAs_of_compile ended
    refine ⟨compiled, ?_, holdsService_of_compile ended⟩
    intro made member oneway
    rcases exists_left_of_forall₂ compiled.functions member with ⟨function, declared, own⟩
    exact own.result_eq_none ((valid_of_compile ended).each function declared) oneway

end ServiceDefinition

end IdlLinker
