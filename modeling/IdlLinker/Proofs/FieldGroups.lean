import IdlLinker.Proofs.Breaks
import IdlLinker.Proofs.Declared

/-!
# Field groups

A field group compiles just when it is valid.  Its fields keep what they say
and take their identifiers, which are all distinct, and every identifier that
was given out is warned about once.  A group that is not valid is refused at
the field with which it breaks, for the first check that fails there.
-/

namespace IdlLinker.FieldGroup

variable {rules : FieldRules} {done fields : List Field} {field : Field} {taken : Taken}
  {error : CompileError}

/-! ## Validity, field by field -/

theorem valid_nil (rules : FieldRules) : Valid rules [] :=
  ⟨List.nodup_nil, by simp, List.nodup_nil, by simp, by simp⟩

theorem Valid.begins {first second : List Field} (valid : Valid rules (first ++ second)) :
    Valid rules first where
  names := by
    have distinct := valid.names
    rw [List.map_append] at distinct
    exact distinct.of_append_left
  ids field member := valid.ids field (List.mem_append_left second member)
  distinct := by
    have distinct := valid.distinct
    rw [List.filterMap_append] at distinct
    exact distinct.of_append_left
  defaults refused field member := valid.defaults refused field (List.mem_append_left second member)
  required refused field member := valid.required refused field (List.mem_append_left second member)

/-- A field can follow others just when every check holds of it. -/
theorem valid_append_singleton_iff :
    Valid rules (done ++ [field]) ↔
      Valid rules done ∧ ∀ check, FieldCheck.Holds rules done field check := by
  constructor
  · intro valid
    have member : field ∈ done ++ [field] := List.mem_append_right done List.mem_cons_self
    refine ⟨valid.begins, fun check => ?_⟩
    cases check with
    | name => exact (nodup_map_append_singleton.mp valid.names).2
    | idRange => exact valid.ids field member
    | idTaken =>
        intro id own repeated
        have distinct := valid.distinct
        rw [List.filterMap_append, List.nodup_append] at distinct
        exact distinct.2.2 id repeated id (by simp [Option.mem_def.mp own]) rfl
    | default => exact fun refused => valid.defaults refused field member
    | requiredness => exact fun refused => valid.required refused field member
  · rintro ⟨valid, holds⟩
    have both {property : Field → Prop} (earlier : ∀ other ∈ done, property other)
        (own : property field) : ∀ other ∈ done ++ [field], property other :=
      List.forall_mem_append.mpr ⟨earlier, List.forall_mem_singleton.mpr own⟩
    refine {
      names := nodup_map_append_singleton.mpr ⟨valid.names, holds .name⟩
      ids := both valid.ids (holds .idRange)
      distinct := ?_
      defaults := fun refused => both (valid.defaults refused) (holds .default refused)
      required := fun refused => both (valid.required refused) (holds .requiredness refused) }
    rw [List.filterMap_append, List.nodup_append]
    refine ⟨valid.distinct, ?_, ?_⟩
    · cases given : field.id <;> simp [given]
    · rintro id earlier _ own rfl
      exact holds .idTaken id (by simpa using own) earlier

/-! ## One field -/

/-- What fields have taken, with the number of identifiers that were given
out. -/
structure Follows (done : List Field) (taken : Taken) : Prop extends Tracks done taken where
  implicit : taken.implicitCount = done.countP (·.id.isNone)

theorem follows_nil : Follows [] {} := ⟨tracks_nil, rfl⟩

/-- Looking up an identifier that was not given out looks among the explicit
ones of the fields. -/
theorem idLine?_eq_explicit (ids : List (Int × Number)) {id : Int} (positive : 0 < id) :
    (ids.find? fun claim => claim.1 == id).map (·.2) =
      ((explicitIds ids).find? fun entry => entry.1 == .ofInt id).map (·.2) := by
  induction ids with
  | nil => rfl
  | cons claim rest hypothesis =>
      by_cases same : claim.1 = id
      · simp [explicitIds, same, positive]
      · have others : (claim.1 == id) = false := beq_false_of_ne same
        have apart : (Number.ofInt claim.1 == .ofInt id) = false :=
          beq_false_of_ne fun equal => same (ofInt_injective equal)
        rw [List.find?_cons_of_neg (by simp [others]), hypothesis]
        unfold explicitIds
        rw [List.filterMap_cons]
        split
        · rfl
        · next entry kept =>
            split at kept <;> cases kept
            rw [List.find?_cons_of_neg (by simp [apart])]

namespace Follows

variable (follows : Follows done taken)

include follows

/-- An explicit identifier that was taken is that of a field before. -/
theorem exists_of_idLine? {id : Int} (positive : 0 < id) {line : Number}
    (found : taken.idLine? id = some line) :
    ∃ first ∈ done, first.id = some (.ofInt id) ∧ line = first.line := by
  rw [Taken.idLine?, idLine?_eq_explicit _ positive, follows.ids] at found
  rcases Option.map_eq_some_iff.mp found with ⟨⟨number, own⟩, here, rfl⟩
  have same : number = .ofInt id := by simpa using List.find?_some here
  rcases List.mem_filterMap.mp (List.mem_of_find?_eq_some here) with ⟨first, member, declares⟩
  rcases Option.map_eq_some_iff.mp declares with ⟨given, present, equal⟩
  cases equal
  exact ⟨first, member, by rw [present, same], rfl⟩

/-- An explicit identifier that was not taken is that of no field before. -/
theorem not_mem_of_idLine? {id : Int} (positive : 0 < id) (absent : taken.idLine? id = none) :
    Number.ofInt id ∉ done.filterMap (·.id) := by
  rw [Taken.idLine?, idLine?_eq_explicit _ positive, follows.ids, Option.map_eq_none_iff] at absent
  intro member
  rcases List.mem_filterMap.mp member with ⟨first, earlier, present⟩
  have declared : (Number.ofInt id, first.line) ∈ Field.ids done :=
    List.mem_filterMap.mpr ⟨first, earlier, by rw [present]; rfl⟩
  simpa using List.find?_eq_none.mp absent _ declared

theorem nextImplicit_eq : taken.nextImplicit = -(1 + (done.countP (·.id.isNone) : Int)) := by
  rw [Taken.nextImplicit, follows.implicit]
  omega

end Follows

/-- An explicit identifier is taken as it is when it is in range. -/
theorem explicitId_cases (field : Field) (number : Number) :
    (∃ id, explicitId field number = .ok id ∧ number = .ofInt id ∧ IsId number) ∨
      explicitId field number = .error (.invalidFieldId field.name number) ∧ ¬ IsId number := by
  unfold explicitId
  cases whole : number.toInt? with
  | none =>
      refine Or.inr ⟨rfl, ?_⟩
      rintro ⟨id, rfl, _⟩
      simp at whole
  | some id =>
      obtain rfl := Number.eq_ofInt_of_toInt? whole
      by_cases range : minId ≤ id ∧ id ≤ maxId
      · exact Or.inl ⟨id, if_pos range, rfl, id, rfl, range⟩
      · refine Or.inr ⟨if_neg range, ?_⟩
        rintro ⟨other, same, low, high⟩
        rw [ofInt_injective same] at range
        exact range ⟨low, high⟩

theorem holds_idRange_of_chooseId {id : Int} (chosen : (chooseId taken field).outcome = .ok id) :
    FieldCheck.Holds rules done field .idRange := by
  intro number own
  rw [chooseId, Option.mem_def.mp own, Compilation.outcome_ofExcept] at chosen
  rcases explicitId_cases field number with ⟨_, _, _, isId⟩ | ⟨refused, _⟩
  · exact isId
  · rw [refused] at chosen
    cases chosen

theorem reports_idRange_of_chooseId (rules : FieldRules) (done : List Field)
    (refused : (chooseId taken field).outcome = .error error) :
    ¬ FieldCheck.Holds rules done field .idRange ∧
      FieldCheck.Reports done field error .idRange := by
  unfold chooseId at refused
  split at refused
  · simp at refused
  · next number present =>
      rw [Compilation.outcome_ofExcept] at refused
      rcases explicitId_cases field number with ⟨_, accepted, _⟩ | ⟨reported, outside⟩
      · rw [accepted] at refused
        cases refused
      · rw [reported] at refused
        cases refused
        exact ⟨fun holds => outside (holds number present), number, present, rfl⟩

theorem holds_of_checkRules (accepted : checkRules rules field = .ok ()) :
    FieldCheck.Holds rules done field .default ∧
      FieldCheck.Holds rules done field .requiredness := by
  unfold checkRules at accepted
  split at accepted
  · cases accepted
  · next allowed =>
      split at accepted
      · cases accepted
      · next open' =>
          constructor
          · intro refused
            simpa [refused] using allowed
          · intro refused
            simpa [refused] using open'

theorem reports_of_checkRules (done : List Field)
    (refused : checkRules rules field = .error error) :
    ¬ FieldCheck.Holds rules done field .default ∧ FieldCheck.Reports done field error .default ∨
      FieldCheck.Holds rules done field .default ∧
        ¬ FieldCheck.Holds rules done field .requiredness ∧
          FieldCheck.Reports done field error .requiredness := by
  unfold checkRules at refused
  split at refused
  · next broken =>
      cases refused
      simp only [Bool.and_eq_true, Bool.not_eq_true', Option.isSome_iff_ne_none] at broken
      exact Or.inl ⟨fun holds => broken.2 (holds broken.1), rfl⟩
  · next allowed =>
      split at refused
      · next broken =>
          cases refused
          simp only [Bool.and_eq_true, Bool.not_eq_true', beq_iff_eq] at broken
          refine Or.inr ⟨fun closed => ?_, fun holds => holds broken.1 broken.2, rfl⟩
          simpa [closed] using allowed
      · cases refused

namespace Follows

variable (follows : Follows done taken) {id : Int}

include follows

/-- The identifier that a field takes is the one it has after others. -/
theorem hasId (chosen : (chooseId taken field).outcome = .ok id) :
    HasId done field id := by
  unfold HasId
  rcases chooseId_eq_ok chosen with ⟨absent, rfl⟩ | ⟨present, _⟩
  · rw [absent]
    exact follows.nextImplicit_eq
  · rw [present]

theorem holds_idTaken {ids : List (Int × Number)}
    (chosen : (chooseId taken field).outcome = .ok id)
    (claimed : claimId taken field id = .ok ids) :
    FieldCheck.Holds rules done field .idTaken := by
  intro number own
  rcases chooseId_eq_ok chosen with ⟨absent, _⟩ | ⟨present, positive⟩
  · rw [absent] at own
    cases own
  · cases present.symm.trans own
    apply follows.not_mem_of_idLine? positive
    unfold claimId at claimed
    split at claimed
    · cases claimed
    · assumption

theorem reports_idTaken (rules : FieldRules) (chosen : (chooseId taken field).outcome = .ok id)
    (refused : claimId taken field id = .error error) :
    ¬ FieldCheck.Holds rules done field .idTaken ∧
      FieldCheck.Reports done field error .idTaken := by
  unfold claimId at refused
  split at refused
  · next line found =>
      cases refused
      rcases chooseId_eq_ok chosen with ⟨_, rfl⟩ | ⟨present, positive⟩
      · rw [follows.idLine?_nextImplicit] at found
        cases found
      · rcases follows.exists_of_idLine? positive found with ⟨first, member, own, rfl⟩
        refine ⟨fun holds => ?_, _, present, first, member, own, rfl⟩
        exact holds _ present (List.mem_filterMap.mpr ⟨first, member, own⟩)
  · cases refused

end Follows

/-! ## Warnings -/

theorem journal_chooseId (taken : Taken) (field : Field) :
    (chooseId taken field).journal =
      if field.id.isNone then [implicitIdWarning field taken.nextImplicit] else [] := by
  unfold chooseId
  cases field.id <;> rfl

/-- An identifier that is refused is a written one, and there is no warning
about it. -/
theorem journal_chooseId_of_error (refused : (chooseId taken field).outcome = .error error) :
    (chooseId taken field).journal = [] := by
  rw [journal_chooseId]
  cases own : field.id with
  | some number => rfl
  | none => simp [chooseId, own] at refused

/-- Compiling a field warns when it gives out an identifier. -/
theorem journal_compileField {made : FieldSpec TypeExpression × Taken}
    (ended : (compileField rules taken field).outcome = .ok made) :
    (compileField rules taken field).journal =
      if field.id.isNone then [implicitIdWarning field taken.nextImplicit] else [] := by
  rcases compileField_eq_ok ended with ⟨_, _, _, named, chosen, taking, checked, _⟩
  rw [compileField, Compilation.journal_bind_of_ok named, Compilation.journal_bind_of_ok chosen,
    Compilation.journal_bind_of_ok taking, Compilation.journal_bind_of_ok checked,
    ← journal_chooseId]
  exact List.append_nil _

/-- The warnings about further fields go on from the numbers of those before. -/
theorem warnings_append (done fields : List Field) :
    warnings (done ++ fields) =
      warnings done ++ (fields.filter (·.id.isNone)).mapIdx fun count field =>
        implicitIdWarning field (-(1 + ((done.countP (·.id.isNone) + count : Nat) : Int))) := by
  rw [warnings, List.filter_append, List.mapIdx_append, warnings, List.countP_eq_length_filter]
  simp only [Nat.add_comm]

/-- Choosing an identifier for a field warns about it. -/
theorem Follows.warnings_chooseId (follows : Follows done taken) (field : Field) :
    warnings done ++ (chooseId taken field).journal = warnings (done ++ [field]) := by
  rw [warnings_append, journal_chooseId, follows.nextImplicit_eq]
  cases own : field.id <;> simp [own]

/-! ## What a field has to keep -/

namespace Follows

variable (follows : Follows done taken)

include follows

theorem onward {made : FieldSpec TypeExpression × Taken}
    (ended : (FieldGroup.compileField rules taken field).outcome = .ok made) :
    Follows (done ++ [field]) made.2 := by
  refine ⟨follows.toTracks.compileField ended, ?_⟩
  rcases compileField_eq_ok ended with ⟨_, _, _, _, _, _, _, rfl⟩
  rw [List.countP_append, ← follows.implicit]
  simp [List.countP_cons]

/-- A field that compiles passes every check. -/
theorem holds {made : FieldSpec TypeExpression × Taken}
    (ended : (FieldGroup.compileField rules taken field).outcome = .ok made)
    (check : FieldCheck) : check.Holds rules done field := by
  rcases compileField_eq_ok ended with ⟨_, _, _, named, chosen, taking, checked, _⟩
  cases check with
  | name => exact (Namespace.fresh_of_claim follows.names named).1
  | idRange => exact holds_idRange_of_chooseId chosen
  | idTaken => exact follows.holds_idTaken chosen taking
  | default => exact (holds_of_checkRules checked).1
  | requiredness => exact (holds_of_checkRules checked).2

theorem fieldAs {made : FieldSpec TypeExpression × Taken}
    (ended : (FieldGroup.compileField rules taken field).outcome = .ok made) :
    FieldAs Eq done field made.1 := by
  rcases compileField_eq_ok ended with ⟨_, _, _, _, chosen, _, _, rfl⟩
  exact ⟨follows.hasId chosen, rfl, rfl, beq_iff_eq, rfl⟩

/-- A field that is refused fails a check, passes those before it, and is warned
about if it was numbered by then. -/
theorem failing
    (ended : (FieldGroup.compileField rules taken field).outcome = .error error) :
    ∃ check, FirstFailing (FieldCheck.Holds rules done field) FieldCheck.order check ∧
      check.Reports done field error ∧
        warnings done ++ (FieldGroup.compileField rules taken field).journal =
          warnings (check.numbered done field) := by
  have numbered := follows.warnings_chooseId field
  rcases compileField_eq_error ended with refused | ⟨claimed, named, refused | ⟨id, chosen,
    refused | ⟨ids, taking, refused⟩⟩⟩
  · have reports := Namespace.redeclares_of_claim follows.names refused
    refine ⟨.name, ⟨⟨[], _, rfl, nofun⟩, fun holds => holds reports.mem⟩, reports, ?_⟩
    rw [FieldGroup.compileField, Compilation.journal_bind_of_error refused]
    exact List.append_nil _
  · have fresh := (Namespace.fresh_of_claim follows.names named).1
    rcases reports_idRange_of_chooseId rules done refused with ⟨fails, reports⟩
    refine ⟨.idRange, ⟨⟨[.name], _, rfl, List.forall_mem_singleton.mpr fresh⟩, fails⟩, reports, ?_⟩
    rw [FieldGroup.compileField, Compilation.journal_bind_of_ok named,
      Compilation.journal_bind_of_error refused, journal_chooseId_of_error refused]
    exact List.append_nil _
  · have fresh := (Namespace.fresh_of_claim follows.names named).1
    have inRange : FieldCheck.Holds rules done field .idRange := holds_idRange_of_chooseId chosen
    rcases follows.reports_idTaken rules chosen refused with ⟨fails, reports⟩
    refine ⟨.idTaken, ⟨⟨[.name, .idRange], _, rfl, ?_⟩, fails⟩, reports, ?_⟩
    · simpa using ⟨fresh, inRange⟩
    · rw [FieldGroup.compileField, Compilation.journal_bind_of_ok named,
        Compilation.journal_bind_of_ok chosen, Compilation.journal_bind_of_error refused]
      simpa [FieldCheck.numbered] using numbered
  · have fresh := (Namespace.fresh_of_claim follows.names named).1
    have inRange : FieldCheck.Holds rules done field .idRange := holds_idRange_of_chooseId chosen
    have free : FieldCheck.Holds rules done field .idTaken := follows.holds_idTaken chosen taking
    have written : warnings done ++ (FieldGroup.compileField rules taken field).journal =
        warnings (done ++ [field]) := by
      rw [FieldGroup.compileField, Compilation.journal_bind_of_ok named,
        Compilation.journal_bind_of_ok chosen, Compilation.journal_bind_of_ok taking,
        Compilation.journal_bind_of_error refused]
      simpa using numbered
    rcases reports_of_checkRules done refused with
      ⟨fails, reports⟩ | ⟨noDefault, fails, reports⟩
    · refine ⟨.default, ⟨⟨[.name, .idRange, .idTaken], _, rfl, ?_⟩, fails⟩, reports, written⟩
      simpa using ⟨fresh, inRange, free⟩
    · refine ⟨.requiredness, ⟨⟨[.name, .idRange, .idTaken, .default], _, rfl, ?_⟩, fails⟩, reports,
        written⟩
      simpa using ⟨fresh, inRange, free, noDefault⟩

end Follows

/-! ## All fields -/

theorem compileAfter_eq_ok {specs : List (FieldSpec TypeExpression)}
    (ended : (compileAfter rules taken (field :: fields)).outcome = .ok specs) :
    ∃ made others, (compileField rules taken field).outcome = .ok made ∧
      (compileAfter rules made.2 fields).outcome = .ok others ∧ specs = made.1 :: others := by
  simp only [compileAfter, Compilation.outcome_bind_eq_ok, Compilation.outcome_pure,
    Except.ok.injEq] at ended
  rcases ended with ⟨made, first, others, rest, rfl⟩
  exact ⟨made, others, first, rest, rfl⟩

/-- Fields that compile after valid ones are valid with them. -/
theorem Follows.valid {specs : List (FieldSpec TypeExpression)} (follows : Follows done taken)
    (valid : Valid rules done) (ended : (compileAfter rules taken fields).outcome = .ok specs) :
    Valid rules (done ++ fields) := by
  induction fields generalizing done taken specs with
  | nil => rwa [List.append_nil]
  | cons field rest hypothesis =>
      rcases compileAfter_eq_ok ended with ⟨made, others, first, restEnded, _⟩
      rw [List.append_cons]
      exact hypothesis (follows.onward first)
        (valid_append_singleton_iff.mpr ⟨valid, follows.holds first⟩) restEnded

theorem Follows.along {specs : List (FieldSpec TypeExpression)} (follows : Follows done taken)
    (ended : (compileAfter rules taken fields).outcome = .ok specs) :
    Along (FieldAs Eq) done fields specs := by
  induction fields generalizing done taken specs with
  | nil =>
      cases ended
      exact Along.nil
  | cons field rest hypothesis =>
      rcases compileAfter_eq_ok ended with ⟨made, others, first, restEnded, rfl⟩
      exact Along.cons (follows.fieldAs first) (hypothesis (follows.onward first) restEnded)

/-- A field comes before the rest of its group, in the journal too. -/
theorem journal_compileAfter {made : FieldSpec TypeExpression × Taken}
    (first : (compileField rules taken field).outcome = .ok made) (rest : List Field) :
    (compileAfter rules taken (field :: rest)).journal =
      (compileField rules taken field).journal ++ (compileAfter rules made.2 rest).journal := by
  rw [compileAfter, Compilation.journal_bind_of_ok first, Compilation.journal_bind_pure]

/-- Fields that are refused after valid ones stop at one of them. -/
theorem Follows.stops (follows : Follows done taken) (valid : Valid rules done)
    (ended : (compileAfter rules taken fields).outcome = .error error) :
    Stops rules (done ++ fields) error
      (warnings done ++ (compileAfter rules taken fields).journal) := by
  induction fields generalizing done taken with
  | nil => cases ended
  | cons field rest hypothesis =>
      simp only [compileAfter, Compilation.outcome_bind_eq_error, Compilation.outcome_pure,
        reduceCtorEq, and_false, exists_false, or_false] at ended
      rcases ended with refused | ⟨made, first, refused⟩
      · rcases follows.failing refused with ⟨check, failing, reports, written⟩
        have broken : ¬ Valid rules (done ++ [field]) := fun whole =>
          failing.fails ((valid_append_singleton_iff.mp whole).2 check)
        rw [compileAfter, Compilation.journal_bind_of_error refused]
        exact ⟨done, field, check, ⟨⟨rest, rfl⟩, valid, broken⟩, failing, reports, written⟩
      · have later := hypothesis (follows.onward first)
          (valid_append_singleton_iff.mpr ⟨valid, follows.holds first⟩) refused
        rw [journal_compileAfter first, journal_compileField first, ← journal_chooseId,
          ← List.append_assoc, follows.warnings_chooseId, List.append_cons]
        exact later

theorem not_mem_of_claimId {id : Int} {ids : List (Int × Number)}
    (claimed : claimId taken field id = .ok ids) : id ∉ taken.ids.map (·.1) := by
  unfold claimId at claimed
  split at claimed
  · cases claimed
  · next absent =>
      rw [Taken.idLine?, Option.map_eq_none_iff, List.find?_eq_none] at absent
      intro member
      rcases List.mem_map.mp member with ⟨entry, earlier, same⟩
      exact absent entry earlier (beq_iff_eq.mpr same)

/-- No identifier is taken twice, whether it is written or given out. -/
theorem nodup_ids {specs : List (FieldSpec TypeExpression)}
    (distinct : (taken.ids.map (·.1)).Nodup)
    (ended : (compileAfter rules taken fields).outcome = .ok specs) :
    (taken.ids.map (·.1) ++ specs.map (·.id)).Nodup := by
  induction fields generalizing taken specs with
  | nil =>
      cases ended
      simpa using distinct
  | cons field rest hypothesis =>
      rcases compileAfter_eq_ok ended with ⟨made, others, first, restEnded, rfl⟩
      rcases compileField_eq_ok first with ⟨_, id, ids, _, _, taking, _, rfl⟩
      have onward : ids.map (·.1) = taken.ids.map (·.1) ++ [id] := by
        rw [claimId_eq_ok taking]
        simp
      have fresh := not_mem_of_claimId taking
      have later := hypothesis (by
        rw [onward, List.nodup_append]
        refine ⟨distinct, List.nodup_singleton _, ?_⟩
        rintro _ earlier _ own rfl
        exact fresh (List.mem_singleton.mp own ▸ earlier)) restEnded
      rwa [onward, List.append_assoc, List.singleton_append] at later

/-- Fields that compile after others are warned about in order; the numbers go
on from those of the others. -/
theorem Follows.journal {specs : List (FieldSpec TypeExpression)} (follows : Follows done taken)
    (ended : (compileAfter rules taken fields).outcome = .ok specs) :
    (compileAfter rules taken fields).journal =
      (fields.filter (·.id.isNone)).mapIdx fun count field =>
        implicitIdWarning field (-(1 + ((done.countP (·.id.isNone) + count : Nat) : Int))) := by
  induction fields generalizing done taken specs with
  | nil => rfl
  | cons field rest hypothesis =>
      rcases compileAfter_eq_ok ended with ⟨made, others, first, restEnded, rfl⟩
      have later := hypothesis (follows.onward first) restEnded
      rw [journal_compileAfter first, later, journal_compileField first,
        follows.nextImplicit_eq, List.countP_append]
      by_cases implicit : field.id.isNone = true
      · rw [if_pos implicit, List.filter_cons, if_pos implicit, List.mapIdx_cons]
        simp [implicit, Nat.add_assoc, Nat.add_comm 1]
      · rw [if_neg implicit, List.filter_cons, if_neg implicit]
        simp [implicit]

end IdlLinker.FieldGroup

namespace IdlLinker

/-! ## Objects of fields -/

namespace FieldSpec

variable {ρ σ : Type}

/-- A field is another one with a type that stands for its own. -/
def Retyped (typed : ρ → σ → Prop) (spec : FieldSpec ρ) (held : FieldSpec σ) : Prop :=
  held = spec.withType held.type ∧ typed spec.type held.type

theorem forall₂_retyped {typed : ρ → σ → Prop} {position : Nat} {specs : List (FieldSpec ρ)}
    {held : List (FieldSpec σ)}
    (shape : mapTypes (fun _ _ => ()) position held = mapTypes (fun _ _ => ()) position specs)
    (types : List.Forall₂ typed (specs.map (·.type)) (held.map (·.type))) :
    List.Forall₂ (Retyped typed) specs held := by
  induction specs generalizing position held with
  | nil =>
      cases held with
      | nil => exact List.Forall₂.nil
      | cons => cases shape
  | cons spec others hypothesis =>
      cases held with
      | nil => cases shape
      | cons own rest =>
          simp only [mapTypes, List.cons.injEq, withType, FieldSpec.mk.injEq] at shape
          rcases types with _ | ⟨first, later⟩
          rcases shape with ⟨⟨id, name, _, required, default⟩, same⟩
          refine List.Forall₂.cons ⟨?_, first⟩ (hypothesis same later)
          rcases own with ⟨_, _, _, _, _⟩
          cases id
          cases name
          cases required
          cases default
          rfl

end FieldSpec

namespace FieldGroup

theorem FieldsAs.retype {ρ σ : Type} {typed : TypeExpression → ρ → Prop}
    {stands : TypeExpression → σ → Prop} {change : ρ → σ → Prop} {fields : List Field}
    {specs : List (FieldSpec ρ)} {held : List (FieldSpec σ)}
    (compose : ∀ type first second, typed type first → change first second → stands type second)
    (compiled : FieldsAs typed fields specs)
    (retyped : List.Forall₂ (FieldSpec.Retyped change) specs held) :
    FieldsAs stands fields held := by
  refine Along.change compiled ?_ retyped
  rintro before field first second fieldAs ⟨same, changed⟩
  have typedAs := compose _ _ _ fieldAs.type changed
  rw [same]
  exact ⟨fieldAs.id, fieldAs.name, typedAs, fieldAs.required, fieldAs.default⟩

end FieldGroup

/-- An object holds what the fields of a group compile to. -/
def Graph.HoldsFields (graph : Graph) (fields : List Field) (id : ObjectId) : Prop :=
  ∃ held, graph.object? id = some (.fieldGroup held) ∧
    FieldGroup.FieldsAs (graph.Stands Written) fields held

namespace FieldGroup

variable {rules : FieldRules} {fields : List Field} {specs : List (FieldSpec TypeExpression)}
  {error : CompileError}

theorem valid_of_compile (ended : (compile fields rules).outcome = .ok specs) :
    Valid rules fields :=
  follows_nil.valid (valid_nil rules) ended

theorem fieldsAs_of_compile (ended : (compile fields rules).outcome = .ok specs) :
    FieldsAs Eq fields specs :=
  follows_nil.along ended

theorem stops_of_compile (ended : (compile fields rules).outcome = .error error) :
    Stops rules fields error (compile fields rules).journal :=
  follows_nil.stops (valid_nil rules) ended

/-- A group that stops is refused. -/
theorem Stops.refused {journal : Journal} (stops : Stops rules fields error journal) :
    Refused rules fields error := by
  rcases stops with ⟨before, field, check, breaks, failing, reports, _⟩
  exact ⟨before, field, check, breaks, failing, reports⟩

theorem refused_of_compile (ended : (compile fields rules).outcome = .error error) :
    Refused rules fields error :=
  (stops_of_compile ended).refused

theorem journal_of_compile (ended : (compile fields rules).outcome = .ok specs) :
    (compile fields rules).journal = warnings fields := by
  rw [compile, follows_nil.journal ended, warnings]
  simp

theorem Refused.not_valid (refused : Refused rules fields error) : ¬ Valid rules fields := by
  rcases refused with ⟨before, field, check, breaks, _⟩
  exact breaks.not_valid fun _ _ => Valid.begins

/-- The object made for compiled fields holds them. -/
theorem FieldsAs.holdsFields (compiled : FieldsAs Eq fields specs) (graph : Graph) :
    (install specs graph).2.HoldsFields fields (install specs graph).1 := by
  refine ⟨(FieldSpec.installAll specs graph).1, Graph.object?_add_self _ _, ?_⟩
  have stands := Graph.Stands.kept_all (FieldSpec.installAll_stands graph specs)
    (Graph.object?_add _ (.fieldGroup (FieldSpec.installAll specs graph).1))
  apply compiled.retype
  · rintro type _ slot rfl stands
    exact stands
  · exact FieldSpec.forall₂_retyped (FieldSpec.installAll_shape graph specs 0) stands

end FieldGroup

end IdlLinker
