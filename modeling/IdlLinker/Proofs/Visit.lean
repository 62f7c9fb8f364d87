import IdlLinker.Graph.Link
import IdlLinker.Proofs.Slots

/-!
# Visits

A visit is one depth-first walk of the linker, told without a depth and without
taking marks back: an object is entered, its positions are settled in order,
and the walk stops at the first reference that does not resolve.  The marks of
a visit only grow, shapes stay as they are, and a position changes only from a
reference to an object.
-/

namespace IdlLinker

namespace Graph

/-- Where a position leads in a scope. -/
def leadsTo (graph : Graph) (scope : Scope) (id : ObjectId) (position : Nat) :
    Except CompileError (Option (ObjectId × Scope)) :=
  match graph.slot? id position with
  | none => .ok none
  | some slot => target scope slot

end Graph

/-- What is left to do: enter an object, or settle positions of one. -/
inductive Task
  | enter (id : ObjectId)
  | settle (id : ObjectId) (owner : Nat → Option String) (positions : List Nat)

/-- The object that a task is about. -/
def Task.subject : Task → ObjectId
  | enter id => id
  | settle id _ _ => id

/-- The object whose positions a task replaces by itself. -/
def Task.holder? : Task → Option ObjectId
  | enter _ => none
  | settle id _ _ => some id

/-- A walk in a scope takes a graph to another and ends well or with an
error. -/
inductive Visit :
    Scope → Task → Graph → Graph → Except CompileError Unit → Prop where
  | rest {scope : Scope} {id : ObjectId} {graph : Graph}
      (marked : id ∈ graph.linked ∨ graph.object? id = none) :
      Visit scope (.enter id) graph graph (.ok ())
  | body {scope : Scope} {id : ObjectId} {graph after : Graph}
      {outcome : Except CompileError Unit} {spec : Spec Slot}
      (unmarked : id ∉ graph.linked)
      (object : graph.object? id = some spec)
      (settled : Visit scope (.settle id spec.ownerAt (List.range spec.slots.length))
        (graph.mark id) after outcome) :
      Visit scope (.enter id) graph after outcome
  | done {scope : Scope} {id : ObjectId} {owner : Nat → Option String} {graph : Graph} :
      Visit scope (.settle id owner []) graph graph (.ok ())
  | skip {scope : Scope} {id : ObjectId} {owner : Nat → Option String} {graph after : Graph}
      {position : Nat} {others : List Nat} {outcome : Except CompileError Unit}
      (nowhere : graph.leadsTo scope id position = .ok none)
      (settled : Visit scope (.settle id owner others) graph after outcome) :
      Visit scope (.settle id owner (position :: others)) graph after outcome
  | follow {scope home : Scope} {id next : ObjectId} {owner : Nat → Option String}
      {graph between after : Graph} {position : Nat} {others : List Nat}
      {outcome : Except CompileError Unit}
      (leads : graph.leadsTo scope id position = .ok (some (next, home)))
      (entered : Visit home (.enter next) graph between (.ok ()))
      (settled : Visit scope (.settle id owner others)
        (between.setSlot id position (.object next)) after outcome) :
      Visit scope (.settle id owner (position :: others)) graph after outcome
  | stuck {scope : Scope} {id : ObjectId} {owner : Nat → Option String} {graph : Graph}
      {position : Nat} {others : List Nat} {error : CompileError}
      (unresolved : graph.leadsTo scope id position = .error error) :
      Visit scope (.settle id owner (position :: others)) graph graph
        (.error (Graph.ownError (owner position) error))
  | fail {scope home : Scope} {id next : ObjectId} {owner : Nat → Option String}
      {graph after : Graph} {position : Nat} {others : List Nat} {error : CompileError}
      (leads : graph.leadsTo scope id position = .ok (some (next, home)))
      (entered : Visit home (.enter next) graph after (.error error)) :
      Visit scope (.settle id owner (position :: others)) graph after
        (.error (Graph.ownError (owner position) error))

/-- A slot stays, or a reference becomes an object. -/
def Advances (before after : Option Slot) : Prop :=
  after = before ∨
    ∃ reference next, before = some (.unresolved reference) ∧ after = some (.object next)

namespace Advances

theorem refl (slot : Option Slot) : Advances slot slot := Or.inl rfl

theorem trans {first second third : Option Slot}
    (left : Advances first second) (right : Advances second third) :
    Advances first third := by
  rcases left with same | ⟨reference, next, held, replaced⟩
  · rwa [same] at right
  · rcases right with same | ⟨other, _, impossible, _⟩
    · exact Or.inr ⟨reference, next, held, same.trans replaced⟩
    · rw [replaced] at impossible
      cases impossible

/-- What is not a reference stays. -/
theorem eq_of_object {next : ObjectId} {after : Option Slot}
    (advances : Advances (some (.object next)) after) : after = some (.object next) := by
  rcases advances with same | ⟨_, _, impossible, _⟩
  · exact same
  · cases impossible

theorem eq_of_primitive {type : BaseType} {after : Option Slot}
    (advances : Advances (some (.primitive type)) after) : after = some (.primitive type) := by
  rcases advances with same | ⟨_, _, impossible, _⟩
  · exact same
  · cases impossible

end Advances

namespace Graph

/-- Settling a position, told by where the position leads. -/
theorem settlePosition_eq (enter : Enter) (scope : Scope) (id : ObjectId)
    (owner : Option String) (position : Nat) (graph : Graph) :
    settlePosition enter scope id owner position graph =
      match graph.leadsTo scope id position with
      | .error error => ⟨graph, .error (ownError owner error), []⟩
      | .ok none => ⟨graph, .ok (), []⟩
      | .ok (some (next, home)) =>
        let entered := enter home next graph
        match entered.outcome with
        | .ok _ => ⟨entered.graph.setSlot id position (.object next), .ok (), entered.bodies⟩
        | .error error => ⟨entered.graph, .error (ownError owner error), entered.bodies⟩ := by
  unfold settlePosition leadsTo
  cases held : graph.slot? id position with
  | none => rfl
  | some slot =>
      cases leads : target scope slot with
      | error error => simp [settleSlot, leads]
      | ok found =>
          cases found with
          | none => simp [settleSlot, leads, graph.setSlot_eq_self held]
          | some found =>
              cases ended : (enter found.2 found.1 graph).outcome <;>
                simp [settleSlot, leads, ended, Except.map]

/-- What a position holds when it leads nowhere. -/
theorem slot?_of_leadsTo_none {graph : Graph} {scope : Scope} {id : ObjectId} {position : Nat}
    (nowhere : graph.leadsTo scope id position = .ok none) :
    graph.slot? id position = none ∨
      ∃ type, graph.slot? id position = some (.primitive type) := by
  unfold leadsTo at nowhere
  cases held : graph.slot? id position with
  | none => exact Or.inl rfl
  | some slot =>
      cases slot with
      | primitive type => exact Or.inr ⟨type, rfl⟩
      | unresolved reference =>
          simp only [held, target] at nowhere
          split at nowhere <;> cases nowhere
      | object next =>
          simp [held, target] at nowhere

/-- What a position holds when it leads to an object: the object itself, which
is linked in the current scope, or a reference that resolves to it. -/
theorem slot?_of_leadsTo_some {graph : Graph} {scope home : Scope} {id next : ObjectId}
    {position : Nat} (leads : graph.leadsTo scope id position = .ok (some (next, home))) :
    (graph.slot? id position = some (.object next) ∧ home = scope) ∨
      ∃ reference, graph.slot? id position = some (.unresolved reference) ∧
        scope.resolve reference.kind reference.name = some (next, home) := by
  unfold leadsTo at leads
  cases held : graph.slot? id position with
  | none => simp [held] at leads
  | some slot =>
      cases slot with
      | primitive type => simp [held, target] at leads
      | unresolved reference =>
          simp only [held, target] at leads
          split at leads
          · next found resolved =>
              right
              refine ⟨reference, rfl, ?_⟩
              simpa [resolved] using leads
          · cases leads
      | object other =>
          left
          simp only [held, target, Except.ok.injEq, Option.some.injEq, Prod.mk.injEq] at leads
          exact ⟨by rw [leads.1], leads.2.symm⟩

/-- What a position holds when it leads to an error: a reference that does not
resolve. -/
theorem slot?_of_leadsTo_error {graph : Graph} {scope : Scope} {id : ObjectId} {position : Nat}
    {error : CompileError} (unresolved : graph.leadsTo scope id position = .error error) :
    ∃ reference, graph.slot? id position = some (.unresolved reference) ∧
      scope.resolve reference.kind reference.name = none ∧
        error = .unresolvedReference reference.name reference.line := by
  unfold leadsTo at unresolved
  cases held : graph.slot? id position with
  | none => simp [held] at unresolved
  | some slot =>
      cases slot with
      | primitive type => simp [held, target] at unresolved
      | object next => simp [held, target] at unresolved
      | unresolved reference =>
          simp only [held, target] at unresolved
          split at unresolved
          · cases unresolved
          · next missing =>
              refine ⟨reference, rfl, missing, ?_⟩
              simpa using unresolved.symm

/-- A position that led to an object holds it once it is stored there, also
when the position has advanced in between. -/
theorem slot?_setSlot_of_leadsTo {graph between : Graph} {scope home : Scope}
    {id next : ObjectId} {position : Nat}
    (leads : graph.leadsTo scope id position = .ok (some (next, home)))
    (advanced : Advances (graph.slot? id position) (between.slot? id position)) :
    (between.setSlot id position (.object next)).slot? id position = some (.object next) := by
  rcases slot?_of_leadsTo_some leads with ⟨held, _⟩ | ⟨reference, held, _⟩
  · rw [held] at advanced
    exact between.slot?_setSlot_self advanced.eq_of_object _
  · rcases advanced with same | ⟨_, other, _, replaced⟩
    · exact between.slot?_setSlot_self (same.trans held) _
    · exact between.slot?_setSlot_self replaced _

/-- Storing the object that a position led to advances the slots of a graph. -/
theorem advances_setSlot {graph between : Graph} {scope home : Scope} {id next : ObjectId}
    {position : Nat} (leads : graph.leadsTo scope id position = .ok (some (next, home)))
    (entered : ∀ other index, Advances (graph.slot? other index) (between.slot? other index))
    (other : ObjectId) (index : Nat) :
    Advances (graph.slot? other index)
      ((between.setSlot id position (.object next)).slot? other index) := by
  by_cases here : other = id ∧ index = position
  · rcases here with ⟨rfl, rfl⟩
    have stored := slot?_setSlot_of_leadsTo leads (entered other index)
    rcases slot?_of_leadsTo_some leads with ⟨held, _⟩ | ⟨reference, held, _⟩
    · exact Or.inl (stored.trans held.symm)
    · exact Or.inr ⟨reference, next, held, stored⟩
  · rw [between.slot?_setSlot_of_ne here]
    exact entered other index

end Graph

namespace Visit

variable {scope : Scope} {task : Task} {before after : Graph}
  {outcome : Except CompileError Unit}

/-- What is pending plays no part in a visit. -/
theorem withPending (visit : Visit scope task before after outcome)
    (pending : Option (List ObjectId)) :
    Visit scope task { before with pending } { after with pending } outcome := by
  induction visit with
  | rest marked => exact .rest marked
  | body unmarked object _ settled => exact .body unmarked object settled
  | done => exact .done
  | skip nowhere _ settled => exact .skip nowhere settled
  | follow leads _ _ entered settled => exact .follow leads entered settled
  | stuck unresolved => exact .stuck unresolved
  | fail leads _ entered => exact .fail leads entered

theorem pending_eq (visit : Visit scope task before after outcome) :
    after.pending = before.pending := by
  induction visit with
  | rest marked => rfl
  | body unmarked object _ settled => exact settled
  | done => rfl
  | skip nowhere _ settled => exact settled
  | follow leads _ _ entered settled => exact settled.trans entered
  | stuck unresolved => rfl
  | fail leads _ entered => exact entered

/-- A visit changes no shape; in particular it adds no object. -/
theorem shape_eq (visit : Visit scope task before after outcome) (id : ObjectId) :
    (after.object? id).map Spec.shape = (before.object? id).map Spec.shape := by
  induction visit with
  | rest marked => rfl
  | body unmarked object _ settled => exact settled
  | done => rfl
  | skip nowhere _ settled => exact settled
  | follow leads _ _ entered settled =>
      rw [settled, Graph.shape_setSlot, entered]
  | stuck unresolved => rfl
  | fail leads _ entered => exact entered

theorem size_eq (visit : Visit scope task before after outcome) :
    after.objects.size = before.objects.size := by
  induction visit with
  | rest marked => rfl
  | body unmarked object _ settled => exact settled
  | done => rfl
  | skip nowhere _ settled => exact settled
  | follow leads _ _ entered settled =>
      rw [settled, Graph.setSlot, Array.size_modify, entered]
  | stuck unresolved => rfl
  | fail leads _ entered => exact entered

/-- The marks of a visit are new, each made once, and come before the old
ones. -/
theorem exists_fresh (visit : Visit scope task before after outcome) :
    ∃ fresh, after.linked = fresh ++ before.linked ∧ fresh.Nodup ∧
      ∀ id ∈ fresh, id ∉ before.linked := by
  induction visit with
  | rest marked => exact ⟨[], rfl, List.nodup_nil, by simp⟩
  | @body scope id graph after outcome spec unmarked object _ settled =>
      rcases settled with ⟨fresh, marks, distinct, new⟩
      refine ⟨fresh ++ [id], by simpa using marks, ?_, ?_⟩
      · apply List.nodup_append.mpr
        refine ⟨distinct, by simp, ?_⟩
        intro left leftMember right rightMember equal
        apply new left leftMember
        simp_all
      · intro other member
        rcases List.mem_append.mp member with later | here
        · exact fun old => new other later (List.mem_cons_of_mem _ old)
        · rwa [List.mem_singleton.mp here]
  | done => exact ⟨[], rfl, List.nodup_nil, by simp⟩
  | skip nowhere _ settled => exact settled
  | follow leads _ _ entered settled =>
      rcases entered with ⟨first, firstMarks, firstDistinct, firstNew⟩
      rcases settled with ⟨second, secondMarks, secondDistinct, secondNew⟩
      rw [Graph.linked_setSlot, firstMarks] at secondMarks secondNew
      refine ⟨second ++ first, by simpa using secondMarks, ?_, ?_⟩
      · apply List.nodup_append.mpr
        refine ⟨secondDistinct, firstDistinct, ?_⟩
        intro left leftMember right rightMember equal
        apply secondNew left leftMember
        rw [equal]
        exact List.mem_append_left _ rightMember
      · intro other member
        rcases List.mem_append.mp member with later | earlier
        · exact fun old => secondNew other later (List.mem_append_right _ old)
        · exact firstNew other earlier
  | stuck unresolved => exact ⟨[], rfl, List.nodup_nil, by simp⟩
  | fail leads _ entered => exact entered

/-- Marks are not taken back during a visit. -/
theorem linked_subset (visit : Visit scope task before after outcome) :
    before.linked ⊆ after.linked := by
  rcases visit.exists_fresh with ⟨fresh, marks, _, _⟩
  rw [marks]
  exact List.subset_append_right fresh before.linked

/-- A position stays, or a reference in it becomes an object. -/
theorem advances (visit : Visit scope task before after outcome) (id : ObjectId)
    (position : Nat) : Advances (before.slot? id position) (after.slot? id position) := by
  induction visit generalizing id position with
  | rest marked => exact Advances.refl _
  | body unmarked object _ settled => exact settled id position
  | done => exact Advances.refl _
  | skip nowhere _ settled => exact settled id position
  | follow leads _ _ entered settled =>
      exact (Graph.advances_setSlot leads entered id position).trans (settled id position)
  | stuck unresolved => exact Advances.refl _
  | fail leads _ entered => exact entered id position

/-- An object that is marked when a visit begins is not touched by it, unless
the visit settles that object's own positions. -/
theorem object?_eq (visit : Visit scope task before after outcome) {id : ObjectId}
    (marked : id ∈ before.linked) (other : task.holder? ≠ some id) :
    after.object? id = before.object? id := by
  induction visit with
  | rest _ => rfl
  | body unmarked object _ settled =>
      apply settled (List.mem_cons_of_mem _ marked)
      intro same
      exact unmarked (Option.some.inj same ▸ marked)
  | done => rfl
  | skip nowhere _ settled => exact settled marked other
  | @follow scope home holder next owner graph between after position others outcome leads
      entry _ entered settled =>
      have different : id ≠ holder := fun same => other (congrArg some same.symm)
      rw [settled (entry.linked_subset marked) other,
        between.object?_setSlot_of_ne different, entered marked (by simp [Task.holder?])]
  | stuck unresolved => rfl
  | fail leads _ entered => exact entered marked (by simp [Task.holder?])

/-- A task in a scope has one visit. -/
theorem unique {first second : Graph} {left right : Except CompileError Unit}
    (visit : Visit scope task before first left) (other : Visit scope task before second right) :
    first = second ∧ left = right := by
  induction visit generalizing second right with
  | rest marked =>
      cases other with
      | rest _ => exact ⟨rfl, rfl⟩
      | body unmarked object _ =>
          rcases marked with marked | absent
          · exact absurd marked unmarked
          · rw [absent] at object
            cases object
  | body unmarked object _ settled =>
      cases other with
      | rest marked =>
          rcases marked with marked | absent
          · exact absurd marked unmarked
          · rw [absent] at object
            cases object
      | body _ otherObject otherSettled =>
          rw [object] at otherObject
          cases otherObject
          exact settled otherSettled
  | done =>
      cases other with
      | done => exact ⟨rfl, rfl⟩
  | skip nowhere _ settled =>
      cases other with
      | skip _ otherSettled => exact settled otherSettled
      | follow leads _ _ => rw [nowhere] at leads; cases leads
      | stuck unresolved => rw [nowhere] at unresolved; cases unresolved
      | fail leads _ => rw [nowhere] at leads; cases leads
  | follow leads _ _ entered settled =>
      cases other with
      | skip nowhere _ => rw [leads] at nowhere; cases nowhere
      | follow otherLeads otherEntered otherSettled =>
          rw [leads] at otherLeads
          cases otherLeads
          rcases entered otherEntered with ⟨rfl, -⟩
          exact settled otherSettled
      | stuck unresolved => rw [leads] at unresolved; cases unresolved
      | fail otherLeads otherEntered =>
          rw [leads] at otherLeads
          cases otherLeads
          cases (entered otherEntered).2
  | stuck unresolved =>
      cases other with
      | skip nowhere _ => rw [unresolved] at nowhere; cases nowhere
      | follow leads _ _ => rw [unresolved] at leads; cases leads
      | stuck otherUnresolved =>
          rw [unresolved] at otherUnresolved
          cases otherUnresolved
          exact ⟨rfl, rfl⟩
      | fail leads _ => rw [unresolved] at leads; cases leads
  | fail leads _ entered =>
      cases other with
      | skip nowhere _ => rw [leads] at nowhere; cases nowhere
      | follow otherLeads otherEntered _ =>
          rw [leads] at otherLeads
          cases otherLeads
          cases (entered otherEntered).2
      | stuck unresolved => rw [leads] at unresolved; cases unresolved
      | fail otherLeads otherEntered =>
          rw [leads] at otherLeads
          cases otherLeads
          rcases entered otherEntered with ⟨rfl, same⟩
          cases same
          exact ⟨rfl, rfl⟩

end Visit

end IdlLinker
