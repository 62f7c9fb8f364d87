import IdlLinker.Graph.Query
import IdlLinker.Proofs.Typed
import IdlLinker.Proofs.Visit.Depth

/-!
# Closed marks

An object is marked before its positions are settled, so during a visit some
marked objects are unfinished.  All others hold base types and marked objects
only, whether these are finished or not.  When the outermost body has ended no
object is unfinished, and when it fails the marks are those from before, whose
objects the visit did not touch.
-/

namespace IdlLinker

namespace Graph

theorem isLinked_mono {before after : Graph} (marks : before.linked ⊆ after.linked) {slot : Slot}
    (linked : before.isLinked slot = true) : after.isLinked slot = true := by
  cases slot with
  | primitive type => rfl
  | unresolved reference => cases linked
  | object id =>
      simp only [isLinked, decide_eq_true_eq] at linked ⊢
      exact marks linked

@[simp]
theorem isLinked_object (graph : Graph) (id : ObjectId) :
    graph.isLinked (.object id) = true ↔ id ∈ graph.linked := by
  simp [isLinked]

/-- Every marked object that is not unfinished holds linked slots only. -/
def ClosedExcept (graph : Graph) (unfinished : ObjectId → Prop) : Prop :=
  ∀ id ∈ graph.linked, ¬ unfinished id → ∀ position slot,
    graph.slot? id position = some slot → graph.isLinked slot = true

/-- Every marked object holds linked slots only. -/
def Closed (graph : Graph) : Prop := graph.ClosedExcept fun _ => False

theorem Closed.isLinked_of_slot? {graph : Graph} (closed : graph.Closed) {id : ObjectId}
    (marked : id ∈ graph.linked) {position : Nat} {slot : Slot}
    (held : graph.slot? id position = some slot) : graph.isLinked slot = true :=
  closed id marked not_false position slot held

theorem ClosedExcept.mark {graph : Graph} {unfinished : ObjectId → Prop}
    (closed : graph.ClosedExcept unfinished) (id : ObjectId) :
    (graph.mark id).ClosedExcept fun other => other = id ∨ unfinished other := by
  intro other member finished position slot held
  rcases List.mem_cons.mp member with same | old
  · exact absurd (Or.inl same) finished
  · apply isLinked_mono (List.subset_cons_self id graph.linked)
    exact closed other old (fun absent => finished (Or.inr absent)) position slot held

theorem ClosedExcept.setSlot {graph : Graph} {unfinished : ObjectId → Prop}
    (closed : graph.ClosedExcept unfinished) {id : ObjectId} (open_ : unfinished id)
    (position : Nat) (slot : Slot) : (graph.setSlot id position slot).ClosedExcept unfinished := by
  intro other member finished index held found
  have different : other ≠ id := fun same => finished (same ▸ open_)
  rw [graph.slot?_setSlot_of_ne fun here => different here.1] at found
  exact closed other member finished index held found

end Graph

/-- What a task that ends well adds to closed marks: an entered object is
marked, and settled positions are linked. -/
def Task.Closes (before after : Graph) : Task → Prop
  | .enter id => ∀ unfinished, before.ClosedExcept unfinished → (before.object? id).isSome →
      after.ClosedExcept unfinished ∧ id ∈ after.linked
  | .settle id _ positions => ∀ unfinished, unfinished id → before.ClosedExcept unfinished →
      (before.object? id).isSome →
        after.ClosedExcept unfinished ∧ ∀ position ∈ positions, ∀ slot,
          after.slot? id position = some slot → after.isLinked slot = true

namespace Visit

variable {scope : Scope} {task : Task} {before after : Graph}
  {outcome : Except CompileError Unit}

/-- A visit that ends well keeps marks closed, up to the objects that were
unfinished before. -/
theorem closes (visit : Visit scope task before after outcome) {family : Scope → Prop}
    (ready : Ready family scope before) (ended : outcome = .ok ()) :
    task.Closes before after := by
  induction visit with
  | rest marked =>
      intro unfinished closed present
      refine ⟨closed, ?_⟩
      rcases marked with marked | absent
      · exact marked
      · rw [absent] at present
        cases present
  | @body scope id graph after outcome spec unmarked object walk settled =>
      intro unfinished closed present
      obtain ⟨closedAfter, linkedAfter⟩ :=
        settled (ready.mark id) ended _ (Or.inl rfl) (closed.mark id) present
      have marked : id ∈ after.linked := walk.linked_subset List.mem_cons_self
      refine ⟨?_, marked⟩
      intro other otherMember finished position slot held
      by_cases same : other = id
      · subst same
        apply linkedAfter position _ slot held
        rcases walk.sameShapes.exists_object object with ⟨changed, found, shape⟩
        have bound : position < changed.slots.length := by
          rw [Graph.slot?, found] at held
          exact (List.getElem?_eq_some_iff.mp held).1
        rw [Spec.length_slots_eq_of_shape shape] at bound
        exact List.mem_range.mpr bound
      · apply closedAfter other otherMember _ position slot held
        rintro (here | there)
        · exact same here
        · exact finished there
  | done =>
      intro unfinished _ closed _
      exact ⟨closed, by simp⟩
  | @skip scope id owner graph after position others outcome nowhere walk settled =>
      intro unfinished open_ closed present
      rcases settled ready ended _ open_ closed present with ⟨closedAfter, linkedAfter⟩
      refine ⟨closedAfter, ?_⟩
      intro index indexMember slot held
      rcases List.mem_cons.mp indexMember with rfl | later
      · have advances := walk.advances id index
        rcases Graph.slot?_of_leadsTo_none nowhere with empty | ⟨type, found⟩
        · rw [empty, held] at advances
          rcases advances with same | ⟨_, _, impossible, _⟩
          · cases same
          · cases impossible
        · rw [found] at advances
          rw [advances.eq_of_primitive] at held
          cases held
          rfl
      · exact linkedAfter index later slot held
  | @follow scope home id next owner graph between after position others outcome leads
      entry walk entered settled =>
      intro unfinished open_ closed present
      obtain ⟨closedBetween, nextMarked⟩ :=
        entered (ready.onward leads) rfl _ closed (ready.present leads)
      have resumed := ready.resume leads entry.sameShapes (entry.wellTyped (ready.onward leads))
      have presentSet : ((between.setSlot id position (.object next)).object? id).isSome := by
        have stored := Graph.slot?_setSlot_of_leadsTo leads (entry.advances id position)
        rcases Option.bind_eq_some_iff.mp stored with ⟨spec, object, _⟩
        rw [object]
        rfl
      obtain ⟨closedAfter, linkedAfter⟩ :=
        settled resumed ended _ open_ (closedBetween.setSlot open_ position _) presentSet
      refine ⟨closedAfter, ?_⟩
      intro index indexMember slot held
      rcases List.mem_cons.mp indexMember with rfl | later
      · have advances := walk.advances id index
        rw [Graph.slot?_setSlot_of_leadsTo leads (entry.advances id index)] at advances
        rw [advances.eq_of_object] at held
        cases held
        exact decide_eq_true (walk.linked_subset nextMarked)
      · exact linkedAfter index later slot held
  | stuck unresolved => cases ended
  | fail leads _ entered => cases ended

end Visit

end IdlLinker
