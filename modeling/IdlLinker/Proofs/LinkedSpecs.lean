import IdlLinker.Graph.Reach
import IdlLinker.Proofs.Session

/-!
# Linked objects are complete

Whatever was compiled, linked and tried in vain before, an object that is
marked holds base types and marked objects only, each where it fits.  No
reference is reached from it, so questions about it never meet one.
-/

namespace IdlLinker

namespace Graph

variable {graph : Graph} {id other : ObjectId}

/-- What a marked object leads to is marked. -/
theorem Closed.mem_linked_of_reaches (closed : graph.Closed) (marked : id ∈ graph.linked)
    (reaches : graph.Reaches id other) : other ∈ graph.linked := by
  induction reaches with
  | refl => exact marked
  | tail _ step hypothesis =>
      rcases step with ⟨position, held⟩
      simpa using closed.isLinked_of_slot? hypothesis held

theorem Closed.slot?_ne_unresolved (closed : graph.Closed) (marked : id ∈ graph.linked)
    (position : Nat) (reference : Reference) :
    graph.slot? id position ≠ some (.unresolved reference) := by
  intro held
  cases closed.isLinked_of_slot? marked held

/-- Following typedefs from a linked slot never meets a reference. -/
theorem Closed.rootAfter_ne_typeNotLinked (closed : graph.Closed) (steps : Nat)
    (seen : List String) {slot : Slot} (linked : graph.isLinked slot = true) (name : String)
    (line : Number) : graph.rootAfter steps seen slot ≠ .error (.typeNotLinked name line) := by
  induction steps generalizing seen slot with
  | zero => simp [rootAfter]
  | succ steps hypothesis =>
      simp only [rootAfter]
      split
      · next typedefName target found =>
          split
          · simp
          · apply hypothesis
            cases slot with
            | primitive type => cases found
            | unresolved reference => cases linked
            | object id =>
                simp only [typedef?] at found
                split at found
                · next object =>
                    cases found
                    have marked : id ∈ graph.linked := by simpa using linked
                    have held : graph.slot? id 0 = some target := by
                      simp [slot?, object, Spec.slots]
                    exact closed.isLinked_of_slot? marked held
                · cases found
      · split
        · cases linked
        · simp

/-- Following parents from a marked service never meets a reference. -/
theorem Closed.ancestryAfter_ne_parentNotLinked (closed : graph.Closed) (steps : Nat)
    (chain : List ObjectId) (marked : id ∈ graph.linked) (parent service : String) :
    graph.ancestryAfter steps chain id ≠ .error (.parentNotLinked parent service) := by
  induction steps generalizing chain id with
  | zero => simp [ancestryAfter]
  | succ steps hypothesis =>
      have linked {slot : Slot} (found : graph.parent? id = some slot) :
          graph.isLinked slot = true := by
        simp only [parent?] at found
        split at found
        · next object =>
            have held : graph.slot? id 0 = some slot := by
              simp [slot?, object, Spec.slots, found]
            exact closed.isLinked_of_slot? marked held
        · cases found
      simp only [ancestryAfter]
      split
      · simp
      · split
        · next reference found => cases linked found
        · next parent found =>
            apply hypothesis
            simpa using linked found
        · simp

/-- An object fits as a service or as a function when it is one. -/
theorem exists_of_fits_service {id : ObjectId} (fits : graph.fits .service (.object id) = true) :
    ∃ name parent functions, graph.object? id = some (.service name parent functions) := by
  cases object : graph.object? id with
  | none => simp [Graph.fits, object] at fits
  | some spec =>
      cases spec with
      | service name parent functions => exact ⟨name, parent, functions, rfl⟩
      | _ => simp [Graph.fits, object, Spec.role?] at fits

theorem exists_of_fits_function {id : ObjectId} (fits : graph.fits .function (.object id) = true) :
    ∃ body, graph.object? id = some (.function body) := by
  cases object : graph.object? id with
  | none => simp [Graph.fits, object] at fits
  | some spec =>
      cases spec with
      | function body => exact ⟨body, rfl⟩
      | _ => simp [Graph.fits, object, Spec.role?] at fits

/-- Where a function is asked for, only an object can stand. -/
theorem exists_object_of_fits_function {slot : Slot} (fits : graph.fits .function slot = true) :
    ∃ function, slot = .object function := by
  cases slot with
  | primitive type => cases fits
  | unresolved reference =>
      obtain ⟨kind, name, line⟩ := reference
      cases kind <;> cases fits
  | object function => exact ⟨function, rfl⟩

end Graph

namespace Spec

variable (name : String) (parent : Option Slot) (functions : List (String × Slot)) (index : Nat)

/-- The functions of a service stand behind its parent. -/
theorem slots_function :
    (Spec.service name parent functions).slots[parent.toList.length + index]? =
      functions[index]?.map Prod.snd := by
  rw [slots, List.getElem?_append_right (Nat.le_add_right _ _), Nat.add_sub_cancel_left,
    List.getElem?_map]

theorem roleAt_function :
    (Spec.service name parent functions).roleAt (parent.toList.length + index) = .function := by
  rw [roleAt, if_neg (Nat.not_lt.mpr (Nat.le_add_right _ _))]

end Spec

/-- An object whose positions hold base types and marked objects that fit; the
parent of a service is a marked service, and its functions are marked. -/
structure Graph.Complete (graph : Graph) (spec : Spec Slot) : Prop where
  slots : ∀ position slot, spec.slots[position]? = some slot →
    graph.isLinked slot = true ∧ graph.fits (spec.roleAt position) slot = true
  parent : ∀ name slot functions, spec = .service name (some slot) functions →
    ∃ parent, slot = .object parent ∧ parent ∈ graph.linked ∧
      ∃ name parent? functions, graph.object? parent = some (.service name parent? functions)
  functions : ∀ name parent functions, spec = .service name parent functions →
    ∀ entry ∈ functions, ∃ function, entry.2 = .object function ∧ function ∈ graph.linked ∧
      ∃ body, graph.object? function = some (.function body)

variable {family : Scope → Prop} {graph : Graph} {id : ObjectId}

/-- The marked objects of a sound graph are complete. -/
theorem Graph.Sound.complete (sound : graph.Sound family) (marked : id ∈ graph.linked)
    {spec : Spec Slot} (object : graph.object? id = some spec) : graph.Complete spec := by
  have slots (position : Nat) (slot : Slot) (held : spec.slots[position]? = some slot) :
      graph.isLinked slot = true ∧ graph.fits (spec.roleAt position) slot = true := by
    have found : graph.slot? id position = some slot := by
      simpa [Graph.slot?, object] using held
    exact ⟨sound.closed.isLinked_of_slot? marked found,
      sound.typed id spec position slot object held⟩
  refine ⟨slots, ?_, ?_⟩
  · rintro name slot functions rfl
    rcases slots 0 slot rfl with ⟨linked, fits⟩
    cases slot with
    | primitive type => cases fits
    | unresolved reference => cases linked
    | object parent =>
        exact ⟨parent, rfl, by simpa using linked,
          Graph.exists_of_fits_service fits⟩
  · rintro name parent functions rfl entry member
    rcases List.getElem?_of_mem member with ⟨index, found⟩
    have held : (Spec.service name parent functions).slots[parent.toList.length + index]? =
        some entry.2 := by
      rw [Spec.slots_function, found, Option.map_some]
    rcases slots _ _ held with ⟨linked, fits⟩
    rw [Spec.roleAt_function] at fits
    rcases Graph.exists_object_of_fits_function fits with ⟨function, same⟩
    rw [same] at fits linked
    exact ⟨function, same, by simpa using linked, Graph.exists_of_fits_function fits⟩

/-- After any sequence of calls, every marked object is complete, leads to
complete objects only, and has a root type and an ancestry as far as linking
is concerned. -/
theorem Session.linked_specs_complete (calls : List Call) :
    ∀ id ∈ (run calls).graph.linked,
      (∃ spec, (run calls).graph.object? id = some spec ∧ (run calls).graph.Complete spec) ∧
      (∀ other, (run calls).graph.Reaches id other →
        other ∈ (run calls).graph.linked ∧ ∀ position reference,
          (run calls).graph.slot? other position ≠ some (.unresolved reference)) ∧
      (∀ name line, (run calls).graph.rootType (.object id) ≠
        .error (.typeNotLinked name line)) ∧
      ∀ parent service, (run calls).graph.ancestry id ≠
        .error (.parentNotLinked parent service) := by
  intro id marked
  have sound := sound_run calls
  rcases Option.isSome_iff_exists.mp (sound.present id marked) with ⟨spec, object⟩
  refine ⟨⟨spec, object, sound.complete marked object⟩, ?_, ?_, ?_⟩
  · intro other reaches
    have reached := sound.closed.mem_linked_of_reaches marked reaches
    exact ⟨reached, sound.closed.slot?_ne_unresolved reached⟩
  · exact sound.closed.rootAfter_ne_typeNotLinked _ [] (decide_eq_true marked)
  · exact sound.closed.ancestryAfter_ne_parentNotLinked _ [] marked

/-- A struct that holds itself is compiled, registered and linked. -/
def Session.selfReference : List Call :=
  [.compile (.struct ⟨.struct, "Node",
      [{ name := "next", type := .named "Node" (.ofInt 2), line := .ofInt 2 }], .ofInt 1⟩),
    .createScope [0] [] [], .link (.type (.object 0)) 1]

theorem Session.linked_selfReference_complete :
    0 ∈ (run selfReference).graph.linked ∧
      (∃ spec, (run selfReference).graph.object? 0 = some spec ∧
        (run selfReference).graph.Complete spec) :=
  have marked : 0 ∈ (run selfReference).graph.linked := by decide
  ⟨marked, (linked_specs_complete selfReference 0 marked).1⟩

end IdlLinker
