import IdlLinker.Proofs.Session

/-!
# Owners

Before anything is linked, the objects made for one definition lead to one
another only.  So every object has an owner, what it holds has the same owner,
a definition owns itself, and whatever is owned by a definition is reached from
it.
-/

namespace IdlLinker

namespace Graph

/-- Objects held by one another have one owner; definitions own themselves and
what is reached from them. -/
structure Parted (graph : Graph) (owner : ObjectId → ObjectId) : Prop where
  holds : ∀ holder id, graph.Holds holder id → owner id = owner holder
  defined : ∀ id spec, graph.object? id = some spec → spec.isDefined = true → owner id = id
  below : ∀ id, id < graph.objects.size → owner id < graph.objects.size
  reaches : ∀ id spec, id < graph.objects.size → graph.object? (owner id) = some spec →
    spec.isDefined = true → graph.Reaches (owner id) id

/-- Objects added at once, at most one of which is a definition, and the others
are reached from it. -/
structure Block (before after : Graph) (last : ObjectId) : Prop
    extends Grows before.objects.size (fun _ => True) before after where
  first : before.objects.size ≤ last
  inside : ∀ id, before.objects.size ≤ id → id < after.objects.size → last < after.objects.size
  parts : ∀ id spec, before.objects.size ≤ id → id ≠ last → after.object? id = some spec →
    spec.isDefined = false
  covered : ∀ spec, after.object? last = some spec → spec.isDefined = true →
    ∀ id, before.objects.size ≤ id → id < after.objects.size → after.Reaches last id

theorem lt_size_of_object? {graph : Graph} {id : ObjectId} {spec : Spec Slot}
    (object : graph.object? id = some spec) : id < graph.objects.size :=
  (Array.getElem?_eq_some_iff.mp object).1

theorem WellTyped.lt_size_of_holds {graph : Graph} (typed : graph.WellTyped) {holder id : ObjectId}
    (holds : graph.Holds holder id) : id < graph.objects.size := by
  rcases holds with ⟨position, held⟩
  rcases Option.bind_eq_some_iff.mp held with ⟨spec, object, found⟩
  exact lt_size_of_fits (typed holder spec position _ object found)

/-- Objects added at once get one owner. -/
theorem Parted.extend {before after : Graph} {owner : ObjectId → ObjectId} {last : ObjectId}
    (parted : before.Parted owner) (typed : before.WellTyped) (block : Block before after last) :
    after.Parted fun id => if id < before.objects.size then owner id else last where
  holds holder id holds := by
    rcases holds with ⟨position, held⟩
    by_cases earlier : holder < before.objects.size
    · rw [block.slot?_eq earlier] at held
      have old := typed.lt_size_of_holds ⟨position, held⟩
      rw [if_pos earlier, if_pos old]
      exact parted.holds holder id ⟨position, held⟩
    · rcases Option.bind_eq_some_iff.mp held with ⟨spec, object, found⟩
      have placed := (block.fresh holder spec (Nat.le_of_not_lt earlier) object position _ found).1
      rw [if_neg earlier, if_neg (Nat.not_lt.mpr (placed.above id rfl))]
  defined id spec object isDefined := by
    by_cases earlier : id < before.objects.size
    · rw [block.kept id earlier] at object
      rw [if_pos earlier]
      exact parted.defined id spec object isDefined
    · rw [if_neg earlier]
      by_contra different
      have part := block.parts id spec (Nat.le_of_not_lt earlier) (Ne.symm different) object
      rw [part] at isDefined
      cases isDefined
  below id bound := by
    split
    · next earlier => exact Nat.lt_of_lt_of_le (parted.below id earlier) block.size
    · next later => exact block.inside id (Nat.le_of_not_lt later) bound
  reaches id spec bound object isDefined := by
    by_cases earlier : id < before.objects.size
    · rw [if_pos earlier] at object ⊢
      rw [block.kept _ (parted.below id earlier)] at object
      exact block.toGrows.reaches (parted.reaches id spec earlier object isDefined)
    · rw [if_neg earlier] at object ⊢
      exact block.covered spec object isDefined id (Nat.le_of_not_lt earlier) bound

theorem Installed.block {before after : Graph} {role : Role} {slots : List Slot}
    (installed : Installed before.objects.size (fun _ => True) before after role slots) :
    Block before after before.objects.size where
  toGrows := installed.toGrows
  first := Nat.le_refl _
  inside id above bound := Nat.lt_of_le_of_lt above bound
  parts id spec above _ object := installed.parts id spec above object
  covered spec object isDefined := by
    rw [installed.parts _ spec (Nat.le_refl _) object] at isDefined
    cases isDefined

theorem Rooted.block {before after : Graph} {role : Option Role} {root : ObjectId}
    (rooted : Rooted before.objects.size (fun _ => True) before after role root) :
    Block before after root where
  toGrows := rooted.toGrows
  first := rooted.first
  inside _ _ _ := by
    rw [rooted.last]
    exact Nat.lt_succ_self root
  parts id spec above different object := by
    have bound : id < root + 1 := by
      rw [← rooted.last]
      exact lt_size_of_object? object
    exact rooted.parts id spec above
      (Nat.lt_of_le_of_ne (Nat.le_of_lt_succ bound) different) object
  covered _ _ _ := rooted.covered

end Graph

namespace Session

open IdlLinker.Graph

/-- What holds as long as nothing was linked: every object has an owner, and
scopes register definitions only. -/
structure Prepared (session : Session) : Prop where
  sound : session.Sound
  parted : ∃ owner, session.graph.Parted owner
  registered : ∀ scope ∈ session.scopes, ∀ id, scope.Registers id →
    ∃ spec, session.graph.object? id = some spec ∧ spec.isDefined = true

theorem prepared_initial : Prepared {} where
  sound := sound_initial
  parted := by
    refine ⟨id, ?_, ?_, ?_, ?_⟩
    · rintro holder id ⟨position, held⟩
      cases lt_size_of_slot? held
    · intro id spec object
      cases lt_size_of_object? object
    · intro id bound
      exact bound
    · intro id spec bound
      cases bound
  registered scope member id registers := by
    rcases registers with ⟨kind, name, found⟩
    rw [List.mem_singleton.mp member] at found
    cases kind <;> cases found

variable {session : Session}

theorem Prepared.install {α β : Type} (prepared : session.Prepared) (compilation : Compilation α)
    (installer : α → StateM Graph β)
    (blocks : ∀ value, ∃ last, Block session.graph (installer value session.graph).2 last) :
    (session.install compilation installer).Prepared := by
  unfold Session.install
  split
  · next value ended =>
      rcases blocks value with ⟨last, block⟩
      rcases prepared.parted with ⟨owner, parted⟩
      constructor
      · exact Graph.Sound.grow prepared.sound block.toGrows
      · exact ⟨_, parted.extend prepared.sound.typed block⟩
      · intro scope member id registers
        rcases prepared.registered scope member id registers with ⟨spec, object, isDefined⟩
        refine ⟨spec, ?_, isDefined⟩
        rw [← object]
        exact block.kept id (lt_size_of_object? object)
  · exact prepared

/-- What has a name and is a type or a service is a definition. -/
theorem isDefined_of_fits {graph : Graph} {kind : EntityKind} {id : ObjectId} {name : String}
    (fits : graph.fits kind.role (.object id) = true) (named : graph.name? id = some name) :
    ∃ spec, graph.object? id = some spec ∧ spec.isDefined = true := by
  rcases Option.bind_eq_some_iff.mp named with ⟨spec, object, found⟩
  refine ⟨spec, object, ?_⟩
  have role : spec.role? = some kind.role := by simpa [Graph.fits, object] using fits
  cases spec with
  | function body => cases kind <;> cases role
  | struct name kind fields => rfl
  | typedef name target => rfl
  | enum name items => rfl
  | service name parent functions => rfl
  | _ => cases found

theorem Prepared.createScope (prepared : session.Prepared) (types services : List ObjectId)
    {includes : Includes} (known : ∀ entry ∈ includes, entry.2 ∈ session.scopes) :
    (session.createScope types services includes).Prepared := by
  have sound := prepared.sound.createScope types services known
  unfold Session.createScope at sound ⊢
  split
  · next admitted =>
      rw [if_pos admitted] at sound
      simp only [Bool.and_eq_true, List.all_eq_true] at admitted
      refine ⟨sound, prepared.parted, ?_⟩
      intro scope member id registers
      rcases List.mem_append.mp member with old | new
      · exact prepared.registered scope old id registers
      · rcases registers with ⟨kind, name, found⟩
        rw [List.mem_singleton.mp new] at found
        have fits := Workspace.registered_createScope admitted.1 admitted.2 kind name id found
        cases kind with
        | type => exact isDefined_of_fits fits (Scope.mem_tableOf found).2
        | service => exact isDefined_of_fits fits (Scope.mem_tableOf found).2
  · exact prepared

/-- Compiling and making scopes keeps a session prepared. -/
theorem Prepared.perform (prepared : session.Prepared) {call : Call}
    (prepares : call.prepares = true) : (session.perform call).Prepared := by
  cases call with
  | compile definition =>
      apply prepared.install
      intro compiled
      exact ⟨_, (compiled.install_rooted _ _ _ (Nat.le_refl _) (by simp)).block⟩
  | compileType type =>
      apply prepared.install (pure type) TypeExpression.install
      intro expression
      exact ⟨_, (expression.install_installed _ _ _ (Nat.le_refl _) (by simp)).block⟩
  | compileFunction function =>
      apply prepared.install
      intro spec
      exact ⟨_, (spec.install_installed _ _ _ (Nat.le_refl _) (by simp)).block⟩
  | compileFields fields rules =>
      apply prepared.install
      intro specs
      exact ⟨_, (FieldGroup.install_rooted _ specs _ _ (Nat.le_refl _) (by simp)).block⟩
  | createScope types services includes =>
      simp only [Session.perform]
      split
      · next entries found =>
          exact prepared.createScope types services (mem_scopes_of_scopesOf? found)
      · exact prepared
  | compileModule definitions includes => cases prepares
  | link call scope => cases prepares

theorem prepared_run {calls : List Call} (prepares : ∀ call ∈ calls, call.prepares = true) :
    (run calls).Prepared := by
  have prepared (session : Session) (start : session.Prepared) :
      (calls.foldl perform session).Prepared := by
    induction calls generalizing session with
    | nil => exact start
    | cons call rest hypothesis =>
        apply hypothesis
        · exact fun other member => prepares other (List.mem_cons_of_mem _ member)
        · exact start.perform (prepares call List.mem_cons_self)
  exact prepared {} prepared_initial

end Session

end IdlLinker
