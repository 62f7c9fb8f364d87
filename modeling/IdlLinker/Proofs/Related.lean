import Mathlib.Data.List.Forall2

/-!
# Related lists

Lists of one length whose elements are related position by position.
-/

namespace IdlLinker

/-- Lists related to a third one position by position are related to each other. -/
theorem forall₂_compose {α β γ : Type} {first : α → β → Prop} {second : β → γ → Prop}
    {both : α → γ → Prop} (compose : ∀ left middle right, first left middle →
      second middle right → both left right) {lefts : List α} {middles : List β} {rights : List γ}
    (left : List.Forall₂ first lefts middles) (right : List.Forall₂ second middles rights) :
    List.Forall₂ both lefts rights := by
  induction left generalizing rights with
  | nil =>
      cases right
      exact List.Forall₂.nil
  | cons here _ hypothesis =>
      cases right with
      | cons there later => exact List.Forall₂.cons (compose _ _ _ here there) (hypothesis later)

theorem exists_right_of_forall₂ {α β : Type} {relation : α → β → Prop} {lefts : List α}
    {rights : List β} (related : List.Forall₂ relation lefts rights) {left : α}
    (member : left ∈ lefts) : ∃ right ∈ rights, relation left right := by
  induction related with
  | nil => cases member
  | cons here _ hypothesis =>
      rcases List.mem_cons.mp member with rfl | later
      · exact ⟨_, List.mem_cons_self, here⟩
      · rcases hypothesis later with ⟨right, rightMember, held⟩
        exact ⟨right, List.mem_cons_of_mem _ rightMember, held⟩

theorem exists_left_of_forall₂ {α β : Type} {relation : α → β → Prop} {lefts : List α}
    {rights : List β} (related : List.Forall₂ relation lefts rights) {right : β}
    (member : right ∈ rights) : ∃ left ∈ lefts, relation left right :=
  exists_right_of_forall₂ related.flip member

/-- Lists in two parts are related part by part when their first parts are of one
length. -/
theorem forall₂_of_append {α β : Type} {relation : α → β → Prop} {lefts more : List α}
    {rights others : List β} (length : lefts.length = rights.length)
    (related : List.Forall₂ relation (lefts ++ more) (rights ++ others)) :
    List.Forall₂ relation lefts rights ∧ List.Forall₂ relation more others := by
  induction lefts generalizing rights with
  | nil =>
      cases rights with
      | nil => exact ⟨List.Forall₂.nil, related⟩
      | cons => cases length
  | cons left rest hypothesis =>
      cases rights with
      | nil => cases length
      | cons right later =>
          rcases related with _ | ⟨here, onward⟩
          rcases hypothesis (Nat.succ.inj length) onward with ⟨first, second⟩
          exact ⟨List.Forall₂.cons here first, second⟩

/-- Related lists give the same when related elements do. -/
theorem filterMap_eq_of_forall₂ {α β γ : Type} {relation : α → β → Prop} {first : α → Option γ}
    {second : β → Option γ} (same : ∀ left right, relation left right → first left = second right)
    {lefts : List α} {rights : List β} (related : List.Forall₂ relation lefts rights) :
    lefts.filterMap first = rights.filterMap second := by
  induction related with
  | nil => rfl
  | cons here _ hypothesis =>
      rw [List.filterMap_cons, List.filterMap_cons, same _ _ here, hypothesis]

end IdlLinker
