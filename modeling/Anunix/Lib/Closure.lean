import Mathlib

/-!
# Attributes collected along a relation

A set-valued attribute `f` of the points of a graph that is computed point by point, from something
of its own (`g`) and the attributes of the points one step on, holds at every point exactly what `g`
has at the points reachable from there. A rank that falls with every step makes the computation well
founded.
-/

namespace Closure

variable {α β : Type*} {R : α → α → Prop} {f g : α → β → Prop}

lemma reaches_of_step (hstep : ∀ a x, f a x ↔ g a x ∨ ∃ b, R a b ∧ f b x) {a b : α} {x : β}
    (h : Relation.ReflTransGen R a b) (hx : g b x) : f a x := by
  induction h using Relation.ReflTransGen.head_induction_on with
  | refl => exact (hstep _ x).mpr (.inl hx)
  | head hab _ ih => exact (hstep _ x).mpr (.inr ⟨_, hab, ih⟩)

/-- A property that is passed on along `R` holds where a source of it is reached. -/
theorem iff_reachable (rank : α → Nat) (hrank : ∀ a b, R a b → rank b < rank a)
    (hstep : ∀ a x, f a x ↔ g a x ∨ ∃ b, R a b ∧ f b x) (a : α) (x : β) :
    f a x ↔ ∃ b, Relation.ReflTransGen R a b ∧ g b x := by
  constructor
  · -- By induction on the rank, which each step on takes down.
    intro hf
    induction hn : rank a using Nat.strongRecOn generalizing a with
    | ind n ih =>
      rcases (hstep a x).mp hf with hg | ⟨b, hab, hb⟩
      · exact ⟨a, .refl, hg⟩
      · obtain ⟨c, hbc, hg⟩ := ih (rank b) (hn ▸ hrank a b hab) b hb rfl
        exact ⟨c, .head hab hbc, hg⟩
  · rintro ⟨b, hab, hg⟩
    exact reaches_of_step hstep hab hg

end Closure
