import Mathlib.Logic.Function.Basic
import Mathlib.Order.Basic

/-!
# Leases — exclusive resources held by keys

What an address allocator is for: every key holds at most one resource and no resource has two
holders.  `Leases` carries that exclusivity as a field.  A free resource may be granted to a key
that holds none, and a key may release what it holds; nothing else changes a lease.
-/

structure Leases (κ α : Type*) where
  held : κ → Option α
  exclusive : ∀ {j k : κ} {a : α}, held j = some a → held k = some a → j = k

namespace Leases

variable {κ α : Type*}

@[ext] theorem ext {L M : Leases κ α} (h : ∀ k, L.held k = M.held k) : L = M := by
  rcases L with ⟨f, _⟩
  rcases M with ⟨g, _⟩
  have hfg : f = g := funext h
  subst hfg
  rfl

/-- No key holds anything. -/
def none : Leases κ α where
  held := fun _ => Option.none
  exclusive := by intro _ _ _ h; cases h

/-- What happens to the leases in one step. -/
inductive Action (κ α : Type*)
  | grant (k : κ) (a : α)
  | release (k : κ)
  | keep

inductive Step : Leases κ α → Action κ α → Leases κ α → Prop
  | grant {L M : Leases κ α} {k : κ} {a : α} (hk : L.held k = Option.none)
      (ha : ∀ j, L.held j ≠ some a) (hM : M.held k = some a)
      (hframe : ∀ j, j ≠ k → M.held j = L.held j) : Step L (.grant k a) M
  | release {L M : Leases κ α} {k : κ} (hM : M.held k = Option.none)
      (hframe : ∀ j, j ≠ k → M.held j = L.held j) : Step L (.release k) M
  | keep (L : Leases κ α) : Step L .keep L

/-- A lease outlives every step but its own release. -/
theorem Step.held_of_ne_release {L M : Leases κ α} {act : Action κ α} {k : κ} {a : α}
    (hstep : Step L act M) (hne : act ≠ .release k) (h : L.held k = some a) :
    M.held k = some a := by
  cases hstep with
  | @grant _ j b hj _ _ hframe =>
      have hkj : k ≠ j := by
        rintro rfl
        simp [h] at hj
      rw [hframe k hkj, h]
  | @release _ j _ hframe =>
      have hkj : k ≠ j := by
        rintro rfl
        exact hne rfl
      rw [hframe k hkj, h]
  | keep => exact h

/-! ## Choosing what to grant -/

/-- A search through candidates in increasing order chooses the least that is free. -/
theorem le_of_find? {β : Type*} [Preorder β] {f : α → β} {candidates : List α} {free : α → Bool}
    {a : α} (hsorted : candidates.Pairwise fun x y => f x ≤ f y)
    (h : candidates.find? free = some a) {x : α} (hx : x ∈ candidates) (hfree : free x = true) :
    f a ≤ f x := by
  rcases List.find?_eq_some_iff_append.1 h with ⟨_, before, after, rfl, hbefore⟩
  rcases List.mem_append.1 hx with hx | hx
  · -- what comes before the choice is not free
    have htaken := hbefore x hx
    simp [hfree] at htaken
  · rcases List.mem_cons.1 hx with rfl | hx
    · exact le_refl _
    · have hsorted' := (List.pairwise_append.1 hsorted).2.1
      exact (List.pairwise_cons.1 hsorted').1 x hx

end Leases
