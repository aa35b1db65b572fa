import Mathlib.Data.Set.Operations
import Mathlib.Data.List.Basic

/-!
# Prefix-free sets of words

A set of words is *prefix-free* when none of its words is a proper prefix of another.  A reader
who knows that the front of a text is a word of such a set can tell where it ends, so prefix-free
fields may be concatenated without separators (`PrefixFree.append_inj`).
-/

variable {α : Type*}

/-- No word of `S` is a proper prefix of another. -/
def PrefixFree (S : Set (List α)) : Prop :=
  ∀ a ∈ S, ∀ b ∈ S, a <+: b → a = b

namespace PrefixFree

variable {S : Set (List α)}

/-- Words of one length are prefix-free. -/
theorem of_length (n : Nat) : PrefixFree {a : List α | a.length = n} := by
  intro a ha b hb hab
  have hlen : a.length = b.length := Eq.trans ha hb.symm
  exact hab.eq_of_length hlen

/-- The front word of a text and what follows it are determined by the text. -/
theorem append_inj (hS : PrefixFree S) {a b x y : List α} (ha : a ∈ S) (hb : b ∈ S)
    (h : a ++ x = b ++ y) : a = b ∧ x = y := by
  have hpre : a <+: b ∨ b <+: a :=
    List.prefix_or_prefix_of_prefix (List.prefix_append a x) (h ▸ List.prefix_append b y)
  have hab : a = b := by
    rcases hpre with hab | hba
    · exact hS a ha b hb hab
    · exact (hS b hb a ha hba).symm
  subst hab
  exact ⟨rfl, List.append_cancel_left h⟩

end PrefixFree
