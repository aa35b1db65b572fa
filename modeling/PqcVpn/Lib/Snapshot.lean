import Mathlib.Data.Set.Insert
import Mathlib.Logic.Function.Basic

/-!
# Snapshots — writers that save before they acknowledge

Any number of writers share a live store.  A writer writes one key and later saves: the whole live
store is copied to durable storage, with whatever other writers have written by then.  Saves of
different writers overwrite one another in any order.

A write that nobody has overwritten survives a crash once its writer has saved: `Safe` is kept by
every step, since a save can only copy a store that already holds the write.
-/

open Function

/-- A live store with a durable copy. -/
structure Snapshot (κ ν ι : Type*) where
  live : κ → Option ν
  saved : κ → Option ν
  /-- The last write of each key: who wrote it, and what. -/
  lastWrite : κ → Option (ι × ν)
  /-- The writers that have saved since their write. -/
  durable : Set ι

namespace Snapshot

variable {κ ν ι : Type*}

inductive Action (κ ν ι : Type*)
  | write (i : ι) (k : κ) (v : ν)
  | save (i : ι)

/-- What a crash now would leave of the writes that were saved. -/
structure Safe (s : Snapshot κ ν ι) : Prop where
  live : ∀ {k i v}, s.lastWrite k = some (i, v) → s.live k = some v
  saved : ∀ {k i v}, s.lastWrite k = some (i, v) → i ∈ s.durable → s.saved k = some v

/-- Nothing was written yet. -/
theorem Safe.of_unwritten {s : Snapshot κ ν ι} (h : ∀ k, s.lastWrite k = none) : Safe s where
  live := by
    intro k i v hk
    rw [h k] at hk
    cases hk
  saved := by
    intro k i v hk
    rw [h k] at hk
    cases hk

variable [DecidableEq κ]

inductive Step : Snapshot κ ν ι → Action κ ν ι → Snapshot κ ν ι → Prop
  | write {s : Snapshot κ ν ι} {i : ι} (k : κ) (v : ν) (hi : i ∉ s.durable) :
      Step s (.write i k v)
        { s with
          live := update s.live k (some v)
          lastWrite := update s.lastWrite k (some (i, v)) }
  | save (s : Snapshot κ ν ι) (i : ι) :
      Step s (.save i)
        { s with
          saved := s.live
          durable := insert i s.durable }

theorem Safe.step {s t : Snapshot κ ν ι} {a : Action κ ν ι} (h : Safe s) (hstep : Step s a t) :
    Safe t := by
  cases hstep with
  | @write i k v hi =>
      refine ⟨?_, ?_⟩
      · intro j i' w hj
        by_cases hjk : j = k
        · subst hjk
          simp only [update_self, Option.some.injEq, Prod.mk.injEq] at hj ⊢
          exact hj.2
        · simp only [update_of_ne hjk] at hj ⊢
          exact h.live hj
      · -- the new write is not durable, and the durable copy is the old one
        intro j i' w hj hi'
        by_cases hjk : j = k
        · subst hjk
          simp only [update_self, Option.some.injEq, Prod.mk.injEq] at hj
          exact absurd (hj.1 ▸ hi') hi
        · simp only [update_of_ne hjk] at hj
          exact h.saved hj hi'
  | save i =>
      -- the copy holds every last write, whoever's it is
      exact ⟨h.live, fun hk _ => h.live hk⟩

end Snapshot
