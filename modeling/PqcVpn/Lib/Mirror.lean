import Mathlib.Data.Set.Insert
import PqcVpn.Lib.Transition

/-!
# Mirrors — a primary store and a copy brought up to date afterwards

Writers change a primary store and copy what they wrote to a mirror in a second step; a key is
removed the same way, first from the primary store and then from the mirror.  Between the two steps
anything can happen.  Two results say when the stores agree once nothing is in flight:

* `Followed` — in runs without removals whose writers never overtake a later one that has already
  reached the mirror, the mirror holds what the last writer of each key wrote;
* `Covered` — in runs that never remove a key with a write in flight, and never finish a removal
  over a write that came after it and reached the mirror, both stores have the same keys.
-/

/-- The two stores and what is in flight between them. -/
@[ext] structure Mirrored (κ α ι : Type*) where
  present : Set κ
  /-- Who wrote a key last, and what. -/
  written : κ → Option (ι × α)
  mirror : κ → Option α
  pending : ι → Option (κ × α)
  dropping : Option κ

namespace Mirrored

open Function Transition

variable {κ α ι : Type*}

inductive Action (κ α ι : Type*)
  | write (i : ι) (k : κ) (v : α)
  | flush (i : ι)
  | drop (k : κ)
  | flushDrop

/-- A write to `k` is in flight. -/
def InFlight (s : Mirrored κ α ι) (k : κ) : Prop := ∃ i v, s.pending i = some (k, v)

/-! ## The last writer of each key -/

/-- No removals, and a writer reaches the mirror only while the key's last writer has yet to. -/
def InOrder (s : Mirrored κ α ι) : Action κ α ι → Prop
  | .write _ _ _ => True
  | .flush i => ∀ k v j w, s.pending i = some (k, v) → s.written k = some (j, w) →
      j = i ∨ ∃ w', s.pending j = some (k, w')
  | .drop _ => False
  | .flushDrop => False

/-- What the last writer of a key wrote is in flight or in the mirror. -/
structure Followed (s : Mirrored κ α ι) : Prop where
  latest : ∀ {i k v w}, s.pending i = some (k, v) → s.written k = some (i, w) → w = v
  settled : ∀ {k j w}, s.written k = some (j, w) → s.pending j = some (k, w) ∨ s.mirror k = some w

/-- With nothing in flight the mirror holds what the last writer of each key wrote. -/
theorem Followed.mirror_eq {s : Mirrored κ α ι} (h : Followed s) (hquiet : ∀ k, ¬ s.InFlight k)
    {k : κ} {j : ι} {w : α} (hwritten : s.written k = some (j, w)) : s.mirror k = some w :=
  (h.settled hwritten).resolve_left fun hpending => hquiet k ⟨j, w, hpending⟩

/-! ## The keys of the two stores -/

/-- A key is removed only with no write to it in flight, and a removal is finished only if the key
stays absent or a later write to it is still in flight. -/
def RaceFree (s : Mirrored κ α ι) : Action κ α ι → Prop
  | .write _ _ _ => True
  | .flush _ => True
  | .drop k => ¬ s.InFlight k
  | .flushDrop => ∀ k, s.dropping = some k → k ∈ s.present → s.InFlight k

/-- Every key is in both stores, or accounted for by what is in flight. -/
structure Covered (s : Mirrored κ α ι) : Prop where
  mirrored : ∀ {k}, k ∈ s.present → (∃ v, s.mirror k = some v) ∨ s.InFlight k
  known : ∀ {k v}, s.mirror k = some v → k ∈ s.present ∨ s.dropping = some k
  pending : ∀ {k}, s.InFlight k → k ∈ s.present

/-- With nothing in flight both stores have the same keys. -/
theorem Covered.present_iff {s : Mirrored κ α ι} (h : Covered s) (hquiet : ∀ k, ¬ s.InFlight k)
    (hidle : s.dropping = none) {k : κ} : k ∈ s.present ↔ ∃ v, s.mirror k = some v := by
  constructor
  · intro hk
    exact (h.mirrored hk).resolve_right (hquiet k)
  · rintro ⟨v, hmirror⟩
    exact (h.known hmirror).resolve_right (by simp [hidle])

/-! ## Steps -/

variable [DecidableEq κ] [DecidableEq ι]

inductive Step : Mirrored κ α ι → Action κ α ι → Mirrored κ α ι → Prop
  | write {s : Mirrored κ α ι} {i : ι} {k : κ} {v : α} (hidle : s.pending i = none) :
      Step s (.write i k v)
        { s with
          present := insert k s.present
          written := update s.written k (some (i, v))
          pending := update s.pending i (some (k, v)) }
  | flush {s : Mirrored κ α ι} {i : ι} {k : κ} {v : α} (hpending : s.pending i = some (k, v)) :
      Step s (.flush i)
        { s with
          mirror := update s.mirror k (some v)
          pending := update s.pending i none }
  | drop {s : Mirrored κ α ι} {k : κ} (hidle : s.dropping = none) :
      Step s (.drop k)
        { s with
          present := s.present \ {k}
          dropping := some k }
  | flushDrop {s : Mirrored κ α ι} {k : κ} (hdropping : s.dropping = some k) :
      Step s .flushDrop
        { s with
          mirror := update s.mirror k none
          dropping := none }

/-! ## What a step leaves in flight -/

section Pending

variable {β : Type*} {f : ι → Option β} {i j : ι} {x y : β}

/-- A writer that had nothing in flight displaces nothing. -/
theorem update_of_idle (hi : f i = none) (y : β) (hj : f j = some x) :
    update f i (some y) j = some x := by
  have hji : j ≠ i := by
    rintro rfl
    rw [hi] at hj
    cases hj
  rw [update_of_ne hji, hj]

/-- A writer that is done takes away only what it had in flight. -/
theorem update_of_done (hi : f i = some y) (hne : x ≠ y) (hj : f j = some x) :
    update f i none j = some x := by
  have hji : j ≠ i := by
    rintro rfl
    rw [hi] at hj
    exact hne (Option.some.inj hj).symm
  rw [update_of_ne hji, hj]

theorem of_update_none (h : update f i none j = some x) : f j = some x := by
  have hji : j ≠ i := by
    rintro rfl
    rw [update_self] at h
    cases h
  rwa [update_of_ne hji] at h

/-- What is in flight after a write is the write itself or was in flight before. -/
theorem of_update_some (h : update f i (some y) j = some x) : (j = i ∧ x = y) ∨ f j = some x := by
  by_cases hji : j = i
  · subst hji
    rw [update_self] at h
    exact .inl ⟨rfl, (Option.some.inj h).symm⟩
  · rw [update_of_ne hji] at h
    exact .inr h

end Pending

/-! ## The last writer is followed -/

section Followed

variable {s : Mirrored κ α ι} {i : ι} {k : κ} {v : α}

theorem Followed.write (h : Followed s) (hidle : s.pending i = none) :
    Followed
      { s with
        present := insert k s.present
        written := update s.written k (some (i, v))
        pending := update s.pending i (some (k, v)) } where
  latest := by
    intro j k' v' w hpending hwritten
    dsimp only at hpending hwritten
    by_cases hk : k' = k
    · subst hk
      rw [update_self] at hwritten
      cases hwritten
      rw [update_self] at hpending
      cases hpending
      rfl
    · -- another key, so the new write is neither the last nor the one in flight
      rw [update_of_ne hk] at hwritten
      rcases of_update_some hpending with ⟨_, hnew⟩ | hold
      · exact absurd (congrArg Prod.fst hnew) hk
      · exact h.latest hold hwritten
  settled := by
    intro k' j w hwritten
    dsimp only at hwritten
    by_cases hk : k' = k
    · subst hk
      rw [update_self] at hwritten
      cases hwritten
      exact .inl (update_self ..)
    · rw [update_of_ne hk] at hwritten
      exact (h.settled hwritten).imp_left (update_of_idle hidle _)

/-- Reaching the mirror in order: the last writer is this one, or its write still follows. -/
theorem Followed.flush (h : Followed s) (hpending : s.pending i = some (k, v))
    (hok : InOrder s (.flush i)) :
    Followed
      { s with
        mirror := update s.mirror k (some v)
        pending := update s.pending i none } where
  latest := fun hpending' hwritten => h.latest (of_update_none hpending') hwritten
  settled := by
    intro k' j w hwritten
    by_cases hk : k' = k
    · subst hk
      by_cases hj : j = i
      · subst hj
        -- the last writer is the one that flushes
        rw [h.latest hpending hwritten]
        exact .inr (update_self ..)
      -- a later writer is still pending, and its write will follow
      · rcases (hok _ _ _ _ hpending hwritten).resolve_left hj with ⟨w', hpending'⟩
        rw [h.latest hpending' hwritten]
        exact .inl ((update_of_ne hj ..).trans hpending')
    · have hne : (k', w) ≠ (k, v) := fun heq => hk (congrArg Prod.fst heq)
      exact (h.settled hwritten).imp (update_of_done hpending hne) (update_of_ne hk ..).trans

end Followed

theorem Followed.step {s t : Mirrored κ α ι} {a : Action κ α ι} (h : Followed s)
    (hstep : Guarded InOrder Step s a t) : Followed t := by
  rcases hstep with ⟨hok, hstep⟩
  cases hstep with
  | write hidle => exact h.write hidle
  | flush hpending => exact h.flush hpending hok
  | drop _ => exact hok.elim
  | flushDrop _ => exact hok.elim

/-! ## The keys are covered -/

section Covered

variable {s : Mirrored κ α ι} {i : ι} {k : κ} {v : α}

theorem Covered.write (h : Covered s) (hidle : s.pending i = none) :
    Covered
      { s with
        present := insert k s.present
        written := update s.written k (some (i, v))
        pending := update s.pending i (some (k, v)) } where
  mirrored := by
    intro k' hk'
    rcases hk' with rfl | hk'
    · exact .inr ⟨i, v, update_self ..⟩
    · exact (h.mirrored hk').imp_right fun ⟨j, w, hpending⟩ =>
        ⟨j, w, update_of_idle hidle _ hpending⟩
  known := fun hmirror => (h.known hmirror).imp_left (.inr ·)
  pending := by
    rintro k' ⟨j, w, hpending⟩
    rcases of_update_some hpending with ⟨_, hnew⟩ | hold
    · exact .inl (congrArg Prod.fst hnew)
    · exact .inr (h.pending ⟨j, w, hold⟩)

theorem Covered.flush (h : Covered s) (hpending : s.pending i = some (k, v)) :
    Covered
      { s with
        mirror := update s.mirror k (some v)
        pending := update s.pending i none } where
  mirrored := by
    intro k' hk'
    -- the key just written is mirrored; the others keep what covered them
    by_cases hk : k' = k
    · subst hk
      exact .inl ⟨v, update_self ..⟩
    · rcases h.mirrored hk' with ⟨w, hmirror⟩ | ⟨j, w, hpending'⟩
      · exact .inl ⟨w, (update_of_ne hk ..).trans hmirror⟩
      · have hne : (k', w) ≠ (k, v) := fun heq => hk (congrArg Prod.fst heq)
        exact .inr ⟨j, w, update_of_done hpending hne hpending'⟩
  known := by
    intro k' v' hmirror
    by_cases hk : k' = k
    · subst hk
      exact .inl (h.pending ⟨i, v, hpending⟩)
    · exact h.known ((update_of_ne hk ..).symm.trans hmirror)
  pending := fun ⟨j, w, hpending'⟩ => h.pending ⟨j, w, of_update_none hpending'⟩

omit [DecidableEq ι] in
/-- A key is dropped with no write to it in flight, so the other keys keep theirs. -/
theorem Covered.drop (h : Covered s) (hidle : s.dropping = none) (hok : ¬ s.InFlight k) :
    Covered
      { s with
        present := s.present \ {k}
        dropping := some k } where
  mirrored := fun hk' => h.mirrored hk'.1
  known := by
    intro k' v' hmirror
    -- the dropped key is the one being removed, so the mirror may still know it
    by_cases hk : k' = k
    · exact .inr (congrArg some hk.symm)
    · rcases h.known hmirror with hk' | hdropping
      · exact .inl ⟨hk', hk⟩
      · rw [hidle] at hdropping
        cases hdropping
  pending := by
    intro k' hflight
    refine ⟨h.pending hflight, ?_⟩
    rintro rfl
    exact hok hflight

omit [DecidableEq ι] in
/-- A key that is back by the time its removal is finished has its write still to come. -/
theorem Covered.flushDrop (h : Covered s) (hdropping : s.dropping = some k)
    (hok : k ∈ s.present → s.InFlight k) :
    Covered
      { s with
        mirror := update s.mirror k none
        dropping := none } where
  mirrored := by
    intro k' hk'
    by_cases hk : k' = k
    · subst hk
      exact .inr (hok hk')
    · exact (h.mirrored hk').imp_left fun ⟨w, hmirror⟩ =>
        ⟨w, (update_of_ne hk ..).trans hmirror⟩
  known := by
    intro k' v' hmirror
    dsimp only at hmirror
    -- the key that was dropped is gone from the mirror
    have hk : k' ≠ k := by
      rintro rfl
      rw [update_self] at hmirror
      cases hmirror
    rw [update_of_ne hk] at hmirror
    rcases h.known hmirror with hk' | hdropping'
    · exact .inl hk'
    · rw [hdropping] at hdropping'
      exact absurd (Option.some.inj hdropping').symm hk
  pending := h.pending

end Covered

theorem Covered.step {s t : Mirrored κ α ι} {a : Action κ α ι} (h : Covered s)
    (hstep : Guarded RaceFree Step s a t) : Covered t := by
  rcases hstep with ⟨hok, hstep⟩
  cases hstep with
  | write hidle => exact h.write hidle
  | flush hpending => exact h.flush hpending
  | drop hidle => exact h.drop hidle hok
  | flushDrop hdropping => exact h.flushDrop hdropping (hok _ hdropping)

end Mirrored
