import Mathlib.Data.List.Basic
import PqcVpn.Lib.PrefixFree

/-!
# Decoders that leave no slack

A decoder works on a state that holds unread symbols (`rest`).  `Tiles rest d P` says that whenever
`d` succeeds, what it took off the front of the unread symbols is one word, and that this word and
the value returned stand in the relation `P`.  Tilings compose along `bind`: the words of the parts,
one after another, are the word of the whole.

A decoder is *self-delimiting* when the word it took decides its answer: on any symbols that start
with that word it takes the same word and returns the same value.  Two runs of it cannot part ways
on a shared prefix, so the words it accepts whole are prefix-free.
-/

universe u

variable {σ τ ε : Type u} {α β : Type u} (rest : σ → List τ)

/-- What `d` consumes to return `a` is a word `s` with `P s a`. -/
def Tiles (d : StateT σ (Except ε) α) (P : List τ → α → Prop) : Prop :=
  ∀ r a r', d r = .ok (a, r') → ∃ s, rest r = s ++ rest r' ∧ P s a

namespace Tiles

variable {rest}

/-- Returning a value consumes nothing. -/
theorem pure {a : α} {P : List τ → α → Prop} (h : P [] a) :
    Tiles rest (Pure.pure a : StateT σ (Except ε) α) P := by
  intro r b r' hok
  cases hok
  exact ⟨[], rfl, h⟩

/-- A failure returns no value. -/
theorem throw {e : ε} {P : List τ → α → Prop} :
    Tiles rest (throw e : StateT σ (Except ε) α) P := by
  intro r a r' hok
  cases hok

/-- A fallible computation that does not look at the state. -/
theorem lift {x : Except ε α} {P : List τ → α → Prop} (h : ∀ a, x = .ok a → P [] a) :
    Tiles rest (liftM x : StateT σ (Except ε) α) P := by
  intro r a r' hok
  cases x with
  | error e =>
      cases hok
  | ok b =>
      cases hok
      exact ⟨[], rfl, h _ rfl⟩

/-- The second part goes on with the word of the first in hand. -/
theorem bind {d : StateT σ (Except ε) α} {f : α → StateT σ (Except ε) β}
    {P : List τ → α → Prop} {R : List τ → β → Prop} (hd : Tiles rest d P)
    (hf : ∀ s a, P s a → Tiles rest (f a) (fun t b => R (s ++ t) b)) : Tiles rest (d >>= f) R := by
  intro r b r' hok
  change (d r >>= fun p => f p.1 p.2) = _ at hok
  cases hr : d r with
  | error e =>
      rw [hr] at hok
      cases hok
  | ok p =>
      rw [hr] at hok
      rcases hd r p.1 p.2 hr with ⟨s, hs, hP⟩
      rcases hf s p.1 hP p.2 b r' hok with ⟨t, ht, hR⟩
      refine ⟨s ++ t, ?_, hR⟩
      rw [hs, ht, List.append_assoc]

theorem ite {c : Prop} [Decidable c] {d d' : StateT σ (Except ε) α} {P : List τ → α → Prop}
    (hd : c → Tiles rest d P) (hd' : ¬ c → Tiles rest d' P) : Tiles rest (if c then d else d') P := by
  split
  · rename_i h
    exact hd h
  · rename_i h
    exact hd' h

end Tiles

/-! ## Self-delimiting decoders -/

/-- On any unread symbols that start with `s`, `d` takes `s` and returns `a`. -/
def Takes (d : StateT σ (Except ε) α) (s : List τ) (a : α) : Prop :=
  ∀ q t, rest q = s ++ t → ∃ q', d q = .ok (a, q') ∧ rest q' = t

/-- Whatever `d` succeeds with is decided by the word it took. -/
def SelfDelimiting (d : StateT σ (Except ε) α) : Prop := Tiles rest d (Takes rest d)

namespace SelfDelimiting

variable {rest}

theorem pure (a : α) : SelfDelimiting rest (Pure.pure a : StateT σ (Except ε) α) := by
  refine Tiles.pure ?_
  intro q t h
  exact ⟨q, rfl, h⟩

theorem throw (e : ε) : SelfDelimiting rest (throw e : StateT σ (Except ε) α) := Tiles.throw

theorem lift (x : Except ε α) : SelfDelimiting rest (liftM x : StateT σ (Except ε) α) := by
  refine Tiles.lift ?_
  rintro a rfl q t h
  exact ⟨q, rfl, h⟩

theorem bind {d : StateT σ (Except ε) α} {f : α → StateT σ (Except ε) β}
    (hd : SelfDelimiting rest d) (hf : ∀ a, SelfDelimiting rest (f a)) :
    SelfDelimiting rest (d >>= f) := by
  intro r b r' hok
  change (d r >>= fun p => f p.1 p.2) = _ at hok
  cases hr : d r with
  | error e =>
      rw [hr] at hok
      cases hok
  | ok p =>
      rw [hr] at hok
      rcases hd r p.1 p.2 hr with ⟨s, hs, htakes⟩
      rcases hf p.1 p.2 b r' hok with ⟨t, ht, htakes'⟩
      refine ⟨s ++ t, by rw [hs, ht, List.append_assoc], ?_⟩
      -- another run goes through the same two words
      intro q u hq
      rw [List.append_assoc] at hq
      rcases htakes q _ hq with ⟨q₁, hq₁, hrest₁⟩
      rcases htakes' q₁ u hrest₁ with ⟨q₂, hq₂, hrest₂⟩
      refine ⟨q₂, ?_, hrest₂⟩
      change (d q >>= fun p => f p.1 p.2) = _
      rw [hq₁]
      exact hq₂

theorem ite {c : Prop} [Decidable c] {d d' : StateT σ (Except ε) α} (hd : SelfDelimiting rest d)
    (hd' : SelfDelimiting rest d') : SelfDelimiting rest (if c then d else d') := by
  split
  · exact hd
  · exact hd'

/-- A word that is taken whole is taken in front of anything else. -/
theorem takes_of_whole {d : StateT σ (Except ε) α} (hd : SelfDelimiting rest d) {r r' : σ} {a : α}
    (h : d r = .ok (a, r')) (hend : rest r' = []) : Takes rest d (rest r) a := by
  rcases hd r a r' h with ⟨s, hs, htakes⟩
  rw [hend, List.append_nil] at hs
  rwa [hs]

/-- The words that are taken whole are prefix-free. -/
theorem prefixFree {d : StateT σ (Except ε) α} (hd : SelfDelimiting rest d) :
    PrefixFree {w | ∃ r a r', rest r = w ∧ d r = .ok (a, r') ∧ rest r' = []} := by
  rintro _ ⟨r, a, r', rfl, h, hend⟩ _ ⟨q, b, q', rfl, hq, hqend⟩ ⟨u, hu⟩
  -- the longer word is decoded through the shorter one, and what is left of it is empty
  rcases hd.takes_of_whole h hend q u hu.symm with ⟨q'', hq'', hleft⟩
  rw [hq''] at hq
  cases hq
  rw [hleft] at hqend
  rw [← hu, hqend, List.append_nil]

end SelfDelimiting
