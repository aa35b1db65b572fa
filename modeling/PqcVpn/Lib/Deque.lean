import Mathlib.Data.List.DropRight

/-!
# Bounded deques — the last entries of a stream

A deque with a maximal length: appending to a full one drops the oldest entry.  After any stream it
holds the stream's last `maxlen` entries.
-/

structure Deque (α : Type*) where
  maxlen : Nat
  items : List α
  length_le : items.length ≤ maxlen

namespace Deque

variable {α : Type*}

@[ext] theorem ext {d e : Deque α} (hmaxlen : d.maxlen = e.maxlen) (hitems : d.items = e.items) :
    d = e := by
  cases d
  cases e
  cases hmaxlen
  cases hitems
  rfl

def empty (maxlen : Nat) : Deque α := ⟨maxlen, [], Nat.zero_le _⟩

/-- Append on the right; the oldest entry leaves on the left once there are too many. -/
def append (d : Deque α) (x : α) : Deque α where
  maxlen := d.maxlen
  items := if d.items.length < d.maxlen then d.items ++ [x] else (d.items ++ [x]).tail
  length_le := by
    have := d.length_le
    split
    · simp only [List.length_append, List.length_singleton]
      omega
    · simp only [List.length_tail, List.length_append, List.length_singleton]
      omega

/-- The deque holds the last `maxlen` entries of `log`. -/
def Holds (d : Deque α) (log : List α) : Prop := d.items = log.rtake d.maxlen

theorem holds_empty (maxlen : Nat) : (empty maxlen : Deque α).Holds [] :=
  (List.rtake_nil maxlen).symm

theorem Holds.append {d : Deque α} {log : List α} (h : d.Holds log) (x : α) :
    (d.append x).Holds (log ++ [x]) := by
  change (if d.items.length < d.maxlen then d.items ++ [x] else (d.items ++ [x]).tail) =
    (log ++ [x]).rtake d.maxlen
  -- the deque holds `log` without its first `log.length - maxlen` entries
  rw [h, List.rtake, List.rtake, List.length_append, List.length_singleton, List.length_drop]
  split
  · -- there is room for everything so far
    have hlog : log.length - d.maxlen = 0 := by omega
    have hnext : log.length + 1 - d.maxlen = 0 := by omega
    rw [hlog, hnext, List.drop_zero, List.drop_zero]
  · -- the oldest entry makes room
    have hnext : log.length + 1 - d.maxlen = log.length - d.maxlen + 1 := by omega
    rw [hnext, ← List.drop_append_of_le_length (Nat.sub_le _ _), List.tail_drop]

/-- A deque that is not full yet holds everything. -/
theorem Holds.items_of_le {d : Deque α} {log : List α} (h : d.Holds log)
    (hle : log.length ≤ d.maxlen) : d.items = log := by
  rw [h, List.rtake, Nat.sub_eq_zero_of_le hle, List.drop_zero]

/-- By position: what a deque of length `n` holds after entry `j` of a stream. -/
theorem mem_rtake_take_iff {log : List α} {n j : Nat} (hj : j < log.length) {x : α} :
    x ∈ (log.take (j + 1)).rtake n ↔ ∃ i, i ≤ j ∧ j < i + n ∧ log[i]? = some x := by
  rw [List.rtake, List.length_take, Nat.min_eq_left hj, List.mem_iff_getElem?]
  constructor
  · rintro ⟨i, hi⟩
    rw [List.getElem?_drop, List.getElem?_take] at hi
    split at hi
    · rename_i hlt
      exact ⟨j + 1 - n + i, by omega, by omega, hi⟩
    · cases hi
  · rintro ⟨i, hle, hlt, hi⟩
    refine ⟨i - (j + 1 - n), ?_⟩
    rw [List.getElem?_drop, List.getElem?_take_of_lt (by omega), ← hi]
    congr 1
    omega

end Deque
