import Mathlib.Data.Finmap

/-!
# Tables — finite maps without an iteration order

`Table κ ν` is a finite map from keys to values of one type.  Its values form a multiset: a hash map
promises no order of iteration.
-/

abbrev Table (κ ν : Type*) : Type _ := Finmap fun _ : κ => ν

namespace Table

variable {κ ν : Type*}

/-- The values, in no particular order. -/
def values (m : Table κ ν) : Multiset ν := m.entries.map Sigma.snd

theorem card_values (m : Table κ ν) : (values m).card = m.keys.card := by
  induction m using Finmap.induction_on with
  | H a => simp [values, Finmap.keys, Multiset.keys, Finset.card]

variable [DecidableEq κ]

theorem mem_values_iff {m : Table κ ν} {v : ν} : v ∈ values m ↔ ∃ k, m.lookup k = some v := by
  unfold values
  constructor
  · intro hv
    rcases Multiset.mem_map.1 hv with ⟨⟨k, w⟩, hmem, rfl⟩
    exact ⟨k, Finmap.lookup_eq_some_iff.2 hmem⟩
  · rintro ⟨k, hk⟩
    exact Multiset.mem_map.2 ⟨⟨k, v⟩, Finmap.lookup_eq_some_iff.1 hk, rfl⟩

theorem lookup_insert_eq (m : Table κ ν) (k j : κ) (v : ν) :
    (m.insert k v).lookup j = if j = k then some v else m.lookup j := by
  by_cases h : j = k
  · subst h
    simp
  · rw [Finmap.lookup_insert_of_ne m h, if_neg h]

theorem lookup_erase_eq (m : Table κ ν) (k j : κ) :
    (m.erase k).lookup j = if j = k then none else m.lookup j := by
  by_cases h : j = k
  · subst h
    simp
  · rw [Finmap.lookup_erase_ne h, if_neg h]

/-- Writing back what a key holds changes nothing. -/
theorem insert_of_lookup {m : Table κ ν} {k : κ} {v : ν} (h : m.lookup k = some v) :
    m.insert k v = m := by
  refine Finmap.ext_lookup fun j => ?_
  rw [lookup_insert_eq]
  by_cases hj : j = k
  · rw [if_pos hj, hj, h]
  · rw [if_neg hj]

theorem insert_eq_self_iff {m : Table κ ν} {k : κ} {v : ν} :
    m.insert k v = m ↔ m.lookup k = some v := by
  constructor
  · intro h
    rw [← h, Finmap.lookup_insert]
  · exact insert_of_lookup

theorem keys_insert (m : Table κ ν) (k : κ) (v : ν) :
    (m.insert k v).keys = insert k m.keys := by
  ext j
  simp [Finmap.mem_keys]

theorem keys_erase (m : Table κ ν) (k : κ) : (m.erase k).keys = m.keys.erase k := by
  ext j
  rw [Finset.mem_erase, Finmap.mem_keys, Finmap.mem_keys, Finmap.mem_erase]

/-! ## Tables with related values -/

section Pointwise

variable {μ : Type*} {R : ν → μ → Prop} {m : Table κ ν} {n : Table κ μ}

/-- The same keys, with related values. -/
def Pointwise (R : ν → μ → Prop) (m : Table κ ν) (n : Table κ μ) : Prop :=
  ∀ k, Option.Rel R (m.lookup k) (n.lookup k)

namespace Pointwise

theorem lookup_cases (h : Pointwise R m n) (k : κ) :
    (m.lookup k = none ∧ n.lookup k = none) ∨
      ∃ v w, m.lookup k = some v ∧ n.lookup k = some w ∧ R v w := by
  have hk := h k
  cases hv : m.lookup k with
  | none =>
      cases hw : n.lookup k with
      | none => exact .inl ⟨rfl, rfl⟩
      | some w =>
          rw [hv, hw] at hk
          cases hk
  | some v =>
      cases hw : n.lookup k with
      | none =>
          rw [hv, hw] at hk
          cases hk
      | some w =>
          rw [hv, hw] at hk
          cases hk with
          | some hvw => exact .inr ⟨v, w, rfl, rfl, hvw⟩

theorem mem_iff (h : Pointwise R m n) {k : κ} : k ∈ m ↔ k ∈ n := by
  rw [Finmap.mem_iff, Finmap.mem_iff]
  rcases h.lookup_cases k with ⟨hv, hw⟩ | ⟨v, w, hv, hw, _⟩ <;> simp [hv, hw]

theorem keys_eq (h : Pointwise R m n) : m.keys = n.keys := by
  ext k
  rw [Finmap.mem_keys, Finmap.mem_keys, h.mem_iff]

theorem insert (h : Pointwise R m n) (k : κ) {v : ν} {w : μ} (hvw : R v w) :
    Pointwise R (m.insert k v) (n.insert k w) := by
  intro j
  rw [lookup_insert_eq, lookup_insert_eq]
  split
  · exact .some hvw
  · exact h j

theorem erase (h : Pointwise R m n) (k : κ) : Pointwise R (m.erase k) (n.erase k) := by
  intro j
  rw [lookup_erase_eq, lookup_erase_eq]
  split
  · exact .none
  · exact h j

end Pointwise

end Pointwise

/-! ## Filling a table -/

/-- Insert the listed entries in order; a later entry replaces an earlier one at its key. -/
def insertAll (m : Table κ ν) (entries : List (κ × ν)) : Table κ ν :=
  entries.foldl (fun m e => m.insert e.1 e.2) m

@[simp] theorem insertAll_cons (m : Table κ ν) (e : κ × ν) (entries : List (κ × ν)) :
    insertAll m (e :: entries) = insertAll (m.insert e.1 e.2) entries := rfl

theorem insertAll_append (m : Table κ ν) (entries : List (κ × ν)) (e : κ × ν) :
    insertAll m (entries ++ [e]) = (insertAll m entries).insert e.1 e.2 :=
  List.foldl_append

/-- A key holds the last entry listed for it. -/
theorem lookup_insertAll (entries : List (κ × ν)) (k : κ) :
    (insertAll ∅ entries).lookup k = (entries.reverse.find? fun e => e.1 = k).map Prod.snd := by
  induction entries using List.reverseRecOn with
  | nil => exact Finmap.lookup_empty k
  | append_singleton entries e ih =>
      rw [insertAll_append, lookup_insert_eq, ih, List.reverse_append, List.reverse_singleton,
        List.singleton_append, List.find?_cons]
      by_cases hk : k = e.1
      · simp [hk]
      · simp [hk, Ne.symm hk]

theorem lookup_insertAll_of_notMem {m : Table κ ν} {entries : List (κ × ν)} {k : κ}
    (h : ∀ v, (k, v) ∉ entries) : (insertAll m entries).lookup k = m.lookup k := by
  induction entries generalizing m with
  | nil => rfl
  | cons e rest ih =>
      have hne : k ≠ e.1 := by
        rintro rfl
        exact h e.2 (by simp)
      rw [insertAll_cons, ih fun v hv => h v (List.mem_cons_of_mem _ hv),
        Finmap.lookup_insert_of_ne m hne]

theorem lookup_insertAll_of_mem {m : Table κ ν} {entries : List (κ × ν)} {k : κ} {v : ν}
    (hmem : (k, v) ∈ entries) (hfun : ∀ w, (k, w) ∈ entries → w = v) :
    (insertAll m entries).lookup k = some v := by
  induction entries generalizing m with
  | nil => cases hmem
  | cons e rest ih =>
      rw [insertAll_cons]
      by_cases hrest : (k, v) ∈ rest
      · exact ih hrest fun w hw => hfun w (List.mem_cons_of_mem _ hw)
      · have he : (k, v) = e := (List.mem_cons.1 hmem).resolve_right hrest
        rw [lookup_insertAll_of_notMem, ← he, Finmap.lookup_insert]
        intro w hw
        have hwv := hfun w (List.mem_cons_of_mem _ hw)
        exact hrest (hwv ▸ hw)

end Table
