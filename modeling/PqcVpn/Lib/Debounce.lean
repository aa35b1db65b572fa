import Mathlib.Data.List.Induction

/-!
# Debouncing — confirmation streaks, cooldowns and run lengths

Counters that turn a noisy input into events.  A *streak* fires for a key once `c` inputs in a row
have asked for it, and starts over when it fires.  A *cooldown* lets a request through and refuses
the next ones for `c` steps.  A *run length* counts the hits a log ends in, and never starts over
but on a miss.  Each keeps a number in place of the past; the laws say exactly which past makes it
fire.
-/

namespace Debounce

variable {α κ : Type*}

/-! ## The last entries of a log -/

/-- The last `n` entries of a log, latest first. -/
def recent (n : Nat) (log : List α) : List α := log.reverse.take n

@[simp] theorem recent_zero (log : List α) : recent 0 log = [] := by
  simp [recent]

@[simp] theorem recent_nil (n : Nat) : recent n ([] : List α) = [] := by
  simp [recent]

@[simp] theorem recent_snoc (n : Nat) (log : List α) (e : α) :
    recent (n + 1) (log ++ [e]) = e :: recent n log := by
  simp [recent]

theorem recent_map {β : Type*} (f : α → β) (n : Nat) (log : List α) :
    recent n (log.map f) = (recent n log).map f := by
  rw [recent, recent, ← List.map_reverse, List.map_take]

/-- By position: the last `n` entries are those at distance at most `n` from the end. -/
theorem forall_recent_iff {n : Nat} {log : List α} {P : α → Prop} :
    (∀ e ∈ recent n log, P e) ↔ ∀ j (h : j < log.length), log.length ≤ j + n → P log[j] := by
  constructor
  · intro hall j hj hn
    refine hall _ ?_
    rw [recent, List.mem_take_iff_getElem]
    refine ⟨log.length - 1 - j, by simp; omega, ?_⟩
    rw [List.getElem_reverse]
    congr 1
    omega
  · intro hall e he
    rw [recent, List.mem_take_iff_getElem] at he
    rcases he with ⟨i, hi, rfl⟩
    rw [List.length_reverse] at hi
    rw [List.getElem_reverse]
    exact hall _ _ (by omega)

/-- The last `n` of the first `i` entries are those before position `i` at distance at most `n`. -/
theorem forall_recent_take_iff {n i : Nat} {log : List α} {P : α → Prop} (hi : i ≤ log.length) :
    (∀ e ∈ recent n (log.take i), P e) ↔
      ∀ j (h : j < log.length), j < i → i ≤ j + n → P log[j] := by
  rw [forall_recent_iff]
  simp only [List.length_take, Nat.min_eq_left hi, List.getElem_take]
  constructor
  · intro hall j _ hj hn
    exact hall j hj hn
  · intro hall j hj hn
    exact hall j (Nat.lt_of_lt_of_le hj hi) hj hn

/-! ## Streaks -/

/-- The key the inputs ask for, and for how many inputs they have. -/
structure Streak (κ : Type*) where
  candidate : Option κ
  count : Nat

namespace Streak

variable [DecidableEq κ]

def fresh : Streak κ := ⟨none, 0⟩

/-- Count one input; `none` asks for nothing. -/
def feed (s : Streak κ) : Option κ → Streak κ
  | none => fresh
  | some k => if s.candidate = some k then ⟨some k, s.count + 1⟩ else ⟨some k, 1⟩

/-- Count one input, and fire when it is the `c`-th in a row. -/
def step (c : Nat) (s : Streak κ) (x : Option κ) : Option κ × Streak κ :=
  if x ≠ none ∧ c ≤ (s.feed x).count then (x, fresh) else (none, s.feed x)

/-- The state after the inputs of a log, whose entries are the inputs with what they fired. -/
structure Tracks (log : List (Option κ × Option κ)) (s : Streak κ) : Prop where
  counts : ∀ k n, 1 ≤ n → ((s.candidate = some k ∧ n ≤ s.count) ↔
    (n ≤ log.length ∧ ∀ e ∈ recent n log, e = (some k, none)))
  fired : ∀ e ∈ log, e.2 = none ∨ e.2 = e.1

omit [DecidableEq κ] in
theorem tracks_fresh : Tracks ([] : List (Option κ × Option κ)) fresh where
  counts := by
    intro k n hn
    simp only [fresh, reduceCtorEq, false_and, List.length_nil, false_iff, not_and]
    omega
  fired := by
    intro e he
    cases he

theorem feed_none (s : Streak κ) : s.feed none = fresh := rfl

theorem feed_some (s : Streak κ) (k : κ) :
    s.feed (some k) = if s.candidate = some k then ⟨some k, s.count + 1⟩ else ⟨some k, 1⟩ := rfl

/-- An input that asks for a key extends the streak of that key and of no other. -/
theorem lt_count_feed {s : Streak κ} {k : κ} {n : Nat} :
    n < (s.feed (some k)).count ↔ n = 0 ∨ (s.candidate = some k ∧ n ≤ s.count) := by
  rw [feed_some]
  split
  · rename_i h
    simp only [h, true_and]
    omega
  · rename_i h
    simp only [h, false_and, or_false]
    omega

@[simp] theorem candidate_feed (s : Streak κ) (x : Option κ) : (s.feed x).candidate = x := by
  cases x with
  | none => rfl
  | some k =>
      rw [feed_some]
      split <;> rfl

theorem step_of_none (c : Nat) (s : Streak κ) : s.step c none = (none, fresh) := by
  simp [step, feed_none]

theorem step_of_fires {c : Nat} {s : Streak κ} {k : κ} (h : c ≤ (s.feed (some k)).count) :
    s.step c (some k) = (some k, fresh) := by
  simp [step, h]

theorem step_of_waits {c : Nat} {s : Streak κ} {k : κ} (h : (s.feed (some k)).count < c) :
    s.step c (some k) = (none, s.feed (some k)) := by
  have hlt : ¬ c ≤ (s.feed (some k)).count := by omega
  simp [step, hlt]

theorem Tracks.step {log : List (Option κ × Option κ)} {s : Streak κ} (h : Tracks log s) (c : Nat)
    (x : Option κ) : Tracks (log ++ [(x, (s.step c x).1)]) (s.step c x).2 := by
  have hfired : ∀ o, (o = none ∨ o = x) → ∀ e ∈ log ++ [(x, o)], e.2 = none ∨ e.2 = e.1 := by
    intro o ho e he
    rcases List.mem_append.1 he with hlog | hlast
    · exact h.fired e hlog
    · cases List.mem_singleton.1 hlast
      exact ho
  -- a log that ends in anything but a counted request for `k` has no streak of `k`
  have hbroken : ∀ o, (∀ k, (x, o) ≠ (some k, none)) → ∀ k n, 1 ≤ n →
      (((fresh : Streak κ).candidate = some k ∧ n ≤ (fresh : Streak κ).count) ↔
        (n ≤ (log ++ [(x, o)]).length ∧ ∀ e ∈ recent n (log ++ [(x, o)]), e = (some k, none))) := by
    intro o ho k n hn
    obtain ⟨m, rfl⟩ := Nat.exists_eq_add_of_le' hn
    constructor
    · rintro ⟨hcand, _⟩
      cases hcand
    · rintro ⟨_, hall⟩
      rw [recent_snoc] at hall
      exact absurd (hall _ List.mem_cons_self) (ho k)
  cases x with
  | none =>
      rw [step_of_none]
      exact ⟨hbroken none (by simp), hfired none (.inl rfl)⟩
  | some y =>
      by_cases hc : c ≤ (s.feed (some y)).count
      · rw [step_of_fires hc]
        exact ⟨hbroken (some y) (by simp), hfired (some y) (.inr rfl)⟩
      · rw [step_of_waits (by omega)]
        refine ⟨?_, hfired none (.inl rfl)⟩
        intro k n hn
        obtain ⟨m, rfl⟩ := Nat.exists_eq_add_of_le' hn
        have hcounts := h.counts k m
        -- the new input, and then the streak it extends
        rw [candidate_feed, recent_snoc, List.forall_mem_cons, List.length_append,
          List.length_singleton, Nat.succ_le_iff, lt_count_feed]
        simp only [Option.some.injEq, Prod.mk.injEq, and_true, Nat.add_le_add_iff_right]
        cases m with
        | zero =>
            simp
        | succ m =>
            have hm := hcounts (by omega)
            constructor
            · rintro ⟨rfl, hzero | hrun⟩
              · omega
              · exact ⟨(hm.1 hrun).1, rfl, (hm.1 hrun).2⟩
            · rintro ⟨hlen, rfl, hall⟩
              exact ⟨rfl, .inr (hm.2 ⟨hlen, hall⟩)⟩

/-- A streak fires for `k` exactly when the last `c` inputs asked for `k` and nothing fired
among them before. -/
theorem Tracks.fires_iff {log : List (Option κ × Option κ)} {s : Streak κ} (h : Tracks log s)
    {c : Nat} (hc : 1 ≤ c) {x : Option κ} {k : κ} :
    (s.step c x).1 = some k ↔
      x = some k ∧ c ≤ log.length + 1 ∧ ∀ e ∈ recent (c - 1) log, e = (some k, none) := by
  cases x with
  | none =>
      simp [step_of_none]
  | some y =>
      obtain ⟨m, rfl⟩ := Nat.exists_eq_add_of_le' hc
      -- the streak with this input is full when the `m` inputs before it belong to the key
      have hrun : m + 1 ≤ (s.feed (some y)).count ↔
          m ≤ log.length ∧ ∀ e ∈ recent m log, e = (some y, none) := by
        rw [Nat.succ_le_iff, lt_count_feed]
        cases m with
        | zero =>
            simp
        | succ m =>
            have hm := h.counts y (m + 1) (by omega)
            constructor
            · rintro (hzero | hrun)
              · omega
              · exact hm.1 hrun
            · intro hall
              exact .inr (hm.2 hall)
      by_cases hfire : m + 1 ≤ (s.feed (some y)).count
      · rw [step_of_fires hfire]
        have hpast := hrun.1 hfire
        constructor
        · intro hy
          cases hy
          exact ⟨rfl, by omega, hpast.2⟩
        · rintro ⟨hy, _, _⟩
          exact hy
      · rw [step_of_waits (by omega)]
        constructor
        · intro hnone
          cases hnone
        · rintro ⟨hy, hlen, hall⟩
          cases hy
          exact absurd (hrun.2 ⟨by omega, hall⟩) hfire

/-- When a key that has fired is not asked for next, the inputs alone decide: the streak fires for
`k` exactly when the last `c` inputs asked for `k`. -/
theorem Tracks.fires_iff_inputs {log : List (Option κ × Option κ)} {s : Streak κ}
    (h : Tracks log s) {c : Nat} (hc : 1 ≤ c) {x : Option κ} {k : κ}
    {full : List (Option κ × Option κ)} (hfull : full = log ++ [(x, (s.step c x).1)])
    (hsettled : ∀ j (hj : j + 1 < full.length), full[j].2 = some k → full[j + 1].1 ≠ some k) :
    (s.step c x).1 = some k ↔ c ≤ full.length ∧ ∀ e ∈ recent c full, e.1 = some k := by
  obtain ⟨m, rfl⟩ := Nat.exists_eq_add_of_le' hc
  have hlen : full.length = log.length + 1 := by rw [hfull, List.length_append]; rfl
  have hrecent : recent (m + 1) full = (x, (s.step (m + 1) x).1) :: recent m log := by
    rw [hfull, recent_snoc]
  rw [h.fires_iff hc, hlen, Nat.add_sub_cancel, hrecent, List.forall_mem_cons]
  constructor
  · rintro ⟨hx, hle, hall⟩
    refine ⟨hle, hx, ?_⟩
    intro e he
    rw [hall e he]
  · rintro ⟨hle, hx, hall⟩
    refine ⟨hx, hle, ?_⟩
    rw [forall_recent_iff] at hall ⊢
    intro j hj hm
    have hinput := hall j hj hm
    have hnow : j < full.length := by omega
    have hthen : j + 1 < full.length := by omega
    have hentry : full[j] = log[j] := by
      simp only [hfull, List.getElem_append_left hj]
    have hnext : full[j + 1].1 = some k := by
      by_cases hlast : j + 1 < log.length
      · simp only [hfull, List.getElem_append_left hlast]
        exact hall (j + 1) hlast (by omega)
      · have : j + 1 = log.length := by omega
        simp only [hfull, this, List.getElem_append_right Nat.le.refl, Nat.sub_self,
          List.getElem_singleton]
        exact hx
    -- had the streak fired at `j`, the next input could not ask for `k` again
    rcases h.fired log[j] (List.getElem_mem hj) with hnone | hsame
    · exact Prod.ext hinput hnone
    · have hfired : full[j].2 = some k := by rw [hentry, hsame, hinput]
      exact absurd hnext (hsettled j hthen hfired)

end Streak

/-! ## Cooldowns -/

namespace Cooldown

/-- One step of a cooldown of `c` steps: the counter runs down, and a request goes through when it
has reached zero. -/
def step (c blocked : Nat) (request : Bool) : Bool × Nat :=
  if request = true ∧ blocked - 1 = 0 then (true, c) else (false, blocked - 1)

/-- The counter after a log of what each step let through. -/
def Tracks (c : Nat) (log : List Bool) (blocked : Nat) : Prop :=
  ∀ m, blocked ≤ m ↔ ∀ e ∈ recent (c - m) log, e = false

theorem tracks_zero (c : Nat) : Tracks c [] 0 := by
  intro m
  simp

theorem Tracks.step {c : Nat} {log : List Bool} {blocked : Nat} (h : Tracks c log blocked)
    (request : Bool) :
    Tracks c (log ++ [(step c blocked request).1]) (step c blocked request).2 := by
  intro m
  unfold Cooldown.step
  split
  · rename_i hfire
    cases hm : c - m with
    | zero =>
        simp
        omega
    | succ n =>
        simp
        omega
  · rename_i hwait
    -- a step that lets nothing through looks one entry further back
    have hrun := h (m + 1)
    have hle : blocked ≤ c := (h c).2 (by simp)
    cases hm : c - m with
    | zero =>
        simp
        omega
    | succ n =>
        rw [recent_snoc, List.forall_mem_cons, show n = c - (m + 1) by omega, ← hrun]
        simp

/-- A request goes through exactly when none did in the last `c - 1` steps. -/
theorem Tracks.fires_iff {c : Nat} {log : List Bool} {blocked : Nat} (h : Tracks c log blocked)
    {request : Bool} :
    (Cooldown.step c blocked request).1 = true ↔
      request = true ∧ ∀ e ∈ recent (c - 1) log, e = false := by
  have hrun : blocked - 1 = 0 ↔ blocked ≤ 1 := by omega
  rw [← h 1, ← hrun]
  unfold Cooldown.step
  split
  · rename_i hfire
    simp [hfire]
  · rename_i hwait
    simp only [Bool.false_eq_true, false_iff]
    exact hwait

end Cooldown

/-! ## Run lengths -/

/-- `P` holds at `i` and the `n - 1` positions before it. -/
def Sustained (n : Nat) (P : Nat → Prop) (i : Nat) : Prop :=
  n ≤ i + 1 ∧ ∀ j, j ≤ i → i < j + n → P j

/-- A count after one more input: one up on a hit, back to zero on a miss. -/
def extend (n : Nat) (hit : Bool) : Nat := if hit then n + 1 else 0

/-- The length of the run of hits a log ends in. -/
def runLength (log : List Bool) : Nat := log.foldl extend 0

@[simp] theorem runLength_snoc (log : List Bool) (hit : Bool) :
    runLength (log ++ [hit]) = extend (runLength log) hit := by
  simp [runLength]

theorem le_runLength_iff {n : Nat} {log : List Bool} :
    n ≤ runLength log ↔ n ≤ log.length ∧ ∀ e ∈ recent n log, e = true := by
  -- induction on the log from its end; a hit looks one entry less far back
  induction log using List.reverseRecOn generalizing n with
  | nil =>
      simp [runLength]
  | append_singleton log hit ih =>
      rw [runLength_snoc]
      cases n with
      | zero =>
          simp
      | succ n =>
          rw [recent_snoc, List.forall_mem_cons, List.length_append, List.length_singleton]
          cases hit with
          | false =>
              simp [extend]
          | true =>
              simp only [extend, if_true, Nat.add_le_add_iff_right, true_and]
              exact ih

/-- The count over the first `i + 1` entries reaches `n` when the hits have been sustained. -/
theorem le_runLength_take_iff {n i : Nat} {log : List Bool} (hi : i < log.length) :
    n ≤ runLength (log.take (i + 1)) ↔ Sustained n (fun j => log[j]? = some true) i := by
  rw [le_runLength_iff, List.length_take, Nat.min_eq_left hi, forall_recent_take_iff hi, Sustained]
  refine and_congr_right fun _ => ?_
  constructor
  · intro hall j hj hn
    have hlt : j < log.length := by omega
    rw [List.getElem?_eq_getElem hlt, hall j hlt (by omega) (by omega)]
  · intro hall j hlt hj hn
    have hget := hall j (by omega) (by omega)
    rw [List.getElem?_eq_getElem hlt] at hget
    exact Option.some.inj hget

end Debounce
