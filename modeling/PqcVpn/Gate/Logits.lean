import Mathlib.Data.Rat.Floor
import Mathlib.Data.Fintype.Basic
import Mathlib.Tactic.FinCases
import PqcVpn.Gate.Laws
import PqcVpn.Lib.Rounding

/-!
# Logits — what the gate is fed

The policy answers with logits and the gate compares probability masses, so `softmax` stands between
them.  Its arithmetic is that of `f32`, rounded at every step: exponentials underflow and two logits
may get one probability, so the choice of the gate need not be that of the logits.  What the gate
acts on still is a difference of logits: whatever it sees as strictly larger comes from a strictly
larger logit.
-/

namespace PqcVpn
namespace Gate

open Crypto (MlKemLevel)
open Rounding Format

variable {K : Type} [Field K] [LinearOrder K] {f : Format K}

/-! ## The softmax -/

/-- What the gate relies on of `f32::exp`. -/
structure LawfulExp (exp : f.Number → f.Number) : Prop where
  exp_zero : exp 0 = 1
  exp_nonneg : ∀ x, 0 ≤ exp x
  exp_mono : Monotone exp

/-- The fold with `f32::max`, from `f32::NEG_INFINITY`. -/
def maxLogit {R : Type} [LinearOrder R] (logits : Probs R) : WithBot R :=
  (List.finRange 4).foldl (fun m i => max m (logits i : WithBot R)) ⊥

section Softmax

variable (exp : f.Number → f.Number)

/-- Logits are finite, and a difference below the least number is the least number here where `f32`
has negative infinity: the exponential of both is zero. -/
def shiftedExp (logits : Probs f.Number) : Probs f.Number :=
  fun i => exp (logits i - (maxLogit logits).unbotD 0)

def expSum (logits : Probs f.Number) : f.Number :=
  Format.sum ((List.finRange 4).map (shiftedExp exp logits))

def softmax (logits : Probs f.Number) : Probs f.Number :=
  fun i => shiftedExp exp logits i / expSum exp logits

end Softmax

/-- A gate with the shipped constants. -/
def DecisionGate.new (inForce : MlKemLevel) : DecisionGate f.Number :=
  withParams inForce 3 (f.rounded 0.15) 12 true

/-! ## The shift -/

theorem maxLogit_eq {R : Type} [LinearOrder R] (logits : Probs R) :
    maxLogit logits = (logits (argmax logits 0 actionCount) : WithBot R) := by
  have hlist : List.finRange 4 = [0, 1, 2, 3] := rfl
  have hle := Python.le_argmax logits
  have hmax : maxLogit logits =
      ((max (max (max (logits 0) (logits 1)) (logits 2)) (logits 3) : R) : WithBot R) := by
    rw [maxLogit, hlist]
    simp only [List.foldl_cons, List.foldl_nil, bot_sup_eq, WithBot.coe_max]
  rw [hmax]
  refine congrArg _ (le_antisymm ?_ ?_)
  · exact max_le (max_le (max_le (hle 0) (hle 1)) (hle 2)) (hle 3)
  · generalize argmax logits 0 actionCount = i
    fin_cases i <;> simp

variable {exp : f.Number → f.Number}

theorem shiftedExp_eq (logits : Probs f.Number) (i : Fin 4) :
    shiftedExp exp logits i = exp (logits i - logits (argmax logits 0 actionCount)) := by
  rw [shiftedExp, maxLogit_eq, WithBot.unbotD_coe]

section Lawful

variable (hexp : LawfulExp exp) (logits : Probs f.Number)
include hexp

/-- The largest exponential is of zero, … -/
theorem shiftedExp_argmax : shiftedExp exp logits (argmax logits 0 actionCount) = 1 := by
  rw [shiftedExp_eq, number_sub_self, hexp.exp_zero]

variable [IsStrictOrderedRing K]

theorem shiftedExp_le_shiftedExp {i j : Fin 4} (h : logits i ≤ logits j) :
    shiftedExp exp logits i ≤ shiftedExp exp logits j := by
  rw [shiftedExp_eq, shiftedExp_eq]
  exact hexp.exp_mono (number_sub_le_sub_right h _)

theorem shiftedExp_mem (i : Fin 4) :
    0 ≤ shiftedExp exp logits i ∧ shiftedExp exp logits i ≤ 1 := by
  refine ⟨hexp.exp_nonneg _, ?_⟩
  rw [← shiftedExp_argmax hexp logits]
  exact shiftedExp_le_shiftedExp hexp logits (Python.le_argmax logits i)

theorem shiftedExp_le_expSum (i : Fin 4) : shiftedExp exp logits i ≤ expSum exp logits := by
  refine le_sum ?_ (List.mem_map_of_mem (List.mem_finRange i))
  intro x hx
  obtain ⟨j, _, rfl⟩ := List.mem_map.1 hx
  exact (shiftedExp_mem hexp logits j).1

/-- … so the division is by no less than one. -/
theorem one_le_expSum : 1 ≤ expSum exp logits := by
  rw [← shiftedExp_argmax hexp logits]
  exact shiftedExp_le_expSum hexp logits _

theorem expSum_pos : 0 < expSum exp logits :=
  number_zero_lt_one.trans_le (one_le_expSum hexp logits)

theorem softmax_mem (i : Fin 4) : 0 ≤ softmax exp logits i ∧ softmax exp logits i ≤ 1 :=
  number_div_mem (shiftedExp_mem hexp logits i).1 (shiftedExp_le_expSum hexp logits i)
    (expSum_pos hexp logits)

theorem softmax_le_softmax {i j : Fin 4} (h : logits i ≤ logits j) :
    softmax exp logits i ≤ softmax exp logits j :=
  number_div_le_div_right (shiftedExp_le_shiftedExp hexp logits h) (expSum_pos hexp logits).le

/-- A larger probability is of a larger logit. -/
theorem lt_of_softmax_lt {i j : Fin 4} (h : softmax exp logits i < softmax exp logits j) :
    logits i < logits j :=
  not_le.1 fun hle => (softmax_le_softmax hexp logits hle).not_gt h

end Lawful

/-! ## Underflow -/

/-- The exponential of every logit but that of `b` underflows. -/
def Dominant (exp : f.Number → f.Number) (logits : Probs f.Number) (b : Fin 4) : Prop :=
  ∀ a, a ≠ b → logits a < logits b ∧ exp (logits a - logits b) = 0

theorem argmax_eq_of_forall_lt {R : Type} [LinearOrder R] {probs : Probs R} {b : Fin 4}
    (h : ∀ a, a ≠ b → probs a < probs b) : argmax probs 0 actionCount = b := by
  by_contra hne
  exact (Python.le_argmax probs b).not_gt (h _ hne)

theorem shiftedExp_of_dominant (hexp : LawfulExp exp) {logits : Probs f.Number} {b : Fin 4}
    (h : Dominant exp logits b) : shiftedExp exp logits = Pi.single b 1 := by
  have hargmax : argmax logits 0 actionCount = b := argmax_eq_of_forall_lt fun a ha => (h a ha).1
  funext a
  by_cases hab : a = b
  · rw [hab, Pi.single_eq_same, ← hargmax, shiftedExp_argmax hexp]
  · rw [Pi.single_eq_of_ne hab, shiftedExp_eq, hargmax, (h a hab).2]

/-- A logit far above the others takes all of the probability. -/
theorem softmax_of_dominant (hexp : LawfulExp exp) [IsStrictOrderedRing K]
    {logits : Probs f.Number} {b : Fin 4} (h : Dominant exp logits b) :
    softmax exp logits = Pi.single b 1 := by
  have hshifted := shiftedExp_of_dominant hexp h
  have hsum : expSum exp logits = 1 := by
    have hlist : List.finRange 4 = [0, 1, 2, 3] := rfl
    rw [expSum, hshifted, hlist, Format.sum]
    fin_cases b <;> simp [number_zero_add, number_add_zero]
  have hone := number_div_self (number_zero_lt_one (f := f))
  funext a
  rw [softmax, hshifted, hsum]
  by_cases hab : a = b
  · rw [hab, Pi.single_eq_same, hone]
  · rw [Pi.single_eq_of_ne hab, number_zero_div]

/-! ## Choices -/

section Choices

variable {R : Type} [LinearOrder R] (probs : Probs R)

/-- The first of several wins, so all before it are smaller. -/
theorem lt_argmax {a : Fin 4} (h : a < argmax probs 0 actionCount) :
    probs a < probs (argmax probs 0 actionCount) := by
  obtain ⟨_, _, hfirst⟩ := List.argmax_eq_some_iff.1 (Python.argmax_all probs)
  have hindex : ∀ i : Fin 4, (List.finRange 4).idxOf i = i.val := by decide
  refine not_le.1 fun hle => ?_
  have hidx := hfirst a (List.mem_finRange a) hle
  rw [hindex, hindex] at hidx
  exact hidx.not_gt h

theorem wireIndex_topKem : wireIndex (topKem probs) = argmax probs 0 rekeyActionIndex :=
  (levelAt_eq_some_iff.1 (levelAt_argmax_kem probs)).symm

theorem lt_topKem {k : MlKemLevel} (h : k < topKem probs) :
    probs (wireIndex k) < probs (wireIndex (topKem probs)) := by
  obtain ⟨_, _, hfirst⟩ := List.argmax_eq_some_iff.1 (Python.argmax_kemActions probs)
  rw [← wireIndex_topKem] at hfirst
  have hindex : ∀ a b : MlKemLevel, a < b →
      wireIndex a ∈ Python.kemActions ∧
        Python.kemActions.idxOf (wireIndex a) < Python.kemActions.idxOf (wireIndex b) := by
    intro a b
    cases a <;> cases b <;> decide
  obtain ⟨hmem, hidx⟩ := hindex k (topKem probs) h
  exact not_le.1 fun hle => (hfirst _ hmem hle).not_gt hidx

end Choices

/-! ## Sessions -/

/-- The parameters of `DecisionGate::new`. -/
def shippedParams : Rule.Params f.Number := ⟨3, f.rounded 0.15, 12, true⟩

theorem session_new (start : MlKemLevel) (ps : List (Probs f.Number)) :
    (DecisionGate.new start).session ps =
      some (Rule.session shippedParams (Rule.fresh start) ps) :=
  (produces_session start shippedParams ps).rust 3 12 rfl rfl

/-- The probabilities of a tick are those of its logits. -/
theorem probs_of_logits {p : Rule.Params f.Number} {s : Rule.State} {ls : List (Probs f.Number)}
    {j : Nat} (hj : j < (Rule.session p s (ls.map (softmax exp))).length) {l : Probs f.Number}
    (hl : ls[j]? = some l) :
    (Rule.session p s (ls.map (softmax exp)))[j].probs = softmax exp l := by
  have hmap : ((Rule.session p s (ls.map (softmax exp))).map Tick.probs)[j]? =
      some (softmax exp l) := by
    rw [probs_session, List.getElem?_map, hl, Option.map_some]
  rw [List.getElem?_map, List.getElem?_eq_getElem hj, Option.map_some] at hmap
  exact Option.some.inj hmap

section Acts

variable [IsStrictOrderedRing K] (hexp : LawfulExp exp)
include hexp

/-- A rekey is of a logit above all others, and raises the level to one whose logit is above those
of the weaker levels. -/
theorem logits_of_rekey {p : Rule.Params f.Number} (hescalates : p.rekeyEscalates = true)
    {s : Rule.State} {l : Probs f.Number}
    (hchoice : (Rule.tick p s (softmax exp l)).choice = rekeyActionIndex)
    (hrekey : (Rule.decision p s (softmax exp l)).rekey = true) :
    (∀ k, l (wireIndex k) < l rekeyActionIndex) ∧
      ((Rule.decision p s (softmax exp l)).inForce = s.inForce ∨
        s.inForce < (Rule.decision p s (softmax exp l)).inForce ∧
          ∀ k, k < (Rule.decision p s (softmax exp l)).inForce →
            l (wireIndex k) < l (wireIndex (Rule.decision p s (softmax exp l)).inForce)) := by
  have hargmax : argmax (softmax exp l) 0 actionCount = rekeyActionIndex := hchoice
  have hbelow : ∀ k, wireIndex k < rekeyActionIndex := by
    intro k
    cases k <;> decide
  refine ⟨fun k => lt_of_softmax_lt hexp l ?_, ?_⟩
  · rw [← hargmax]
    exact lt_argmax _ (hargmax.symm ▸ hbelow k)
  · rw [(Rule.inForce_of_rekey hrekey).1, if_pos hescalates]
    rcases le_or_gt (topKem (softmax exp l)) s.inForce with hle | hgt
    · exact .inl (max_eq_left hle)
    · rw [max_eq_right hgt.le]
      exact .inr ⟨hgt, fun k hk => lt_of_softmax_lt hexp l (lt_topKem _ hk)⟩

/-- A challenger that leads by a margin has the larger logit. -/
theorem logit_lt_of_margin {m : f.Number} (hm : 0 < m) {l : Probs f.Number} {i j : Fin 4}
    (h : m ≤ softmax exp l j - softmax exp l i) : l i < l j :=
  lt_of_softmax_lt hexp l (number_lt_of_sub_pos (hm.trans_le h))

/-- A level whose logit dominates challenges any other. -/
theorem challenges_of_dominant {m : f.Number} (hm : m ≤ 1) {t : Tick f.Number} {k : MlKemLevel}
    (hk : k ≠ t.before) {l : Probs f.Number} (hprobs : t.probs = softmax exp l)
    (hl : Dominant exp l (wireIndex k)) : t.Challenges m k := by
  have hsingle : t.probs = Pi.single (wireIndex k) 1 :=
    hprobs.trans (softmax_of_dominant hexp hl)
  have hne : wireIndex t.before ≠ wireIndex k := fun h => hk (wireIndex_injective h).symm
  refine ⟨?_, hk, ?_⟩
  · rw [Tick.choice, hsingle]
    refine argmax_eq_of_forall_lt fun a ha => ?_
    rw [Pi.single_eq_of_ne ha, Pi.single_eq_same]
    exact number_zero_lt_one
  · rw [hsingle, Pi.single_eq_same, Pi.single_eq_of_ne hne, number_sub_zero]
    exact hm

end Acts

/-- The gate on a stream of logits, in rounded arithmetic: every division is by one or more and
every answer is between zero and one and keeps the order of the logits.  The gate always decides;
its choice has a larger logit than the outputs before it; a rekey is of a logit above all others and
raises the level in force, if at all, to one whose logit is above those of the weaker levels; a
change takes three ticks on which the new level is chosen with a larger logit than the level in
force, and three ticks on which it dominates are enough. -/
theorem logits_drive_the_gate [IsStrictOrderedRing K] (hexp : LawfulExp exp)
    (hmargin : 0 < f.rounded 0.15) (start : MlKemLevel) (ls : List (Probs f.Number)) :
    (∀ l : Probs f.Number,
      (∀ i, 0 ≤ shiftedExp exp l i ∧ shiftedExp exp l i ≤ 1) ∧ 1 ≤ expSum exp l ∧
      (∀ i, 0 ≤ softmax exp l i ∧ softmax exp l i ≤ 1) ∧
      (∀ i j, l i ≤ l j → softmax exp l i ≤ softmax exp l j) ∧
      ∀ b, Dominant exp l b → softmax exp l = Pi.single b 1) ∧
    ∃ ticks, (DecisionGate.new start).session (ls.map (softmax exp)) = some ticks ∧
      ticks.length = ls.length ∧
      ∀ i (hi : i < ticks.length) (l : Probs f.Number), ls[i]? = some l →
        (∀ a, a < ticks[i].choice → l a < l ticks[i].choice) ∧
        (ticks[i].decision.rekey = true →
          (∀ k, l (wireIndex k) < l rekeyActionIndex) ∧
          (ticks[i].decision.inForce = ticks[i].before ∨
            ticks[i].before < ticks[i].decision.inForce ∧
              ∀ k, k < ticks[i].decision.inForce →
                l (wireIndex k) < l (wireIndex ticks[i].decision.inForce))) ∧
        (ticks[i].decision.changeAlgorithm = true → 3 ≤ i + 1 ∧
          ∀ j (hj : j < ticks.length) (l' : Probs f.Number), ls[j]? = some l' → j ≤ i →
            i < j + 3 → ticks[j].choice = wireIndex ticks[i].decision.inForce ∧
              l' (wireIndex ticks[j].before) < l' (wireIndex ticks[i].decision.inForce)) ∧
        (∀ k, 3 ≤ i + 1 →
          (∀ j (hj : j < ticks.length) (l' : Probs f.Number), ls[j]? = some l' → j ≤ i →
            i < j + 3 → k ≠ ticks[j].before ∧ Dominant exp l' (wireIndex k)) →
          ticks[i].decision.changeAlgorithm = true ∧ ticks[i].decision.inForce = k) := by
  refine ⟨fun l => ⟨shiftedExp_mem hexp l, one_le_expSum hexp l, softmax_mem hexp l,
    fun i j => softmax_le_softmax hexp l, fun b => softmax_of_dominant hexp⟩, ?_⟩
  have hlength : (Rule.session (shippedParams (f := f)) (Rule.fresh start)
      (ls.map (softmax exp))).length = ls.length := by
    rw [← List.length_map Tick.probs, probs_session, List.length_map]
  refine ⟨_, session_new start (ls.map (softmax exp)), hlength, ?_⟩
  set ticks := Rule.session (shippedParams (f := f)) (Rule.fresh start) (ls.map (softmax exp))
  have hprobs : ∀ j (hj : j < ticks.length) (l : Probs f.Number), ls[j]? = some l →
      ticks[j].probs = softmax exp l := fun j hj l hl => probs_of_logits hj hl
  intro i hi l hl
  have hlaw : ∀ k, ticks[i].changedTo = some k ↔ ConfirmedBy shippedParams ticks i k := fun k =>
    changedTo_getElem_iff start (by decide : 1 ≤ (3 : Nat)) (ls.map (softmax exp)) hi
  refine ⟨?_, ?_, ?_, ?_⟩
  · intro a ha
    rw [Tick.choice] at ha
    have hlt := lt_argmax _ ha
    rw [← Tick.choice, hprobs i hi l hl] at hlt
    exact lt_of_softmax_lt hexp l hlt
  · intro hrekey
    rcases session_at start shippedParams (ls.map (softmax exp)) hi with
      ⟨s, probs, hfollows, htick, _⟩
    change ticks[i] = _ at htick
    have hsoftmax : probs = softmax exp l := by
      have := hprobs i hi l hl
      rw [htick] at this
      exact this
    rw [htick] at hrekey ⊢
    rw [hsoftmax] at hrekey ⊢
    exact logits_of_rekey hexp rfl ((hfollows.rekey_iff _).1 hrekey).1 hrekey
  · intro hchange
    obtain ⟨k, hk⟩ := Tick.changeAlgorithm_iff.1 hchange
    have hconfirmed := (hlaw k).1 hk
    rw [(Tick.changedTo_eq_some_iff.1 hk).2]
    refine ⟨hconfirmed.1, ?_⟩
    intro j hj l' hl' hle hrecent
    obtain ⟨hbest, _, hlead⟩ := hconfirmed.2 j hj hle hrecent
    refine ⟨hbest, ?_⟩
    change (ticks[j]).probs _ - (ticks[j]).probs _ ≥ f.rounded 0.15 at hlead
    rw [hprobs j hj l' hl'] at hlead
    exact logit_lt_of_margin hexp hmargin hlead
  · intro k hcount hstreak
    refine Tick.changedTo_eq_some_iff.1 ((hlaw k).2 ⟨hcount, ?_⟩)
    intro j hj hle hrecent
    obtain ⟨l', hl'⟩ : ∃ l', ls[j]? = some l' :=
      ⟨_, List.getElem?_eq_getElem (hlength ▸ hj)⟩
    obtain ⟨hk, hdominant⟩ := hstreak j hj l' hl' hle hrecent
    have hone : f.rounded 0.15 ≤ 1 := by
      rw [← rounded_one]
      exact rounded_mono (by norm_num)
    exact challenges_of_dominant hexp hone hk (hprobs j hj l' hl') hdominant

/-! ## A session -/

/-- Multiples of `2 ^ -26`, which is how fine `f32` is around the margin. -/
def fixedPoint : Format ℚ where
  round x := ⌊x * 67108864 + 1 / 2⌋ / 67108864
  mono x y h := by
    have hfloor : ⌊x * 67108864 + 1 / 2⌋ ≤ ⌊y * 67108864 + 1 / 2⌋ :=
      Int.floor_le_floor (by linarith)
    exact div_le_div_of_nonneg_right (Int.cast_le.2 hfloor) (by norm_num)
  round_round x := by
    rw [div_mul_cancel₀ _ (by norm_num), Int.floor_intCast_add]
    norm_num
  round_zero := by norm_num
  round_one := by norm_num

/-- The exponential of zero and of what is so far below it that `f32::exp` underflows. -/
def underflowExp (x : fixedPoint.Number) : fixedPoint.Number := if 0 ≤ x then 1 else 0

theorem lawfulExp_underflowExp : LawfulExp underflowExp where
  exp_zero := if_pos (le_refl _)
  exp_nonneg x := by
    unfold underflowExp
    split
    · exact number_zero_lt_one.le
    · exact le_refl _
  exp_mono x y h := by
    unfold underflowExp
    split <;> split
    · exact le_refl _
    · rename_i hx hy
      exact absurd (hx.trans h) hy
    · exact number_zero_lt_one.le
    · exact le_refl _

/-- A rekey for which all KEMs underflow, a streak that another level interrupts, a full streak and
a second rekey. -/
def distantLogits : List (Probs fixedPoint.Number) :=
  [![-300, -200, -250, 100], ![-300, 0, -250, -400], ![-300, 0, -250, -150],
    ![-300, -250, 0, -150], ![-300, 0, -250, -400], ![-300, 0, -250, -150],
    ![-200, 50, -250, -150], ![-300, -200, -250, 100]].map fun l i => fixedPoint.rounded (l i)

/-- The first rekey stays at the level in force, the interrupted streak changes nothing, the full
one is of the level with the largest logit, and the second rekey is suppressed. -/
theorem logits_drive_the_gate_underflow :
    ∃ ticks, (DecisionGate.new .mlKem512).session
        (distantLogits.map (softmax underflowExp)) = some ticks ∧
      (ticks.map fun t => (t.decision.changeAlgorithm, t.decision.rekey, t.decision.inForce)) =
        [(false, true, .mlKem512), (false, false, .mlKem512), (false, false, .mlKem512),
          (false, false, .mlKem512), (false, false, .mlKem512), (false, false, .mlKem512),
          (true, false, .mlKem768), (false, false, .mlKem768)] ∧
      ∀ j (hj : j < ticks.length), 4 ≤ j → j < 7 → ticks[j].choice = wireIndex .mlKem768 := by
  obtain ⟨_, ticks, hsession, hlength, hacts⟩ := logits_drive_the_gate lawfulExp_underflowExp
    (by decide +kernel : 0 < fixedPoint.rounded 0.15) .mlKem512 distantLogits
  have hrun : ((DecisionGate.new .mlKem512).session
      (distantLogits.map (softmax underflowExp))).map (List.map fun t =>
        (t.decision.changeAlgorithm, t.decision.rekey, t.decision.inForce)) =
      some [(false, true, .mlKem512), (false, false, .mlKem512), (false, false, .mlKem512),
        (false, false, .mlKem512), (false, false, .mlKem512), (false, false, .mlKem512),
        (true, false, .mlKem768), (false, false, .mlKem768)] := by
    decide +kernel
  rw [hsession, Option.map_some, Option.some.injEq] at hrun
  refine ⟨ticks, hsession, hrun, ?_⟩
  intro j hj hfrom hto
  have hlen : distantLogits.length = 8 := rfl
  have hsix : 6 < ticks.length := by omega
  have hdecision := getElem_of_map_eq hrun hsix rfl
  simp only [Prod.mk.injEq] at hdecision
  obtain ⟨_, hchanged⟩ := (hacts 6 hsix _ rfl).2.2.1 hdecision.1
  obtain ⟨hchoice, _⟩ := hchanged j hj _ (List.getElem?_eq_getElem (hlength ▸ hj))
    (by omega) (by omega)
  rw [hchoice, hdecision.2.2]

end Gate
end PqcVpn
