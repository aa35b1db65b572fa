import Mathlib.Data.Fin.VecNotation
import PqcVpn.Gate.Port

/-!
# Laws — when the gate changes the algorithm and when it rekeys

The gate's counters stand for its past: a change is confirmed exactly when each of the last
`confirm_ticks` ticks challenged for the same algorithm, and a rekey goes through exactly when none
did in the last `rekey_cooldown_ticks - 1` ticks.  The laws are proved of the rule, whose ticks both
gates produce.
-/

namespace PqcVpn
namespace Gate

open Crypto (MlKemLevel)
open Debounce

variable {R : Type} [LinearOrder R]

namespace Tick

/-- The policy's choice: the index of the tick's largest probability. -/
def choice (t : Tick R) : Fin 4 := argmax t.probs 0 actionCount

/-- The tick challenges the algorithm in force for `k`: `k` is the policy's choice, is not in force
and leads the algorithm in force by the margin. -/
def Challenges [Sub R] (minMargin : R) (k : MlKemLevel) (t : Tick R) : Prop :=
  t.choice = wireIndex k ∧ k ≠ t.before ∧
    t.probs (wireIndex k) - t.probs (wireIndex t.before) ≥ minMargin

/-- The algorithm the tick changed to. -/
def changedTo (t : Tick R) : Option MlKemLevel :=
  if t.decision.changeAlgorithm then some t.decision.inForce else none

omit [LinearOrder R] in
theorem changedTo_eq_some_iff {t : Tick R} {k : MlKemLevel} :
    t.changedTo = some k ↔ t.decision.changeAlgorithm = true ∧ t.decision.inForce = k := by
  unfold changedTo
  split <;> simp_all

omit [LinearOrder R] in
theorem changeAlgorithm_iff {t : Tick R} :
    t.decision.changeAlgorithm = true ↔ ∃ k, t.changedTo = some k := by
  simp [changedTo_eq_some_iff]

end Tick

/-- The algorithm in force after a log of ticks. -/
def inForceAfter (start : MlKemLevel) (log : List (Tick R)) : MlKemLevel :=
  (log.getLast?.map fun t => t.decision.inForce).getD start

omit [LinearOrder R] in
@[simp] theorem inForceAfter_snoc (start : MlKemLevel) (log : List (Tick R)) (t : Tick R) :
    inForceAfter start (log ++ [t]) = t.decision.inForce := by
  simp [inForceAfter]

namespace Rule

variable [Sub R]

/-- One tick of the rule. -/
def tick (p : Params R) (s : State) (probs : Probs R) : Tick R where
  probs := probs
  before := s.inForce
  decision := decision p s probs

theorem changedTo_tick (p : Params R) (s : State) (probs : Probs R) :
    (tick p s probs).changedTo = (confirm p s probs).1 := by
  unfold Tick.changedTo tick decision nextInForce
  cases (confirm p s probs).1 with
  | none =>
      rfl
  | some k =>
      rfl

theorem challenge_eq_some_iff_challenges {p : Params R} {t : Tick R} {k : MlKemLevel} :
    challenge p.minMargin t.before t.probs = some k ↔ t.Challenges p.minMargin k :=
  challenge_eq_some_iff

/-- What a tick asks of the streak, with what the streak made of it. -/
def streakEntry (p : Params R) (t : Tick R) : Option MlKemLevel × Option MlKemLevel :=
  (challenge p.minMargin t.before t.probs, t.changedTo)

/-- The state of the rule after a log of ticks from `start`. -/
structure Follows (start : MlKemLevel) (p : Params R) (log : List (Tick R)) (s : State) : Prop where
  inForce : s.inForce = inForceAfter start log
  streak : Streak.Tracks (log.map (streakEntry p)) s.streak
  blocked : Cooldown.Tracks p.rekeyCooldownTicks (log.map fun t => t.decision.rekey) s.blocked
  /-- Each tick starts from the algorithm the one before it left in force. -/
  chained : ∀ i (h : i < log.length), log[i].before = inForceAfter start (log.take i)

theorem follows_fresh (start : MlKemLevel) (p : Params R) :
    Follows start p [] (fresh start) where
  inForce := rfl
  streak := Streak.tracks_fresh
  blocked := Cooldown.tracks_zero _
  chained := by
    intro i h
    cases h

theorem Follows.tick {start : MlKemLevel} {p : Params R} {log : List (Tick R)} {s : State}
    (h : Follows start p log s) (probs : Probs R) :
    Follows start p (log ++ [tick p s probs]) (next p s probs) where
  inForce := (inForceAfter_snoc start log (Rule.tick p s probs)).symm
  streak := by
    have hstep := h.streak.step p.confirmTicks (challenge p.minMargin s.inForce probs)
    rw [List.map_append, List.map_singleton, streakEntry, changedTo_tick]
    exact hstep
  blocked := by
    have hstep := h.blocked.step (asksRekey probs)
    rw [List.map_append, List.map_singleton]
    exact hstep
  chained := by
    intro i hi
    by_cases hlast : i < log.length
    · -- an older tick, whose past has not changed
      rw [List.getElem_append_left hlast, List.take_append_of_le_length hlast.le]
      exact h.chained i hlast
    · rw [List.length_append, List.length_singleton] at hi
      have hi : i = log.length := by omega
      subst hi
      rw [List.getElem_concat_length rfl, List.take_left]
      exact h.inForce

/-- Every tick of a session is a tick of the rule, in the state its past has led to. -/
theorem session_getElem {start : MlKemLevel} {p : Params R} {log : List (Tick R)} {s : State}
    (h : Follows start p log s) (ps : List (Probs R)) :
    ∀ i (hi : i < (session p s ps).length), ∃ s' probs,
      Follows start p (log ++ (session p s ps).take i) s' ∧
        (session p s ps)[i] = Rule.tick p s' probs := by
  -- the log grows by the first tick, so the tail's `i`th is the session's `i + 1`st
  induction ps generalizing log s with
  | nil =>
      intro i hi
      cases hi
  | cons probs ps ih =>
      intro i hi
      cases i with
      | zero =>
          exact ⟨s, probs, by simpa using h, rfl⟩
      | succ i =>
          have hi' : i < (session p (next p s probs) ps).length := Nat.lt_of_succ_lt_succ hi
          rcases ih (h.tick probs) i hi' with ⟨s', probs', hfollows, htick⟩
          refine ⟨s', probs', ?_, htick⟩
          rw [List.append_assoc] at hfollows
          exact hfollows

/-! ## The law of one tick -/

/-- A tick changes to `k` exactly when the last `confirm_ticks` ticks challenged for `k`. -/
theorem Follows.changedTo_iff {start : MlKemLevel} {p : Params R} {log : List (Tick R)} {s : State}
    (h : Follows start p log s) (hc : 1 ≤ p.confirmTicks) (probs : Probs R) {k : MlKemLevel} :
    (Rule.tick p s probs).changedTo = some k ↔ p.confirmTicks ≤ log.length + 1 ∧
      ∀ t ∈ recent p.confirmTicks (log ++ [Rule.tick p s probs]), t.Challenges p.minMargin k := by
  have hchained := (h.tick probs).chained
  set full := log ++ [Rule.tick p s probs] with hfull
  have hlen : full.length = log.length + 1 := by rw [hfull, List.length_append]; rfl
  have hentries : full.map (streakEntry p) = log.map (streakEntry p) ++
      [(challenge p.minMargin s.inForce probs, (confirm p s probs).1)] := by
    rw [hfull, List.map_append, List.map_singleton, streakEntry, changedTo_tick]
    rfl
  -- the tick after a change to `k` starts from `k`, so it cannot challenge for it
  have hsettled : ∀ j (hj : j + 1 < (full.map (streakEntry p)).length),
      (full.map (streakEntry p))[j].2 = some k → (full.map (streakEntry p))[j + 1].1 ≠ some k := by
    intro j hj hfired hnext
    rw [List.length_map] at hj
    rw [List.getElem_map] at hfired hnext
    have hbefore : full[j + 1].before = k := by
      rw [hchained (j + 1) hj, List.take_add_one, List.getElem?_eq_getElem (by omega),
        Option.toList_some, inForceAfter_snoc]
      exact (Tick.changedTo_eq_some_iff.1 hfired).2
    exact (challenge_eq_some_iff_challenges.1 hnext).2.1 hbefore.symm
  have hfires := h.streak.fires_iff_inputs hc hentries hsettled
  rw [changedTo_tick, confirm, hfires, List.length_map, hlen, recent_map]
  simp only [List.forall_mem_map, streakEntry, challenge_eq_some_iff_challenges]

/-- A rekey goes through exactly when it is asked for and none did in the last
`rekey_cooldown_ticks - 1` ticks. -/
theorem Follows.rekey_iff {start : MlKemLevel} {p : Params R} {log : List (Tick R)} {s : State}
    (h : Follows start p log s) (probs : Probs R) :
    (Rule.tick p s probs).decision.rekey = true ↔
      (Rule.tick p s probs).choice = rekeyActionIndex ∧
        ∀ t ∈ recent (p.rekeyCooldownTicks - 1) log, t.decision.rekey = false := by
  have hfires : (Cooldown.step p.rekeyCooldownTicks s.blocked (asksRekey probs)).1 = true ↔ _ :=
    h.blocked.fires_iff
  rw [recent_map, List.forall_mem_map, asksRekey_iff] at hfires
  exact hfires

theorem inForce_of_rekey {p : Params R} {s : State} {probs : Probs R}
    (h : (decision p s probs).rekey = true) :
    (decision p s probs).inForce =
        (if p.rekeyEscalates then max s.inForce (topKem probs) else s.inForce) ∧
      (decision p s probs).changeAlgorithm = false := by
  have hask := asksRekey_of_cool h
  have hconfirm := confirm_of_asksRekey (p := p) (s := s) hask
  change (cool p s probs).1 = true at h
  simp [decision, nextInForce, hconfirm, h]

theorem inForce_of_neither {p : Params R} {s : State} {probs : Probs R}
    (hchange : (decision p s probs).changeAlgorithm = false)
    (hrekey : (decision p s probs).rekey = false) : (decision p s probs).inForce = s.inForce := by
  change (confirm p s probs).1.isSome = false at hchange
  change (cool p s probs).1 = false at hrekey
  simp [decision, nextInForce, Option.not_isSome_iff_eq_none.1 (Bool.not_eq_true _ ▸ hchange), hrekey]

end Rule

/-! ## The laws of a session -/

variable [Sub R]

/-- The ticks of a session with the states of the rule they were taken in. -/
theorem session_at (start : MlKemLevel) (p : Rule.Params R) (ps : List (Probs R)) {i : Nat}
    (hi : i < (Rule.session p (Rule.fresh start) ps).length) :
    ∃ s probs, Rule.Follows start p ((Rule.session p (Rule.fresh start) ps).take i) s ∧
      (Rule.session p (Rule.fresh start) ps)[i] = Rule.tick p s probs ∧
      (Rule.session p (Rule.fresh start) ps).take (i + 1) =
        (Rule.session p (Rule.fresh start) ps).take i ++ [Rule.tick p s probs] := by
  rcases Rule.session_getElem (Rule.follows_fresh start p) ps i hi with
    ⟨s, probs, hfollows, htick⟩
  refine ⟨s, probs, by simpa using hfollows, htick, ?_⟩
  rw [List.take_add_one, List.getElem?_eq_getElem hi, Option.toList_some, htick]

theorem before_eq (start : MlKemLevel) (p : Rule.Params R) (ps : List (Probs R)) {i : Nat}
    (hi : i < (Rule.session p (Rule.fresh start) ps).length) :
    (Rule.session p (Rule.fresh start) ps)[i].before =
      inForceAfter start ((Rule.session p (Rule.fresh start) ps).take i) := by
  rcases session_at start p ps hi with ⟨s, probs, hfollows, htick, _⟩
  rw [htick]
  exact hfollows.inForce

/-- Each of the last `confirm_ticks` ticks up to `i` exists and challenges for `k`. -/
def ConfirmedBy (p : Rule.Params R) (ticks : List (Tick R)) (i : Nat) (k : MlKemLevel) : Prop :=
  p.confirmTicks ≤ i + 1 ∧ ∀ j (hj : j < ticks.length), j ≤ i → i < j + p.confirmTicks →
    ticks[j].Challenges p.minMargin k

/-- By position, what `Rule.Follows.changedTo_iff` says of the last ticks. -/
theorem changedTo_getElem_iff (start : MlKemLevel) {p : Rule.Params R} (hc : 1 ≤ p.confirmTicks)
    (ps : List (Probs R)) {i : Nat} (hi : i < (Rule.session p (Rule.fresh start) ps).length)
    {k : MlKemLevel} :
    (Rule.session p (Rule.fresh start) ps)[i].changedTo = some k ↔
      ConfirmedBy p (Rule.session p (Rule.fresh start) ps) i k := by
  rcases session_at start p ps hi with ⟨s, probs, hfollows, htick, htake⟩
  set ticks := Rule.session p (Rule.fresh start) ps
  have hlen : (ticks.take i).length = i := by rw [List.length_take]; omega
  rw [htick, hfollows.changedTo_iff hc, ← htake, hlen, forall_recent_take_iff hi]
  refine and_congr_right fun _ => forall₂_congr fun j _ => ?_
  rw [Nat.lt_succ_iff, Nat.succ_le_iff]

/-- Both gates change the algorithm to `k` exactly on the tick that completes a streak of
challenges for `k`, and only on such a tick does the algorithm in force become weaker. -/
theorem confirmation_law (start : MlKemLevel) (p : Rule.Params R) (hc : 1 ≤ p.confirmTicks)
    (ps : List (Probs R)) :
    ∃ ticks, Produces start p ps ticks ∧ ∀ i (hi : i < ticks.length),
      ticks[i].before = inForceAfter start (ticks.take i) ∧
      (ticks[i].decision.changeAlgorithm = true ↔ ∃ k, ConfirmedBy p ticks i k) ∧
      (∀ k, ConfirmedBy p ticks i k → ticks[i].decision.inForce = k) ∧
      (ticks[i].decision.inForce < ticks[i].before →
        ticks[i].decision.changeAlgorithm = true ∧ ticks[i].decision.rekey = false) := by
  refine ⟨_, produces_session start p ps, ?_⟩
  intro i hi
  have hlaw := fun k => changedTo_getElem_iff start hc ps hi (k := k)
  refine ⟨before_eq start p ps hi, ?_, ?_, ?_⟩
  · rw [Tick.changeAlgorithm_iff]
    exact exists_congr hlaw
  · intro k hk
    exact (Tick.changedTo_eq_some_iff.1 ((hlaw k).2 hk)).2
  · rcases session_at start p ps hi with ⟨s, probs, _, htick, _⟩
    rw [htick]
    intro hweaker
    change (Rule.decision p s probs).inForce < s.inForce at hweaker
    -- a rekey takes a maximum, and a tick that does neither changes nothing
    cases hrekey : (Rule.decision p s probs).rekey with
    | true =>
        rw [(Rule.inForce_of_rekey hrekey).1] at hweaker
        split at hweaker
        · exact absurd hweaker (not_lt.2 (le_max_left _ _))
        · exact absurd hweaker (lt_irrefl _)
    | false =>
        cases hchange : (Rule.decision p s probs).changeAlgorithm with
        | true =>
            exact ⟨hchange, hrekey⟩
        | false =>
            rw [Rule.inForce_of_neither hchange hrekey] at hweaker
            exact absurd hweaker (lt_irrefl _)

/-- What the ticks decided, from a list of the decisions. -/
theorem getElem_of_map_eq {α β : Type} {g : α → β} {as : List α} {bs : List β}
    (h : as.map g = bs) {i : Nat} (hi : i < as.length) {b : β} (hb : bs[i]? = some b) :
    g as[i] = b := by
  rw [← h, List.getElem?_map, List.getElem?_eq_getElem hi, Option.map_some] at hb
  exact Option.some.inj hb

/-- Two challenges for the middle level, one for the strongest, and three for the middle level. -/
def interruptedStreak : List (Probs Int) :=
  [![10, 80, 5, 5], ![10, 80, 5, 5], ![10, 5, 80, 5], ![10, 80, 5, 5], ![10, 80, 5, 5],
    ![10, 80, 5, 5], ![80, 10, 5, 5]]

/-- The streak that was interrupted does not count, and the one after it is confirmed on its third
tick. -/
theorem confirmation_law_interrupted_streak :
    ∃ ticks, Produces .mlKem512 (⟨3, 15, 12, true⟩ : Rule.Params Int) interruptedStreak ticks ∧
      ticks.map (fun t => (t.decision.changeAlgorithm, t.decision.inForce)) =
        [(false, .mlKem512), (false, .mlKem512), (false, .mlKem512), (false, .mlKem512),
          (false, .mlKem512), (true, .mlKem768), (false, .mlKem768)] ∧
      (∀ k, ¬ ConfirmedBy (⟨3, 15, 12, true⟩ : Rule.Params Int) ticks 4 k) ∧
      ConfirmedBy (⟨3, 15, 12, true⟩ : Rule.Params Int) ticks 5 .mlKem768 := by
  rcases confirmation_law .mlKem512 (⟨3, 15, 12, true⟩ : Rule.Params Int) (by decide)
    interruptedStreak with ⟨ticks, hprod, hlaw⟩
  have hrun : ((DecisionGate.withParams .mlKem512 3 15 12 true).session interruptedStreak).map
      (List.map fun t => (t.decision.changeAlgorithm, t.decision.inForce)) =
      some [(false, .mlKem512), (false, .mlKem512), (false, .mlKem512), (false, .mlKem512),
        (false, .mlKem512), (true, .mlKem768), (false, .mlKem768)] := by
    decide +kernel
  rw [hprod.rust 3 12 rfl rfl, Option.map_some, Option.some.injEq] at hrun
  have hlength : ticks.length = 7 := by
    rw [← List.length_map, hrun]
    rfl
  refine ⟨ticks, hprod, hrun, ?_, ?_⟩
  · intro k hk
    have hfourth := getElem_of_map_eq hrun (i := 4) (by omega) rfl
    have hchange := (hlaw 4 (by omega)).2.1.2 ⟨k, hk⟩
    rw [hchange] at hfourth
    cases hfourth
  · have hfifth := Prod.mk.inj (getElem_of_map_eq hrun (i := 5) (by omega) rfl)
    obtain ⟨_, hconfirmed, hinForce, _⟩ := hlaw 5 (by omega)
    obtain ⟨k, hk⟩ := hconfirmed.1 hfifth.1
    have hlevel : k = .mlKem768 := (hinForce k hk).symm.trans hfifth.2
    exact hlevel ▸ hk

/-- Both gates rekey exactly on the ticks that ask for it when none of the
`rekey_cooldown_ticks - 1` ticks before did, and a tick that neither rekeys nor confirms a change
leaves the algorithm in force alone. -/
theorem rekey_law (start : MlKemLevel) (p : Rule.Params R) (ps : List (Probs R)) :
    ∃ ticks, Produces start p ps ticks ∧ ∀ i (hi : i < ticks.length),
      ticks[i].before = inForceAfter start (ticks.take i) ∧
      (ticks[i].decision.rekey = true ↔ ticks[i].choice = rekeyActionIndex ∧
        ∀ j (hj : j < ticks.length), j < i → i < j + p.rekeyCooldownTicks →
          ticks[j].decision.rekey = false) ∧
      (ticks[i].decision.rekey = true → ticks[i].decision.inForce =
        if p.rekeyEscalates then max ticks[i].before (topKem ticks[i].probs) else ticks[i].before) ∧
      ¬ (ticks[i].decision.changeAlgorithm = true ∧ ticks[i].decision.rekey = true) ∧
      (ticks[i].decision.rekey = false → ticks[i].decision.changeAlgorithm = false →
        ticks[i].decision.inForce = ticks[i].before) := by
  refine ⟨_, produces_session start p ps, ?_⟩
  intro i hi
  have hbefore := before_eq start p ps hi
  rcases session_at start p ps hi with ⟨s, probs, hfollows, htick, _⟩
  set ticks := Rule.session p (Rule.fresh start) ps
  refine ⟨hbefore, ?_, ?_, ?_, ?_⟩
  -- the cooldown looks back over a window; spell it out as indices
  · rw [htick, hfollows.rekey_iff, forall_recent_take_iff hi.le]
    refine and_congr_right fun _ => forall₃_congr fun j _ hj => ?_
    have hwindow : i ≤ j + (p.rekeyCooldownTicks - 1) ↔ i < j + p.rekeyCooldownTicks := by omega
    rw [hwindow]
  · rw [htick]
    intro hrekey
    exact (Rule.inForce_of_rekey hrekey).1
  · rw [htick]
    rintro ⟨hchange, hrekey⟩
    rw [Rule.tick, (Rule.inForce_of_rekey hrekey).2] at hchange
    cases hchange
  · rw [htick]
    intro hrekey hchange
    exact Rule.inForce_of_neither hchange hrekey

end Gate
end PqcVpn
