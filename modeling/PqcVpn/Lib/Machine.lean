import Mathlib.Data.List.Induction

/-!
# Machines — stateful functions and their outputs

A machine is a function `step : σ → ι → ο × σ` that answers one input and moves on.  `outputs` runs
it over a list of inputs.  A `Component` of a machine is a smaller machine that the larger one feeds
on some of its inputs and leaves alone on the others; its answers are then those it would give on
its own.  Two machines in a bisimulation answer alike.
-/

namespace Machine

variable {σ ι ο : Type*}

/-- The answers to a list of inputs, one for each. -/
def outputs (step : σ → ι → ο × σ) : σ → List ι → List ο
  | _, [] => []
  | s, i :: is => (step s i).1 :: outputs step (step s i).2 is

/-- The state a list of inputs leads to. -/
def stateAfter (step : σ → ι → ο × σ) (s : σ) (is : List ι) : σ :=
  is.foldl (fun s i => (step s i).2) s

section Runs

variable (step : σ → ι → ο × σ) (s : σ)

@[simp] theorem outputs_nil : outputs step s [] = [] := rfl

@[simp] theorem outputs_cons (i : ι) (is : List ι) :
    outputs step s (i :: is) = (step s i).1 :: outputs step (step s i).2 is := rfl

theorem stateAfter_snoc (is : List ι) (i : ι) :
    stateAfter step s (is ++ [i]) = (step (stateAfter step s is) i).2 := by
  simp [stateAfter]

/-- The answer to an input is given in the state the inputs before it led to. -/
theorem outputs_getElem? (is : List ι) (n : Nat) :
    (outputs step s is)[n]? =
      is[n]?.map fun i => (step (stateAfter step s (is.take n)) i).1 := by
  -- induction on the inputs; the first answer is given in the start state
  induction is generalizing s n with
  | nil => rfl
  | cons i is ih =>
      cases n with
      | zero => rfl
      | succ n => exact ih (step s i).2 n

end Runs

variable {step : σ → ι → ο × σ} {s : σ}

/-- The invariant rule: what holds at the start and is kept by every input, with the inputs so far
in view, holds after any inputs. -/
theorem stateAfter_induction {P : List ι → σ → Prop} (hstart : P [] s)
    (hstep : ∀ {is s} (i : ι), P is s → P (is ++ [i]) (step s i).2) (is : List ι) :
    P is (stateAfter step s is) := by
  -- the last input is the one the step lemma speaks about
  induction is using List.reverseRecOn with
  | nil => exact hstart
  | append_singleton is i ih =>
      rw [stateAfter_snoc]
      exact hstep i ih

/-- What each answer satisfies in a state that satisfies the invariant, every answer satisfies. -/
theorem forall_outputs {I : σ → Prop} {Q : ο → Prop}
    (hstep : ∀ s i, I s → Q (step s i).1 ∧ I (step s i).2) (hs : I s) (is : List ι) :
    ∀ o ∈ outputs step s is, Q o := by
  induction is generalizing s with
  | nil =>
      intro o ho
      cases ho
  | cons i is ih =>
      have hi := hstep s i hs
      rw [outputs_cons, List.forall_mem_cons]
      exact ⟨hi.1, ih hi.2⟩

/-- What every answer satisfies, whatever the state. -/
theorem forall_outputs_of_forall {Q : ο → Prop} (h : ∀ s i, Q (step s i).1) (s : σ) (is : List ι) :
    ∀ o ∈ outputs step s is, Q o :=
  forall_outputs (I := fun _ => True) (fun s i _ => ⟨h s i, trivial⟩) trivial is

/-- The answers to a list of inputs of a machine that may fail, unless it fails on one. -/
def tryOutputs (step : σ → ι → Option (ο × σ)) : σ → List ι → Option (List ο)
  | _, [] => some []
  | s, i :: is => (step s i).bind fun r => (tryOutputs step r.2 is).map (r.1 :: ·)

/-- A machine that never fails in a state that satisfies the invariant never fails on a run. -/
theorem exists_tryOutputs {step : σ → ι → Option (ο × σ)} {I : σ → Prop} {Q : ο → Prop}
    (hstep : ∀ s i, I s → ∃ r, step s i = some r ∧ Q r.1 ∧ I r.2) (hs : I s) (is : List ι) :
    ∃ os, tryOutputs step s is = some os ∧ os.length = is.length ∧ ∀ o ∈ os, Q o := by
  induction is generalizing s with
  | nil => exact ⟨[], rfl, rfl, fun _ ho => nomatch ho⟩
  | cons i is ih =>
      obtain ⟨r, hr, ho, hs'⟩ := hstep s i hs
      obtain ⟨os, hos, hlength, hall⟩ := ih hs'
      refine ⟨r.1 :: os, ?_, congrArg (· + 1) hlength, List.forall_mem_cons.2 ⟨ho, hall⟩⟩
      rw [tryOutputs, hr, Option.bind_some, hos, Option.map_some]

/-! ## Components -/

section Component

variable {τ κ π : Type*}

/-- Inside `step`, the machine `part` runs on the active inputs and sits out the others: `view` finds
its state, `input` what it is fed, and `answer` what it said, if it was asked. -/
structure Component (step : σ → ι → ο × σ) (part : τ → κ → π × τ) (active : ι → Bool) (view : σ → τ)
    (input : ι → κ) (answer : ο → Option π) : Prop where
  runs : ∀ s i, active i = true → answer (step s i).1 = some (part (view s) (input i)).1 ∧
    view (step s i).2 = (part (view s) (input i)).2
  sitsOut : ∀ s i, active i = false → answer (step s i).1 = none ∧ view (step s i).2 = view s

variable {part : τ → κ → π × τ} {active : ι → Bool} {view : σ → τ} {input : ι → κ}
  {answer : ο → Option π}

namespace Component

/-- A component is asked exactly on the active inputs. -/
theorem isSome_answers (h : Component step part active view input answer) (s : σ) (is : List ι) :
    (outputs step s is).map (fun o => (answer o).isSome) = is.map active := by
  induction is generalizing s with
  | nil => rfl
  | cons i is ih =>
      rw [outputs_cons, List.map_cons, List.map_cons, ih]
      cases hi : active i with
      | true => rw [(h.runs s i hi).1, Option.isSome_some]
      | false => rw [(h.sitsOut s i hi).1, Option.isSome_none]

/-- Its answers are those it gives on its own to the active inputs. -/
theorem answers (h : Component step part active view input answer) (s : σ) (is : List ι) :
    (outputs step s is).filterMap answer =
      outputs part (view s) ((is.filter active).map input) := by
  induction is generalizing s with
  | nil => rfl
  | cons i is ih =>
      rw [outputs_cons]
      cases hi : active i with
      | true =>
          rcases h.runs s i hi with ⟨hanswer, hview⟩
          rw [List.filterMap_cons_some hanswer, List.filter_cons_of_pos hi, List.map_cons,
            outputs_cons, ih, hview]
      | false =>
          rcases h.sitsOut s i hi with ⟨hanswer, hview⟩
          have hskip : ¬ active i = true := by simp [hi]
          rw [List.filterMap_cons_none hanswer, List.filter_cons_of_neg hskip, ih, hview]

theorem mem_answers (h : Component step part active view input answer) {s : σ} {is : List ι} {o : ο}
    {p : π} (ho : o ∈ outputs step s is) (hp : answer o = some p) :
    p ∈ outputs part (view s) ((is.filter active).map input) := by
  rw [← h.answers]
  exact List.mem_filterMap.2 ⟨o, ho, hp⟩

/-- A component that is always asked. -/
theorem answers_always {f : ο → π} (h : Component step part (fun _ => true) view input (some ∘ f))
    (s : σ) (is : List ι) :
    (outputs step s is).map f = outputs part (view s) (is.map input) := by
  have hanswers := h.answers s is
  rw [List.filterMap_eq_map, List.filter_eq_self.2 fun _ _ => rfl] at hanswers
  exact hanswers

end Component

end Component

/-! ## Bisimulation -/

section Bisimulation

variable {τ π : Type*}

/-- On the admitted inputs, related states give related answers and stay related. -/
def Bisimulation (step : σ → ι → ο × σ) (step' : τ → ι → π × τ) (admits : ι → Prop)
    (R : σ → τ → Prop) (Q : ο → π → Prop) : Prop :=
  ∀ s t i, admits i → R s t → Q (step s i).1 (step' t i).1 ∧ R (step s i).2 (step' t i).2

variable {step' : τ → ι → π × τ} {admits : ι → Prop} {R : σ → τ → Prop} {Q : ο → π → Prop}

theorem Bisimulation.outputs (h : Bisimulation step step' admits R Q) {s : σ} {t : τ} (hst : R s t)
    {is : List ι} (his : ∀ i ∈ is, admits i) :
    List.Forall₂ Q (outputs step s is) (outputs step' t is) := by
  induction is generalizing s t with
  | nil => exact .nil
  | cons i is ih =>
      rw [List.forall_mem_cons] at his
      rcases h s t i his.1 hst with ⟨hanswer, hnext⟩
      exact .cons hanswer (ih hnext his.2)

end Bisimulation

end Machine
