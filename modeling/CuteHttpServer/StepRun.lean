/-
Finite runs of a deterministic component that answers every input with an
output.  A run threads the state and keeps the outputs in order, so both an
invariant of the states and a property of the whole history can be stated.
-/
import Mathlib.Data.List.Basic
import Mathlib.Tactic.Common

namespace StepRun

universe u v w x

variable {σ : Type u} {ι : Type v} {ο : Type w} {τ : Type x}

/-- Feed a list of inputs, collecting one output for each of them. -/
def runFrom (step : σ → ι → σ × ο) : σ → List ι → σ × List ο
  | state, [] => (state, [])
  | state, input :: rest =>
      let next := step state input
      let later := runFrom step next.1 rest
      (later.1, next.2 :: later.2)

@[simp] theorem runFrom_nil (step : σ → ι → σ × ο) (state : σ) :
    runFrom step state [] = (state, []) := rfl

theorem runFrom_cons (step : σ → ι → σ × ο) (state : σ) (input : ι)
    (rest : List ι) :
    runFrom step state (input :: rest) =
      ((runFrom step (step state input).1 rest).1,
        (step state input).2 ::
          (runFrom step (step state input).1 rest).2) := rfl

@[simp] theorem runFrom_singleton (step : σ → ι → σ × ο) (state : σ)
    (input : ι) :
    runFrom step state [input] =
      ((step state input).1, [(step state input).2]) := rfl

theorem runFrom_append (step : σ → ι → σ × ο) (state : σ)
    (before after : List ι) :
    runFrom step state (before ++ after) =
      ((runFrom step (runFrom step state before).1 after).1,
        (runFrom step state before).2 ++
          (runFrom step (runFrom step state before).1 after).2) := by
  induction before generalizing state with
  | nil => rfl
  | cons input rest ih =>
      rw [List.cons_append, runFrom_cons, runFrom_cons, ih]
      rfl

theorem length_runFrom (step : σ → ι → σ × ο) (state : σ) (inputs : List ι) :
    (runFrom step state inputs).2.length = inputs.length := by
  induction inputs generalizing state with
  | nil => rfl
  | cons input rest ih => exact congrArg (· + 1) (ih _)

/-- What one step preserves, every run preserves; the invariant may speak about
the inputs consumed so far. -/
theorem runFrom_history_invariant (step : σ → ι → σ × ο)
    (Inv : List ι → σ → Prop)
    (hstep : ∀ history state input,
      Inv history state → Inv (history ++ [input]) (step state input).1)
    (history : List ι) (state : σ) (hstate : Inv history state) (inputs : List ι) :
    Inv (history ++ inputs) (runFrom step state inputs).1 := by
  induction inputs generalizing state history with
  | nil => simpa using hstate
  | cons input rest ih =>
      have hnext := ih _ _ (hstep history state input hstate)
      simpa [runFrom_cons] using hnext

/-- A relation kept by matching steps with equal outputs makes the two runs
end in related states with equal histories. -/
theorem runFrom_simulation (step : σ → ι → σ × ο) (step' : τ → ι → τ × ο)
    (R : σ → τ → Prop)
    (hstep : ∀ state state' input, R state state' →
      R (step state input).1 (step' state' input).1 ∧
        (step state input).2 = (step' state' input).2)
    (state : σ) (state' : τ) (hstate : R state state') (inputs : List ι) :
    R (runFrom step state inputs).1 (runFrom step' state' inputs).1 ∧
      (runFrom step state inputs).2 = (runFrom step' state' inputs).2 := by
  induction inputs generalizing state state' with
  | nil => exact ⟨hstate, rfl⟩
  | cons input rest ih =>
      obtain ⟨hnext, houtput⟩ := hstep state state' input hstate
      obtain ⟨hlater, houtputs⟩ := ih _ _ hnext
      refine ⟨hlater, ?_⟩
      rw [runFrom_cons, runFrom_cons, houtput, houtputs]

section LastWrite

variable {α : Type w} {step : σ → ι → σ} {read : σ → α} {writes : ι → Option α}

/-- A part of the state that each input sets or leaves is as the last input that
sets it says. -/
theorem foldl_lastWrite
    (hstep : ∀ state input, read (step state input) = (writes input).getD (read state))
    (state : σ) (inputs : List ι) :
    read (inputs.foldl step state) =
      (inputs.reverse.findSome? writes).getD (read state) := by
  induction inputs generalizing state with
  | nil => rfl
  | cons input rest ih =>
      rw [List.foldl_cons, ih, hstep, List.reverse_cons, List.findSome?_append,
        List.findSome?_singleton]
      cases rest.reverse.findSome? writes <;> rfl

end LastWrite

section Cost

variable (step : σ → ι → σ × ο) (cost : σ → ι → Nat)

/-- What all steps of a run cost together. -/
def runCost : σ → List ι → Nat
  | _, [] => 0
  | state, input :: rest => cost state input + runCost (step state input).1 rest

variable {step cost}

/-- Costs that a potential pays for, which may foresee the inputs to come. -/
theorem runCost_le {potential : σ → List ι → Nat}
    (hstep : ∀ state input rest,
      cost state input + potential (step state input).1 rest ≤ potential state (input :: rest))
    (state : σ) (inputs : List ι) : runCost step cost state inputs ≤ potential state inputs := by
  induction inputs generalizing state with
  | nil => exact Nat.zero_le _
  | cons input rest ih =>
      have hrest := Nat.add_le_add_left (ih (step state input).1) (cost state input)
      exact Nat.le_trans hrest (hstep state input rest)

end Cost

/-- Runs of a step that may fail; a failure ends the run. -/
def tryRun (step : σ → ι → Option σ) : σ → List ι → Option σ
  | state, [] => some state
  | state, input :: rest => (step state input).bind fun next => tryRun step next rest

theorem tryRun_cons_eq_some {step : σ → ι → Option σ} {state final : σ} {input : ι}
    {rest : List ι} (h : tryRun step state (input :: rest) = some final) :
    ∃ next, step state input = some next ∧ tryRun step next rest = some final :=
  Option.bind_eq_some_iff.mp h

theorem tryRun_append (step : σ → ι → Option σ) (state : σ) (before after : List ι) :
    tryRun step state (before ++ after) =
      (tryRun step state before).bind fun middle => tryRun step middle after := by
  induction before generalizing state with
  | nil => rfl
  | cons input rest ih =>
      rw [List.cons_append, tryRun, tryRun, Option.bind_assoc]
      exact congrArg _ (funext ih)

theorem tryRun_append_eq_some {step : σ → ι → Option σ} {state final : σ}
    {before after : List ι} (h : tryRun step state (before ++ after) = some final) :
    ∃ middle, tryRun step state before = some middle ∧
      tryRun step middle after = some final := by
  rw [tryRun_append] at h
  exact Option.bind_eq_some_iff.mp h

/-- What each step that succeeds preserves, as long as its input is a harmless
one, a run over harmless inputs preserves. -/
theorem tryRun_invariant (step : σ → ι → Option σ) (harmless : ι → Prop)
    (Inv : σ → Prop)
    (hstep : ∀ state input next, harmless input → step state input = some next →
      Inv state → Inv next)
    {state final : σ} {inputs : List ι} (hinputs : ∀ input ∈ inputs, harmless input)
    (hrun : tryRun step state inputs = some final) (hstate : Inv state) :
    Inv final := by
  induction inputs generalizing state with
  | nil =>
      obtain rfl : state = final := Option.some.inj hrun
      exact hstate
  | cons input rest ih =>
      obtain ⟨next, hnext, hrest⟩ := tryRun_cons_eq_some hrun
      obtain ⟨hfirst, hlater⟩ := List.forall_mem_cons.mp hinputs
      exact ih hlater hrest (hstep state input next hfirst hnext hstate)

/-- A relation kept by each step that succeeds, beside a step that always does,
is kept by a whole run. -/
theorem tryRun_simulation (step : σ → ι → Option σ) (step' : τ → ι → τ)
    (R : σ → τ → Prop)
    (hstep : ∀ state state' input next, R state state' → step state input = some next →
      R next (step' state' input))
    {state final : σ} {state' : τ} {inputs : List ι}
    (hrun : tryRun step state inputs = some final) (hstate : R state state') :
    R final (inputs.foldl step' state') := by
  induction inputs generalizing state state' with
  | nil =>
      obtain rfl : state = final := Option.some.inj hrun
      exact hstate
  | cons input rest ih =>
      obtain ⟨next, hnext, hrest⟩ := tryRun_cons_eq_some hrun
      rw [List.foldl_cons]
      exact ih hrest (hstep state state' input next hstate hnext)

/-- Runs of a step that may fail and that answers where it does not. -/
def tryRunFrom (step : σ → ι → Option (σ × ο)) : σ → List ι → Option (σ × List ο)
  | state, [] => some (state, [])
  | state, input :: rest =>
      (step state input).bind fun next =>
        (tryRunFrom step next.1 rest).map fun later => (later.1, next.2 :: later.2)

theorem tryRunFrom_cons_eq_some {step : σ → ι → Option (σ × ο)} {state final : σ}
    {input : ι} {rest : List ι} {outputs : List ο}
    (h : tryRunFrom step state (input :: rest) = some (final, outputs)) :
    ∃ next output later, step state input = some (next, output) ∧
      tryRunFrom step next rest = some (final, later) ∧ outputs = output :: later := by
  obtain ⟨⟨next, output⟩, hstep, hrest⟩ := Option.bind_eq_some_iff.mp h
  obtain ⟨⟨final', later⟩, hlater, heq⟩ := Option.map_eq_some_iff.mp hrest
  obtain ⟨rfl, rfl⟩ := Prod.mk.inj heq
  exact ⟨next, output, later, hstep, hlater, rfl⟩

/-- Two machines that step alike along a map of their states run alike. -/
theorem tryRunFrom_map {step : σ → ι → Option (σ × ο)} {step' : τ → ι → Option (τ × ο)}
    {f : τ → σ} (hstep : ∀ state input, step (f state) input =
      (step' state input).map fun next => (f next.1, next.2))
    (state : τ) (inputs : List ι) :
    tryRunFrom step (f state) inputs =
      (tryRunFrom step' state inputs).map fun final => (f final.1, final.2) := by
  induction inputs generalizing state with
  | nil => rfl
  | cons input rest ih =>
      rw [tryRunFrom, tryRunFrom, hstep]
      cases step' state input with
      | none => rfl
      | some next =>
          simp only [Option.map_some, Option.bind_some, ih, Option.map_map]
          rfl

/-- What each step that succeeds preserves; the invariant may speak about the
inputs so far. -/
theorem tryRunFrom_history_invariant {step : σ → ι → Option (σ × ο)}
    {Inv : List ι → σ → Prop}
    (hstep : ∀ history state input next output, Inv history state →
      step state input = some (next, output) → Inv (history ++ [input]) next)
    {history : List ι} {start final : σ} {inputs : List ι} {outputs : List ο}
    (hstart : Inv history start)
    (hrun : tryRunFrom step start inputs = some (final, outputs)) :
    Inv (history ++ inputs) final := by
  induction inputs generalizing start history outputs with
  | nil =>
      obtain ⟨rfl, rfl⟩ := Prod.mk.inj (Option.some.inj hrun)
      simpa using hstart
  | cons input rest ih =>
      obtain ⟨next, output, later, hfirst, hrest, rfl⟩ := tryRunFrom_cons_eq_some hrun
      have hnext := ih (hstep history start input next output hstart hfirst) hrest
      simpa using hnext

section Calls

variable {κ : Type w} {α : Type x}

/-- Each step makes some calls of a smaller component and answers what fits the
component's answers.  Then so does a run, whose calls are those of its steps one
after the other. -/
theorem tryRunFrom_calls {step : σ → ι → Option (σ × ο)} {call : τ → κ → τ × α}
    {view : σ → τ} {calls : ο → List κ} {Fits : ο → List α → Prop}
    (hstep : ∀ {state input next output}, step state input = some (next, output) →
      ∃ answers, Fits output answers ∧
        runFrom call (view state) (calls output) = (view next, answers))
    {start final : σ} {inputs : List ι} {outputs : List ο}
    (hrun : tryRunFrom step start inputs = some (final, outputs)) :
    ∃ answers, List.Forall₂ Fits outputs answers ∧
      runFrom call (view start) (outputs.flatMap calls) = (view final, answers.flatten) := by
  induction inputs generalizing start outputs with
  | nil =>
      obtain ⟨rfl, rfl⟩ := Prod.mk.inj (Option.some.inj hrun)
      exact ⟨[], .nil, rfl⟩
  | cons input rest ih =>
      obtain ⟨next, output, later, hfirst, hrest, rfl⟩ := tryRunFrom_cons_eq_some hrun
      obtain ⟨answer, hfits, hcalls⟩ := hstep hfirst
      obtain ⟨answers, hlater, hrun⟩ := ih hrest
      refine ⟨answer :: answers, .cons hfits hlater, ?_⟩
      rw [List.flatMap_cons, runFrom_append, hcalls, hrun, List.flatten_cons]

end Calls

section Projection

variable {κ : Type w} {ο' : Type x}

/-- The answers to the inputs that are selected. -/
def selected (select : ι → Option κ) (see : ο → ο') : List ι → List ο → List ο'
  | input :: inputs, output :: outputs =>
      if (select input).isSome then see output :: selected select see inputs outputs
      else selected select see inputs outputs
  | [], _ => []
  | _ :: _, [] => []

/-- A component that sees some of the inputs.  The relation is followed against
the run, so that the component's start may foresee what the others do. -/
structure Projects (step : σ → ι → Option (σ × ο)) (step' : τ → κ → τ × ο')
    (select : ι → Option κ) (see : ο → ο') (harmless : ι → Prop) (Inv : σ → Prop)
    (R : σ → τ → Prop) : Prop where
  inv : ∀ {state input next output}, Inv state → harmless input →
    step state input = some (next, output) → Inv next
  stay : ∀ {state input next output part}, Inv state → harmless input →
    step state input = some (next, output) → select input = none → R next part →
    R state part
  move : ∀ {state input next output seen part}, Inv state → harmless input →
    step state input = some (next, output) → select input = some seen → R next part →
    ∃ before, R state before ∧ step' before seen = (part, see output)

theorem Projects.inv_run {step : σ → ι → Option (σ × ο)} {step' : τ → κ → τ × ο'}
    {select : ι → Option κ} {see : ο → ο'} {harmless : ι → Prop} {Inv : σ → Prop}
    {R : σ → τ → Prop} (h : Projects step step' select see harmless Inv R)
    {state final : σ} {inputs : List ι} {outputs : List ο}
    (hinputs : ∀ input ∈ inputs, harmless input) (hstate : Inv state)
    (hrun : tryRunFrom step state inputs = some (final, outputs)) : Inv final := by
  induction inputs generalizing state outputs with
  | nil =>
      obtain ⟨rfl, rfl⟩ := Prod.mk.inj (Option.some.inj hrun)
      exact hstate
  | cons input rest ih =>
      obtain ⟨hfirst, hlater⟩ := List.forall_mem_cons.mp hinputs
      obtain ⟨next, output, later, hstep, hrest, rfl⟩ := tryRunFrom_cons_eq_some hrun
      exact ih hlater (h.inv hstate hfirst hstep) hrest

/-- What the selected inputs are answered in a run is a run of the component. -/
theorem Projects.run {step : σ → ι → Option (σ × ο)} {step' : τ → κ → τ × ο'}
    {select : ι → Option κ} {see : ο → ο'} {harmless : ι → Prop} {Inv : σ → Prop}
    {R : σ → τ → Prop} (h : Projects step step' select see harmless Inv R)
    {state final : σ} {inputs : List ι} {outputs : List ο} {part : τ}
    (hinputs : ∀ input ∈ inputs, harmless input) (hstate : Inv state)
    (hrun : tryRunFrom step state inputs = some (final, outputs)) (hfinal : R final part) :
    ∃ start, R state start ∧
      runFrom step' start (inputs.filterMap select) =
        (part, selected select see inputs outputs) := by
  induction inputs generalizing state outputs with
  | nil =>
      obtain ⟨rfl, rfl⟩ := Prod.mk.inj (Option.some.inj hrun)
      exact ⟨part, hfinal, rfl⟩
  | cons input rest ih =>
      obtain ⟨hfirst, hlater⟩ := List.forall_mem_cons.mp hinputs
      obtain ⟨next, output, later, hstep, hrest, rfl⟩ := tryRunFrom_cons_eq_some hrun
      obtain ⟨middle, hmiddle, hpart⟩ := ih hlater (h.inv hstate hfirst hstep) hrest
      cases hselect : select input with
      | none =>
          refine ⟨middle, h.stay hstate hfirst hstep hselect hmiddle, ?_⟩
          rw [List.filterMap_cons_none hselect, hpart, selected, hselect]
          rfl
      | some seen =>
          obtain ⟨start, hstart, hmove⟩ := h.move hstate hfirst hstep hselect hmiddle
          refine ⟨start, hstart, ?_⟩
          rw [List.filterMap_cons_some hselect, runFrom_cons, hmove, hpart, selected, hselect]
          rfl

end Projection

end StepRun
