import Mathlib

/-!
# Runs of labelled transition systems

`Trace step s₀ tr s` says that `s` is reached from `s₀` by the steps recorded
in `tr`, oldest first. Each record keeps the states before and after its step,
the event and the outputs, so that a history variable of a system (the packet
that opened a session, the scripts run so far) is a function of the trace.

* `Trace.invariant`: the induction rule. A property of the trace so far and
  the state reached holds of every run if it holds initially and each step
  preserves it.
* `Trace.split`, `Trace.last`: the run before, and the run after, a step.
* `Trace.forall_split`: a property of single steps, and of the run before them,
  that follows from the invariant holds at every position of every run.
-/

namespace Iwand

/-- One step of a run: `pre` takes event `ev`, emits `outs` and becomes `post`. -/
structure Record (σ ε ω : Type*) where
  pre : σ
  ev : ε
  outs : List ω
  post : σ

/-- The finite runs from `s₀`, with their records in order. -/
inductive Trace {σ ε ω : Type*} (step : σ → ε → List ω → σ → Prop) (s₀ : σ) :
    List (Record σ ε ω) → σ → Prop
  | nil : Trace step s₀ [] s₀
  | snoc {tr : List (Record σ ε ω)} {s s' : σ} {e : ε} {os : List ω} :
      Trace step s₀ tr s → step s e os s' → Trace step s₀ (tr ++ [⟨s, e, os, s'⟩]) s'

/-- A step of a prolonged run is the new step or a step of the run before. -/
theorem snoc_eq_append_cons {α : Type*} {tr tr₁ tr₂ : List α} {x r : α}
    (h : tr ++ [x] = tr₁ ++ r :: tr₂) :
    tr₂ = [] ∧ tr = tr₁ ∧ x = r ∨ ∃ tr₃, tr₂ = tr₃ ++ [x] ∧ tr = tr₁ ++ r :: tr₃ := by
  rcases List.eq_nil_or_concat tr₂ with rfl | ⟨tr₃, y, rfl⟩
  · obtain ⟨htr, hr⟩ := List.append_inj' h rfl
    exact .inl ⟨rfl, htr, List.singleton_inj.mp hr⟩
  · have h' : tr ++ [x] = (tr₁ ++ r :: tr₃) ++ [y] := by simpa using h
    obtain ⟨htr, hy⟩ := List.append_inj' h' rfl
    rw [List.singleton_inj.mp hy]
    exact .inr ⟨tr₃, List.concat_eq_append, htr⟩

namespace Trace

variable {σ ε ω : Type*} {step : σ → ε → List ω → σ → Prop} {s₀ s : σ} {tr : List (Record σ ε ω)}

/-- The induction rule for properties of a run and the state it reaches. -/
theorem invariant {P : List (Record σ ε ω) → σ → Prop} (h0 : P [] s₀)
    (hstep : ∀ tr s e os s', Trace step s₀ tr s → P tr s → step s e os s' →
      P (tr ++ [⟨s, e, os, s'⟩]) s')
    (h : Trace step s₀ tr s) : P tr s := by
  induction h with
  | nil => exact h0
  | snoc ht hs ih => exact hstep _ _ _ _ _ ht ih hs

/-- The rule for properties of the state alone. -/
theorem invariant_state {P : σ → Prop} (h0 : P s₀)
    (hstep : ∀ s e os s', P s → step s e os s' → P s') (h : Trace step s₀ tr s) : P s :=
  invariant (P := fun _ s => P s) h0 (fun _ s e os s' _ hp hs => hstep s e os s' hp hs) h

/-- The rule for properties of single steps and the run before them: every
    recorded step starts in a state of the invariant. -/
theorem forall_split {P : List (Record σ ε ω) → σ → Prop}
    {Q : List (Record σ ε ω) → Record σ ε ω → Prop} (h0 : P [] s₀)
    (hstep : ∀ tr s e os s', Trace step s₀ tr s → P tr s → step s e os s' →
      P (tr ++ [⟨s, e, os, s'⟩]) s')
    (hQ : ∀ tr s e os s', P tr s → step s e os s' → Q tr ⟨s, e, os, s'⟩)
    (h : Trace step s₀ tr s) : ∀ tr₁ r tr₂, tr = tr₁ ++ r :: tr₂ → Q tr₁ r := by
  refine (invariant (P := fun tr s => P tr s ∧ ∀ tr₁ r tr₂, tr = tr₁ ++ r :: tr₂ → Q tr₁ r)
    ⟨h0, by simp⟩ ?_ h).2
  intro tr s e os s' ht hp hs
  refine ⟨hstep tr s e os s' ht hp.1 hs, fun tr₁ r tr₂ heq => ?_⟩
  rcases snoc_eq_append_cons heq with ⟨rfl, rfl, rfl⟩ | ⟨tr₃, rfl, htr⟩
  · -- the last step
    exact hQ tr s e os s' hp.1 hs
  · exact hp.2 tr₁ r tr₃ htr

/-- A run can be cut after any step. -/
theorem split {tr₁ tr₂ : List (Record σ ε ω)} {r : Record σ ε ω}
    (h : Trace step s₀ (tr₁ ++ r :: tr₂) s) :
    Trace step s₀ (tr₁ ++ [r]) r.post ∧ Trace step r.post tr₂ s := by
  generalize htr : tr₁ ++ r :: tr₂ = tr at h
  induction h generalizing tr₂ with
  | nil => simp at htr
  | @snoc tr s s' e os ht hs ih =>
    rcases snoc_eq_append_cons htr.symm with ⟨rfl, rfl, rfl⟩ | ⟨tr₃, rfl, htr'⟩
    · exact ⟨.snoc ht hs, .nil⟩
    · obtain ⟨h₁, h₂⟩ := ih htr'.symm
      exact ⟨h₁, .snoc h₂ hs⟩

/-- The last step of a run. -/
theorem last {tr₁ : List (Record σ ε ω)} {r : Record σ ε ω}
    (h : Trace step s₀ (tr₁ ++ [r]) s) : Trace step s₀ tr₁ r.pre ∧ step r.pre r.ev r.outs r.post := by
  generalize htr : tr₁ ++ [r] = tr at h
  cases h with
  | nil => simp at htr
  | snoc ht hs =>
    obtain ⟨rfl, hr⟩ := List.append_inj' htr rfl
    rw [List.singleton_inj.mp hr]
    exact ⟨ht, hs⟩

/-- A run can be continued by another one. -/
theorem append {tr' : List (Record σ ε ω)} {s' : σ} (h : Trace step s₀ tr s)
    (h' : Trace step s tr' s') : Trace step s₀ (tr ++ tr') s' := by
  induction h' with
  | nil => simpa using h
  | snoc _ hs ih =>
    rw [← List.append_assoc]
    exact snoc ih hs

end Trace

end Iwand
