import Iwand.Common.Run

/-!
# Refinement by a function

A machine given as a step relation refines a function `f` from abstract states and
events to abstract states and outputs if a relation between the two kinds of states
survives each step and each step puts out what `f` says. Then a whole run puts out
what `f` puts out on the events of the run, and facts about `f` are facts about
every run.

* `Trace.replay_eq`: whole runs.
* `Trace.exists_run`: a run for each list of events.
* `replay_invariant`, `replay_congr`, `replay_filter`: an invariant of `f`, events
  that `f` does not tell apart, and events that `f` ignores.
* `find?_eq_some_iff`: lookup by an attribute that no two entries share.
-/

namespace Iwand

section

variable {A ε ω : Type*}

/-- `f` over a list of events: the state it ends in and what each event put out. -/
def replay (f : A → ε → A × List ω) : A → List ε → A × List (List ω)
  | a, [] => (a, [])
  | a, e :: es => ((replay f (f a e).1 es).1, (f a e).2 :: (replay f (f a e).1 es).2)

variable {f : A → ε → A × List ω}

@[simp] theorem replay_nil (a : A) : replay f a [] = (a, []) := rfl

@[simp] theorem replay_cons (a : A) (e : ε) (es : List ε) :
    replay f a (e :: es) =
      ((replay f (f a e).1 es).1, (f a e).2 :: (replay f (f a e).1 es).2) := rfl

theorem replay_append (es es' : List ε) : ∀ a, replay f a (es ++ es') =
    ((replay f (replay f a es).1 es').1, (replay f a es).2 ++ (replay f (replay f a es).1 es').2) := by
  induction es with
  | nil =>
    intro a
    rfl
  | cons e es ih =>
    intro a
    rw [List.cons_append, replay_cons, ih, replay_cons]
    rfl

/-- An invariant of `f` on the events of a list. -/
theorem replay_invariant {I : A → Prop} {es : List ε} (hstep : ∀ a, ∀ e ∈ es, I a → I (f a e).1)
    {a : A} (h0 : I a) : I (replay f a es).1 := by
  induction es generalizing a with
  | nil => exact h0
  | cons e es ih =>
    exact ih (fun a e' he' => hstep a e' (List.mem_cons_of_mem e he'))
      (hstep a e List.mem_cons_self h0)

/-- Events that `f` does not tell apart. -/
theorem replay_congr {sim : ε → ε → Prop} (hsim : ∀ a e e', sim e e' → f a e = f a e')
    {es es' : List ε} (h : List.Forall₂ sim es es') : ∀ a, replay f a es = replay f a es' := by
  induction h with
  | nil =>
    intro a
    rfl
  | cons he _ ih =>
    intro a
    rw [replay_cons, replay_cons, hsim a _ _ he, ih]

/-- Without the events that change nothing in a state of the invariant, the state
    is the same, and the events that are left put out the same. -/
theorem replay_filter {I : A → Prop} {keep : ε → Bool} {es : List ε}
    (hstep : ∀ a, ∀ e ∈ es, I a → I (f a e).1)
    (hskip : ∀ a, ∀ e ∈ es, I a → keep e = false → (f a e).1 = a) {a : A} (h0 : I a) :
    replay f a (es.filter keep) = ((replay f a es).1,
      ((es.zip (replay f a es).2).filter fun x => keep x.1).map Prod.snd) := by
  induction es generalizing a with
  | nil => rfl
  | cons e es ih =>
    have htail := ih (fun a e' he' => hstep a e' (List.mem_cons_of_mem e he'))
      (fun a e' he' => hskip a e' (List.mem_cons_of_mem e he')) (hstep a e List.mem_cons_self h0)
    cases hk : keep e with
    | true =>
      rw [List.filter_cons_of_pos hk, replay_cons, htail, replay_cons]
      simp [hk]
    | false =>
      rw [List.filter_cons_of_neg (by simp [hk])]
      rw [hskip a e List.mem_cons_self h0 hk] at htail
      rw [replay_cons, hskip a e List.mem_cons_self h0 hk, htail]
      simp [hk]

/-! ## Runs -/

variable {σ : Type*} {step : σ → ε → List ω → σ → Prop} {s₀ s : σ} {tr : List (Record σ ε ω)}

/-- **Refinement over whole runs.** -/
theorem Trace.replay_eq {Rel : σ → A → Prop} {a₀ : A} (h0 : Rel s₀ a₀)
    (hstep : ∀ s a e os s', Rel s a → step s e os s' → (f a e).2 = os ∧ Rel s' (f a e).1)
    (h : Trace step s₀ tr s) :
    (replay f a₀ (tr.map Record.ev)).2 = tr.map Record.outs ∧
      Rel s (replay f a₀ (tr.map Record.ev)).1 := by
  induction h with
  | nil => exact ⟨rfl, h0⟩
  | snoc _ hs ih =>
    obtain ⟨houts, hrel⟩ := ih
    obtain ⟨hout, hrel'⟩ := hstep _ _ _ _ _ hrel hs
    rw [List.map_append, replay_append, List.map_append, houts]
    refine ⟨?_, hrel'⟩
    show _ ++ [_] = _ ++ [_]
    rw [hout]

/-- Outputs of the steps whose events pass a test. -/
theorem zip_filter_map (keep : ε → Bool) (tr : List (Record σ ε ω)) :
    (((tr.map Record.ev).zip (tr.map Record.outs)).filter fun x => keep x.1).map Prod.snd =
      (tr.filter fun r => keep r.ev).map Record.outs := by
  rw [List.zip_map', List.filter_map, List.map_map]
  rfl

/-- A machine that never gets stuck has a run for each list of events. -/
theorem Trace.exists_run {I : σ → Prop} (hstep : ∀ s e, I s → ∃ os s', step s e os s' ∧ I s')
    (h0 : I s₀) (es : List ε) : ∃ tr s, Trace step s₀ tr s ∧ tr.map Record.ev = es ∧ I s := by
  induction es using List.reverseRecOn with
  | nil => exact ⟨[], s₀, .nil, rfl, h0⟩
  | append_singleton es e ih =>
    obtain ⟨tr, s, hrun, rfl, hi⟩ := ih
    obtain ⟨os, s', hs, hi'⟩ := hstep s e hi
    exact ⟨_, s', hrun.snoc hs, by simp, hi'⟩

end

/-! ## Lookup by an attribute -/

section

variable {α β : Type*} [DecidableEq β] {attr : α → β} {l : List α} {x : α} {b : β}

/-- Lookup by an attribute that no two entries share. -/
theorem find?_eq_some_iff (hinj : Set.InjOn attr {x | x ∈ l}) :
    (l.find? fun y => attr y = b) = some x ↔ x ∈ l ∧ attr x = b := by
  constructor
  · intro h
    exact ⟨List.mem_of_find?_eq_some h, by simpa using List.find?_some h⟩
  · rintro ⟨hx, hb⟩
    cases hfind : l.find? fun y => attr y = b with
    | none => exact absurd hb (by simpa using List.find?_eq_none.mp hfind x hx)
    | some y =>
      have hy : attr y = b := by simpa using List.find?_some hfind
      rw [hinj (List.mem_of_find?_eq_some hfind) hx (hy.trans hb.symm)]

theorem find?_eq_none_iff : (l.find? fun y => attr y = b) = none ↔ ∀ x ∈ l, attr x ≠ b := by
  simp

end

end Iwand
