import Iwand.Common.Run

/-!
# Interleaved calls

A call that shares state with the calls of other threads is a program of critical
sections and writes (`Prog`): a section reads and changes the shared state in one
go, and what the call computes in between nobody else can see. `Threads.Step` runs
the calls of several threads node by node in any order; `CallStep` runs one call
at a time to its end.

* `Threads.Step.effect`: what one step means for the calls.
* `simulate`: if one thread writes the shared state, and only in the first node of
  a call, and a call of any other thread reads it once, in its first node, then
  every interleaving does what the calls do one after the other, in the order of
  their first nodes.
* `callTrace_interleaving`: conversely, calls one after the other are an
  interleaving.
* `linearizable`: the same for a run that starts with all threads idle.
* `length_pending_le`: a thread has no more left to write than a call writes.
-/

namespace Iwand

/-- A call: its result, a critical section, or a write, and what follows. What
    follows a section depends on the state that the section found. -/
inductive Prog (σ ω α : Type*) where
  | ret (a : α)
  | crit (upd : σ → σ) (next : σ → Prog σ ω α)
  | emit (o : ω) (next : Prog σ ω α)

namespace Prog

variable {σ ω α : Type*}

/-- The call without interruption: the state, the writes and the result. -/
def run : Prog σ ω α → σ → σ × List ω × α
  | ret a, s => (s, [], a)
  | crit upd next, s => (next s).run (upd s)
  | emit o next, s => ((next.run s).1, o :: (next.run s).2.1, (next.run s).2.2)

/-- What the call writes from state `s` on. -/
def outs (p : Prog σ ω α) (s : σ) : List ω := (p.run s).2.1

/-- The state after the first node, what the node writes, and what is left of the
    call, unless it has returned. -/
def node : Prog σ ω α → σ → σ × List ω × Option (Prog σ ω α)
  | ret _, s => (s, [], none)
  | crit upd next, s => (upd s, [], some (next s))
  | emit o next, s => (s, [o], some next)

/-- The sections of the call change nothing. -/
inductive ReadOnly : Prog σ ω α → Prop
  | ret (a : α) : ReadOnly (ret a)
  | crit {upd : σ → σ} {next : σ → Prog σ ω α} (hupd : ∀ s, upd s = s)
      (hnext : ∀ s, ReadOnly (next s)) : ReadOnly (crit upd next)
  | emit (o : ω) {next : Prog σ ω α} (hnext : ReadOnly next) : ReadOnly (emit o next)

/-- The call has no section. -/
inductive Quiet : Prog σ ω α → Prop
  | ret (a : α) : Quiet (ret a)
  | emit (o : ω) {next : Prog σ ω α} (hnext : Quiet next) : Quiet (emit o next)

/-- Only the first node of the call may change the state. -/
def WriteFirst (p : Prog σ ω α) : Prop := ∀ s q, (p.node s).2.2 = some q → q.ReadOnly

/-- The call changes nothing and reads the state only in its first node. -/
def ReadOnce (p : Prog σ ω α) : Prop :=
  ∀ s, (p.node s).1 = s ∧ ∀ q, (p.node s).2.2 = some q → q.Quiet

/-- What is left of a call, if anything, writes from state `s` on. -/
def pending (rest : Option (Prog σ ω α)) (s : σ) : List ω := (rest.map fun q => q.outs s).getD []

variable {p : Prog σ ω α}

theorem Quiet.readOnly (h : p.Quiet) : p.ReadOnly := by
  induction h with
  | ret a => exact .ret a
  | emit o _ ih => exact .emit o ih

/-- A call without sections writes the same in every state. -/
theorem Quiet.outs_eq (h : p.Quiet) (s s' : σ) : p.outs s = p.outs s' := by
  induction h with
  | ret a => rfl
  | emit o _ ih =>
    unfold outs at ih ⊢
    rw [run, run]
    simp only [ih]

theorem ReadOnly.run_fst (h : p.ReadOnly) (s : σ) : (p.run s).1 = s := by
  induction h with
  | ret a => rfl
  | crit hupd _ ih =>
    rw [run, hupd]
    exact ih s
  | emit o _ ih => exact ih

/-- The node of a call that only reads. -/
theorem ReadOnly.node (h : p.ReadOnly) (s : σ) :
    (p.node s).1 = s ∧ ∀ q, (p.node s).2.2 = some q → q.ReadOnly := by
  cases h with
  | ret a => exact ⟨rfl, fun q hq => by cases hq⟩
  | crit hupd hnext =>
    refine ⟨hupd s, fun q hq => ?_⟩
    cases hq
    exact hnext s
  | emit o hnext =>
    refine ⟨rfl, fun q hq => ?_⟩
    cases hq
    exact hnext

/-- The node of a call without sections. -/
theorem Quiet.node (h : p.Quiet) (s : σ) : ∀ q, (p.node s).2.2 = some q → q.Quiet := by
  cases h with
  | ret a => exact fun q hq => by cases hq
  | emit o hnext =>
    intro q hq
    cases hq
    exact hnext

/-- A call writes what its first node writes, and then what is left of it. -/
theorem outs_eq_node (p : Prog σ ω α) (s : σ) :
    p.outs s = (p.node s).2.1 ++ pending (p.node s).2.2 (p.node s).1 := by
  cases p with
  | ret a => rfl
  | crit upd next => rfl
  | emit o next => rfl

/-- A call is its first node and what is left of it. -/
theorem run_eq_node {p q : Prog σ ω α} {s : σ} (h : (p.node s).2.2 = some q) :
    p.run s = ((q.run (p.node s).1).1, (p.node s).2.1 ++ q.outs (p.node s).1,
      (q.run (p.node s).1).2.2) := by
  cases p with
  | ret a => cases h
  | crit upd next =>
    cases h
    rfl
  | emit o next =>
    cases h
    rfl

/-- After the first node of a call that writes first, the state stays. -/
theorem WriteFirst.run_fst (h : p.WriteFirst) (s : σ) : (p.run s).1 = (p.node s).1 := by
  cases p with
  | ret a => rfl
  | crit upd next => exact (h s _ rfl).run_fst _
  | emit o next => exact (h s _ rfl).run_fst _

theorem ReadOnly.writeFirst (h : p.ReadOnly) : p.WriteFirst := fun s => (h.node s).2

theorem Quiet.readOnce (h : p.Quiet) : p.ReadOnce := fun s => ⟨(h.readOnly.node s).1, h.node s⟩

theorem ReadOnce.writeFirst (h : p.ReadOnce) : p.WriteFirst :=
  fun s q hq => ((h s).2 q hq).readOnly

end Prog

/-! ## Threads -/

/-- Where a thread is: between two calls, at the beginning of a call, or inside
    one with what is left of it. -/
inductive Pc (κ σ ω α : Type*) where
  | idle
  | called (c : κ)
  | inside (p : Prog σ ω α)

/-- The shared state and the threads. -/
structure Threads (ι κ σ ω α : Type*) where
  shared : σ
  pc : ι → Pc κ σ ω α

/-- A call is made, or a thread runs the next node of its call. -/
inductive Act (ι κ : Type*) where
  | call (c : κ)
  | go (i : ι)

section

variable {ι κ σ ω α : Type*} (thread : κ → ι) (prog : κ → Prog σ ω α)

/-- What a thread has left to run. -/
def Pc.rest : Pc κ σ ω α → Option (Prog σ ω α)
  | idle => none
  | called c => some (prog c)
  | inside p => some p

/-- Where a thread is after a node. -/
def Pc.after : Option (Prog σ ω α) → Pc κ σ ω α
  | none => idle
  | some p => inside p

/-- All threads are idle. -/
def Threads.start (s : σ) : Threads ι κ σ ω α := ⟨s, fun _ => .idle⟩

/-- One step of the interleaving, with what it writes and who writes it. -/
inductive Threads.Step [DecidableEq ι] (t : Threads ι κ σ ω α) :
    Act ι κ → List (ι × ω) → Threads ι κ σ ω α → Prop
  | call (c : κ) (h : t.pc (thread c) = .idle) :
      Step t (.call c) [] { t with pc := Function.update t.pc (thread c) (.called c) }
  | go (i : ι) (p : Prog σ ω α) (h : (t.pc i).rest prog = some p) :
      Step t (.go i) ((p.node t.shared).2.1.map (i, ·))
        ⟨(p.node t.shared).1, Function.update t.pc i (.after (p.node t.shared).2.2)⟩

/-- One call to its end. -/
def CallStep (s : σ) (c : κ) (os : List ω) (s' : σ) : Prop := ∃ a, (prog c).run s = (s', os, a)

/-- The calls of a run in the order of their first nodes. -/
def linearization (tr : List (Record (Threads ι κ σ ω α) (Act ι κ) (ι × ω))) : List κ :=
  tr.filterMap fun r =>
    match r.ev with
    | .call _ => none
    | .go i =>
      match r.pre.pc i with
      | .called c => some c
      | _ => none

variable [DecidableEq ι]

/-- What thread `i` has written. -/
def writes (i : ι) (tr : List (Record (Threads ι κ σ ω α) (Act ι κ) (ι × ω))) : List ω :=
  tr.flatMap fun r => r.outs.filterMap fun o => if o.1 = i then some o.2 else none

/-- What thread `i` will still write in the call that it is inside, if no state
    intervenes. -/
def Threads.pending (i : ι) (t : Threads ι κ σ ω α) : List ω :=
  match t.pc i with
  | .inside p => p.outs t.shared
  | _ => []

/-- What the calls of thread `i` write in a run of whole calls. -/
def decided (i : ι) (seq : List (Record σ κ ω)) : List ω :=
  seq.flatMap fun r => if thread r.ev = i then r.outs else []

/-! ## Linearization -/

/-- Every thread is inside a call of its own that has nothing more to change, and
    the threads other than `w` have nothing more to read. -/
structure Threads.Settled (w : ι) (t : Threads ι κ σ ω α) : Prop where
  called : ∀ i c, t.pc i = .called c → thread c = i
  reads : ∀ i p, t.pc i = .inside p → p.ReadOnly
  quiet : ∀ i p, i ≠ w → t.pc i = .inside p → p.Quiet

omit [DecidableEq ι] in
theorem settled_start (w : ι) (s : σ) : (Threads.start s : Threads ι κ σ ω α).Settled thread w :=
  ⟨fun _ _ h => (by cases h), fun _ _ h => (by cases h), fun _ _ _ h => (by cases h)⟩

variable {thread} {prog} {w : ι} {t t' : Threads ι κ σ ω α}

omit [DecidableEq ι] in
theorem Pc.after_eq_inside {rest : Option (Prog σ ω α)} {p : Prog σ ω α}
    (h : (Pc.after rest : Pc κ σ ω α) = .inside p) : rest = some p := by
  cases rest with
  | none => cases h
  | some q =>
    cases h
    rfl

omit [DecidableEq ι] in
theorem Pc.after_ne_called (rest : Option (Prog σ ω α)) (c : κ) :
    (Pc.after rest : Pc κ σ ω α) ≠ .called c := by
  cases rest <;> exact fun h => by cases h

theorem pending_update_self (i : ι) (rest : Option (Prog σ ω α)) (s : σ) :
    (⟨s, Function.update t.pc i (.after rest)⟩ : Threads ι κ σ ω α).pending i =
      Prog.pending rest s := by
  unfold Threads.pending
  simp only [Function.update_self]
  cases rest <;> rfl

/-- A node of another thread changes what is pending only through the state. -/
theorem pending_update_ne {i j : ι} (h : j ≠ i) (pc : Pc κ σ ω α) (s : σ)
    (hs : s = t.shared ∨ ∀ p, t.pc j = .inside p → p.Quiet) :
    (⟨s, Function.update t.pc i pc⟩ : Threads ι κ σ ω α).pending j = t.pending j := by
  unfold Threads.pending
  simp only [Function.update_of_ne h]
  cases hpc : t.pc j with
  | idle => rfl
  | called c => rfl
  | inside p =>
    rcases hs with rfl | hq
    · rfl
    · exact (hq p hpc).outs_eq _ _

/-- A thread moves on, and the threads stay settled. -/
theorem Threads.Settled.update (h : t.Settled thread w) (i : ι) (s : σ) {pc : Pc κ σ ω α}
    (hcalled : ∀ c, pc = .called c → thread c = i) (hreads : ∀ q, pc = .inside q → q.ReadOnly)
    (hquiet : i ≠ w → ∀ q, pc = .inside q → q.Quiet) :
    (⟨s, Function.update t.pc i pc⟩ : Threads ι κ σ ω α).Settled thread w := by
  have hpc : ∀ j, Function.update t.pc i pc j = if j = i then pc else t.pc j := fun j => by
    by_cases hj : j = i
    · rw [hj, Function.update_self, if_pos rfl]
    · rw [Function.update_of_ne hj, if_neg hj]
  refine ⟨fun j c hj => ?_, fun j q hj => ?_, fun j q hw hj => ?_⟩ <;>
    simp only [hpc] at hj <;> split_ifs at hj with hji
  · exact (hcalled c hj).trans hji.symm
  · exact h.called j c hj
  · exact hreads q hj
  · exact h.reads j q hj
  · exact hquiet (hji ▸ hw) q hj
  · exact h.quiet j q hw hj

variable (thread prog) in
/-- What one step means for the calls: the shared state stays and a thread goes on
    with what it had left, or a call begins and, seen from the shared state, runs to
    its end. -/
inductive Threads.Effect (t : Threads ι κ σ ω α) (a : Act ι κ) (os : List (ι × ω))
    (t' : Threads ι κ σ ω α) : Prop
  | goesOn (hshared : t'.shared = t.shared) (horder : linearization [⟨t, a, os, t'⟩] = [])
      (houts : ∀ i, writes i [⟨t, a, os, t'⟩] ++ t'.pending i = t.pending i)
  | begins (c : κ) (outs : List ω) (hcall : CallStep prog t.shared c outs t'.shared)
      (horder : linearization [⟨t, a, os, t'⟩] = [c]) (hidle : t.pending (thread c) = [])
      (houts : ∀ i, writes i [⟨t, a, os, t'⟩] ++ t'.pending i =
        t.pending i ++ if thread c = i then outs else [])

theorem writes_go (i j : ι) (os : List ω) (t t' : Threads ι κ σ ω α) (a : Act ι κ) :
    writes j [⟨t, a, os.map (i, ·), t'⟩] = if j = i then os else [] := by
  unfold writes
  simp only [List.flatMap_cons, List.flatMap_nil, List.append_nil, List.filterMap_map]
  by_cases h : j = i
  · subst h
    simp
  · simp [h, Ne.symm h]

/-- **One step.** -/
theorem Threads.Step.effect (hw : ∀ c, thread c = w → (prog c).WriteFirst)
    (hr : ∀ c, thread c ≠ w → (prog c).ReadOnce) (h : t.Settled thread w) {a : Act ι κ}
    {os : List (ι × ω)} (hs : t.Step thread prog a os t') :
    t'.Settled thread w ∧ Threads.Effect thread prog t a os t' := by
  cases hs with
  | call c hidle =>
    refine ⟨h.update _ _ (fun c' hc' => by cases hc'; rfl) (fun q hq => by cases hq)
      (fun _ q hq => by cases hq), .goesOn rfl rfl fun i => ?_⟩
    by_cases hci : i = thread c
    · subst hci
      simp [writes, Threads.pending, hidle]
    · rw [pending_update_ne hci _ _ (.inl rfl)]
      simp [writes]
  | go i p hrest =>
    cases hpc : t.pc i with
    | idle =>
      rw [hpc] at hrest
      cases hrest
    | called c =>
      rw [hpc] at hrest
      cases hrest
      have hthread := h.called i c hpc
      have hfirst : (prog c).WriteFirst := by
        by_cases hc : thread c = w
        · exact hw c hc
        · exact (hr c hc).writeFirst
      refine ⟨h.update i _ (fun c' hc' => absurd hc' (Pc.after_ne_called _ _))
        (fun q hq => hfirst _ q (Pc.after_eq_inside hq))
        (fun hne q hq => ((hr c (hthread ▸ hne)) _).2 q (Pc.after_eq_inside hq)), ?_⟩
      refine .begins c ((prog c).outs t.shared) ⟨((prog c).run t.shared).2.2, ?_⟩
        (by simp [linearization, hpc]) (by simp [Threads.pending, hthread, hpc]) fun j => ?_
      · rw [← hfirst.run_fst]
        rfl
      · rw [writes_go]
        by_cases hj : j = i
        · subst hj
          rw [pending_update_self, if_pos rfl, if_pos hthread, ← Prog.outs_eq_node]
          simp [Threads.pending, hpc]
        · rw [pending_update_ne hj, if_neg hj, if_neg (hthread ▸ Ne.symm hj)]
          · simp
          · -- a reader leaves the state alone; the others do not look at it any more
            by_cases hc : thread c = w
            · exact .inr fun q hq => h.quiet j q (fun hjw => hj (by rw [hjw, ← hc, hthread])) hq
            · exact .inl ((hr c hc) _).1
    | inside p' =>
      rw [hpc] at hrest
      cases hrest
      have hreads := (h.reads i p hpc).node t.shared
      refine ⟨h.update i _ (fun c' hc' => absurd hc' (Pc.after_ne_called _ _))
        (fun q hq => hreads.2 q (Pc.after_eq_inside hq))
        (fun hne q hq => (h.quiet i p hne hpc).node _ q (Pc.after_eq_inside hq)),
        .goesOn hreads.1 (by simp [linearization, hpc]) fun j => ?_⟩
      rw [writes_go]
      by_cases hj : j = i
      · subst hj
        rw [pending_update_self, if_pos rfl, ← Prog.outs_eq_node]
        simp [Threads.pending, hpc]
      · rw [pending_update_ne hj _ _ (.inl hreads.1), if_neg hj]
        simp

section

variable {tr : List (Record (Threads ι κ σ ω α) (Act ι κ) (ι × ω))}
  {r : Record (Threads ι κ σ ω α) (Act ι κ) (ι × ω)}

omit [DecidableEq ι] in
theorem linearization_snoc : linearization (tr ++ [r]) = linearization tr ++ linearization [r] := by
  unfold linearization
  rw [List.filterMap_append]

theorem writes_snoc (i : ι) : writes i (tr ++ [r]) = writes i tr ++ writes i [r] := by
  unfold writes
  rw [List.flatMap_append]

theorem decided_snoc (i : ι) (seq : List (Record σ κ ω)) (q : Record σ κ ω) :
    decided thread i (seq ++ [q]) =
      decided thread i seq ++ if thread q.ev = i then q.outs else [] := by
  unfold decided
  rw [List.flatMap_append]
  simp

/-- **Simulation.** From settled threads on, an interleaving runs the calls that it
    begins, one after the other in the order of their first nodes; each thread
    writes what was left of its first call, and then what its calls write. -/
theorem simulate (hw : ∀ c, thread c = w → (prog c).WriteFirst)
    (hr : ∀ c, thread c ≠ w → (prog c).ReadOnce) (h0 : t.Settled thread w)
    (h : Trace (Threads.Step thread prog) t tr t') :
    t'.Settled thread w ∧ ∃ seq, Trace (CallStep prog) t.shared seq t'.shared ∧
      seq.map (·.ev) = linearization tr ∧
      ∀ i, writes i tr ++ t'.pending i = t.pending i ++ decided thread i seq := by
  refine h.invariant (P := fun tr t' => t'.Settled thread w ∧ ∃ seq,
    Trace (CallStep prog) t.shared seq t'.shared ∧ seq.map (·.ev) = linearization tr ∧
    ∀ i, writes i tr ++ t'.pending i = t.pending i ++ decided thread i seq)
    ⟨h0, [], .nil, rfl, fun i => by simp [writes, decided]⟩ ?_
  rintro tr t₁ a os t₂ - ⟨hset, seq, hrun, horder, houts⟩ hs
  obtain ⟨hset', heff⟩ := hs.effect hw hr hset
  refine ⟨hset', ?_⟩
  cases heff with
  | goesOn hshared horder' houts' =>
    refine ⟨seq, hshared ▸ hrun, ?_, fun i => ?_⟩
    · rw [linearization_snoc, horder', List.append_nil, horder]
    · rw [writes_snoc, List.append_assoc, houts' i, houts i]
  | begins c outs hcall horder' hidle houts' =>
    refine ⟨_, hrun.snoc hcall, ?_, fun i => ?_⟩
    · rw [linearization_snoc, horder', List.map_append, horder]
      rfl
    · rw [writes_snoc, decided_snoc, List.append_assoc, houts' i, ← List.append_assoc, houts i,
        List.append_assoc]

/-- **Linearization.** Every interleaving of calls does to the shared state what
    the same calls do one after the other, and each thread has written what its
    calls write, up to the end of the call that it is inside. -/
theorem linearizable (hw : ∀ c, thread c = w → (prog c).WriteFirst)
    (hr : ∀ c, thread c ≠ w → (prog c).ReadOnce) {s : σ}
    (h : Trace (Threads.Step thread prog) (Threads.start s) tr t') :
    ∃ seq, Trace (CallStep prog) s seq t'.shared ∧ seq.map (·.ev) = linearization tr ∧
      ∀ i, writes i tr ++ t'.pending i = decided thread i seq :=
  (simulate hw hr (settled_start thread w s) h).2

/-- A thread has no more left to write than one of its calls writes. -/
theorem length_pending_le (hw : ∀ c, thread c = w → (prog c).WriteFirst)
    (hr : ∀ c, thread c ≠ w → (prog c).ReadOnce) {i : ι} {n : ℕ}
    (hn : ∀ c, thread c = i → ∀ s, ((prog c).outs s).length ≤ n) {s : σ}
    (h : Trace (Threads.Step thread prog) (Threads.start s) tr t') : (t'.pending i).length ≤ n := by
  refine (h.invariant (P := fun _ t => t.Settled thread w ∧ (t.pending i).length ≤ n)
    ⟨settled_start thread w s, by simp [Threads.pending, Threads.start]⟩ ?_).2
  rintro tr t₁ a os t₂ - ⟨hset, hlen⟩ hs
  obtain ⟨hset', heff⟩ := hs.effect hw hr hset
  refine ⟨hset', ?_⟩
  cases heff with
  | goesOn _ _ houts =>
    have hlen' := congrArg List.length (houts i)
    rw [List.length_append] at hlen'
    omega
  | begins c outs hcall _ hidle houts =>
    have hlen' := congrArg List.length (houts i)
    rw [List.length_append, List.length_append] at hlen'
    by_cases hc : thread c = i
    · obtain ⟨a, ha⟩ := hcall
      have houtsLe : outs.length ≤ n := by
        have hle := hn c hc t₁.shared
        unfold Prog.outs at hle
        rwa [ha] at hle
      rw [hc] at hidle
      rw [hidle, if_pos hc, List.length_nil] at hlen'
      omega
    · rw [if_neg hc, List.length_nil] at hlen'
      omega

end

/-! ## Uninterrupted calls -/

/-- An idle thread makes a call and runs its first node. -/
theorem Threads.begin {t₀ : Threads ι κ σ ω α}
    {tr : List (Record (Threads ι κ σ ω α) (Act ι κ) (ι × ω))} {c : κ} {s : σ} {os : List ω}
    {rest : Option (Prog σ ω α)} (h : Trace (Threads.Step thread prog) t₀ tr t)
    (hidle : t.pc (thread c) = .idle) (hnode : (prog c).node t.shared = (s, os, rest)) :
    Trace (Threads.Step thread prog) t₀
      (tr ++ [⟨t, .call c, [], ⟨t.shared, Function.update t.pc (thread c) (.called c)⟩⟩] ++
        [⟨⟨t.shared, Function.update t.pc (thread c) (.called c)⟩, .go (thread c),
          os.map (thread c, ·), ⟨s, Function.update t.pc (thread c) (.after rest)⟩⟩])
      ⟨s, Function.update t.pc (thread c) (.after rest)⟩ := by
  have hcall : t.Step thread prog (.call c) []
      ⟨t.shared, Function.update t.pc (thread c) (.called c)⟩ := .call c hidle
  have hgo : Threads.Step thread prog ⟨t.shared, Function.update t.pc (thread c) (.called c)⟩
      (.go (thread c)) (((prog c).node t.shared).2.1.map (thread c, ·))
      ⟨((prog c).node t.shared).1, Function.update (Function.update t.pc (thread c) (.called c))
        (thread c) (.after ((prog c).node t.shared).2.2)⟩ :=
    .go (thread c) (prog c) (by simp [Pc.rest])
  rw [hnode, Function.update_idem] at hgo
  exact (h.snoc hcall).snoc hgo

variable (thread prog) in
/-- A thread can run what it has left to its end. -/
theorem Prog.finish (p : Prog σ ω α) : ∀ {t : Threads ι κ σ ω α} {i : ι}, t.pc i = .inside p →
    ∃ tr t', Trace (Threads.Step thread prog) t tr t' ∧ t'.shared = (p.run t.shared).1 ∧
      t'.pc = Function.update t.pc i .idle ∧ linearization tr = [] ∧
      ∀ j, writes j tr = if j = i then p.outs t.shared else [] := by
  -- one node, and then the rest
  have hnode : ∀ {p : Prog σ ω α} {t : Threads ι κ σ ω α} {i : ι}, t.pc i = .inside p →
      t.Step thread prog (.go i) ((p.node t.shared).2.1.map (i, ·))
        ⟨(p.node t.shared).1, Function.update t.pc i (.after (p.node t.shared).2.2)⟩ :=
    fun hpc => .go _ _ (by rw [hpc]; rfl)
  induction p with
  | ret a =>
    intro t i hpc
    refine ⟨_, _, .snoc .nil (hnode hpc), rfl, rfl, by simp [linearization, hpc], fun j => ?_⟩
    rw [List.nil_append, writes_go]
    rfl
  | crit upd next ih =>
    intro t i hpc
    obtain ⟨tr, t', hrun, hshared, hpc', horder, houts⟩ := ih t.shared
      (t := ⟨upd t.shared, Function.update t.pc i (.inside (next t.shared))⟩) (i := i) (by simp)
    refine ⟨_, t', (Trace.snoc .nil (hnode hpc)).append hrun, hshared, ?_, ?_, fun j => ?_⟩
    · rw [hpc', Function.update_idem]
    · simp [linearization, hpc] at horder ⊢
      exact horder
    · have hj := houts j
      unfold writes at hj ⊢
      rw [List.flatMap_append, hj]
      simp [Prog.node]
      rfl
  | emit o next ih =>
    intro t i hpc
    obtain ⟨tr, t', hrun, hshared, hpc', horder, houts⟩ := ih
      (t := ⟨t.shared, Function.update t.pc i (.inside next)⟩) (i := i) (by simp)
    refine ⟨_, t', (Trace.snoc .nil (hnode hpc)).append hrun, hshared, ?_, ?_, fun j => ?_⟩
    · rw [hpc', Function.update_idem]
    · simp [linearization, hpc] at horder ⊢
      exact horder
    · have hj := houts j
      unfold writes at hj ⊢
      rw [List.flatMap_append, hj]
      by_cases h : j = i
      · subst h
        simp [Prog.node, Prog.outs, Prog.run]
      · simp [Prog.node, h, Ne.symm h]

variable (thread) in
/-- A call of an idle thread, from its beginning to its end. -/
theorem CallStep.interleaving {c : κ} {os : List ω} {s : σ} (hidle : t.pc (thread c) = .idle)
    (h : CallStep prog t.shared c os s) :
    ∃ tr, Trace (Threads.Step thread prog) t tr ⟨s, t.pc⟩ ∧ linearization tr = [c] ∧
      ∀ j, writes j tr = if thread c = j then os else [] := by
  obtain ⟨a, ha⟩ := h
  -- the beginning of the call, and then the call as what the thread has left
  obtain ⟨⟨s₁, os₁, rest⟩, hnode⟩ : ∃ x, (prog c).node t.shared = x := ⟨_, rfl⟩
  have htwo := Threads.begin (.nil : Trace (Threads.Step thread prog) t [] t) hidle hnode
  have hback : Function.update t.pc (thread c) .idle = t.pc := by
    rw [← hidle, Function.update_eq_self]
  cases rest with
  | none =>
    -- the call is a result alone
    cases hp : prog c with
    | crit upd next =>
      rw [hp] at hnode
      cases hnode
    | emit o next =>
      rw [hp] at hnode
      cases hnode
    | ret b =>
      rw [hp] at ha hnode
      cases ha
      cases hnode
      simp only [Pc.after, hback] at htwo
      refine ⟨_, htwo, by simp [linearization], fun j => ?_⟩
      simp [writes]
  | some q =>
    obtain ⟨tr, t', hrun, hshared, hpc, horder, houts⟩ := q.finish thread prog
      (t := ⟨s₁, Function.update t.pc (thread c) (.inside q)⟩) (i := thread c) (by simp)
    have hfst : (q.run s₁).1 = s ∧ os₁ ++ q.outs s₁ = os := by
      have hwhole := Prog.run_eq_node (congrArg (·.2.2) hnode)
      rw [ha, hnode] at hwhole
      exact ⟨(congrArg Prod.fst hwhole).symm, (congrArg (·.2.1) hwhole).symm⟩
    have ht' : t' = ⟨s, t.pc⟩ := by
      obtain ⟨shared, pc⟩ := t'
      simp only [Function.update_idem, hback] at hpc
      rw [hpc, ← hfst.1, ← hshared]
    subst ht'
    refine ⟨_, htwo.append hrun, ?_, fun j => ?_⟩
    · unfold linearization at horder ⊢
      rw [List.filterMap_append, horder]
      simp
    · have hj := houts j
      unfold writes at hj ⊢
      rw [List.flatMap_append, hj, ← hfst.2]
      by_cases hji : thread c = j
      · subst hji
        simp
      · simp [hji, Ne.symm hji]

/-- **Completeness.** Every run of whole calls is an interleaving. -/
theorem callTrace_interleaving {s s' : σ} {seq : List (Record σ κ ω)}
    (h : Trace (CallStep prog) s seq s') :
    ∃ tr, Trace (Threads.Step thread prog) (.start s) tr (.start s') ∧
      linearization tr = seq.map (·.ev) ∧ ∀ i, writes i tr = decided thread i seq := by
  refine h.invariant (P := fun seq s' => ∃ tr, Trace (Threads.Step thread prog) (.start s) tr
    (.start s') ∧ linearization tr = seq.map (·.ev) ∧ ∀ i, writes i tr = decided thread i seq)
    ⟨[], .nil, rfl, fun i => rfl⟩ ?_
  rintro seq s₁ c os s₂ - ⟨tr, hrun, horder, houts⟩ hs
  obtain ⟨tr', hrun', horder', houts'⟩ :=
    CallStep.interleaving thread (t := .start s₁) rfl hs
  refine ⟨tr ++ tr', hrun.append hrun', ?_, fun i => ?_⟩
  · rw [List.map_append, ← horder]
    unfold linearization at horder' ⊢
    rw [List.filterMap_append, horder']
    rfl
  · rw [decided_snoc, ← houts i, ← houts' i]
    unfold writes
    rw [List.flatMap_append]

end

end Iwand
