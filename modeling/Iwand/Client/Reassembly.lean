import Iwand.Client.Fragments

/-!
# Fragment groups do not interfere

All groups share one table of ten slots. As long as no more than ten ids are in
play, the table behaves like a map from ids to groups in which each group is on
its own: a slot is always free when a group begins, and only expired groups are
overwritten.

* `feed_refines`: the table refines the map.
* `groups_independent`: the packets delivered for one id do not depend on the
  fragments of the others.
-/

namespace Iwand.Client

/-! ## Groups on their own -/

/-- The group of every id. -/
abbrev GroupMap := Vector UInt8 4 → Option Group

/-- One fragment: its group takes a step, the others do not change. -/
def GroupMap.receive (now : UInt32) (f : Frag) (G : GroupMap) : GroupMap :=
  Function.update G f.id (Group.receive now f (G f.id)).1

/-- The packets that the fragments of a list complete, one entry for each. -/
def GroupMap.outputs (G : GroupMap) : List (Env × Bytes) → List (Option Bytes)
  | [] => []
  | q :: qs =>
    match fragOf q.2 with
    | none => none :: GroupMap.outputs G qs
    | some f => (Group.receive q.1.secs f (G f.id)).2 :: (G.receive q.1.secs f).outputs qs

/-- The packet carries a fragment of `id`. -/
def hasId (id : Vector UInt8 4) (q : Env × Bytes) : Bool := (fragOf q.2).map Frag.id == some id

/-- The entries of `outs` that belong to packets with fragments of `id`. -/
def outputsOf {α : Type} (id : Vector UInt8 4) (pkts : List (Env × Bytes)) (outs : List α) : List α :=
  ((pkts.zip outs).filter fun p => hasId id p.1).map Prod.snd

theorem hasId_some {id : Vector UInt8 4} {q : Env × Bytes} {f : Frag} (hf : fragOf q.2 = some f) :
    hasId id q = true ↔ f.id = id := by
  simp [hasId, hf]

theorem outputsOf_cons_pos {α : Type} {id : Vector UInt8 4} {q : Env × Bytes}
    {qs : List (Env × Bytes)} {out : α} {outs : List α} (h : hasId id q = true) :
    outputsOf id (q :: qs) (out :: outs) = out :: outputsOf id qs outs := by
  simp [outputsOf, h]

theorem outputsOf_cons_neg {α : Type} {id : Vector UInt8 4} {q : Env × Bytes}
    {qs : List (Env × Bytes)} {out : α} {outs : List α} (h : ¬ hasId id q = true) :
    outputsOf id (q :: qs) (out :: outs) = outputsOf id qs outs := by
  simp [outputsOf, h]

/-- What is delivered for an id depends on its own fragments only. -/
theorem outputs_independent (id : Vector UInt8 4) (pkts : List (Env × Bytes)) :
    ∀ G G' : GroupMap, G id = G' id →
      outputsOf id pkts (G.outputs pkts) = G'.outputs (pkts.filter (hasId id)) := by
  induction pkts with
  | nil => exact fun G G' _ => rfl
  | cons q qs ih =>
    intro G G' heq
    by_cases hid : hasId id q = true
    · obtain ⟨f, hf, hfid⟩ : ∃ f, fragOf q.2 = some f ∧ f.id = id := by
        simpa [hasId] using hid
      subst hfid
      rw [List.filter_cons_of_pos hid]
      simp only [GroupMap.outputs, hf]
      rw [outputsOf_cons_pos hid, heq]
      exact congrArg _ (ih _ _ (by simp [GroupMap.receive, heq]))
    · rw [List.filter_cons_of_neg hid]
      simp only [GroupMap.outputs]
      split
      next hf =>
        rw [outputsOf_cons_neg hid]
        exact ih G G' heq
      next f hf =>
        rw [outputsOf_cons_neg hid]
        have hne : id ≠ f.id := fun h => hid ((hasId_some hf).mpr h.symm)
        exact ih _ G' (by rw [GroupMap.receive, Function.update_of_ne hne, heq])

/-! ## Expired groups -/

/-- The group, unless it has expired. -/
def live (now : UInt32) : Option Group → Option Group
  | none => none
  | some g => if g.Expired now then none else some g

theorem live_expired {now : UInt32} {g : Group} (h : g.Expired now) : live now (some g) = none :=
  if_pos h

theorem live_fresh {now : UInt32} {g : Group} (h : ¬ g.Expired now) : live now (some g) = some g :=
  if_neg h

/-- An expired group counts as no group. -/
theorem receive_live (now : UInt32) (f : Frag) (g : Option Group) :
    Group.receive now f (live now g) = Group.receive now f g := by
  cases g with
  | none => rfl
  | some g =>
    by_cases hexp : g.Expired now
    · rw [live_expired hexp, Group.receive, Group.receive, if_pos hexp]
    · rw [live_fresh hexp]

/-- A group in progress has the time of its last fragment. -/
theorem receive_timestamp {now : UInt32} {f : Frag} {g : Option Group} {g' : Group}
    (h : g' ∈ (Group.receive now f g).1) : g'.timestamp ≤ now := by
  cases g with
  | none =>
    rw [← Option.some.inj h]
    exact UInt32.le_refl _
  | some g =>
    rw [Group.receive] at h
    split_ifs at h
    · rw [← Option.some.inj h]
      exact UInt32.le_refl _
    · cases h
    · cases h
    · rw [← Option.some.inj h]
      exact UInt32.le_refl _
    · cases h

/-- Expired groups stay expired. -/
theorem Group.Expired.later {g : Group} {now now' : UInt32} (h : g.Expired now)
    (hts : g.timestamp ≤ now) (hle : now ≤ now') : g.Expired now' := by
  have h1 := UInt32.toNat_sub_of_le _ _ hts
  have h2 := UInt32.toNat_sub_of_le _ _ (UInt32.le_trans hts hle)
  have h3 : 5 ≤ (now - g.timestamp).toNat := h
  have h4 : now.toNat ≤ now'.toNat := hle
  show 5 ≤ (now' - g.timestamp).toNat
  omega

theorem live_later {g : Option Group} {now now' : UInt32} (hts : ∀ x ∈ g, x.timestamp ≤ now)
    (hle : now ≤ now') : live now' (live now g) = live now' g := by
  cases g with
  | none => rfl
  | some g =>
    by_cases hexp : g.Expired now
    · rw [live_expired hexp, live_expired (hexp.later (hts g rfl) hle)]
      rfl
    · rw [live_fresh hexp]

/-! ## The table -/

/-- `handle_ipfrag` on one packet after another, with the effects of each. -/
def feed (c : IwanClient) : List (Env × Bytes) → Option (IwanClient × List (List Effect))
  | [] => some (c, [])
  | q :: qs => do
    let r ← handleIpfrag q.1 c q.2
    let (c', outs) ← feed r.client qs
    return (c', r.effects :: outs)

theorem feed_cons {c : IwanClient} {q : Env × Bytes} {qs : List (Env × Bytes)} {r : Res}
    {c' : IwanClient} {outs : List (List Effect)} (hr : handleIpfrag q.1 c q.2 = some r)
    (hqs : feed r.client qs = some (c', outs)) : feed c (q :: qs) = some (c', r.effects :: outs) := by
  rw [feed, hr]
  simp only [Option.bind_eq_bind, Option.bind_some, hqs]
  rfl

/-- The table agrees with the map at time `now`, except for expired groups, and
    carries ids of `S` only. -/
structure Sim (S : Finset (Vector UInt8 4)) (now : UInt32) (c : IwanClient) (G : GroupMap) : Prop where
  state : c.state = .established
  slots : SlotsOk c.frags
  unique : UniqueIds c.frags
  ids : ∀ (i : Fin 10) (id : Vector UInt8 4), c.frags[i].key = some id → id ∈ S
  past : ∀ i : Fin 10, c.frags[i].inUse = true → c.frags[i].timestamp ≤ now
  pastMap : ∀ id, ∀ g ∈ G id, g.timestamp ≤ now
  agree : ∀ id, live now (groups c.frags id) = live now (G id)

section

variable {S : Finset (Vector UInt8 4)} {now : UInt32} {c : IwanClient} {G : GroupMap}

theorem Sim.past_groups (h : Sim S now c G) (id : Vector UInt8 4) :
    ∀ g ∈ groups c.frags id, g.timestamp ≤ now := by
  intro g hg
  obtain ⟨i, hi, rfl⟩ := (groups_eq_some h.unique).mp hg
  exact h.past i (key_eq_some.mp hi).1

/-- Time passes. -/
theorem Sim.later (h : Sim S now c G) {now' : UInt32} (hle : now ≤ now') : Sim S now' c G := by
  refine ⟨h.state, h.slots, h.unique, h.ids, fun i hi => UInt32.le_trans (h.past i hi) hle,
    fun id g hg => UInt32.le_trans (h.pastMap id g hg) hle, fun id => ?_⟩
  rw [← live_later (h.past_groups id) hle, h.agree id, live_later (h.pastMap id) hle]

/-- With at most ten ids there is room for a new group. -/
theorem Sim.not_full (h : Sim S now c G) (hS : S.card ≤ 10) {id : Vector UInt8 4} (hid : id ∈ S)
    (hnone : groups c.frags id = none) : ¬ ∀ i : Fin 10, c.frags[i].inUse = true := by
  intro hfull
  rw [groups_eq_none] at hnone
  obtain ⟨i, hi⟩ := Slots.exists_free h.unique (S.erase id)
    (by rw [Finset.card_erase_of_mem hid]; have := Finset.card_pos.mpr ⟨id, hid⟩; omega)
    fun j k hk => Finset.mem_erase.mpr ⟨fun he => hnone j (he ▸ hk), h.ids j k hk⟩
  have := key_eq_none.mp hi
  rw [hfull i] at this
  cases this

/-- The other groups, after a fragment. -/
theorem live_groups_of_table {frags' : Vector FragSlot 10} {f : Frag} (hu : UniqueIds c.frags)
    (ht : TableStep c.frags frags' now f) {id : Vector UInt8 4} (hne : id ≠ f.id) :
    live now (groups frags' id) = live now (groups c.frags id) := by
  -- a slot that carries the id afterwards carried it before
  have hback : ∀ i : Fin 10, frags'[i].key = some id → frags'[i] = c.frags[i] := by
    intro i hi
    obtain ⟨huse, hid⟩ := key_eq_some.mp hi
    exact (ht.stored i huse).resolve_right fun h => hne (hid.symm.trans h.1)
  cases hg : groups c.frags id with
  | none =>
    have hnone : groups frags' id = none := by
      rw [groups_eq_none] at hg ⊢
      exact fun i hi => hg i (hback i hi ▸ hi)
    rw [hnone]
  | some g =>
    obtain ⟨i, hi, rfl⟩ := (groups_eq_some hu).mp hg
    obtain ⟨huse, hid⟩ := key_eq_some.mp hi
    by_cases hexp : c.frags[i].group.Expired now
    · rw [live_expired hexp]
      cases hg' : groups frags' id with
      | none => rfl
      | some g' =>
        obtain ⟨j, hj, rfl⟩ := (groups_eq_some ht.unique).mp hg'
        have hold := hback j hj
        have hij : j = i := hu j i id (hold ▸ hj) hi
        subst hij
        rw [hold, live_expired hexp]
    · have hkept := ht.kept i huse (fun he => hne (hid.symm.trans he)) hexp
      rw [groups_of_key ht.unique (i := i) (hkept ▸ hi), hkept]

/-- **One fragment** takes table and map to agreeing states, and both deliver the
    same. -/
theorem Sim.step (h : Sim S now c G) (hS : S.card ≤ 10) {pkt : Bytes} (hlen : pkt.length ≤ 2048)
    {f : Frag} (hf : fragOf pkt = some f) (hid : f.id ∈ S) {env : Env} (hle : now ≤ env.secs) :
    ∃ r, handleIpfrag env c pkt = some r ∧ Sim S env.secs r.client (G.receive env.secs f) ∧
      r.effects = deliver c (Group.receive env.secs f (G f.id)).2 ∧
      deliver r.client = deliver c := by
  replace h := h.later hle
  obtain ⟨r, hr, hrec⟩ := handleIpfrag_received env h.state h.slots h.unique hlen hf
  refine ⟨r, hr, ?_⟩
  have hreceive : Group.receive env.secs f (groups c.frags f.id) =
      Group.receive env.secs f (G f.id) := by
    rw [← receive_live, h.agree, receive_live]
  rcases hrec.result with ⟨hnone, hfull, -⟩ | ⟨hgroup, heff, -⟩
  · exact absurd hfull (h.not_full hS hid hnone)
  rw [hreceive] at hgroup heff
  have hstate : r.client.state = .established := by rw [hrec.frame]; exact h.state
  refine ⟨⟨hstate, hrec.table.slots, hrec.table.unique, ?_, ?_, ?_, ?_⟩, heff, ?_⟩
  · intro i id hi
    obtain ⟨huse, hidi⟩ := key_eq_some.mp hi
    rcases hrec.table.stored i huse with hold | ⟨hnew, -⟩
    · exact h.ids i id (hold ▸ hi)
    · rw [← hidi, hnew]
      exact hid
  · intro i huse
    rcases hrec.table.stored i huse with hold | ⟨-, hts, -⟩
    · rw [hold]
      exact h.past i (hold ▸ huse)
    · rw [hts]
      exact UInt32.le_refl _
  · intro id g hg
    by_cases heq : id = f.id
    · subst heq
      rw [GroupMap.receive, Function.update_self] at hg
      exact receive_timestamp hg
    · rw [GroupMap.receive, Function.update_of_ne heq] at hg
      exact h.pastMap id g hg
  · intro id
    by_cases heq : id = f.id
    · subst heq
      rw [GroupMap.receive, Function.update_self, hgroup]
    · rw [GroupMap.receive, Function.update_of_ne heq, live_groups_of_table h.unique hrec.table heq,
        h.agree]
  · rw [hrec.frame]
    rfl

/-- **The table refines the map**: what is delivered for a stream of packets with
    fragments of at most ten ids is what the groups complete on their own. -/
theorem feed_refines (hS : S.card ≤ 10) (pkts : List (Env × Bytes)) :
    ∀ {now : UInt32} {c : IwanClient} {G : GroupMap}, Sim S now c G →
      (∀ q ∈ pkts, q.2.length ≤ 2048) → (∀ q ∈ pkts, now ≤ q.1.secs) →
      (pkts.map (·.1.secs)).Pairwise (· ≤ ·) →
      (∀ q ∈ pkts, ∀ f, fragOf q.2 = some f → f.id ∈ S) →
      ∃ c', feed c pkts = some (c', (G.outputs pkts).map (deliver c)) := by
  induction pkts with
  | nil => exact fun _ _ _ _ _ => ⟨_, rfl⟩
  | cons q qs ih =>
    intro now c G h hlen hnow htimes hids
    obtain ⟨hhead, htail⟩ := List.pairwise_cons.mp htimes
    have hnow' : ∀ q' ∈ qs, q.1.secs ≤ q'.1.secs := fun q' hq' => hhead _ (List.mem_map_of_mem hq')
    have hlen' : ∀ q' ∈ qs, q'.2.length ≤ 2048 := fun q' hq' => hlen q' (List.mem_cons_of_mem q hq')
    have hids' : ∀ q' ∈ qs, ∀ f, fragOf q'.2 = some f → f.id ∈ S :=
      fun q' hq' => hids q' (List.mem_cons_of_mem q hq')
    have hq := hnow q List.mem_cons_self
    cases hf : fragOf q.2 with
    | none =>
      obtain ⟨c', hc'⟩ := ih (h.later hq) hlen' hnow' htail hids'
      refine ⟨c', ?_⟩
      rw [feed_cons (handleIpfrag_ignored hf) hc']
      simp only [GroupMap.outputs, hf]
      rfl
    | some f =>
      obtain ⟨r, hr, hsim, heff, hdel⟩ := h.step hS (hlen q List.mem_cons_self) hf
        (hids q List.mem_cons_self f hf) hq
      obtain ⟨c', hc'⟩ := ih hsim hlen' hnow' htail hids'
      refine ⟨c', ?_⟩
      rw [feed_cons hr hc', heff, hdel]
      simp only [GroupMap.outputs, hf]
      rfl

/-- When an ESTABLISHED period begins no slot is in use. -/
theorem sim_init (hs : c.state = .established) (hfree : ∀ i : Fin 10, c.frags[i].inUse = false) :
    Sim S 0 c fun _ => none := by
  have hno : ∀ i : Fin 10, c.frags[i].inUse ≠ true := fun i hi => by
    rw [hfree i] at hi
    cases hi
  refine ⟨hs, fun i hi => absurd hi (hno i), uniqueIds_of_free hfree, fun i id hi => ?_,
    fun i hi => absurd hi (hno i), fun id g hg => (by cases hg), fun id => ?_⟩
  · exact absurd (key_eq_some.mp hi).1 (hno i)
  · rw [groups_eq_none.mpr fun i hi => hno i (key_eq_some.mp hi).1]

end

/-! ## Non-interference -/

/-- The ids of the fragments in a list of packets. -/
def idsOf (pkts : List (Env × Bytes)) : Finset (Vector UInt8 4) :=
  (pkts.filterMap fun q => (fragOf q.2).map Frag.id).toFinset

/-- The streams of at most ten ids, with times that do not decrease. -/
structure Stream (pkts : List (Env × Bytes)) : Prop where
  length : ∀ q ∈ pkts, q.2.length ≤ 2048
  times : (pkts.map (·.1.secs)).Pairwise (· ≤ ·)
  ids : (idsOf pkts).card ≤ 10

theorem outputsOf_map {α β : Type} (id : Vector UInt8 4) (pkts : List (Env × Bytes)) (g : α → β)
    (outs : List α) : outputsOf id pkts (outs.map g) = (outputsOf id pkts outs).map g := by
  induction pkts generalizing outs with
  | nil => rfl
  | cons q qs ih =>
    cases outs with
    | nil => rfl
    | cons out outs =>
      by_cases hid : hasId id q = true
      · rw [List.map_cons, outputsOf_cons_pos hid, outputsOf_cons_pos hid, ih, List.map_cons]
      · rw [List.map_cons, outputsOf_cons_neg hid, outputsOf_cons_neg hid, ih]

theorem mem_idsOf {pkts : List (Env × Bytes)} {q : Env × Bytes} (hq : q ∈ pkts) {f : Frag}
    (hf : fragOf q.2 = some f) : f.id ∈ idsOf pkts := by
  simp only [idsOf, List.mem_toFinset, List.mem_filterMap]
  exact ⟨q, hq, by rw [hf]; rfl⟩

/-- The fragments of one id in a mixed stream, and alone. -/
theorem feed_independent {c : IwanClient} (hs : c.state = .established)
    (hfree : ∀ i : Fin 10, c.frags[i].inUse = false) {pkts : List (Env × Bytes)} (h : Stream pkts)
    (id : Vector UInt8 4) :
    ∃ c₁ outs c₂, feed c pkts = some (c₁, outs) ∧
      feed c (pkts.filter (hasId id)) = some (c₂, outputsOf id pkts outs) := by
  have hsub : ∀ q ∈ pkts.filter (hasId id), q ∈ pkts := fun q hq => (List.mem_filter.mp hq).1
  obtain ⟨c₁, h₁⟩ := feed_refines h.ids pkts (sim_init hs hfree) h.length
    (fun _ _ => UInt32.zero_le) h.times (fun q hq f hf => mem_idsOf hq hf)
  obtain ⟨c₂, h₂⟩ := feed_refines h.ids (pkts.filter (hasId id)) (sim_init hs hfree)
    (fun q hq => h.length q (hsub q hq)) (fun _ _ => UInt32.zero_le)
    (h.times.sublist (List.filter_sublist.map _)) (fun q hq f hf => mem_idsOf (hsub q hq) hf)
  refine ⟨c₁, _, c₂, h₁, ?_⟩
  rw [h₂, outputsOf_map, outputs_independent id pkts _ _ rfl]

/-- The step that enters ESTABLISHED finds and leaves all slots free. -/
theorem entered_free {cfg : Config} (h : cfg.Admitted) {fx₀ : List Effect} {tr : List StepRecord}
    {c c' : IwanClient} {e : Event} {fx : List Effect} (hinv : Inv cfg fx₀ tr c)
    (hu : UniqueIds c.frags) (hstep : Step cfg c e fx c') (hpre : c.state ≠ .established)
    (hpost : c'.state = .established) : ∀ i : Fin 10, c'.frags[i].inUse = false := by
  have hauth := ((inv_step h hinv hstep).2.entered hinv hpre hpost).1
  rcases step_frags h hinv.slots hu hstep with hsame | hfree | ⟨hs, -⟩
  · rw [hsame]
    exact (hinv.idle (.inr (.inr hauth))).2.2.2
  · exact hfree
  · exact absurd hs hpre

end Iwand.Client
