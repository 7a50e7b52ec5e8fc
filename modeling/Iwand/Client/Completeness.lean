import Iwand.Client.Delivery

/-!
# No incomplete packet

The table does not record which positions of a packet have arrived, so a last
fragment may complete a packet with holes, or with fragments at the wrong
positions. `InPlace` is the condition on a step under which neither happens.

* `Collected`: a group holds the data of its history, newest fragment first.
* `delivered_complete`: what a step in place delivers, in every run.
-/

namespace Iwand.Client

/-! ## Arbitrary runs -/

/-- One packet for `handle_ipfrag`, as a step. -/
def FragStep (c : IwanClient) (q : Env × Bytes) (fx : List Effect) (c' : IwanClient) : Prop :=
  ∃ acc, handleIpfrag q.1 c q.2 = some ⟨c', fx, acc⟩

/-- One step of such a run. -/
abbrev FragRecord := Record IwanClient (Env × Bytes) Effect

/-- The step finds a group of the id that has not expired. -/
def FragRecord.continues (r : FragRecord) (id : Vector UInt8 4) : Bool :=
  (live r.ev.1.secs (groups r.pre.frags id)).isSome

/-- The fragments of `id` since its slot was allocated, newest first, after one
    more step. -/
def historyStep (id : Vector UInt8 4) (hist : List Frag) (r : FragRecord) : List Frag :=
  match fragOf r.ev.2 with
  | none => hist
  | some f => if f.id = id then (if FragRecord.continues r id then f :: hist else [f]) else hist

/-- The fragments of `id` received since its slot was allocated, newest first. -/
def history (id : Vector UInt8 4) (tr : List FragRecord) : List Frag := tr.foldl (historyStep id) []

/-- Every byte of the packet was carried to its position by one of the
    fragments. -/
def Complete (fs : List Frag) (packet : Bytes) : Prop :=
  ∀ (p : ℕ) (hp : p < packet.length), ∃ f ∈ fs, f.off ≤ p ∧ f.data[p - f.off]? = some packet[p]

/-- The fragments collected, newest first from position `pos` on, lie where their
    offsets say or under the last fragment `e`, and `e` leaves no gap behind
    them. -/
def Placed (e : Frag) : ℕ → List Frag → Prop
  | pos, [] => e.off ≤ pos
  | pos, f :: fs => (f.off = pos ∨ e.off ≤ pos ∧ pos + f.data.length ≤ e.off + e.data.length) ∧
      Placed e (pos + f.data.length) fs

/-- A step that completes a group completes one whose fragments lie in place. -/
def InPlace (tr : List FragRecord) (r : FragRecord) : Prop :=
  ∀ f, fragOf r.ev.2 = some f → f.eop = true → FragRecord.continues r f.id = true →
    Placed f 0 (history f.id tr)

theorem history_snoc (id : Vector UInt8 4) (tr : List FragRecord) (r : FragRecord) :
    history id (tr ++ [r]) = historyStep id (history id tr) r := by
  simp [history]

/-- A last fragment in place begins inside the collected bytes or at their end. -/
theorem Placed.off_le {e : Frag} : ∀ {fs : List Frag} {pos : ℕ}, Placed e pos fs →
    e.off ≤ pos + (fs.flatMap Frag.data).length := by
  intro fs
  induction fs with
  | nil => intro pos h; simpa [Placed] using h
  | cons f fs ih =>
    intro pos h
    have := ih h.2
    simp only [List.flatMap_cons, List.length_append]
    omega

/-- A collected byte that the last fragment does not overwrite. -/
theorem Placed.carried {e : Frag} : ∀ {fs : List Frag} {pos p : ℕ}, Placed e pos fs → pos ≤ p →
    p < pos + (fs.flatMap Frag.data).length → ¬ (e.off ≤ p ∧ p < e.off + e.data.length) →
    ∃ f ∈ fs, f.off ≤ p ∧ f.data[p - f.off]? = (fs.flatMap Frag.data)[p - pos]? := by
  intro fs
  induction fs with
  | nil => intro pos p _ hpos hp; simp at hp; omega
  | cons f fs ih =>
    intro pos p h hpos hp hout
    simp only [List.flatMap_cons, List.length_append] at hp ⊢
    by_cases hin : p < pos + f.data.length
    · have hoff : f.off = pos := h.1.resolve_right fun hcov => hout ⟨by omega, by omega⟩
      refine ⟨f, List.mem_cons_self, by omega, ?_⟩
      rw [hoff, List.getElem?_append_left (by omega)]
    · obtain ⟨g, hg, hle, hget⟩ := ih h.2 (by omega) (by omega) hout
      refine ⟨g, List.mem_cons_of_mem f hg, hle, ?_⟩
      rw [hget, List.getElem?_append_right (by omega), Nat.sub_sub]

/-- The packet completed by a last fragment in place. -/
theorem complete_overlay {e : Frag} {fs : List Frag} (h : Placed e 0 fs) :
    Complete (e :: fs) (overlay (fs.flatMap Frag.data) e.off e.data) := by
  intro p hp
  have hlen := length_overlay (fs.flatMap Frag.data) e.off e.data
  rw [getElem_overlay]
  by_cases hin : e.off ≤ p ∧ p < e.off + e.data.length
  · refine ⟨e, List.mem_cons_self, hin.1, ?_⟩
    rw [if_pos hin, List.getD_eq_getElem _ _ (by omega), List.getElem?_eq_getElem]
  · have hle := h.off_le
    obtain ⟨f, hf, hoff, hget⟩ := h.carried (Nat.zero_le p) (by omega) hin
    refine ⟨f, List.mem_cons_of_mem e hf, hoff, ?_⟩
    rw [hget, if_neg hin, Nat.sub_zero, List.getElem?_eq_getElem (by omega),
      List.getD_eq_getElem _ _ (by omega)]

/-- What a run of `handle_ipfrag` keeps: a group holds its history. -/
structure Collected (tr : List FragRecord) (c : IwanClient) : Prop where
  state : c.state = .established
  slots : SlotsOk c.frags
  unique : UniqueIds c.frags
  data : ∀ id g, groups c.frags id = some g → g.data = (history id tr).flatMap Frag.data

section

variable {tr : List FragRecord} {c c' : IwanClient} {q : Env × Bytes} {fx : List Effect}

/-- The group of the fragment's own id. -/
theorem receive_data {now : UInt32} {f : Frag} {g : Option Group} {hist : List Frag} {g' : Group}
    (hold : ∀ x, g = some x → x.data = hist.flatMap Frag.data)
    (h : (Group.receive now f g).1 = some g') :
    g'.data = (if (live now g).isSome then f :: hist else [f]).flatMap Frag.data := by
  cases g with
  | none =>
    cases h
    simp [live]
  | some g =>
    by_cases hexp : g.Expired now
    · rw [Group.receive, if_pos hexp] at h
      cases h
      simp [live_expired hexp]
    · rw [Group.receive, if_neg hexp] at h
      rw [live_fresh hexp]
      split_ifs at h
      · cases h
        simp [hold g rfl]

/-- A step ignores its packet, or the client receives a fragment. -/
theorem FragStep.received (h : Collected tr c) (hlen : q.2.length ≤ 2048) (hstep : FragStep c q fx c') :
    fragOf q.2 = none ∧ c' = c ∧ fx = [] ∨
      ∃ f acc, fragOf q.2 = some f ∧ Received c q.1.secs f ⟨c', fx, acc⟩ := by
  obtain ⟨acc, heq⟩ := hstep
  cases hf : fragOf q.2 with
  | none =>
    rw [handleIpfrag_ignored hf] at heq
    cases heq
    exact .inl ⟨rfl, rfl, rfl⟩
  | some f =>
    obtain ⟨r, hr, hrec⟩ := handleIpfrag_received q.1 h.state h.slots h.unique hlen hf
    rw [hr] at heq
    obtain rfl := Option.some.inj heq
    exact .inr ⟨f, acc, rfl, hrec⟩

theorem collected_step (h : Collected tr c) (hlen : q.2.length ≤ 2048) (hstep : FragStep c q fx c') :
    Collected (tr ++ [⟨c, q, fx, c'⟩]) c' := by
  rcases hstep.received h hlen with ⟨hf, rfl, rfl⟩ | ⟨f, acc, hf, hrec⟩
  · refine ⟨h.state, h.slots, h.unique, fun id g hg => ?_⟩
    rw [history_snoc, historyStep]
    simp only [hf]
    exact h.data id g hg
  · refine ⟨by rw [show c' = _ from hrec.frame]; exact h.state, hrec.table.slots, hrec.table.unique,
      fun id g hg => ?_⟩
    rw [history_snoc, historyStep]
    simp only [hf]
    by_cases hid : f.id = id
    · subst hid
      rw [if_pos rfl]
      rcases hrec.result with ⟨hnone, -, hsame, -⟩ | ⟨hgroup, -, -⟩
      · rw [show c' = c from hsame, hnone] at hg
        cases hg
      · exact receive_data (h.data f.id) (hgroup.symm.trans hg)
    · rw [if_neg hid]
      -- a slot of another id was in the table before
      obtain ⟨i, hi, rfl⟩ := (groups_eq_some hrec.table.unique).mp hg
      obtain ⟨huse, hidi⟩ := key_eq_some.mp hi
      have hold := (hrec.table.stored i huse).resolve_right fun hnew => hid (hnew.1.symm.trans hidi)
      rw [hold] at hi ⊢
      exact h.data id _ (groups_of_key h.unique hi)

/-- What a step in place delivers. -/
theorem delivered_step (h : Collected tr c) (hlen : q.2.length ≤ 2048) (hstep : FragStep c q fx c')
    (hplace : InPlace tr ⟨c, q, fx, c'⟩) {data : Bytes} (hdata : .tunWrite data ∈ fx) :
    ∃ f packet, fragOf q.2 = some f ∧ data = tunPacket c packet ∧
      Complete (f :: history f.id tr) packet := by
  rcases hstep.received h hlen with ⟨-, -, rfl⟩ | ⟨f, acc, hf, hrec⟩
  · simp at hdata
  · rcases hrec.result with ⟨-, -, -, hnone⟩ | ⟨-, heff, -⟩
    · rw [show fx = [] from hnone] at hdata
      simp at hdata
    rw [show fx = _ from heff] at hdata
    cases hg : groups c.frags f.id with
    | none =>
      rw [hg] at hdata
      simp [Group.receive, deliver] at hdata
    | some g =>
      rw [hg, Group.receive] at hdata
      split_ifs at hdata with hexp heop hbig hfit
      · simp [deliver] at hdata
      · have hcont : FragRecord.continues ⟨c, q, fx, c'⟩ f.id = true := by
          show (live q.1.secs (groups c.frags f.id)).isSome = true
          rw [hg, live_fresh hexp]
          rfl
        refine ⟨f, overlay g.data f.off f.data, hf, by simpa [deliver] using hdata, ?_⟩
        rw [h.data f.id g hg]
        exact complete_overlay (hplace f hf heop hcont)
      · simp [deliver] at hdata
      · simp [deliver] at hdata
      · simp [deliver] at hdata

end

/-- **No incomplete packet.** In every run of `handle_ipfrag` from the beginning of
    an ESTABLISHED period, over any packets with any ids, offsets, lengths, flags
    and times: a step that is in place delivers only complete packets, made of
    bytes that fragments of the same id carried to their positions since the slot
    was allocated. -/
theorem delivered_complete {c : IwanClient} (hs : c.state = .established)
    (hfree : ∀ i : Fin 10, c.frags[i].inUse = false) {tr : List FragRecord} {c' : IwanClient}
    (hrun : Trace FragStep c tr c') (hlen : ∀ r ∈ tr, r.ev.2.length ≤ 2048) :
    ∀ tr₁ r tr₂, tr = tr₁ ++ r :: tr₂ → InPlace tr₁ r → ∀ data, .tunWrite data ∈ r.outs →
      ∃ f packet, fragOf r.ev.2 = some f ∧ data = tunPacket r.pre packet ∧
        Complete (f :: history f.id tr₁) packet := by
  have hinit : Collected [] c := by
    have hsim := sim_init (S := ∅) hs hfree
    refine ⟨hs, hsim.slots, hsim.unique, fun id g hg => ?_⟩
    obtain ⟨i, hi, -⟩ := (groups_eq_some hsim.unique).mp hg
    rw [key_eq_none.mpr (hfree i)] at hi
    cases hi
  intro tr₁ r tr₂ htr
  subst htr
  -- the packets before the step, and the step itself, fit the buffer
  obtain ⟨hbefore, hstep⟩ := hrun.split.1.last
  have hcol : (∀ x ∈ tr₁, x.ev.2.length ≤ 2048) → Collected tr₁ r.pre := by
    refine hbefore.invariant (P := fun tr c => (∀ x ∈ tr, x.ev.2.length ≤ 2048) → Collected tr c)
      (fun _ => hinit) ?_
    intro tr s e os s' _ hp hs hall
    exact collected_step (hp fun x hx => hall x (by simp [hx])) (hall ⟨s, e, os, s'⟩ (by simp)) hs
  intro hplace data hdata
  exact delivered_step (hcol fun x hx => hlen x (by simp [hx])) (hlen r (by simp)) hstep hplace hdata

/-- Two fragments of one packet, the second of them the last one. -/
theorem two_packet_run {c : IwanClient} (hs : c.state = .established)
    (hfree : ∀ i : Fin 10, c.frags[i].inUse = false) (q₁ q₂ : Env × Bytes) (f₁ f₂ : Frag)
    (hl₁ : q₁.2.length ≤ 2048) (hl₂ : q₂.2.length ≤ 2048) (hf₁ : fragOf q₁.2 = some f₁)
    (hf₂ : fragOf q₂.2 = some f₂) (hid : f₂.id = f₁.id) (heop : f₂.eop = true)
    (hprompt : Prompt q₁.1.secs q₂.1.secs)
    (hmax : max (f₂.off + f₂.data.length) f₁.data.length ≤ 4096) :
    ∃ c₁ c₂, Trace FragStep c [⟨c, q₁, [], c₁⟩,
        ⟨c₁, q₂, [.tunWrite (tunPacket c (overlay f₁.data f₂.off f₂.data))], c₂⟩] c₂ ∧
      history f₁.id [⟨c, q₁, [], c₁⟩] = [f₁] ∧ tunPacket c₁ = tunPacket c := by
  have hsim := sim_init (S := ∅) hs hfree
  have hnone : groups c.frags f₁.id = none :=
    groups_none_iff.mpr fun i hi => by rw [hfree i] at hi; cases hi
  obtain ⟨r₁, hr₁, hrec₁⟩ := handleIpfrag_received q₁.1 hs hsim.slots hsim.unique hl₁ hf₁
  rcases hrec₁.result with ⟨-, hfull, -⟩ | ⟨hg₁, heff₁, -⟩
  · exact absurd (hfull 0) (by rw [hfree 0]; simp)
  rw [hnone] at hg₁ heff₁
  have hs₁ : r₁.client.state = .established := by rw [hrec₁.frame]; exact hs
  have htun : tunPacket r₁.client = tunPacket c := by rw [hrec₁.frame]; rfl
  obtain ⟨r₂, hr₂, hrec₂⟩ := handleIpfrag_received q₂.1 hs₁ hrec₁.table.slots
    hrec₁.table.unique hl₂ hf₂
  rcases hrec₂.result with ⟨hno, -⟩ | ⟨-, heff₂, -⟩
  · rw [hid, hg₁] at hno
    cases hno
  rw [hid, hg₁] at heff₂
  simp only [Group.receive] at heff₂
  rw [if_neg (not_expired_of_prompt hprompt), if_pos heop, if_pos hmax] at heff₂
  have hout : r₂.effects = [.tunWrite (tunPacket c (overlay f₁.data f₂.off f₂.data))] := by
    rw [heff₂, ← htun]
    rfl
  refine ⟨r₁.client, r₂.client, ?_, ?_, htun⟩
  · refine (Trace.nil.snoc (⟨r₁.accepted, ?_⟩ : FragStep c q₁ [] r₁.client)).snoc ⟨r₂.accepted, ?_⟩
    · rw [hr₁, show ([] : List Effect) = r₁.effects from heff₁.symm]
    · rw [hr₂, ← hout]
  · have hcont : FragRecord.continues ⟨c, q₁, [], r₁.client⟩ f₁.id = false := by
      show (live q₁.1.secs (groups c.frags f₁.id)).isSome = false
      rw [hnone]
      rfl
    show historyStep f₁.id [] _ = [f₁]
    rw [historyStep]
    simp only [hf₁, if_true, hcont]
    rfl

/-- Two fragments in order make a complete packet. -/
theorem two_fragments_complete : ∃ c tr c' packet f₁ f₂, c.state = .established ∧
    Trace FragStep c tr c' ∧ tr.map (·.ev) = twoFrags ∧
    tr.flatMap (·.outs) = [.tunWrite (tunPacket c packet)] ∧ Complete [f₂, f₁] packet := by
  obtain ⟨-, -, -, -, c, -, -, hs, hfree⟩ := readme_established
  obtain ⟨c₁, c₂, hrun, hhist, htun⟩ := two_packet_run hs hfree
    (calmEnv 100, ipfragPkt [0, 0x80, 0, 0] [1])
    (calmEnv 101, ipfragPkt [5, 0x80, 0, 0] [2])
    ⟨#v[0, 0, 0, 7], false, 0, [1]⟩ ⟨#v[0, 0, 0, 7], true, 1, [2]⟩
    (by simp [ipfragPkt]) (by simp [ipfragPkt]) (by decide +kernel) (by decide +kernel) rfl rfl
    (by decide) (by decide)
  have hf₂ : fragOf (ipfragPkt [5, 0x80, 0, 0] [2]) = some ⟨#v[0, 0, 0, 7], true, 1, [2]⟩ := by
    decide +kernel
  obtain ⟨f, packet, hf, hdata, hcomplete⟩ := delivered_complete hs hfree hrun
    (by simp [ipfragPkt]) [_] _ [] rfl
    (by
      intro f hf _ _
      rw [← Option.some.inj (hf₂.symm.trans hf), hhist]
      simp [Placed]) _ List.mem_cons_self
  rw [← Option.some.inj (hf₂.symm.trans hf), hhist] at hcomplete
  refine ⟨c, _, c₂, packet, _, _, hs, hrun, rfl, ?_, hcomplete⟩
  show [Effect.tunWrite _] = _
  rw [hdata, htun]

/-- A last fragment at offset 100 completes a packet of which only the first byte
    has arrived: bytes 1 to 99 are zeros that no fragment carried. -/
theorem gap_delivered : ∃ cfg c₀ fx₀ tr₀ c c₁ c₂ f₁ f₂ q₁ q₂,
    mainInit readmeConfig ⟨4, none, 3⟩ = some (some (cfg, c₀, fx₀)) ∧ Trace (Step cfg) c₀ tr₀ c ∧
    c.state = .established ∧ (∀ i : Fin 10, c.frags[i].inUse = false) ∧
    Trace FragStep c [⟨c, q₁, [], c₁⟩,
      ⟨c₁, q₂, [.tunWrite (tunPacket c (overlay f₁.data f₂.off f₂.data))], c₂⟩] c₂ ∧
    fragOf q₂.2 = some f₂ ∧ history f₂.id [⟨c, q₁, [], c₁⟩] = [f₁] ∧
    ¬ Complete [f₂, f₁] (overlay f₁.data f₂.off f₂.data) := by
  obtain ⟨cfg, c₀, fx₀, tr₀, c, hinit, hrun₀, hs, hfree⟩ := readme_established
  have hf₂ : fragOf (ipfragPkt [0x91, 0x81, 0, 0] [2]) = some ⟨#v[0, 0, 0, 7], true, 100, [2]⟩ := by
    decide +kernel
  obtain ⟨c₁, c₂, hrun, hhist, -⟩ := two_packet_run hs hfree
    (calmEnv 100, ipfragPkt [0, 0x80, 0, 0] [1])
    (calmEnv 101, ipfragPkt [0x91, 0x81, 0, 0] [2])
    ⟨#v[0, 0, 0, 7], false, 0, [1]⟩ ⟨#v[0, 0, 0, 7], true, 100, [2]⟩
    (by simp [ipfragPkt]) (by simp [ipfragPkt]) (by decide +kernel) hf₂ rfl rfl
    (by decide) (by decide)
  refine ⟨cfg, c₀, fx₀, tr₀, c, c₁, c₂, _, _, _, _, hinit, hrun₀, hs, hfree, hrun, hf₂, hhist, ?_⟩
  intro hcomplete
  obtain ⟨f, hf, hoff, hget⟩ := hcomplete 50 (by simp)
  simp only [List.mem_cons, List.not_mem_nil, or_false] at hf
  rcases hf with rfl | rfl
  · simp at hoff
  · simp at hget

end Iwand.Client
