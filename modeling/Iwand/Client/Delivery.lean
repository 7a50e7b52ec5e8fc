import Iwand.Client.Reassembly

/-!
# The fragments of one packet

Middle fragments are put in front of the bytes collected so far ("new data
first, then accumulated", line 1187), the fragment with the eop flag is put at
its offset, and it alone decides that the packet is complete. So a packet comes
out right if its last fragment arrives last and the others arrive in descending
order; the theorems give the exact conditions.

* `in_order_reassembly`: fragments in ascending order.
* `reassembly_order`: fragments in any order.
-/

namespace Iwand.Client

/-! ## One group -/

/-- Fragments with their times of arrival, on one group. -/
def Group.run (g : Option Group) : List (UInt32 × Frag) → Option Group × List (Option Bytes)
  | [] => (g, [])
  | x :: xs =>
    let r := Group.receive x.1 x.2 g
    let s := Group.run r.1 xs
    (s.1, r.2 :: s.2)

/-- Less than `FRAG_TIMEOUT` seconds later. -/
def Prompt (t t' : UInt32) : Prop := t' - t < fragTimeout

instance (t t' : UInt32) : Decidable (Prompt t t') := inferInstanceAs (Decidable (_ < _))

/-- The data of fragments, the last one first. -/
def newestFirst (fs : List Frag) : Bytes := fs.reverse.flatMap Frag.data

theorem newestFirst_cons (f : Frag) (fs : List Frag) :
    newestFirst (f :: fs) = newestFirst fs ++ f.data := by
  simp [newestFirst]

theorem length_newestFirst (fs : List Frag) :
    (newestFirst fs).length = (fs.map fun f => f.data.length).sum := by
  induction fs with
  | nil => rfl
  | cons f fs ih =>
    rw [newestFirst_cons, List.length_append, ih, List.map_cons, List.sum_cons, Nat.add_comm]

theorem not_expired_of_prompt {acc : Bytes} {t t' : UInt32} (h : Prompt t t') :
    ¬ Group.Expired ⟨acc, t⟩ t' :=
  UInt32.not_le.mpr h

/-- Middle fragments extend the group at the front, as long as it fits. -/
theorem run_middle (xs rest : List (UInt32 × Frag)) : ∀ (acc : Bytes) (t : UInt32),
    (∀ x ∈ xs, x.2.eop = false) → (t :: (xs ++ rest).map Prod.fst).IsChain Prompt →
    acc.length + (newestFirst (xs.map Prod.snd)).length ≤ 2048 →
    ∃ t', (t' :: rest.map Prod.fst).IsChain Prompt ∧
      Group.run (some ⟨acc, t⟩) (xs ++ rest) =
        ((Group.run (some ⟨newestFirst (xs.map Prod.snd) ++ acc, t'⟩) rest).1,
          List.replicate xs.length none ++
            (Group.run (some ⟨newestFirst (xs.map Prod.snd) ++ acc, t'⟩) rest).2) := by
  induction xs with
  | nil => exact fun acc t _ hc _ => ⟨t, hc, rfl⟩
  | cons x xs ih =>
    intro acc t heop hc hlen
    rw [List.cons_append, List.map_cons, List.isChain_cons_cons] at hc
    have hx : x.2.eop = false := heop x List.mem_cons_self
    rw [List.map_cons, newestFirst_cons, List.length_append] at hlen
    have hstep : Group.receive x.1 x.2 (some ⟨acc, t⟩) = (some ⟨x.2.data ++ acc, x.1⟩, none) := by
      rw [Group.receive, if_neg (not_expired_of_prompt hc.1), if_neg (by simp [hx]),
        if_pos (show acc.length + x.2.data.length ≤ 2048 by omega)]
    obtain ⟨t', hc', hrun⟩ := ih (x.2.data ++ acc) x.1
      (fun y hy => heop y (List.mem_cons_of_mem x hy)) hc.2 (by rw [List.length_append]; omega)
    refine ⟨t', hc', ?_⟩
    rw [List.cons_append, Group.run, hstep]
    simp only
    rw [hrun, List.map_cons, newestFirst_cons, List.append_assoc]
    rfl

/-- The fragments of a new group. -/
theorem run_open {xs : List (UInt32 × Frag)} (rest : List (UInt32 × Frag)) (hne : xs ≠ [])
    (heop : ∀ x ∈ xs, x.2.eop = false) (hc : ((xs ++ rest).map Prod.fst).IsChain Prompt)
    (hlen : (newestFirst (xs.map Prod.snd)).length ≤ 2048) :
    ∃ t', (t' :: rest.map Prod.fst).IsChain Prompt ∧
      Group.run none (xs ++ rest) =
        ((Group.run (some ⟨newestFirst (xs.map Prod.snd), t'⟩) rest).1,
          List.replicate xs.length none ++
            (Group.run (some ⟨newestFirst (xs.map Prod.snd), t'⟩) rest).2) := by
  obtain ⟨x, xs, rfl⟩ := List.exists_cons_of_ne_nil hne
  rw [List.map_cons, newestFirst_cons, List.length_append] at hlen
  obtain ⟨t', hc', hrun⟩ := run_middle xs rest x.2.data x.1
    (fun y hy => heop y (List.mem_cons_of_mem x hy)) hc (by omega)
  refine ⟨t', hc', ?_⟩
  rw [List.cons_append, Group.run]
  simp only [Group.receive]
  rw [hrun, List.map_cons, newestFirst_cons]
  rfl

/-- A packet whose last fragment arrives last, at the end of the others. -/
theorem run_complete {xs : List (UInt32 × Frag)} {e : UInt32 × Frag} (hne : xs ≠ [])
    (heop : ∀ x ∈ xs, x.2.eop = false) (he : e.2.eop = true)
    (hc : ((xs ++ [e]).map Prod.fst).IsChain Prompt)
    (hlen : (newestFirst (xs.map Prod.snd)).length ≤ 2048)
    (hoff : e.2.off = (newestFirst (xs.map Prod.snd)).length)
    (htotal : (newestFirst (xs.map Prod.snd)).length + e.2.data.length ≤ 4096) :
    Group.run none (xs ++ [e]) =
      (none, List.replicate xs.length none ++ [some (newestFirst (xs.map Prod.snd) ++ e.2.data)]) := by
  obtain ⟨t', hc', hrun⟩ := run_open _ hne heop hc hlen
  have hprompt : Prompt t' e.1 := (List.isChain_cons_cons.mp hc').1
  rw [hrun]
  simp only [Group.run, Group.receive]
  rw [if_neg (not_expired_of_prompt hprompt), if_pos he, hoff,
    if_pos (show max _ (newestFirst (xs.map Prod.snd)).length ≤ 4096 by omega), overlay_append]

/-- Without a last fragment nothing is delivered. -/
theorem run_outputs_none : ∀ (xs : List (UInt32 × Frag)) (g : Option Group),
    (∀ x ∈ xs, x.2.eop = false) → ∀ out ∈ (Group.run g xs).2, out = none := by
  intro xs
  induction xs with
  | nil => intro g _ out hout; simp [Group.run] at hout
  | cons x xs ih =>
    intro g heop out hout
    have hx : x.2.eop = false := heop x List.mem_cons_self
    rw [Group.run] at hout
    rcases List.mem_cons.mp hout with rfl | hout
    · cases g with
      | none => rfl
      | some g =>
        rw [Group.receive, if_neg (show ¬ x.2.eop = true by simp [hx])]
        split_ifs <;> rfl
    · exact ih _ (fun y hy => heop y (List.mem_cons_of_mem x hy)) out hout

/-- A last fragment that arrives first is taken for the beginning of a packet. -/
theorem run_last_first {e : UInt32 × Frag} {xs : List (UInt32 × Frag)}
    (heop : ∀ x ∈ xs, x.2.eop = false) : ∀ out ∈ (Group.run none (e :: xs)).2, out = none := by
  intro out hout
  rw [Group.run] at hout
  rcases List.mem_cons.mp hout with rfl | hout
  · rfl
  · exact run_outputs_none xs _ heop out hout

/-- Fragments behind a last fragment are taken for the next packet. -/
theorem run_last_middle {xs ys : List (UInt32 × Frag)} {e : UInt32 × Frag} (hxs : xs ≠ [])
    (hys : ys ≠ []) (heop : ∀ x ∈ xs ++ ys, x.2.eop = false) (he : e.2.eop = true)
    (hc : ((xs ++ e :: ys).map Prod.fst).IsChain Prompt)
    (hlen : (newestFirst (xs.map Prod.snd)).length + (newestFirst (ys.map Prod.snd)).length ≤ 2048) :
    (Group.run none (xs ++ e :: ys)).1 ≠ none := by
  obtain ⟨t', hc', hrun⟩ := run_open _ hxs (fun x hx => heop x (List.mem_append_left ys hx)) hc
    (by omega)
  rw [List.map_cons, List.isChain_cons_cons] at hc'
  have hlast : (Group.receive e.1 e.2 (some ⟨newestFirst (xs.map Prod.snd), t'⟩)).1 = none := by
    rw [Group.receive, if_neg (not_expired_of_prompt hc'.1), if_pos he]
  have hys' := run_open [] hys (fun y hy => heop y (List.mem_append_right xs hy))
    (by rw [List.append_nil]; exact hc'.2.tail) (by omega)
  obtain ⟨t'', -, hrun'⟩ := hys'
  rw [List.append_nil] at hrun'
  rw [hrun, Group.run]
  simp only [hlast, hrun', Group.run]
  simp

/-! ## One id in the table -/

/-- The fragments that the packets carry. -/
def Carry (pkts : List (Env × Bytes)) (fs : List Frag) : Prop :=
  (∀ q ∈ pkts, q.2.length ≤ 2048) ∧ pkts.map (fun q => fragOf q.2) = fs.map some

/-- The times of arrival. -/
def timesOf (pkts : List (Env × Bytes)) : List UInt32 := pkts.map (·.1.secs)

/-- The client is ESTABLISHED, its slots are in order, and there is room for `id`:
    it has a group, or a slot is free. -/
structure Room (c : IwanClient) (id : Vector UInt8 4) : Prop where
  state : c.state = .established
  slots : SlotsOk c.frags
  unique : UniqueIds c.frags
  room : groups c.frags id = none → ∃ i : Fin 10, c.frags[i].inUse = false

/-- Packets of one id only: the table does what the group does. -/
theorem feed_single {id : Vector UInt8 4} : ∀ (pkts : List (Env × Bytes)) (fs : List Frag)
    {c : IwanClient}, Room c id → Carry pkts fs → (∀ f ∈ fs, f.id = id) →
    ∃ c', feed c pkts = some (c',
        (Group.run (groups c.frags id) ((timesOf pkts).zip fs)).2.map (deliver c)) ∧
      groups c'.frags id = (Group.run (groups c.frags id) ((timesOf pkts).zip fs)).1 := by
  intro pkts
  induction pkts with
  | nil =>
    intro fs c _ hcarry _
    obtain rfl : fs = [] := by simpa using hcarry.2.symm
    exact ⟨c, rfl, rfl⟩
  | cons q qs ih =>
    intro fs c hroom hcarry hids
    obtain ⟨f, fs, rfl⟩ : ∃ f fs', fs = f :: fs' := by
      refine List.exists_cons_of_ne_nil fun hnil => ?_
      simpa [hnil] using hcarry.2
    obtain ⟨hlen, hmap⟩ := hcarry
    simp only [List.map_cons, List.cons.injEq] at hmap
    obtain rfl := hids f List.mem_cons_self
    obtain ⟨r, hr, hrec⟩ := handleIpfrag_received q.1 hroom.state hroom.slots hroom.unique
      (hlen q List.mem_cons_self) hmap.1
    rcases hrec.result with ⟨hnone, hfull, -⟩ | ⟨hgroup, heff, hnext⟩
    · obtain ⟨i, hi⟩ := hroom.room hnone
      rw [hfull i] at hi
      cases hi
    have hroom' : Room r.client f.id :=
      ⟨by rw [hrec.frame]; exact hroom.state, hrec.table.slots, hrec.table.unique, hnext⟩
    obtain ⟨c', hfeed, hgroup'⟩ := ih fs hroom' ⟨fun q' hq' => hlen q' (List.mem_cons_of_mem q hq'), hmap.2⟩
      fun f' hf' => hids f' (List.mem_cons_of_mem f hf')
    have hdel : deliver r.client = deliver c := by rw [hrec.frame]; rfl
    refine ⟨c', ?_, ?_⟩
    · rw [feed_cons hr hfeed, heff, hdel, hgroup]
      rfl
    · rw [hgroup', hgroup]
      rfl

/-! ## Packets cut into fragments -/

/-- The fragments of a packet that was cut into the given parts, from offset `off`
    on: eop is set on the last one. -/
def cut (id : Vector UInt8 4) : ℕ → List Bytes → List Frag
  | _, [] => []
  | off, [d] => [⟨id, true, off, d⟩]
  | off, d :: d' :: ds => ⟨id, false, off, d⟩ :: cut id (off + d.length) (d' :: ds)

/-- A packet cut into the parts `ds` and the last part `d`, at least two in all,
    which fit the datagrams, a slot and `g_frag_content`. -/
structure Fits (ds : List Bytes) (d : Bytes) : Prop where
  parts : ds ≠ []
  each : ∀ x ∈ ds ++ [d], x ≠ [] ∧ x.length ≤ 2024
  stored : ds.flatten.length ≤ 2048
  total : (ds.flatten ++ d).length ≤ 4096

/-- The last fragment and those before it. -/
theorem cut_concat (id : Vector UInt8 4) (d : Bytes) : ∀ (ds : List Bytes) (off : ℕ),
    ∃ fs, cut id off (ds ++ [d]) = fs ++ [⟨id, true, off + ds.flatten.length, d⟩] ∧
      (∀ f ∈ fs, f.eop = false ∧ f.id = id) ∧ fs.map Frag.data = ds := by
  intro ds
  induction ds with
  | nil => exact fun off => ⟨[], by simp [cut]⟩
  | cons x xs ih =>
    intro off
    obtain ⟨fs, hcut, hfs, hdata⟩ := ih (off + x.length)
    refine ⟨⟨id, false, off, x⟩ :: fs, ?_, ?_, by simp [hdata]⟩
    · cases xs with
      | nil => simp [cut] at hcut ⊢; simp [hcut]
      | cons y ys =>
        simp only [List.cons_append, cut] at hcut ⊢
        rw [hcut]
        simp [Nat.add_assoc]
    · intro f hf
      rcases List.mem_cons.mp hf with rfl | hf
      · exact ⟨rfl, rfl⟩
      · exact hfs f hf

theorem newestFirst_of_data {fs : List Frag} {ds : List Bytes} (h : fs.map Frag.data = ds) :
    newestFirst fs = ds.reverse.flatten := by
  rw [newestFirst, ← h, List.flatMap_def, List.map_reverse]

theorem length_reverse_flatten (ds : List Bytes) : ds.reverse.flatten.length = ds.flatten.length := by
  simp [List.length_flatten]

/-- The fragments of a packet in order of their offsets. -/
theorem run_cut {id : Vector UInt8 4} {ds : List Bytes} {d : Bytes} (h : Fits ds d)
    {xs : List (UInt32 × Frag)} (hxs : xs.map Prod.snd = cut id 0 (ds ++ [d]))
    (hc : (xs.map Prod.fst).IsChain Prompt) :
    Group.run none xs = (none, List.replicate ds.length none ++ [some (ds.reverse.flatten ++ d)]) := by
  obtain ⟨fs, hcut, hfs, hdata⟩ := cut_concat id d ds 0
  rw [hcut, List.map_eq_append_iff] at hxs
  obtain ⟨xs, ys, rfl, hxs, hys⟩ := hxs
  obtain ⟨e, rfl, he⟩ : ∃ e, ys = [e] ∧ e.2 = ⟨id, true, 0 + ds.flatten.length, d⟩ := by
    simpa [List.map_eq_cons_iff] using hys
  have hnew : newestFirst (xs.map Prod.snd) = ds.reverse.flatten := by
    rw [hxs, newestFirst_of_data hdata]
  have hlen : xs.length = ds.length := by
    rw [← List.length_map (f := Prod.snd), hxs, ← hdata, List.length_map]
  have hstored := h.stored
  have htotal := h.total
  rw [List.length_append] at htotal
  have hne : xs ≠ [] := fun hnil => h.parts (by simpa [hnil] using hlen.symm)
  rw [run_complete hne _ (by rw [he]) hc, hnew, he, hlen]
  · rw [hnew, length_reverse_flatten]
    exact hstored
  · rw [hnew, length_reverse_flatten, he, Nat.zero_add]
  · rw [hnew, length_reverse_flatten, he]
    exact htotal
  · intro x hx
    exact (hfs x.2 (hxs ▸ List.mem_map_of_mem hx)).1

section

variable {c : IwanClient} {id : Vector UInt8 4} {ds : List Bytes} {d : Bytes}
  {pkts : List (Env × Bytes)} {fs : List Frag}

theorem Carry.length_eq (h : Carry pkts fs) : (timesOf pkts).length = fs.length := by
  have := congrArg List.length h.2
  simpa [timesOf] using this

theorem Carry.map_fst (h : Carry pkts fs) : ((timesOf pkts).zip fs).map Prod.fst = timesOf pkts :=
  List.map_fst_zip h.length_eq.le

theorem Carry.map_snd (h : Carry pkts fs) : ((timesOf pkts).zip fs).map Prod.snd = fs :=
  List.map_snd_zip h.length_eq.ge

theorem cut_ids : ∀ f ∈ cut id 0 (ds ++ [d]), f.id = id := by
  obtain ⟨fs, hcut, hfs, -⟩ := cut_concat id d ds 0
  rw [hcut]
  intro f hf
  rcases List.mem_append.mp hf with hf | hf
  · exact (hfs f hf).2
  · rw [List.mem_singleton.mp hf]

theorem deliver_none (c : IwanClient) : deliver c none = [] := rfl

/-- The TUN writes for fragments in order of their offsets. -/
theorem feed_cut (hroom : Room c id) (hnone : groups c.frags id = none) (h : Fits ds d)
    (hcarry : Carry pkts (cut id 0 (ds ++ [d]))) (hc : (timesOf pkts).IsChain Prompt) :
    ∃ c', feed c pkts = some (c', List.replicate ds.length [] ++
        [[.tunWrite (tunPacket c (ds.reverse.flatten ++ d))]]) ∧ groups c'.frags id = none := by
  obtain ⟨c', hfeed, hgroup⟩ := feed_single pkts _ hroom hcarry cut_ids
  rw [hnone, run_cut h hcarry.map_snd (by rwa [hcarry.map_fst])] at hfeed hgroup
  refine ⟨c', ?_, hgroup⟩
  rw [hfeed, List.map_append, List.map_replicate, deliver_none]
  rfl

theorem tunPacket_injective (c : IwanClient) : Function.Injective (tunPacket c) := by
  intro x y h
  unfold tunPacket xorEncrypt at h
  split_ifs at h
  · have := congrArg (xorCycle c.xorKey) h
    simpa using this
  · exact h

/-- No slot in use carries the id. -/
theorem groups_none_iff {frags : Vector FragSlot 10} :
    groups frags id = none ↔ ∀ i : Fin 10, frags[i].inUse = true → frags[i].id ≠ id := by
  simp only [groups_eq_none, ne_eq, key_eq_some, not_and]

end

section

variable {cfg₀ cfg : Config} {ienv : InitEnv} {c₀ : IwanClient} {fx₀ : List Effect}
  {tr : List StepRecord} {c : IwanClient} {id : Vector UInt8 4} {ds : List Bytes} {d : Bytes}
  {pkts : List (Env × Bytes)}

/-- A reachable client with a free slot. -/
theorem room_of_run (hcfg : cfg₀.Admitted) (hinit : mainInit cfg₀ ienv = some (some (cfg, c₀, fx₀)))
    (hrun : Trace (Step cfg) c₀ tr c) (hs : c.state = .established)
    (hfree : ∃ i : Fin 10, c.frags[i].inUse = false) (id : Vector UInt8 4) : Room c id := by
  obtain ⟨hinv, hu⟩ := reachable_uniqueIds hcfg hinit hrun
  exact ⟨hs, hinv.slots, hu, fun _ => hfree⟩

/-- **Fragments in order.** An ESTABLISHED client with a free slot receives the
    fragments of a packet in order of their offsets, with gaps below the timeout.
    It writes exactly this packet, on the last fragment, and frees the slot,
    exactly if the parts before the last one give the same bytes in reverse
    order. With two parts they do. -/
theorem in_order_reassembly (hcfg : cfg₀.Admitted)
    (hinit : mainInit cfg₀ ienv = some (some (cfg, c₀, fx₀))) (hrun : Trace (Step cfg) c₀ tr c)
    (hs : c.state = .established) (hfree : ∃ i : Fin 10, c.frags[i].inUse = false)
    (hid : ∀ i : Fin 10, c.frags[i].inUse = true → c.frags[i].id ≠ id) (h : Fits ds d)
    (hcarry : Carry pkts (cut id 0 (ds ++ [d]))) (hc : (timesOf pkts).IsChain Prompt) :
    (∃ c', feed c pkts = some (c', List.replicate ds.length [] ++
        [[.tunWrite (tunPacket c (ds.flatten ++ d))]]) ∧
      ∀ i : Fin 10, c'.frags[i].inUse = true → c'.frags[i].id ≠ id) ↔
    ds.reverse.flatten = ds.flatten := by
  have hroom := room_of_run hcfg hinit hrun hs hfree id
  obtain ⟨c', hfeed, hgroup⟩ := feed_cut hroom (groups_none_iff.mpr hid) h hcarry hc
  rw [hfeed]
  constructor
  · rintro ⟨c'', heq, -⟩
    have houts := (Prod.mk.inj (Option.some.inj heq)).2
    have hlast := List.append_cancel_left houts
    have hpacket : tunPacket c (ds.reverse.flatten ++ d) = tunPacket c (ds.flatten ++ d) := by
      simpa using hlast
    exact List.append_cancel_right (tunPacket_injective c hpacket)
  · intro heq
    rw [heq]
    exact ⟨c', rfl, groups_none_iff.mp hgroup⟩

end

/-- An IPFRAG with the id 7, the given bitfield and data. -/
def ipfragPkt (bf data : Bytes) : Bytes :=
  [pktIpfrag, 0, 0, 0, 0, 0, 0, 0] ++ List.replicate 8 0 ++ [0, 0, 0, 7] ++ bf ++ data

/-- The packet 1, 2 in two fragments. -/
def twoFrags : List (Env × Bytes) :=
  [(calmEnv 100, ipfragPkt [0, 0x80, 0, 0] [1]), (calmEnv 101, ipfragPkt [5, 0x80, 0, 0] [2])]

/-- The packet 1, 2, 3 in three fragments. -/
def threeFrags : List (Env × Bytes) :=
  [(calmEnv 100, ipfragPkt [0, 0x80, 0, 0] [1]), (calmEnv 101, ipfragPkt [4, 0x80, 0, 0] [2]),
    (calmEnv 102, ipfragPkt [9, 0x80, 0, 0] [3])]

theorem carry_twoFrags : Carry twoFrags (cut #v[0, 0, 0, 7] 0 [[1], [2]]) :=
  ⟨by simp [twoFrags, ipfragPkt], by decide +kernel⟩

theorem carry_threeFrags : Carry threeFrags (cut #v[0, 0, 0, 7] 0 [[1], [2], [3]]) :=
  ⟨by simp [threeFrags, ipfragPkt], by decide +kernel⟩

theorem fits_two : Fits [[1]] [2] :=
  ⟨by simp, by simp, by simp, by simp⟩

theorem fits_three : Fits [[1], [2]] [3] :=
  ⟨by simp, by simp, by simp, by simp⟩

/-- The README's client, established, has room for a packet. -/
theorem readme_room (id : Vector UInt8 4) : ∃ cfg c₀ fx₀ tr c,
    mainInit readmeConfig ⟨4, none, 3⟩ = some (some (cfg, c₀, fx₀)) ∧ Trace (Step cfg) c₀ tr c ∧
    c.state = .established ∧ (∀ i : Fin 10, c.frags[i].inUse = false) ∧ Room c id ∧
    groups c.frags id = none := by
  obtain ⟨cfg, c₀, fx₀, tr, c, hinit, hrun, hs, hfree⟩ := readme_established
  refine ⟨cfg, c₀, fx₀, tr, c, hinit, hrun, hs, hfree,
    room_of_run readmeConfig_admitted hinit hrun hs ⟨0, hfree 0⟩ id, groups_none_iff.mpr fun i hi => ?_⟩
  rw [hfree i] at hi
  cases hi

/-- Two fragments in order. -/
theorem two_fragments_in_order : ∃ cfg c₀ fx₀ tr c c',
    mainInit readmeConfig ⟨4, none, 3⟩ = some (some (cfg, c₀, fx₀)) ∧ Trace (Step cfg) c₀ tr c ∧
    c.state = .established ∧
    feed c twoFrags = some (c', [[], [.tunWrite (tunPacket c [1, 2])]]) := by
  obtain ⟨cfg, c₀, fx₀, tr, c, hinit, hrun, hs, hfree⟩ := readme_established
  obtain ⟨c', hfeed, -⟩ := (in_order_reassembly readmeConfig_admitted hinit hrun hs ⟨0, hfree 0⟩
    (fun i hi => by rw [hfree i] at hi; cases hi) fits_two carry_twoFrags (by decide)).mpr rfl
  exact ⟨cfg, c₀, fx₀, tr, c, c', hinit, hrun, hs, hfeed⟩

/-- Three fragments in order: the first two are swapped. -/
theorem three_fragments_swapped : ∃ cfg c₀ fx₀ tr c c',
    mainInit readmeConfig ⟨4, none, 3⟩ = some (some (cfg, c₀, fx₀)) ∧ Trace (Step cfg) c₀ tr c ∧
    c.state = .established ∧ (∀ i : Fin 10, c.frags[i].inUse = false) ∧ Fits [[1], [2]] [3] ∧
    Carry threeFrags (cut #v[0, 0, 0, 7] 0 [[1], [2], [3]]) ∧ (timesOf threeFrags).IsChain Prompt ∧
    feed c threeFrags = some (c', [[], [], [.tunWrite (tunPacket c [2, 1, 3])]]) ∧
    tunPacket c [2, 1, 3] ≠ tunPacket c [1, 2, 3] := by
  obtain ⟨cfg, c₀, fx₀, tr, c, hinit, hrun, hs, hfree, hroom, hnone⟩ := readme_room #v[0, 0, 0, 7]
  have hc : (timesOf threeFrags).IsChain Prompt := by decide
  obtain ⟨c', hfeed, -⟩ := feed_cut hroom hnone fits_three carry_threeFrags hc
  refine ⟨cfg, c₀, fx₀, tr, c, c', hinit, hrun, hs, hfree, fits_three, carry_threeFrags, hc, hfeed, ?_⟩
  exact fun h => absurd (tunPacket_injective c h) (by decide)

section

variable {cfg₀ cfg : Config} {ienv : InitEnv} {c₀ : IwanClient} {fx₀ : List Effect}
  {tr : List StepRecord} {c : IwanClient} {id : Vector UInt8 4} {ds : List Bytes} {d : Bytes}
  {pkts : List (Env × Bytes)}

/-- The fragments arrive so that the last one comes last and the others, newest
    first, give the same bytes as in descending order of their offsets. -/
def ArrivesWell (fs : List Frag) (ds : List Bytes) : Prop :=
  (∃ e, fs.getLast? = some e ∧ e.eop = true) ∧ newestFirst fs.dropLast = ds.reverse.flatten

/-- A permutation of the fragments of a packet, cut at the last fragment. -/
theorem perm_cut {fs : List Frag} (hperm : fs.Perm (cut id 0 (ds ++ [d]))) :
    ∃ as bs, fs = as ++ ⟨id, true, ds.flatten.length, d⟩ :: bs ∧
      (∀ f ∈ as ++ bs, f.eop = false) ∧ (as ++ bs).length = ds.length ∧
      (newestFirst as).length + (newestFirst bs).length = ds.flatten.length := by
  obtain ⟨gs, hcut, hgs, hdata⟩ := cut_concat id d ds 0
  rw [hcut, Nat.zero_add] at hperm
  obtain ⟨as, bs, rfl⟩ := List.append_of_mem (hperm.mem_iff.mpr (by simp) :
    (⟨id, true, ds.flatten.length, d⟩ : Frag) ∈ fs)
  have hrest : (as ++ bs).Perm gs :=
    (List.perm_middle.symm.trans (hperm.trans (List.perm_append_singleton _ _))).cons_inv
  refine ⟨as, bs, rfl, fun f hf => (hgs f (hrest.mem_iff.mp hf)).1, ?_, ?_⟩
  · rw [hrest.length_eq, ← hdata, List.length_map]
  · have hsum := (hrest.map fun f => f.data.length).sum_eq
    rw [List.map_append, List.sum_append, ← length_newestFirst, ← length_newestFirst,
      ← length_newestFirst, newestFirst_of_data hdata, length_reverse_flatten] at hsum
    exact hsum

/-- Writes and the group after a permuted arrival. -/
theorem run_perm (h : Fits ds d) {as bs : List Frag}
    (heop : ∀ f ∈ as ++ bs, f.eop = false) (hcount : (as ++ bs).length = ds.length)
    (hlen : (newestFirst as).length + (newestFirst bs).length = ds.flatten.length)
    {xs : List (UInt32 × Frag)}
    (hxs : xs.map Prod.snd = as ++ ⟨id, true, ds.flatten.length, d⟩ :: bs)
    (hc : (xs.map Prod.fst).IsChain Prompt) :
    (bs = [] → Group.run none xs =
      (none, List.replicate as.length none ++ [some (newestFirst as ++ d)])) ∧
    (bs ≠ [] → (∀ out ∈ (Group.run none xs).2, out = none) ∨ (Group.run none xs).1 ≠ none) := by
  rw [List.map_eq_append_iff] at hxs
  obtain ⟨xs, ys, rfl, rfl, hys⟩ := hxs
  rw [List.map_eq_cons_iff] at hys
  obtain ⟨e, ys, rfl, he, rfl⟩ := hys
  have hstored := h.stored
  have hxeop : ∀ x ∈ xs, x.2.eop = false := fun x hx =>
    heop x.2 (List.mem_append_left _ (List.mem_map_of_mem hx))
  have hyeop : ∀ y ∈ ys, y.2.eop = false := fun y hy =>
    heop y.2 (List.mem_append_right _ (List.mem_map_of_mem hy))
  refine ⟨fun hnil => ?_, fun hne => ?_⟩
  · obtain rfl := List.map_eq_nil_iff.mp hnil
    have htotal := h.total
    rw [List.length_append] at htotal
    have hl0 : (newestFirst ((([] : List (UInt32 × Frag)).map Prod.snd))).length = 0 := rfl
    have hne : xs ≠ [] := by
      rintro rfl
      exact h.parts (List.length_eq_zero_iff.mp hcount.symm)
    rw [run_complete hne hxeop (by rw [he]) hc (by omega) (by rw [he]; simp only; omega)
      (by rw [he]; simp only; omega), he, List.length_map]
  · have hys : ys ≠ [] := fun hnil => hne (by rw [hnil]; rfl)
    by_cases hxs : xs = []
    · subst hxs
      exact .inl (run_last_first hyeop)
    · refine .inr (run_last_middle hxs hys (fun x hx => ?_) (by rw [he]) hc (by omega))
      exact (List.mem_append.mp hx).elim (hxeop x) (hyeop x)

theorem flatten_deliver_complete (n : ℕ) (packet : Bytes) :
    ((List.replicate n none ++ [some packet]).map (deliver c)).flatten =
      [.tunWrite (tunPacket c packet)] := by
  simp [deliver]

theorem flatten_deliver_none {outs : List (Option Bytes)} (h : ∀ out ∈ outs, out = none) :
    (outs.map (deliver c)).flatten = [] := by
  rw [List.eq_replicate_of_mem h]
  simp [deliver_none]

/-- Arriving well, around the last fragment. -/
theorem arrivesWell_iff {as bs : List Frag} {f : Frag} (hf : f.eop = true)
    (heop : ∀ e ∈ as ++ bs, e.eop = false) :
    ArrivesWell (as ++ f :: bs) ds ↔ bs = [] ∧ newestFirst as = ds.reverse.flatten := by
  unfold ArrivesWell
  by_cases hbs : bs = []
  · subst hbs
    rw [List.dropLast_concat]
    exact ⟨fun h => ⟨rfl, h.2⟩, fun h => ⟨⟨f, List.getLast?_concat, hf⟩, h.2⟩⟩
  · refine iff_of_false ?_ fun h => hbs h.1
    rintro ⟨⟨e, he, htrue⟩, -⟩
    -- a fragment behind the last one has no eop
    rw [List.getLast?_append_cons, List.getLast?_cons_of_ne_nil hbs] at he
    have hfalse := heop e (List.mem_append_right as (List.mem_of_getLast? he))
    rw [htrue] at hfalse
    cases hfalse

/-- **Fragments in any order.** The fragments of a packet arrive, each time with
    gaps below the timeout, in order and in the order `fs`. The TUN writes are the
    same and no slot is left with the id exactly if the last fragment arrives last
    and the others give the same bytes, newest first, as in descending order. -/
theorem reassembly_order (hcfg : cfg₀.Admitted)
    (hinit : mainInit cfg₀ ienv = some (some (cfg, c₀, fx₀))) (hrun : Trace (Step cfg) c₀ tr c)
    (hs : c.state = .established) (hfree : ∃ i : Fin 10, c.frags[i].inUse = false)
    (hid : ∀ i : Fin 10, c.frags[i].inUse = true → c.frags[i].id ≠ id) (h : Fits ds d)
    {fs : List Frag} (hperm : fs.Perm (cut id 0 (ds ++ [d]))) {pkts' : List (Env × Bytes)}
    (hcarry : Carry pkts (cut id 0 (ds ++ [d]))) (hc : (timesOf pkts).IsChain Prompt)
    (hcarry' : Carry pkts' fs) (hc' : (timesOf pkts').IsChain Prompt) :
    (∃ c₁ outs c₂ outs', feed c pkts = some (c₁, outs) ∧ feed c pkts' = some (c₂, outs') ∧
      outs'.flatten = outs.flatten ∧
      ∀ i : Fin 10, c₂.frags[i].inUse = true → c₂.frags[i].id ≠ id) ↔
    ArrivesWell fs ds := by
  have hroom := room_of_run hcfg hinit hrun hs hfree id
  have hnone : groups c.frags id = none := groups_none_iff.mpr hid
  obtain ⟨c₁, hfeed, -⟩ := feed_cut hroom hnone h hcarry hc
  obtain ⟨c₂, hfeed', hgroup'⟩ := feed_single pkts' _ hroom hcarry'
    fun f hf => cut_ids f (hperm.mem_iff.mp hf)
  rw [hnone] at hfeed' hgroup'
  obtain ⟨as, bs, rfl, heop, hcount, hlen⟩ := perm_cut hperm
  obtain ⟨hlast, hmiddle⟩ := run_perm h heop hcount hlen hcarry'.map_snd (by rwa [hcarry'.map_fst])
  -- the writes of both runs are known
  have hleft : (∃ c₁ outs c₂ outs', feed c pkts = some (c₁, outs) ∧ feed c pkts' = some (c₂, outs') ∧
      outs'.flatten = outs.flatten ∧
      ∀ i : Fin 10, c₂.frags[i].inUse = true → c₂.frags[i].id ≠ id) ↔
      ((Group.run none ((timesOf pkts').zip (as ++ ⟨id, true, ds.flatten.length, d⟩ :: bs))).2.map
        (deliver c)).flatten = [.tunWrite (tunPacket c (ds.reverse.flatten ++ d))] ∧
      (Group.run none ((timesOf pkts').zip (as ++ ⟨id, true, ds.flatten.length, d⟩ :: bs))).1 = none := by
    rw [hfeed, hfeed']
    simp only [Option.some.injEq, Prod.mk.injEq]
    constructor
    · rintro ⟨_, _, _, _, ⟨rfl, rfl⟩, ⟨rfl, rfl⟩, houts, hgone⟩
      refine ⟨by simpa using houts, ?_⟩
      rw [← hgroup', groups_none_iff]
      exact hgone
    · rintro ⟨houts, hgone⟩
      refine ⟨_, _, _, _, ⟨rfl, rfl⟩, ⟨rfl, rfl⟩, by simpa using houts, groups_none_iff.mp ?_⟩
      rw [hgroup', hgone]
  rw [hleft, arrivesWell_iff rfl heop]
  by_cases hbs : bs = []
  · subst hbs
    rw [hlast rfl, flatten_deliver_complete]
    constructor
    · rintro ⟨houts, -⟩
      have hpacket := tunPacket_injective c (by simpa using houts)
      exact ⟨rfl, List.append_cancel_right hpacket⟩
    · rintro ⟨-, heq⟩
      rw [heq]
      exact ⟨rfl, rfl⟩
  · refine iff_of_false ?_ fun h => hbs h.1
    rintro ⟨houts, hgone⟩
    rcases hmiddle hbs with hall | hsome
    · rw [flatten_deliver_none hall] at houts
      cases houts
    · exact hsome hgone

end

/-- Two fragments in order, compared with themselves. -/
theorem two_fragments_order : ∃ cfg c₀ fx₀ tr c c₁ outs c₂ outs',
    mainInit readmeConfig ⟨4, none, 3⟩ = some (some (cfg, c₀, fx₀)) ∧ Trace (Step cfg) c₀ tr c ∧
    feed c twoFrags = some (c₁, outs) ∧ feed c twoFrags = some (c₂, outs') ∧
    outs'.flatten = outs.flatten := by
  obtain ⟨cfg, c₀, fx₀, tr, c, hinit, hrun, hs, hfree⟩ := readme_established
  obtain ⟨c₁, outs, c₂, outs', h1, h2, heq, -⟩ := (reassembly_order readmeConfig_admitted hinit hrun hs
    ⟨0, hfree 0⟩ (fun i hi => by rw [hfree i] at hi; cases hi) fits_two (List.Perm.refl _)
    carry_twoFrags (by decide) carry_twoFrags (by decide)).mpr ⟨⟨_, rfl, rfl⟩, rfl⟩
  exact ⟨cfg, c₀, fx₀, tr, c, c₁, outs, c₂, outs', hinit, hrun, h1, h2, heq⟩

/-- Two fragments in reverse order: nothing is delivered, and the slot stays in
    use. -/
theorem two_fragments_reversed : ∃ cfg c₀ fx₀ tr c c₁ c₂,
    mainInit readmeConfig ⟨4, none, 3⟩ = some (some (cfg, c₀, fx₀)) ∧ Trace (Step cfg) c₀ tr c ∧
    c.state = .established ∧ (∀ i : Fin 10, c.frags[i].inUse = false) ∧ Fits [[1]] [2] ∧
    Carry twoFrags (cut #v[0, 0, 0, 7] 0 [[1], [2]]) ∧
    (timesOf twoFrags).IsChain Prompt ∧
    feed c twoFrags = some (c₁, [[], [.tunWrite (tunPacket c [1, 2])]]) ∧
    feed c [(calmEnv 100, ipfragPkt [5, 0x80, 0, 0] [2]), (calmEnv 101, ipfragPkt [0, 0x80, 0, 0] [1])] =
      some (c₂, [[], []]) ∧
    ∃ i : Fin 10, c₂.frags[i].inUse = true ∧ c₂.frags[i].id = #v[0, 0, 0, 7] := by
  obtain ⟨cfg, c₀, fx₀, tr, c, hinit, hrun, hs, hfree, hroom, hnone⟩ := readme_room #v[0, 0, 0, 7]
  have hc : (timesOf twoFrags).IsChain Prompt := by decide
  obtain ⟨c₁, hfeed, -⟩ := feed_cut hroom hnone fits_two carry_twoFrags hc
  obtain ⟨c₂, hfeed', hgroup⟩ := feed_single
    [(calmEnv 100, ipfragPkt [5, 0x80, 0, 0] [2]), (calmEnv 101, ipfragPkt [0, 0x80, 0, 0] [1])]
    [⟨#v[0, 0, 0, 7], true, 1, [2]⟩, ⟨#v[0, 0, 0, 7], false, 0, [1]⟩] hroom
    ⟨by simp [ipfragPkt], by decide +kernel⟩ (by simp)
  rw [hnone] at hfeed' hgroup
  refine ⟨cfg, c₀, fx₀, tr, c, c₁, c₂, hinit, hrun, hs, hfree, fits_two, carry_twoFrags, hc, hfeed,
    hfeed', ?_⟩
  by_contra hno
  have hgone : groups c₂.frags #v[0, 0, 0, 7] = none :=
    groups_none_iff.mpr fun i hi he => hno ⟨i, hi, he⟩
  rw [hgroup] at hgone
  cases hgone

end Iwand.Client
