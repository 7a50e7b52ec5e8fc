import Iwand.Client.Invariant
import Iwand.Common.Slots

/-!
# Fragment groups

`handle_ipfrag` keeps the fragments of unfinished packets in a table of ten
slots. Seen from outside, a slot in use is a group: the bytes collected for one
fragment id and the time of the last progress. `Group.receive` says what one
fragment does to its group and what is delivered; the table adds only that a
group may be missing (no slot was free) or may have been overwritten after it
expired.

* `handleIpfrag_received`: one fragment, on the group and on the table.
* `dispatch_frags`: the datagrams that reach `handle_ipfrag`.
* `receive_in_bounds`: no datagram leads to an access out of bounds.
-/

namespace Iwand.Client

/-! ## Fragments and groups -/

/-- A fragment. -/
structure Frag where
  id : Vector UInt8 4
  eop : Bool
  off : ℕ
  data : Bytes
deriving DecidableEq

/-- The fragment in a packet that passes the checks of `handle_ipfrag` (lines
    1145–1165). -/
def fragOf (pkt : Bytes) : Option Frag :=
  if pkt.length < 24 then none
  else (parseEthPkt pkt).bind fun eth =>
    if pkt.length = eth.fraglen + 24 ∧ eth.fraglen ≠ 0 then
      some ⟨eth.id, eth.eop, eth.fragoff, pkt.drop 24⟩
    else none

/-- The bytes collected for one id, and the time of the last progress. -/
structure Group where
  data : Bytes
  timestamp : UInt32

/-- No progress for `FRAG_TIMEOUT` seconds. -/
def Group.Expired (g : Group) (now : UInt32) : Prop := now - g.timestamp ≥ fragTimeout

instance (g : Group) (now : UInt32) : Decidable (g.Expired now) :=
  inferInstanceAs (Decidable (_ ≥ _))

/-- `data` written at offset `off` over `acc`, with zeros in between. -/
def overlay (acc : Bytes) (off : ℕ) (data : Bytes) : Bytes :=
  (List.range (max (off + data.length) acc.length)).map fun p =>
    if off ≤ p ∧ p < off + data.length then data.getD (p - off) 0 else acc.getD p 0

/-- What a fragment does to its group, and the packet that it completes. -/
def Group.receive (now : UInt32) (f : Frag) : Option Group → Option Group × Option Bytes
  | none => (some ⟨f.data, now⟩, none)
  | some g =>
    if g.Expired now then (some ⟨f.data, now⟩, none)
    else if f.eop then
      (none, if max (f.off + f.data.length) g.data.length ≤ 4096
        then some (overlay g.data f.off f.data) else none)
    else if g.data.length + f.data.length ≤ 2048 then (some ⟨f.data ++ g.data, now⟩, none)
    else (none, none)

/-- The id of a slot in use. -/
def FragSlot.key (slot : FragSlot) : Option (Vector UInt8 4) :=
  if slot.inUse then some slot.id else none

/-- The group in a slot. -/
def FragSlot.group (slot : FragSlot) : Group :=
  ⟨slot.buf.toList.take slot.len.toNat, slot.timestamp⟩

/-- The group of an id in the table. -/
def groups (frags : Vector FragSlot 10) (id : Vector UInt8 4) : Option Group :=
  (Slots.get FragSlot.key frags id).map FragSlot.group

/-- The packet as it is written to the TUN, decrypted if the session is
    encrypted. -/
def tunPacket (c : IwanClient) (packet : Bytes) : Bytes :=
  if c.encrypt ≠ 0 then xorEncrypt c.xorKey packet else packet

/-- The TUN write for a completed packet. -/
def deliver (c : IwanClient) (out : Option Bytes) : List Effect :=
  out.toList.map fun packet => .tunWrite (tunPacket c packet)

/-! ## `overlay` -/

@[simp] theorem length_overlay (acc : Bytes) (off : ℕ) (data : Bytes) :
    (overlay acc off data).length = max (off + data.length) acc.length := by
  simp [overlay]

theorem getElem_overlay (acc : Bytes) (off : ℕ) (data : Bytes) (p : ℕ)
    (h : p < (overlay acc off data).length) :
    (overlay acc off data)[p] =
      if off ≤ p ∧ p < off + data.length then data.getD (p - off) 0 else acc.getD p 0 := by
  simp [overlay]

/-- A last fragment that begins where the collected bytes end. -/
theorem overlay_append (acc data : Bytes) : overlay acc acc.length data = acc ++ data := by
  apply List.ext_getElem (by simp)
  intro p h1 h2
  rw [getElem_overlay]
  by_cases hp : acc.length ≤ p
  · rw [if_pos ⟨hp, by simpa using h2⟩, List.getElem_append_right hp, List.getD_eq_getElem]
  · rw [if_neg (by omega), List.getElem_append_left (by omega), List.getD_eq_getElem]

/-- The contents of `g_frag_content` behind the two `memcpy`s of a last
    fragment. -/
theorem take_place {acc : Bytes} {off : ℕ} {data : Bytes}
    (h : max (off + data.length) acc.length ≤ 4096) :
    ((acc ++ List.replicate (4096 - acc.length) 0).take off ++ data ++
      (acc ++ List.replicate (4096 - acc.length) 0).drop (off + data.length)).take
        (max (off + data.length) acc.length) = overlay acc off data := by
  have hlen : (acc ++ List.replicate (4096 - acc.length) (0 : UInt8)).length = 4096 := by
    simp; omega
  have hget : ∀ p, p < 4096 →
      (acc ++ List.replicate (4096 - acc.length) (0 : UInt8)).getD p 0 = acc.getD p 0 := by
    intro p hp
    by_cases hlt : p < acc.length
    · rw [List.getD_append _ _ _ _ hlt]
    · rw [List.getD_append_right _ _ _ _ (by omega), List.getD_replicate _ (by omega),
        List.getD_eq_default _ _ (by omega)]
  generalize acc ++ List.replicate (4096 - acc.length) (0 : UInt8) = zs at *
  have hzs : ∀ q (hq : q < zs.length), zs[q] = acc.getD q 0 := by
    intro q hq
    rw [← hget q (by omega), List.getD_eq_getElem]
  apply List.ext_getElem (by simp [hlen]; omega)
  intro p h1 h2
  rw [length_overlay] at h2
  rw [getElem_overlay]
  have htake : (zs.take off).length = off := by simp; omega
  simp only [List.getElem_take, List.getElem_append, List.length_append, htake, List.getElem_drop, hzs]
  by_cases hlo : p < off
  · rw [dif_pos (by omega), dif_pos hlo, if_neg (by omega)]
  by_cases hhi : p < off + data.length
  · rw [dif_pos hhi, dif_neg hlo, if_pos ⟨by omega, hhi⟩, List.getD_eq_getElem]
  · rw [dif_neg hhi, if_neg (by omega), show off + data.length + (p - (off + data.length)) = p by omega]

/-! ## One slot -/

theorem key_eq_some {slot : FragSlot} {id : Vector UInt8 4} :
    slot.key = some id ↔ slot.inUse = true ∧ slot.id = id := by
  unfold FragSlot.key
  split_ifs with h <;> simp [h]

theorem key_eq_none {slot : FragSlot} : slot.key = none ↔ slot.inUse = false := by
  unfold FragSlot.key
  split_ifs with h <;> simp [h]

theorem length_group {slot : FragSlot} (h : slot.len.toNat ≤ 2048) :
    slot.group.data.length = slot.len.toNat := by
  simp [FragSlot.group]; omega

/-- A slot whose buffer was filled from the front. -/
theorem group_toArr {slot : FragSlot} {content : Bytes} (rest : Bytes) {now : UInt32}
    (hbuf : slot.buf = toArr 2048 (content ++ rest)) (hlen : (content ++ rest).length = 2048)
    (hl : slot.len = UInt16.ofNat content.length) (ht : slot.timestamp = now) :
    slot.group = ⟨content, now⟩ := by
  have hle : content.length ≤ 2048 := by
    rw [List.length_append] at hlen
    omega
  rw [FragSlot.group, hbuf, toList_toArr hlen, hl, ht, UInt16.toNat_ofNat',
    Nat.mod_eq_of_lt (by omega), List.take_left' rfl]

/-- Extending an unexpired slot by a last fragment. -/
theorem fragExtend_eop {c : IwanClient} {i : Fin 10} (hlen : c.frags[i].len.toNat ≤ 2048)
    (now : UInt32) {eth : EthPkt} (heop : eth.eop = true) (data : Bytes) :
    fragExtend c i now eth data = some
      (if max (eth.fragoff + data.length) c.frags[i].group.data.length ≤ 4096 then
        ⟨freeSlot { c with tunTx := c.tunTx + 1 } i,
          [.tunWrite (tunPacket c (overlay c.frags[i].group.data eth.fragoff data))], true⟩
      else ⟨freeSlot c i, [], false⟩) := by
  unfold fragExtend
  generalize c.frags[i] = slot at *
  have hgl := length_group hlen
  have hacc : slot.buf.toList.take slot.len.toNat = slot.group.data := rfl
  simp only [heop, if_true, fragPlace, slotData_eq hlen, hacc, hgl]
  generalize slot.group.data = acc at *
  by_cases hbig : max (eth.fragoff + data.length) slot.len.toNat ≤ 4096
  swap
  · rw [if_pos (show _ > 4096 by omega), if_neg hbig]
    rfl
  rw [if_neg (show ¬ _ > 4096 by omega), if_pos hbig]
  simp only [Option.bind_eq_bind, Option.bind_some, fragContentSize]
  rw [wrN_eq (by rw [List.length_replicate]; omega)]
  simp only [Option.bind_some, List.take_zero, List.nil_append, Nat.zero_add, List.drop_replicate]
  rw [wrN_eq (by rw [List.length_append, List.length_replicate]; omega)]
  simp only [Option.bind_some, Option.pure_def]
  rw [rdN_eq (by simp only [List.length_append, List.length_take, List.length_drop,
    List.length_replicate]; omega), List.drop_zero, ← hgl, take_place (by omega)]
  rfl

/-- Extending an unexpired slot by another fragment. -/
theorem fragExtend_middle {c : IwanClient} {i : Fin 10} (hlen : c.frags[i].len.toNat ≤ 2048)
    (now : UInt32) (eth : EthPkt) (heop : eth.eop = false) {data : Bytes} (hd : data.length ≤ 2048) :
    ∃ slot : FragSlot, slot.inUse = c.frags[i].inUse ∧ slot.id = c.frags[i].id ∧
      (c.frags[i].group.data.length + data.length ≤ 2048 →
        slot.group = ⟨data ++ c.frags[i].group.data, now⟩ ∧
          slot.len.toNat = c.frags[i].len.toNat + data.length) ∧
      fragExtend c i now eth data = some
        (if c.frags[i].group.data.length + data.length ≤ 2048 then
          ⟨{ c with frags := c.frags.set i slot }, [], true⟩
        else ⟨freeSlot c i, [], false⟩) := by
  unfold fragExtend
  generalize c.frags[i] = slot at *
  have hgl := length_group hlen
  have hacc : slot.buf.toList.take slot.len.toNat = slot.group.data := rfl
  simp only [heop, Bool.false_eq_true, if_false]
  rw [fragPrepend_eq hlen hd, hacc]
  generalize slot.group.data = acc at *
  have hbuf : slot.buf.toList.length = 2048 := Vector.length_toList
  refine ⟨{ slot with
      buf := toArr 2048 (data ++ acc ++ slot.buf.toList.drop (data ++ acc).length)
      len := UInt16.ofNat (slot.len.toNat + data.length)
      timestamp := now }, rfl, rfl, fun hfit => ⟨?_, ?_⟩, ?_⟩
  · refine group_toArr _ rfl ?_ ?_ rfl
    · simp only [List.length_append, List.length_drop]
      omega
    · rw [List.length_append, ← hgl, Nat.add_comm]
  · show (UInt16.ofNat (slot.len.toNat + data.length)).toNat = _
    rw [UInt16.toNat_ofNat', Nat.mod_eq_of_lt (by omega)]
  · simp only [Option.bind_eq_bind, Option.bind_some, fragBufSize]
    by_cases hfit : acc.length + data.length ≤ 2048
    swap
    · rw [if_neg hfit, if_neg (by omega)]
      rfl
    have hcontent : (data ++ acc ++ List.replicate (4096 - (slot.len.toNat + data.length)) 0).take
        (slot.len.toNat + data.length) = data ++ acc :=
      List.take_left' (by rw [List.length_append]; omega)
    rw [if_pos hfit, if_pos (by omega), rdN_eq (by simp only [List.length_append]; omega),
      List.drop_zero, hcontent]
    simp only [Option.bind_some]
    rw [wrN_eq (by rw [List.length_append]; omega)]
    simp only [Option.bind_some, List.take_zero, List.nil_append, Nat.zero_add]
    rfl

/-- A fragment that opens a group. -/
theorem fragAllocate_cases (c : IwanClient) (now : UInt32) (f : Frag) (hd : f.data.length ≤ 2048)
    (hoff : f.off < 65536) :
    (∀ i : Fin 10, c.frags[i].inUse = true) ∧
      fragAllocate c now ⟨f.id, f.eop, f.off, f.data.length⟩ f.data = some ⟨c, [], false⟩ ∨
    ∃ (i : Fin 10) (slot : FragSlot), (c.frags[i].inUse = true → c.frags[i].group.Expired now) ∧
      slot.inUse = true ∧ slot.id = f.id ∧ slot.group = ⟨f.data, now⟩ ∧
      slot.len.toNat = f.data.length ∧ slot.off.toNat = f.off ∧
      fragAllocate c now ⟨f.id, f.eop, f.off, f.data.length⟩ f.data =
        some ⟨{ c with frags := c.frags.set i slot }, [], true⟩ := by
  unfold fragAllocate
  split
  next hnone =>
    refine .inl ⟨fun i => ?_, rfl⟩
    have := List.find?_eq_none.mp hnone i (List.mem_finRange i)
    simp only [Bool.or_eq_true, not_or, Bool.not_eq_true', Bool.not_eq_false] at this
    exact this.1
  next i hsome =>
    right
    have hi := List.find?_some hsome
    simp only [Bool.or_eq_true, Bool.not_eq_true', decide_eq_true_eq] at hi
    rw [if_pos (show f.data.length ≤ fragBufSize from hd), wrN_eq (by simp; omega)]
    refine ⟨i, _, fun huse => ?_, rfl, rfl, ?_, ?_, ?_, rfl⟩
    · rcases hi with hi | hi
      · rw [huse] at hi
        cases hi
      · exact hi
    · refine group_toArr (c.frags[i].buf.toList.drop f.data.length) ?_ ?_ rfl rfl
      · simp
      · simp; omega
    · show (UInt16.ofNat f.data.length).toNat = _
      rw [UInt16.toNat_ofNat', Nat.mod_eq_of_lt (by omega)]
    · show (UInt16.ofNat f.off).toNat = _
      rw [UInt16.toNat_ofNat', Nat.mod_eq_of_lt hoff]

/-! ## The table -/

/-- No two slots in use carry the same id. -/
abbrev UniqueIds (frags : Vector FragSlot 10) : Prop := Slots.Unique FragSlot.key frags

/-- A slot of the table after a fragment: untouched, opened, or extended; the
    lengths fit their 16-bit fields. -/
def StoredBy (f : Frag) (now : UInt32) (old new : FragSlot) : Prop :=
  new.inUse = true → new = old ∨ new.id = f.id ∧ new.timestamp = now ∧
    (new.len.toNat = f.data.length ∧ new.off.toNat = f.off ∨
      old.inUse = true ∧ old.id = f.id ∧ new.len.toNat = old.len.toNat + f.data.length)

/-- What a fragment does to the table, seen slot by slot. -/
structure TableStep (frags frags' : Vector FragSlot 10) (now : UInt32) (f : Frag) : Prop where
  slots : SlotsOk frags'
  unique : UniqueIds frags'
  stored : ∀ i : Fin 10, StoredBy f now frags[i] frags'[i]
  kept : ∀ i : Fin 10, frags[i].inUse = true → frags[i].id ≠ f.id → ¬ frags[i].group.Expired now →
    frags'[i] = frags[i]

/-- Everything that a fragment can do to the client. -/
structure Received (c : IwanClient) (now : UInt32) (f : Frag) (r : Res) : Prop where
  table : TableStep c.frags r.client.frags now f
  frame : r.client = { c with frags := r.client.frags, tunTx := r.client.tunTx }
  /-- The table is full, or the group takes its step. -/
  result : groups c.frags f.id = none ∧ (∀ i : Fin 10, c.frags[i].inUse = true) ∧
      r.client = c ∧ r.effects = [] ∨
    groups r.client.frags f.id = (Group.receive now f (groups c.frags f.id)).1 ∧
      r.effects = deliver c (Group.receive now f (groups c.frags f.id)).2 ∧
      (groups r.client.frags f.id = none → ∃ i : Fin 10, r.client.frags[i].inUse = false)

theorem groups_eq_none {frags : Vector FragSlot 10} {id : Vector UInt8 4} :
    groups frags id = none ↔ ∀ i : Fin 10, frags[i].key ≠ some id := by
  rw [groups, Option.map_eq_none_iff, Slots.get_eq_none]

theorem groups_of_key {frags : Vector FragSlot 10} (h : UniqueIds frags) {id : Vector UInt8 4}
    {i : Fin 10} (hi : frags[i].key = some id) : groups frags id = some frags[i].group := by
  rw [groups, Slots.get_of_key h hi]
  rfl

theorem groups_eq_some {frags : Vector FragSlot 10} (h : UniqueIds frags) {id : Vector UInt8 4}
    {g : Group} : groups frags id = some g ↔ ∃ i : Fin 10, frags[i].key = some id ∧ frags[i].group = g := by
  simp only [groups, Option.map_eq_some_iff, Slots.get_eq_some h]
  constructor
  · rintro ⟨slot, ⟨i, hi, rfl⟩, hg⟩
    exact ⟨i, hi, hg⟩
  · rintro ⟨i, hi, hg⟩
    exact ⟨_, ⟨i, hi, rfl⟩, hg⟩

section

variable {c : IwanClient} {now : UInt32} {f : Frag} {i : Fin 10} {slot : FragSlot}

/-- Slot `i`, which carries the id or may be overwritten, is set. -/
theorem tableStep_set (hok : SlotsOk c.frags) (hu : UniqueIds c.frags)
    (hid : ∀ j, j ≠ i → c.frags[j].key ≠ some f.id)
    (hi : c.frags[i].inUse = true → c.frags[i].id = f.id ∨ c.frags[i].group.Expired now)
    (hslot : StoredBy f now c.frags[i] slot)
    (hnew : slot.inUse = true → slot.id = f.id ∧ 1 ≤ slot.len.toNat ∧ slot.len.toNat ≤ 2048) :
    TableStep c.frags (c.frags.set i slot i.isLt) now f := by
  refine ⟨hok.set i fun h => (hnew h).2, hu.set i fun k hk j hj => ?_, fun j => ?_, fun j huse hne hexp => ?_⟩
  · obtain ⟨huse, rfl⟩ := key_eq_some.mp hk
    rw [(hnew huse).1]
    exact hid j hj
  · by_cases hij : i = j
    · subst hij
      rwa [Slots.getElem_set_self]
    · rw [Slots.getElem_set_ne _ _ hij]
      exact fun _ => .inl rfl
  · have hij : i ≠ j := by
      rintro rfl
      exact (hi huse).elim hne hexp
    rw [Slots.getElem_set_ne _ _ hij]

/-- The group of the id after slot `i` was set. -/
theorem groups_set (hid : ∀ j, j ≠ i → c.frags[j].key ≠ some f.id)
    (hu : UniqueIds (c.frags.set i slot i.isLt)) (hnew : slot.inUse = true → slot.id = f.id) :
    groups (c.frags.set i slot i.isLt) f.id = if slot.inUse then some slot.group else none := by
  by_cases huse : slot.inUse = true
  · rw [if_pos huse]
    rw [groups, Slots.get_set_self hu (key_eq_some.mpr ⟨huse, hnew huse⟩)]
    rfl
  · have hkey : slot.key = none := key_eq_none.mpr (by simpa using huse)
    rw [if_neg huse, groups, Slots.get_set_removed hid (by simp [hkey])]
    rfl

/-- The slot of an id is the only one. -/
theorem key_ne_of_unique (hu : UniqueIds c.frags) (hi : c.frags[i].key = some f.id) :
    ∀ j, j ≠ i → c.frags[j].key ≠ some f.id :=
  fun j hj hk => hj (hu j i f.id hk hi)

theorem freeSlot_table (now : UInt32) (hok : SlotsOk c.frags) (hu : UniqueIds c.frags)
    (hi : c.frags[i].key = some f.id) :
    TableStep c.frags (freeSlot c i).frags now f ∧ groups (freeSlot c i).frags f.id = none ∧
      (freeSlot c i).frags[i].inUse = false := by
  have hid := key_ne_of_unique hu hi
  have hstep : TableStep c.frags (freeSlot c i).frags now f :=
    tableStep_set hok hu hid (fun _ => .inl (key_eq_some.mp hi).2) (fun h => by cases h)
      (fun h => by cases h)
  refine ⟨hstep, ?_, ?_⟩
  · exact groups_set hid hstep.unique fun h => by cases h
  · rw [freeSlot, Slots.getElem_set_self]

/-- The slot of a group that has ended is freed. -/
theorem received_freed {r : Res} (out : Option Bytes) (hok : SlotsOk c.frags)
    (hu : UniqueIds c.frags) (hi : c.frags[i].key = some f.id)
    (hend : Group.receive now f (groups c.frags f.id) = (none, out))
    (hfrags : r.client.frags = (freeSlot c i).frags)
    (hframe : r.client = { c with frags := r.client.frags, tunTx := r.client.tunTx })
    (hfx : r.effects = deliver c out) : Received c now f r := by
  obtain ⟨hfree, hgone, hunused⟩ := freeSlot_table now hok hu hi
  refine ⟨hfrags ▸ hfree, hframe, .inr ⟨?_, ?_, fun _ => ⟨i, ?_⟩⟩⟩
  · rw [hfrags, hend]
    exact hgone
  · rw [hend]
    exact hfx
  · rw [hfrags]
    exact hunused

/-- A fragment of a group in progress. -/
theorem fragExtend_received (hok : SlotsOk c.frags) (hu : UniqueIds c.frags)
    (hi : c.frags[i].key = some f.id) (hexp : ¬ c.frags[i].group.Expired now)
    (hd : f.data.length ≤ 2048) (hd1 : 1 ≤ f.data.length) :
    ∃ r, fragExtend c i now ⟨f.id, f.eop, f.off, f.data.length⟩ f.data = some r ∧
      Received c now f r := by
  obtain ⟨huse, hidi⟩ := key_eq_some.mp hi
  obtain ⟨hl1, hl⟩ := hok i huse
  have hg := groups_of_key hu hi
  have hid := key_ne_of_unique hu hi
  cases heop : f.eop with
  | true =>
    rw [fragExtend_eop hl now rfl]
    refine ⟨_, rfl, ?_⟩
    by_cases hbig : max (f.off + f.data.length) c.frags[i].group.data.length ≤ 4096
    · rw [if_pos hbig]
      refine received_freed (some (overlay c.frags[i].group.data f.off f.data)) hok hu hi ?_ rfl rfl rfl
      rw [hg, Group.receive, if_neg hexp, if_pos heop, if_pos hbig]
    · rw [if_neg hbig]
      refine received_freed none hok hu hi ?_ rfl rfl rfl
      rw [hg, Group.receive, if_neg hexp, if_pos heop, if_neg hbig]
  | false =>
    have hne : ¬ f.eop = true := by simp [heop]
    obtain ⟨slot, hsu, hsid, hsg, heq⟩ := fragExtend_middle hl now ⟨f.id, false, f.off, f.data.length⟩
      rfl hd
    rw [heq]
    refine ⟨_, rfl, ?_⟩
    by_cases hfit : c.frags[i].group.data.length + f.data.length ≤ 2048
    · obtain ⟨hgrp, hlen⟩ := hsg hfit
      have hgl := length_group hl
      have hts : slot.timestamp = now := congrArg Group.timestamp hgrp
      rw [if_pos hfit]
      have hstep : TableStep c.frags (c.frags.set i slot) now f :=
        tableStep_set hok hu hid (fun _ => .inl hidi)
          (fun _ => .inr ⟨hsid.trans hidi, hts, .inr ⟨huse, hidi, hlen⟩⟩)
          (fun _ => ⟨hsid.trans hidi, by omega, by omega⟩)
      have hgroup := groups_set hid hstep.unique fun _ => hsid.trans hidi
      rw [hsu, huse, if_pos rfl, hgrp] at hgroup
      refine ⟨hstep, rfl, .inr ⟨?_, ?_, fun hno => ?_⟩⟩
      · rw [hg, Group.receive, if_neg hexp, if_neg hne, if_pos hfit]
        exact hgroup
      · rw [hg, Group.receive, if_neg hexp, if_neg hne, if_pos hfit]
        rfl
      · rw [hgroup] at hno
        cases hno
    · rw [if_neg hfit]
      refine received_freed none hok hu hi ?_ rfl rfl rfl
      rw [hg, Group.receive, if_neg hexp, if_neg hne, if_neg hfit]

/-- A fragment without a group. -/
theorem fragAllocate_received (now : UInt32) (hok : SlotsOk c.frags) (hu : UniqueIds c.frags)
    (hid : ∀ j : Fin 10, c.frags[j].key ≠ some f.id) (hd : f.data.length ≤ 2048)
    (hd1 : 1 ≤ f.data.length) (hoff : f.off < 65536) :
    ∃ r, fragAllocate c now ⟨f.id, f.eop, f.off, f.data.length⟩ f.data = some r ∧
      Received c now f r := by
  have hg : groups c.frags f.id = none := groups_eq_none.mpr hid
  rcases fragAllocate_cases c now f hd hoff with ⟨hfull, heq⟩ |
    ⟨i, slot, hexp, hsu, hsid, hsg, hlen, hsoff, heq⟩
  · refine ⟨_, heq, ⟨hok, hu, fun i _ => .inl rfl, fun i _ _ _ => rfl⟩, rfl, .inl ⟨hg, hfull, rfl, rfl⟩⟩
  · have hts : slot.timestamp = now := congrArg Group.timestamp hsg
    have hstep : TableStep c.frags (c.frags.set i slot) now f :=
      tableStep_set hok hu (fun j _ => hid j) (fun h => .inr (hexp h))
        (fun _ => .inr ⟨hsid, hts, .inl ⟨hlen, hsoff⟩⟩) (fun _ => ⟨hsid, by omega, by omega⟩)
    have hgroup := groups_set (fun j _ => hid j) hstep.unique fun _ => hsid
    rw [hsu, if_pos rfl, hsg] at hgroup
    refine ⟨_, heq, hstep, rfl, .inr ⟨?_, ?_, fun hno => ?_⟩⟩
    · rw [hg]
      exact hgroup
    · rw [hg]
      rfl
    · rw [hgroup] at hno
      cases hno

/-- An expired group is dropped, and the fragment opens a new one. -/
theorem received_of_expired {r : Res} (hok : SlotsOk c.frags) (hu : UniqueIds c.frags)
    (hi : c.frags[i].key = some f.id) (hexp : c.frags[i].group.Expired now)
    (hr : Received (freeSlot c i) now f r) : Received c now f r := by
  obtain ⟨hfree, hgone, hunused⟩ := freeSlot_table now hok hu hi
  have hg := groups_of_key hu hi
  -- freeing a slot leaves those in use as they were
  have hold : ∀ j : Fin 10, (freeSlot c i).frags[j].inUse = true →
      (freeSlot c i).frags[j] = c.frags[j] := by
    intro j huse
    have hij : i ≠ j := by
      rintro rfl
      rw [hunused] at huse
      cases huse
    rw [freeSlot, Slots.getElem_set_ne _ _ hij]
  refine ⟨⟨hr.table.slots, hr.table.unique, fun j huse => ?_, fun j huse hne hfresh => ?_⟩, ?_, ?_⟩
  · rcases hr.table.stored j huse with heq | ⟨h1, h2, h3⟩
    · rw [heq] at huse
      exact .inl (heq.trans (hold j huse))
    · refine .inr ⟨h1, h2, h3.imp_right fun ⟨h4, h5, h6⟩ => ?_⟩
      have heq := hold j h4
      rw [heq] at h4 h5 h6
      exact ⟨h4, h5, h6⟩
  · have hkeep := hfree.kept j huse hne hfresh
    rw [hr.table.kept j (hkeep ▸ huse) (hkeep ▸ hne) (hkeep ▸ hfresh), hkeep]
  · rw [hr.frame]
    rfl
  · rcases hr.result with ⟨-, hfull, -⟩ | ⟨h1, h2, h3⟩
    · rw [hfull i] at hunused
      cases hunused
    · refine .inr ⟨?_, ?_, h3⟩
      · rw [h1, hgone, hg, Group.receive, Group.receive, if_pos hexp]
      · rw [h2, hgone, hg, Group.receive, Group.receive, if_pos hexp]
        rfl

end

/-! ## `handle_ipfrag` -/

theorem parseEthPkt_total {pkt : Bytes} (h : 24 ≤ pkt.length) : ∃ eth, parseEthPkt pkt = some eth := by
  simp only [parseEthPkt, hdrSize]
  rw [rdN_eq (by omega), rd_eq (by omega), rd_eq (by omega), rd_eq (by omega), rd_eq (by omega)]
  exact ⟨_, rfl⟩

/-- The bounds of the fields. -/
theorem fragOf_bounds {pkt : Bytes} {f : Frag} (h : fragOf pkt = some f) :
    1 ≤ f.data.length ∧ f.data.length + 24 = pkt.length ∧ f.off < 65536 := by
  unfold fragOf at h
  split_ifs at h with h24
  obtain ⟨eth, heth, h⟩ := Option.bind_eq_some_iff.mp h
  split_ifs at h with hok
  cases h
  have hoff : eth.fragoff < 65536 := by
    simp only [parseEthPkt, Option.bind_eq_bind, Option.bind_eq_some_iff, Option.pure_def,
      Option.some.injEq] at heth
    obtain ⟨id, -, b0, -, b1, -, b2, -, b3, -, rfl⟩ := heth
    simp only [UInt32.toNat_and]
    exact lt_of_le_of_lt Nat.and_le_right (by decide)
  simp only [List.length_drop]
  omega

/-- The header of a fragment, and its data behind it. -/
theorem parse_fragOf {pkt : Bytes} {f : Frag} (h : fragOf pkt = some f) :
    parseEthPkt pkt = some ⟨f.id, f.eop, f.off, f.data.length⟩ ∧ pkt.drop 24 = f.data := by
  unfold fragOf at h
  split_ifs at h with h24
  obtain ⟨eth, heth, h⟩ := Option.bind_eq_some_iff.mp h
  split_ifs at h with hok
  obtain ⟨hlen, -⟩ := hok
  cases h
  have hfl : eth.fraglen = (pkt.drop 24).length := by
    rw [List.length_drop]
    omega
  exact ⟨by rw [heth, ← hfl], rfl⟩

section

variable {env : Env} {c : IwanClient} {pkt : Bytes}

/-- `handle_ipfrag` on anything else. -/
theorem handleIpfrag_ignored (hf : fragOf pkt = none) :
    handleIpfrag env c pkt = some ⟨c, [], false⟩ := by
  by_cases hs : c.state = .established
  swap
  · exact if_pos hs
  rw [handleIpfrag, if_neg (by simp [hs])]
  by_cases h24 : pkt.length < 24
  · exact if_pos h24
  rw [if_neg (show ¬ pkt.length < hdrSize + ethpktSize from h24)]
  rw [fragOf, if_neg h24] at hf
  obtain ⟨eth, heth⟩ : ∃ eth, parseEthPkt pkt = some eth := parseEthPkt_total (by omega)
  rw [heth] at hf ⊢
  simp only [Option.bind_some, ite_eq_right_iff, reduceCtorEq, imp_false, not_and_or, not_not] at hf
  simp only [Option.bind_eq_bind, Option.bind_some, hdrSize, ethpktSize]
  by_cases hlen : pkt.length ≠ eth.fraglen + 8 + 16
  · rw [if_pos hlen]
    rfl
  · rw [if_neg hlen, if_pos (hf.resolve_left (by omega))]
    rfl

/-- **`handle_ipfrag` on a fragment**, in ESTABLISHED. -/
theorem handleIpfrag_received (env : Env) (hs : c.state = .established) (hok : SlotsOk c.frags)
    (hu : UniqueIds c.frags) (hlen : pkt.length ≤ 2048) {f : Frag} (hf : fragOf pkt = some f) :
    ∃ r, handleIpfrag env c pkt = some r ∧ Received c env.secs f r := by
  obtain ⟨hd1, hd, hoff⟩ := fragOf_bounds hf
  obtain ⟨heth, hfd⟩ := parse_fragOf hf
  have hdata : (pkt.drop (8 + 16)).take f.data.length = f.data := by
    rw [hfd, List.take_length]
  rw [handleIpfrag, if_neg (by simp [hs]),
    if_neg (show ¬ pkt.length < hdrSize + ethpktSize by simp only [hdrSize, ethpktSize]; omega), heth]
  simp only [Option.bind_eq_bind, Option.bind_some, hdrSize, ethpktSize]
  rw [if_neg (by omega), if_neg (by omega), rdN_eq (by omega), hdata]
  simp only [Option.bind_some]
  -- the search of the code is the search for the key
  have hfind : ((List.finRange 10).find? fun i => c.frags[i].inUse && c.frags[i].id == f.id) =
      Slots.find FragSlot.key c.frags f.id := by
    congr 1
    funext i
    unfold FragSlot.key
    cases c.frags[i].inUse <;> simp
  rw [hfind]
  cases hsearch : Slots.find FragSlot.key c.frags f.id with
  | none =>
    exact fragAllocate_received env.secs hok hu (Slots.find_eq_none.mp hsearch) (by omega) hd1 hoff
  | some i =>
    have hi := (Slots.find_eq_some hu).mp hsearch
    simp only
    by_cases hexp : c.frags[i].group.Expired env.secs
    · rw [if_pos (show env.secs - c.frags[i].timestamp ≥ fragTimeout from hexp)]
      obtain ⟨hfree, hgone, -⟩ := freeSlot_table env.secs hok hu hi
      obtain ⟨r, hr, hrec⟩ := fragAllocate_received env.secs hfree.slots hfree.unique
        (groups_eq_none.mp hgone) (show f.data.length ≤ 2048 by omega) hd1 hoff
      exact ⟨r, hr, received_of_expired hok hu hi hexp hrec⟩
    · rw [if_neg (show ¬ env.secs - c.frags[i].timestamp ≥ fragTimeout from hexp)]
      exact fragExtend_received hok hu hi hexp (by omega) hd1

/-- The datagrams that reach `handle_ipfrag`; no other handler touches the
    slots. -/
theorem dispatch_frags (cfg : Config) (env : Env) (c : IwanClient) (hlen : pkt.length ≤ 2048) :
    (∀ r, dispatch cfg env c pkt (Wire.typ pkt) = some r → r.client.frags = c.frags) ∨
      ∃ q, q.length ≤ 2048 ∧ dispatch cfg env c pkt (Wire.typ pkt) = handleIpfrag env c q := by
  have hkeep : ∀ {h : Option Res}, (∃ r, h = some r ∧ r.client.frags = c.frags ∧
      Outcome cfg env pkt c r) → ∀ r, h = some r → r.client.frags = c.frags := by
    rintro h ⟨r', hr', hfr, -⟩ r hr
    rw [hr'] at hr
    rwa [← Option.some.inj hr]
  unfold dispatch
  split_ifs with hdata hack hrej hecho hclose hfrag hseg
  · exact .inl (hkeep (handleData_outcome hlen))
  · exact .inl (hkeep (handleOpenack_outcome hack))
  · exact .inl (hkeep ⟨_, rfl, handleOpenrej_outcome hrej⟩)
  · exact .inl (hkeep (handleEchoResp_outcome hecho))
  · exact .inl (hkeep (handleClose_outcome hclose))
  · exact .inr ⟨pkt, hlen, rfl⟩
  · obtain hdrop | ⟨-, buf, hb1, hb, heq⟩ := handleSegrt_cases cfg env c hlen
    · rw [hdrop]
      exact .inl fun r hr => by rw [← Option.some.inj hr]
    · rw [heq, segrtDispatch, rd_eq (by omega)]
      simp only [Option.bind_eq_bind, Option.bind_some, hdrSize]
      -- the inner packet is a fragment, or data, or dropped
      by_cases hsr : buf[0] = pktIpfragSr
      · rw [if_pos hsr]
        exact .inr ⟨buf, hb, rfl⟩
      rw [if_neg hsr]
      left
      by_cases htyp : buf[0] ≠ pktData ∧ buf[0] ≠ pktDataEnc
      · rw [if_pos htyp]
        exact fun r hr => by rw [← Option.some.inj hr]
      rw [if_neg htyp]
      by_cases h8 : buf.length ≤ 8
      · rw [if_pos h8]
        exact fun r hr => by rw [← Option.some.inj hr]
      · rw [if_neg h8, rdN_eq (by omega)]
        exact fun r hr => by rw [← Option.some.inj hr]
  · exact .inl fun r hr => by rw [← Option.some.inj hr]

/-- A fragment that reaches `handle_ipfrag` through a datagram. -/
def Carried (cfg : Config) (env : Env) (c : IwanClient) (pkt : Bytes) (f : Frag) : Prop :=
  ∃ q, q.length ≤ 2048 ∧ fragOf q = some f ∧
    dispatch cfg env c pkt (Wire.typ pkt) = handleIpfrag env c q

/-- What a datagram does to the slots. -/
theorem dispatch_table (cfg : Config) (env : Env) (hok : SlotsOk c.frags)
    (hu : UniqueIds c.frags) (hlen : pkt.length ≤ 2048) :
    ∃ r, dispatch cfg env c pkt (Wire.typ pkt) = some r ∧
      (r.client.frags = c.frags ∨ c.state = .established ∧
        ∃ f, Carried cfg env c pkt f ∧ TableStep c.frags r.client.frags env.secs f) := by
  obtain ⟨r, hr, -⟩ := dispatch_outcome cfg env hok hlen
  refine ⟨r, hr, ?_⟩
  obtain hsame | ⟨q, hq, heq⟩ := dispatch_frags cfg env c hlen
  · exact .inl (hsame r hr)
  have hr' : handleIpfrag env c q = some r := heq ▸ hr
  by_cases hs : c.state = .established
  swap
  · have hdrop : handleIpfrag env c q = some ⟨c, [], false⟩ := if_pos hs
    rw [hdrop] at hr'
    exact .inl (by rw [← Option.some.inj hr'])
  cases hf : fragOf q with
  | none =>
    rw [handleIpfrag_ignored hf] at hr'
    exact .inl (by rw [← Option.some.inj hr'])
  | some f =>
    obtain ⟨r', hr'', hrec⟩ := handleIpfrag_received env hs hok hu hq hf
    rw [hr''] at hr'
    rw [← Option.some.inj hr']
    exact .inr ⟨hs, f, ⟨q, hq, hf, heq⟩, hrec.table⟩

end

/-! ## Runs -/

section

variable {cfg : Config} {c c' : IwanClient} {e : Event} {fx : List Effect}

theorem TickMove.frags {env : Env} (hm : TickMove cfg env c fx c') :
    c'.frags = c.frags ∨ ∀ i : Fin 10, c'.frags[i].inUse = false := by
  cases hm with
  | idle => exact .inl rfl
  | resolved c₁ ok hs hr =>
    have hfr : c₁.frags = c.frags := by rw [resolveServer_frame hr]
    cases ok <;> exact .inl hfr
  | started => exact .inl rfl
  | openSent c₁ pkt hs => rcases hs with ⟨-, rfl⟩ | ⟨-, rfl⟩ <;> exact .inl rfl
  | reset => exact .inr fun i => by simp [resetClient]
  | counted => exact .inl rfl
  | echoSent => exact .inl rfl

/-- One event keeps the slots, clears them, or passes a fragment to them. -/
theorem step_frags (h : cfg.Admitted) (hok : SlotsOk c.frags) (hu : UniqueIds c.frags)
    (hstep : Step cfg c e fx c') :
    c'.frags = c.frags ∨ (∀ i : Fin 10, c'.frags[i].inUse = false) ∨
      c.state = .established ∧ ∃ now f, TableStep c.frags c'.frags now f := by
  obtain ⟨-, hm⟩ := hstep.move h hok
  cases hm with
  | ignored => exact .inl rfl
  | tick env c₁ c' fxs fx hsock hm =>
    obtain ⟨fd, rfl, -⟩ := tickSocket_frame hsock
    exact hm.frags.imp_right .inl
  | datagram env data r hfd hlen ho =>
    obtain hdrop | ⟨-, -, -, -, hdisp⟩ := step_datagram_cases cfg c env c.serverAddr c.serverPort data
    · rw [Step, hdrop] at hstep
      exact .inl (by rw [← (Prod.mk.inj (Option.some.inj hstep)).1])
    obtain ⟨r', hr', htable⟩ := dispatch_table cfg env
      (c := { c with rxPkts := c.rxPkts + 1 }) hok hu (List.length_take_le 2048 data)
    rw [Step, hdisp r' hr'] at hstep
    rw [← (Prod.mk.inj (Option.some.inj hstep)).1]
    obtain ⟨t, ht⟩ := touch_eq env r'
    rw [ht]
    rcases htable with hsame | ⟨hs, f, -, htab⟩
    · exact .inl hsame
    · exact .inr (.inr ⟨hs, env.secs, f, htab⟩)
  | tunSent => exact .inl rfl
  | reconnect => exact .inr (.inl fun i => by simp [resetClient])

theorem uniqueIds_of_free {frags : Vector FragSlot 10} (h : ∀ i : Fin 10, frags[i].inUse = false) :
    UniqueIds frags := by
  intro i j k hi
  rw [key_eq_none.mpr (h i)] at hi
  cases hi

end

/-- In every reachable state no two slots in use carry the same id. -/
theorem reachable_uniqueIds {cfg₀ cfg : Config} (hcfg : cfg₀.Admitted) {ienv : InitEnv}
    {c₀ : IwanClient} {fx₀ : List Effect}
    (hinit : mainInit cfg₀ ienv = some (some (cfg, c₀, fx₀)))
    {tr : List StepRecord} {c : IwanClient} (hrun : Trace (Step cfg) c₀ tr c) :
    Inv cfg fx₀ tr c ∧ UniqueIds c.frags := by
  obtain ⟨hadm, hinv₀⟩ := inv_init hcfg hinit
  have hbefore : Before c₀ := (mainInit_state hcfg hinit).imp_right .inl
  refine hrun.invariant (P := fun tr c => Inv cfg fx₀ tr c ∧ UniqueIds c.frags)
    ⟨hinv₀, uniqueIds_of_free (hinv₀.idle hbefore).2.2.2⟩ ?_
  rintro tr s e os s' - ⟨hinv, hu⟩ hs
  refine ⟨(inv_step hadm hinv hs).1, ?_⟩
  rcases step_frags hadm hinv.slots hu hs with hsame | hfree | ⟨-, now, f, htab⟩
  · rwa [hsame]
  · exact uniqueIds_of_free hfree
  · exact htab.unique

end Iwand.Client
