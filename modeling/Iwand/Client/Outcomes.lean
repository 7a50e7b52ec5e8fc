import Iwand.Client.Openack

/-!
# What a datagram can do to the client

`Outcome cfg env pkt c r` lists everything the packet handlers can do: for each
way out of a handler, the resulting client as an update of `c`, the effects and
the conditions under which it is taken. `dispatch_outcome` shows that the list
is complete and that no handler leaves the bounds of an array, given the slot
invariant `SlotsOk`, which every handler preserves. The state-machine proofs
read off this list and never unfold a handler.
-/

namespace Iwand.Client

/-! ## The slot invariant -/

/-- A slot in use holds between 1 and 2048 bytes. -/
def SlotsOk (frags : Vector FragSlot 10) : Prop :=
  ∀ i : Fin 10, frags[i].inUse = true → 1 ≤ frags[i].len.toNat ∧ frags[i].len.toNat ≤ 2048

theorem SlotsOk.set {frags : Vector FragSlot 10} (h : SlotsOk frags) (i : Fin 10) {slot : FragSlot}
    (hslot : slot.inUse = true → 1 ≤ slot.len.toNat ∧ slot.len.toNat ≤ 2048) :
    SlotsOk (frags.set i slot i.isLt) := by
  intro j hj
  by_cases hij : i = j
  · subst hij
    simpa using hslot (by simpa using hj)
  · have hne : (i : ℕ) ≠ j := fun he => hij (Fin.ext he)
    simp only [getElem_fin, Vector.getElem_set_ne _ _ hne] at hj ⊢
    exact h j hj

theorem slotsOk_freeSlot {c : IwanClient} (h : SlotsOk c.frags) (i : Fin 10) :
    SlotsOk (freeSlot c i).frags :=
  h.set i (by simp)

/-! ## Fragments -/

theorem slotData_eq {slot : FragSlot} (h : slot.len.toNat ≤ 2048) :
    slotData slot = some (slot.buf.toList.take slot.len.toNat) := by
  rw [slotData, rdN_eq (by simp; omega), List.drop_zero]

/-- New data in front of the accumulated bytes; slot and fragment are small
    enough for `g_frag_content`. -/
theorem fragPrepend_eq {slot : FragSlot} {data : Bytes} (hs : slot.len.toNat ≤ 2048)
    (hd : data.length ≤ 2048) :
    fragPrepend slot data = some (some (slot.len.toNat + data.length,
      data ++ slot.buf.toList.take slot.len.toNat ++
        List.replicate (4096 - (slot.len.toNat + data.length)) 0)) := by
  have hlen : (slot.buf.toList.take slot.len.toNat).length = slot.len.toNat := by simp; omega
  rw [fragPrepend, if_neg (show ¬ slot.len.toNat + data.length > 4096 by omega), slotData_eq hs]
  generalize slot.buf.toList.take slot.len.toNat = acc at *
  simp only [Option.bind_eq_bind, Option.bind_some, fragContentSize]
  rw [wrN_eq (by rw [List.length_replicate]; omega)]
  simp only [Option.bind_some, List.take_zero, List.nil_append, Nat.zero_add, List.drop_replicate]
  rw [wrN_eq (by simp only [List.length_append, List.length_replicate]; omega), List.take_left' rfl, List.drop_append,
    List.drop_of_length_le (by omega), List.drop_replicate, List.nil_append]
  simp only [Option.bind_some, Option.pure_def]
  rw [show 4096 - data.length - (data.length + acc.length - data.length) =
    4096 - (slot.len.toNat + data.length) by omega]

/-- The last fragment over the accumulated bytes: dropped if it ends behind
    `g_frag_content`, else placed there. -/
theorem fragPlace_spec {slot : FragSlot} (off : ℕ) (data : Bytes) (hs : slot.len.toNat ≤ 2048) :
    fragPlace slot off data = some none ∨
    ∃ content, content.length = 4096 ∧ max (off + data.length) slot.len.toNat ≤ 4096 ∧
      fragPlace slot off data = some (some (max (off + data.length) slot.len.toNat, content)) := by
  have hlen : (slot.buf.toList.take slot.len.toNat).length = slot.len.toNat := by simp; omega
  rw [fragPlace, slotData_eq hs]
  generalize slot.buf.toList.take slot.len.toNat = acc at *
  split_ifs with hbig
  · exact .inl rfl
  · have hle : max (off + data.length) slot.len.toNat ≤ 4096 := Nat.le_of_not_lt hbig
    right
    simp only [Option.bind_eq_bind, Option.bind_some, fragContentSize]
    rw [wrN_eq (by rw [List.length_replicate]; omega)]
    simp only [Option.bind_some]
    rw [wrN_eq (by simp only [List.length_append, List.length_take, List.length_drop,
      List.length_replicate]; omega)]
    refine ⟨_, ?_, hle, rfl⟩
    simp only [List.length_append, List.length_take, List.length_drop, List.length_replicate]
    omega

/-- Extending a slot changes only the slots and the counter, and writes at most
    one packet to the TUN. -/
theorem fragExtend_spec {c : IwanClient} (hs : SlotsOk c.frags) {i : Fin 10}
    (hi : c.frags[i].inUse = true) (now : UInt32) (eth : EthPkt) {data : Bytes}
    (hd1 : 1 ≤ data.length) (hd : data.length ≤ 2048) :
    ∃ frags, SlotsOk frags ∧
      ((∃ acc, fragExtend c i now eth data = some ⟨{ c with frags := frags }, [], acc⟩) ∨
        ∃ out, fragExtend c i now eth data =
          some ⟨{ c with frags := frags, tunTx := c.tunTx + 1 }, [.tunWrite out], true⟩) := by
  have hlen := (hs i hi).2
  unfold fragExtend
  generalize c.frags[i] = slot at *
  by_cases heop : eth.eop = true
  · simp only [heop, if_true]
    refine ⟨(freeSlot c i).frags, slotsOk_freeSlot hs i, ?_⟩
    obtain hnone | ⟨content, hc, hle, hsome⟩ := fragPlace_spec eth.fragoff data hlen
    · rw [hnone]
      exact .inl ⟨false, rfl⟩
    · rw [hsome]
      simp only [Option.bind_eq_bind, Option.bind_some]
      rw [rdN_eq (by omega)]
      exact .inr ⟨_, rfl⟩
  · simp only [heop, Bool.false_eq_true, if_false]
    rw [fragPrepend_eq hlen hd]
    simp only [Option.bind_eq_bind, Option.bind_some, fragBufSize]
    split_ifs with hfit
    · rw [rdN_eq (by simp; omega)]
      simp only [Option.bind_some]
      rw [wrN_eq (by simp; omega)]
      refine ⟨_, hs.set i ?_, .inl ⟨true, rfl⟩⟩
      intro _
      simp only [UInt16.toNat_ofNat']
      omega
    · exact ⟨_, slotsOk_freeSlot hs i, .inl ⟨false, rfl⟩⟩

/-- Allocating a slot changes only the slots. -/
theorem fragAllocate_spec {c : IwanClient} (hs : SlotsOk c.frags) (now : UInt32) {eth : EthPkt}
    {data : Bytes} (hlen : data.length = eth.fraglen) (hd1 : 1 ≤ data.length)
    (hd : data.length ≤ 2048) :
    ∃ frags acc, SlotsOk frags ∧
      fragAllocate c now eth data = some ⟨{ c with frags := frags }, [], acc⟩ := by
  unfold fragAllocate
  split
  · exact ⟨c.frags, false, hs, rfl⟩
  · rename_i i _
    rw [if_pos (show data.length ≤ fragBufSize from hd), wrN_eq (by simp; omega)]
    simp only [Option.bind_eq_bind, Option.bind_some]
    refine ⟨_, true, hs.set i ?_, rfl⟩
    intro _
    simp only [UInt16.toNat_ofNat']
    omega

/-- `handle_ipfrag` in ESTABLISHED: the slots change, and at most one packet is
    written to the TUN. -/
theorem handleIpfrag_spec (env : Env) {c : IwanClient} (hs : SlotsOk c.frags) {pkt : Bytes}
    (hlen : pkt.length ≤ 2048) (hst : c.state = .established) :
    ∃ frags, SlotsOk frags ∧
      ((∃ acc, handleIpfrag env c pkt = some ⟨{ c with frags := frags }, [], acc⟩) ∨
        ∃ out, handleIpfrag env c pkt =
          some ⟨{ c with frags := frags, tunTx := c.tunTx + 1 }, [.tunWrite out], true⟩) := by
  rw [handleIpfrag, if_neg (by simp [hst])]
  split_ifs with hshort
  · exact ⟨c.frags, hs, .inl ⟨false, rfl⟩⟩
  have h24 : 24 ≤ pkt.length := Nat.le_of_not_lt hshort
  obtain ⟨eth, heth⟩ : ∃ eth, parseEthPkt pkt = some eth := by
    simp only [parseEthPkt, hdrSize]
    rw [rdN_eq (by omega), rd_eq (by omega), rd_eq (by omega), rd_eq (by omega), rd_eq (by omega)]
    exact ⟨_, rfl⟩
  rw [heth]
  simp only [Option.bind_eq_bind, Option.bind_some, hdrSize, ethpktSize]
  split_ifs with hbad hzero
  · exact ⟨c.frags, hs, .inl ⟨false, rfl⟩⟩
  · exact ⟨c.frags, hs, .inl ⟨false, rfl⟩⟩
  rw [rdN_eq (by omega)]
  simp only [Option.bind_some]
  have hdata : ((pkt.drop (8 + 16)).take eth.fraglen).length = eth.fraglen := by simp; omega
  generalize (pkt.drop (8 + 16)).take eth.fraglen = data at *
  split
  · -- no slot carries the id
    obtain ⟨frags, acc, hok, heq⟩ :=
      fragAllocate_spec hs env.secs hdata (by omega) (by omega)
    exact ⟨frags, hok, .inl ⟨acc, heq⟩⟩
  · rename_i i hfind
    have huse : c.frags[i].inUse = true := by
      have := List.find?_some hfind
      simp only [Bool.and_eq_true] at this
      exact this.1
    split_ifs with hexp
    · obtain ⟨frags, acc, hok, heq⟩ :=
        fragAllocate_spec (slotsOk_freeSlot hs i) env.secs hdata (by omega) (by omega)
      exact ⟨frags, hok, .inl ⟨acc, heq⟩⟩
    · exact fragExtend_spec hs huse env.secs eth (by omega) (by omega)

/-! ## OPENACK parameters -/

/-- `c` with the fields that the TLV loop may write taken from `p`. -/
def withParams (c p : IwanClient) : IwanClient :=
  { c with serverMtu := p.serverMtu
           peerIp := p.peerIp
           dns0 := p.dns0
           dns1 := p.dns1
           peerDupPkt := p.peerDupPkt
           encrypt := p.encrypt }

/-- The peer IP after one item. -/
def tlvPeerIp (ip : UInt32) (t : Wire.Tlv) : UInt32 :=
  if t.typ = 4 ∧ 4 ≤ t.value.length then
    be32 (t.value.getD 0 0) (t.value.getD 1 0) (t.value.getD 2 0) (t.value.getD 3 0)
  else ip

/-- The peer IP that an OPENACK carries: its last item of type 4 with at least
    four bytes, or 0. -/
def peerIp (pkt : Bytes) : UInt32 := (Wire.items (pkt.drop 24)).foldl tlvPeerIp 0

theorem foldl_tlvPeerIp (ts : List Wire.Tlv) : ∀ ip,
    ts.foldl tlvPeerIp ip = (written tlvIp ts).getD ip := by
  induction ts with
  | nil => exact fun ip => rfl
  | cons t ts ih =>
    intro ip
    rw [List.foldl_cons, ih, written_cons]
    have hone : tlvPeerIp ip t = (tlvIp t).getD ip := by
      simp only [tlvPeerIp, tlvIp, wordAt]
      split_ifs <;> rfl
    rw [hone]
    cases written tlvIp ts <;> simp

/-- The TLV loop writes only OPENACK parameters. -/
theorem applyTlvs_frame {ts : List Wire.Tlv} {c p : IwanClient} (hp : applyTlvs c ts = some p) :
    p = withParams c p ∧ p.peerIp = ts.foldl tlvPeerIp c.peerIp := by
  rw [applyTlvs_eq] at hp
  cases hp
  exact ⟨rfl, (foldl_tlvPeerIp ts c.peerIp).symm⟩

/-! ## Outcomes -/

/-- The client at the start of an ESTABLISHED period. -/
def beginSession (env : Env) (pkt : Bytes) (p : IwanClient) : IwanClient :=
  { p with state := .established
           sessionToken := Wire.token pkt
           sessionId := Wire.sessionId pkt
           lastRecvTime := env.secs
           echoCounter := 0 }

/-- Everything a packet handler can do with `pkt` in state `c`. -/
inductive Outcome (cfg : Config) (env : Env) (pkt : Bytes) (c : IwanClient) : Res → Prop
  /-- Nothing happens. -/
  | ignored : Outcome cfg env pkt c ⟨c, [], false⟩
  /-- A fragment is stored or dropped. -/
  | stored (frags : Vector FragSlot 10) (acc : Bool) (hs : c.state = .established) :
      Outcome cfg env pkt c ⟨{ c with frags := frags }, [], acc⟩
  /-- A packet is written to the TUN. -/
  | delivered (frags : Vector FragSlot 10) (tunTx : UInt32) (data : Bytes)
      (hs : c.state = .established) :
      Outcome cfg env pkt c ⟨{ c with frags := frags, tunTx := tunTx }, [.tunWrite data], true⟩
  /-- An ECHORESP updates the delay statistics. -/
  | echoed (cur max min : UInt32) (hs : c.state = .established)
      (htyp : Wire.typ pkt = pktEchoresp) (hsig : Wire.Signed pkt) :
      Outcome cfg env pkt c
        ⟨{ c with curDelay := cur, maxDelay := max, minDelay := min }, [], true⟩
  /-- A signed CLOSE ends the session. -/
  | peerClosed (hs : c.state = .established) (htyp : Wire.typ pkt = pktClose)
      (hsig : Wire.Signed pkt) :
      Outcome cfg env pkt c ⟨{ c with state := .closed }, [], true⟩
  /-- An OPENREJ, signed or not, ends the connection attempt. -/
  | rejected (hs : c.state = .authSent) (htyp : Wire.typ pkt = pktOpenrej) :
      Outcome cfg env pkt c ⟨{ c with state := .closed }, [], false⟩
  /-- A signed OPENACK without a peer IP leaves its other parameters behind. -/
  | refused (p : IwanClient) (hs : c.state = .authSent) (htyp : Wire.typ pkt = pktOpenack)
      (hsig : Wire.Signed pkt) (hp : applyTlvs c (Wire.items (pkt.drop 24)) = some p)
      (hip : p.peerIp = 0) :
      Outcome cfg env pkt c ⟨p, [], false⟩
  /-- A signed OPENACK with a peer IP begins a session. -/
  | opened (p : IwanClient) (hs : c.state = .authSent) (htyp : Wire.typ pkt = pktOpenack)
      (hsig : Wire.Signed pkt) (hp : applyTlvs c (Wire.items (pkt.drop 24)) = some p)
      (hip : p.peerIp ≠ 0) (hset : 0 ≤ env.tunSetIp ∧ 0 ≤ env.tunSetMtu) :
      Outcome cfg env pkt c ⟨beginSession env pkt p,
        [.tunSetIp p.peerIp 0xffffff00, .tunSetMtu (effMtu cfg p)] ++
          runScript cfg env cfg.upScript .up (beginSession env pkt p), true⟩
  /-- The TUN could not be set up for it. -/
  | openFailed (p : IwanClient) (fx : List Effect) (hs : c.state = .authSent)
      (htyp : Wire.typ pkt = pktOpenack) (hsig : Wire.Signed pkt)
      (hp : applyTlvs c (Wire.items (pkt.drop 24)) = some p) (hip : p.peerIp ≠ 0)
      (hset : env.tunSetIp < 0 ∨ env.tunSetMtu < 0)
      (hfx : fx <+: [.tunSetIp p.peerIp 0xffffff00, .tunSetMtu (effMtu cfg p)]) :
      Outcome cfg env pkt c ⟨{ beginSession env pkt p with state := .closed }, fx, false⟩

section

variable {cfg : Config} {env : Env} {c : IwanClient} {pkt : Bytes}

theorem handleOpenack_outcome (htyp : Wire.typ pkt = pktOpenack) :
    ∃ r, handleOpenack cfg env c pkt = some r ∧ r.client.frags = c.frags ∧
      Outcome cfg env pkt c r := by
  by_cases hs : c.state = .authSent
  swap
  · exact ⟨_, if_pos hs, rfl, .ignored⟩
  by_cases hsig : Wire.Signed pkt
  swap
  · exact ⟨_, handleOpenack_unsigned hs hsig, rfl, .ignored⟩
  have hp := applyTlvs_eq (Wire.items (pkt.drop 24)) c
  generalize params c (Wire.items (pkt.drop 24)) = p at hp
  have hfrags : p.frags = c.frags := by rw [(applyTlvs_frame hp).1]; rfl
  rw [handleOpenack_eq hs hsig hp]
  split_ifs with hip
  · exact ⟨_, rfl, hfrags, .refused p hs htyp hsig hp hip⟩
  · unfold establish
    split_ifs with h1 h2
    · exact ⟨_, rfl, hfrags, .openFailed p _ hs htyp hsig hp hip (.inl h1) ⟨_, rfl⟩⟩
    · exact ⟨_, rfl, hfrags, .openFailed p _ hs htyp hsig hp hip (.inr h2) (List.prefix_refl _)⟩
    · exact ⟨_, rfl, hfrags, .opened p hs htyp hsig hp hip (by omega)⟩

theorem handleIpfrag_outcome (hok : SlotsOk c.frags) {q : Bytes} (hlen : q.length ≤ 2048) :
    ∃ r, handleIpfrag env c q = some r ∧ SlotsOk r.client.frags ∧ Outcome cfg env pkt c r := by
  by_cases hs : c.state = .established
  swap
  · exact ⟨_, if_pos hs, hok, .ignored⟩
  obtain ⟨frags, hfr, ⟨acc, heq⟩ | ⟨out, heq⟩⟩ := handleIpfrag_spec env hok hlen hs
  · exact ⟨_, heq, hfr, .stored frags acc hs⟩
  · exact ⟨_, heq, hfr, .delivered frags _ out hs⟩

theorem handleData_outcome (hlen : pkt.length ≤ 2048) :
    ∃ r, handleData env c pkt = some r ∧ r.client.frags = c.frags ∧ Outcome cfg env pkt c r := by
  by_cases hst : c.state = .established
  swap
  · exact ⟨_, if_pos hst, rfl, .ignored⟩
  by_cases h8 : pkt.length ≤ 8
  · exact ⟨_, by rw [handleData, if_neg (by simp [hst]), if_pos h8], rfl, .ignored⟩
  refine ⟨_, handleData_eq hst (by omega) hlen, by split_ifs <;> rfl, ?_⟩
  by_cases hn : env.tunWrite > 0
  · rw [if_pos hn]
    exact .delivered c.frags _ _ hst
  · rw [if_neg hn]
    exact .delivered c.frags c.tunTx _ hst

theorem handleEchoResp_outcome (htyp : Wire.typ pkt = pktEchoresp) :
    ∃ r, handleEchoResp env c pkt = some r ∧ r.client.frags = c.frags ∧
      Outcome cfg env pkt c r := by
  by_cases hst : c.state = .established
  swap
  · exact ⟨_, if_pos hst, rfl, .ignored⟩
  rw [handleEchoResp, if_neg (by simp [hst]), pktVerify_eq]
  simp only [Option.bind_eq_bind, Option.bind_some, hdrSize, signSize]
  split_ifs with hsig hshort
  · exact ⟨_, rfl, rfl, .ignored⟩
  · exact ⟨_, rfl, rfl, .echoed c.curDelay c.maxDelay c.minDelay hst htyp (by simpa using hsig)⟩
  · rw [rdN_eq (by omega)]
    exact ⟨_, rfl, rfl, .echoed _ _ _ hst htyp (by simpa using hsig)⟩

theorem handleClose_outcome (htyp : Wire.typ pkt = pktClose) :
    ∃ r, handleClose c pkt = some r ∧ r.client.frags = c.frags ∧ Outcome cfg env pkt c r := by
  unfold handleClose
  split_ifs with hs
  · exact ⟨_, rfl, rfl, .ignored⟩
  rw [pktVerify_eq]
  simp only [Option.bind_eq_bind, Option.bind_some]
  split_ifs with hsig
  · exact ⟨_, rfl, rfl, .ignored⟩
  · exact ⟨_, rfl, rfl, .peerClosed (not_not.mp hs) htyp (by simpa using hsig)⟩

theorem handleOpenrej_outcome (htyp : Wire.typ pkt = pktOpenrej) :
    (handleOpenrej c).client.frags = c.frags ∧ Outcome cfg env pkt c (handleOpenrej c) := by
  unfold handleOpenrej
  split_ifs with hs
  · exact ⟨rfl, .ignored⟩
  · exact ⟨rfl, .rejected (not_not.mp hs) htyp⟩

theorem srDecryptBlock_spec {bs : ℕ} {data : Bytes} {i : ℕ} (h : (i + 1) * bs ≤ data.length) :
    ∃ out, out.length = data.length ∧ srDecryptBlock c bs data i = some out := by
  unfold srDecryptBlock
  split_ifs with h16
  · have hend : i * bs + 16 ≤ data.length := by
      rw [← h16, ← Nat.succ_mul]
      exact h
    rw [rdN_eq hend]
    simp only [Option.bind_eq_bind, Option.bind_some]
    rw [wrN_eq (by simpa using hend)]
    exact ⟨_, by simp; omega, rfl⟩
  · exact ⟨data, rfl, rfl⟩

/-- `sr_decrypt` works in place. -/
theorem srDecrypt_spec (c : IwanClient) (data : Bytes) (srhdr2 : UInt8) :
    srDecrypt c data data.length srhdr2 = some none ∨
      ∃ out, out.length = data.length ∧ srDecrypt c data data.length srhdr2 = some (some out) := by
  unfold srDecrypt
  generalize (if srhdr2 &&& 0x7 = 1 then 16 else 32) = bs
  simp only
  split_ifs with hmod
  · exact .inl rfl
  -- the loop over the first `n` blocks keeps the length
  have hloop : ∀ n, n ≤ data.length / bs → ∃ out, out.length = data.length ∧
      (List.range n).foldlM (srDecryptBlock c bs) data = some out := by
    intro n
    induction n with
    | zero => exact fun _ => ⟨data, rfl, rfl⟩
    | succ n ih =>
      intro hn
      obtain ⟨mid, hmid, heq⟩ := ih (by omega)
      have hend : (n + 1) * bs ≤ mid.length := by
        rw [hmid]
        exact le_trans (Nat.mul_le_mul_right bs hn) (Nat.div_mul_le_self _ _)
      obtain ⟨out, hout, hstep⟩ := srDecryptBlock_spec (c := c) hend
      refine ⟨out, by omega, ?_⟩
      rw [List.range_succ, List.foldlM_append, heq]
      simpa using hstep
  obtain ⟨out, hlen, heq⟩ := hloop _ le_rfl
  rw [heq]
  exact .inr ⟨out, hlen, rfl⟩

theorem segrtInner_spec (cfg : Config) (c : IwanClient) {inner : Bytes} (h1 : 1 ≤ inner.length) (hlen : inner.length ≤ 2048)
    (srhdr2 : UInt8) :
    segrtInner cfg c inner srhdr2 = some none ∨
      ∃ buf, 1 ≤ buf.length ∧ buf.length ≤ 2048 ∧
        segrtInner cfg c inner srhdr2 = some (some buf) := by
  rw [segrtInner, emit_eq (by simpa using hlen)]
  simp only [Option.bind_eq_bind, Option.bind_some, List.nil_append]
  by_cases hsr : cfg.srCount > 0 ∧ cfg.srEncryptMode > 0
  swap
  · rw [if_neg hsr]
    exact .inr ⟨inner, h1, hlen, rfl⟩
  rw [if_pos hsr]
  by_cases halgo : srhdr2 &&& 0x7 = cfg.srEncryptMode
  · rw [if_pos halgo]
    obtain hnone | ⟨out, hout, hsome⟩ := srDecrypt_spec c inner srhdr2
    · rw [hnone]
      exact .inl rfl
    · rw [hsome]
      simp only [Option.bind_some]
      split_ifs with hpad
      · rw [rdN_eq (by omega)]
        exact .inr ⟨_, by rw [List.length_take]; simp only [List.drop_zero]; omega,
          by rw [List.length_take]; omega, rfl⟩
      · exact .inr ⟨out, by omega, by omega, rfl⟩
  · rw [if_neg halgo]
    split_ifs with hzero
    · exact .inl rfl
    · exact .inr ⟨inner, h1, hlen, rfl⟩

theorem segrtDispatch_outcome (hok : SlotsOk c.frags) (hst : c.state = .established) {buf : Bytes}
    (h1 : 1 ≤ buf.length) (hlen : buf.length ≤ 2048) :
    ∃ r, segrtDispatch env c buf = some r ∧ SlotsOk r.client.frags ∧ Outcome cfg env pkt c r := by
  rw [segrtDispatch, rd_eq (by omega)]
  simp only [Option.bind_eq_bind, Option.bind_some, hdrSize]
  generalize buf[0] = typ
  by_cases hfrag : typ = pktIpfragSr
  · rw [if_pos hfrag]
    exact handleIpfrag_outcome hok hlen
  rw [if_neg hfrag]
  by_cases htyp : typ ≠ pktData ∧ typ ≠ pktDataEnc
  · rw [if_pos htyp]
    exact ⟨_, rfl, hok, .ignored⟩
  rw [if_neg htyp]
  by_cases h8 : buf.length ≤ 8
  · rw [if_pos h8]
    exact ⟨_, rfl, hok, .ignored⟩
  · rw [if_neg h8, rdN_eq (by omega)]
    exact ⟨_, rfl, hok, .delivered c.frags _ _ hst⟩

/-- The payload of a SEGRT: what follows the segment-routing header and its
    links. -/
def segrtPayload (pkt : Bytes) : Bytes := pkt.drop (12 + 4 * (pkt.getD 9 0).toNat)

/-- `encrypt_algo` in the lower 3 bits, `encrypt_padlen` in the upper 5 bits. -/
def segrtAlgo (pkt : Bytes) : UInt8 := pkt.getD 10 0

/-- A SEGRT without a payload is dropped. -/
theorem handleSegrt_empty (cfg : Config) (env : Env) (c : IwanClient) (h : segrtPayload pkt = []) :
    handleSegrt cfg env c pkt = some ⟨c, [], false⟩ := by
  unfold handleSegrt
  by_cases hst : c.state = .established
  swap
  · rw [if_pos hst]
  by_cases h12 : pkt.length < 12
  · rw [if_neg (by simp [hst]), if_pos h12]
  have hget : pkt.getD 9 0 = pkt[8 + 1] := List.getD_eq_getElem _ _ _
  rw [segrtPayload, hget, List.drop_eq_nil_iff] at h
  rw [if_neg (by simp [hst]), if_neg h12]
  simp only [hdrSize]
  rw [rd_eq (by omega)]
  simp only [Option.bind_eq_bind, Option.bind_some]
  split_ifs
  · rfl
  · rfl
  · omega
  · omega

/-- Otherwise it is dropped, or its inner packet is dispatched, as the AES layer
    decides. -/
theorem handleSegrt_inner (cfg : Config) (env : Env) (hst : c.state = .established)
    (hlen : pkt.length ≤ 2048) (h : segrtPayload pkt ≠ []) :
    handleSegrt cfg env c pkt =
      (segrtInner cfg c (segrtPayload pkt) (segrtAlgo pkt)).bind fun buf =>
        buf.elim (some ⟨c, [], false⟩) (segrtDispatch env c) := by
  have hpos := List.length_pos_of_ne_nil h
  rw [segrtPayload, List.length_drop] at hpos
  have h12 : 12 < pkt.length := by omega
  have h9 : pkt.getD 9 0 = pkt[8 + 1] := List.getD_eq_getElem _ _ _
  have h10 : segrtAlgo pkt = pkt[8 + 2] := List.getD_eq_getElem _ _ _
  rw [h9] at hpos
  rw [handleSegrt, if_neg (by simp [hst]), h10, segrtPayload, h9]
  simp only [hdrSize, maxPktSize]
  rw [if_neg (by omega), rd_eq (show 8 + 1 < pkt.length by omega),
    rd_eq (show 8 + 2 < pkt.length by omega)]
  simp only [Option.bind_eq_bind, Option.bind_some]
  rw [if_neg (by omega), if_neg (by omega), if_neg (by omega), rdN_eq (by omega), Option.bind_some,
    List.take_of_length_le (by rw [List.length_drop]; omega),
    show 8 + (pkt[8 + 1].toNat * 4 + 4) = 12 + 4 * pkt[8 + 1].toNat by omega]
  congr 1
  funext buf
  cases buf <;> rfl

/-- A SEGRT is dropped, or its inner packet is dispatched. -/
theorem handleSegrt_cases (cfg : Config) (env : Env) (c : IwanClient) (hlen : pkt.length ≤ 2048) :
    handleSegrt cfg env c pkt = some ⟨c, [], false⟩ ∨
      c.state = .established ∧ ∃ buf, 1 ≤ buf.length ∧ buf.length ≤ 2048 ∧
        handleSegrt cfg env c pkt = segrtDispatch env c buf := by
  by_cases hst : c.state = .established
  swap
  · exact .inl (if_pos hst)
  by_cases hne : segrtPayload pkt = []
  · exact .inl (handleSegrt_empty cfg env c hne)
  have hle : (segrtPayload pkt).length ≤ 2048 := by
    rw [segrtPayload, List.length_drop]
    omega
  obtain hnone | ⟨buf, hb1, hb, hsome⟩ :=
    segrtInner_spec cfg c (List.length_pos_of_ne_nil hne) hle (segrtAlgo pkt)
  · rw [handleSegrt_inner cfg env hst hlen hne, hnone]
    exact .inl rfl
  · rw [handleSegrt_inner cfg env hst hlen hne, hsome]
    exact .inr ⟨hst, buf, hb1, hb, rfl⟩

theorem handleSegrt_outcome (hok : SlotsOk c.frags) (hlen : pkt.length ≤ 2048) :
    ∃ r, handleSegrt cfg env c pkt = some r ∧ SlotsOk r.client.frags ∧
      Outcome cfg env pkt c r := by
  obtain hdrop | ⟨hst, buf, hb1, hb, heq⟩ := handleSegrt_cases cfg env c hlen
  · exact ⟨_, hdrop, hok, .ignored⟩
  · rw [heq]
    exact segrtDispatch_outcome hok hst hb1 hb

/-- **Completeness of the outcomes.** For every datagram the dispatched handler
    stays in bounds, keeps the slot invariant and has one of the outcomes. -/
theorem dispatch_outcome (cfg : Config) (env : Env) (hok : SlotsOk c.frags)
    (hlen : pkt.length ≤ 2048) :
    ∃ r, dispatch cfg env c pkt (Wire.typ pkt) = some r ∧ SlotsOk r.client.frags ∧
      Outcome cfg env pkt c r := by
  -- for handlers that leave the slots alone
  have hkeep : ∀ {f : Option Res}, (∃ r, f = some r ∧ r.client.frags = c.frags ∧
      Outcome cfg env pkt c r) → ∃ r, f = some r ∧ SlotsOk r.client.frags ∧
      Outcome cfg env pkt c r := by
    rintro f ⟨r, hr, hfr, ho⟩
    exact ⟨r, hr, hfr ▸ hok, ho⟩
  unfold dispatch
  split_ifs with hdata hack hrej hecho hclose hfrag hseg
  · exact hkeep (handleData_outcome hlen)
  · exact hkeep (handleOpenack_outcome hack)
  · exact hkeep ⟨_, rfl, handleOpenrej_outcome hrej⟩
  · exact hkeep (handleEchoResp_outcome hecho)
  · exact hkeep (handleClose_outcome hclose)
  · exact handleIpfrag_outcome hok hlen
  · exact handleSegrt_outcome hok hlen
  · exact ⟨_, rfl, hok, .ignored⟩

end

end Iwand.Client
