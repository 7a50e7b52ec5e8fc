import Iwand.Client.Recv

/-!
# The parameters of an OPENACK

The TLV loop of `handle_openack` assigns fields of the client while it parses,
and the check for a peer IP comes after it (lines 1045–1096). Each field ends up
with the value of the last item that carries it.

* `applyTlvs_eq`: the client after the loop.
* `refused_openack_leaves_no_trace`: when an OPENACK that is refused changes
  nothing, as an equivalence, and what follows for a sequence of OPENACKs.
-/

namespace Iwand.Client

/-! ## Values of items -/

/-- A big-endian word at offset `k` of a value. -/
def wordAt (val : Bytes) (k : ℕ) : UInt32 :=
  be32 (val.getD k 0) (val.getD (k + 1) 0) (val.getD (k + 2) 0) (val.getD (k + 3) 0)

/-- What an item writes into `server_mtu`. -/
def tlvMtu (t : Wire.Tlv) : Option UInt16 :=
  if t.typ = 3 ∧ 2 ≤ t.value.length then some (be16 (t.value.getD 0 0) (t.value.getD 1 0)) else none

/-- What an item writes into `peer_ip`. -/
def tlvIp (t : Wire.Tlv) : Option UInt32 :=
  if t.typ = 4 ∧ 4 ≤ t.value.length then some (wordAt t.value 0) else none

/-- What an item writes into `dns0`. -/
def tlvDns0 (t : Wire.Tlv) : Option UInt32 :=
  if (t.typ = 5 ∨ t.typ = 6) ∧ 4 ≤ t.value.length then some (wordAt t.value 0) else none

/-- What an item writes into `dns1`. -/
def tlvDns1 (t : Wire.Tlv) : Option UInt32 :=
  if t.typ = 6 ∧ 8 ≤ t.value.length then some (wordAt t.value 4) else none

/-- What an item writes into `peer_dup_pkt`. -/
def tlvDup (t : Wire.Tlv) : Option UInt8 :=
  if t.typ = 7 ∧ 1 ≤ t.value.length then some (t.value.getD 0 0) else none

/-- What an item writes into `encrypt`. -/
def tlvEncrypt (t : Wire.Tlv) : Option UInt8 :=
  if t.typ = 8 ∧ 1 ≤ t.value.length then some (t.value.getD 0 0) else none

/-- The last value that the items write. -/
def written {α : Type} (f : Wire.Tlv → Option α) (ts : List Wire.Tlv) : Option α :=
  ts.foldl (fun last t => (f t).or last) none

/-- The client with each parameter at the last value written. -/
def params (c : IwanClient) (ts : List Wire.Tlv) : IwanClient :=
  { c with serverMtu := (written tlvMtu ts).getD c.serverMtu
           peerIp := (written tlvIp ts).getD c.peerIp
           dns0 := (written tlvDns0 ts).getD c.dns0
           dns1 := (written tlvDns1 ts).getD c.dns1
           peerDupPkt := (written tlvDup ts).getD c.peerDupPkt
           encrypt := (written tlvEncrypt ts).getD c.encrypt }

@[simp] theorem written_nil {α : Type} (f : Wire.Tlv → Option α) : written f [] = none := rfl

@[simp] theorem written_singleton {α : Type} (f : Wire.Tlv → Option α) (t : Wire.Tlv) :
    written f [t] = f t := by
  simp [written]

theorem written_append_singleton {α : Type} (f : Wire.Tlv → Option α) (ts : List Wire.Tlv)
    (t : Wire.Tlv) : written f (ts ++ [t]) = (f t).or (written f ts) := by
  simp [written]

/-- Later items win. -/
theorem written_append {α : Type} (f : Wire.Tlv → Option α) (ts us : List Wire.Tlv) :
    written f (ts ++ us) = (written f us).or (written f ts) := by
  induction us using List.reverseRecOn with
  | nil => simp
  | append_singleton us u ih =>
    rw [← List.append_assoc, written_append_singleton, written_append_singleton, ih,
      Option.or_assoc]

theorem written_cons {α : Type} (f : Wire.Tlv → Option α) (t : Wire.Tlv) (ts : List Wire.Tlv) :
    written f (t :: ts) = (written f ts).or (f t) := by
  have h := written_append f [t] ts
  rwa [written_singleton] at h

theorem params_cons (c : IwanClient) (t : Wire.Tlv) (ts : List Wire.Tlv) :
    params c (t :: ts) = params (params c [t]) ts := by
  simp [params, written_cons]

/-! ## The loop -/

/-- One item, whatever its type and length. -/
theorem applyTlv_eq (c : IwanClient) (typ : UInt8) (val : Bytes) :
    applyTlv c typ val = some (params c [⟨typ, val⟩]) := by
  have hrd : ∀ k, k < val.length → rd val k = some (val.getD k 0) := by
    intro k hk
    rw [rd_eq hk, List.getD_eq_getElem]
  simp only [params, written_singleton, tlvMtu, tlvIp, tlvDns0, tlvDns1, tlvDup, tlvEncrypt, wordAt]
  unfold applyTlv
  split
  · by_cases h : 2 ≤ val.length
    · rw [if_pos h, hrd 0 (by omega), hrd 1 (by omega)]
      simp [h]
    · simp [h]
  · by_cases h : 4 ≤ val.length
    · rw [if_pos h, hrd 0 (by omega), hrd 1 (by omega), hrd 2 (by omega), hrd 3 (by omega)]
      simp [h]
    · simp [h]
  · by_cases h : 4 ≤ val.length
    · rw [if_pos h, hrd 0 (by omega), hrd 1 (by omega), hrd 2 (by omega), hrd 3 (by omega)]
      simp [h]
    · simp [h]
  · by_cases h8 : 8 ≤ val.length
    · have h4 : 4 ≤ val.length := by omega
      rw [if_pos h8, hrd 0 (by omega), hrd 1 (by omega), hrd 2 (by omega), hrd 3 (by omega),
        hrd 4 (by omega), hrd 5 (by omega), hrd 6 (by omega), hrd 7 (by omega)]
      simp [h8, h4]
    rw [if_neg h8]
    by_cases h4 : 4 ≤ val.length
    · rw [if_pos h4, hrd 0 (by omega), hrd 1 (by omega), hrd 2 (by omega), hrd 3 (by omega)]
      simp [h8, h4]
    · simp [h8, h4]
  · by_cases h : 1 ≤ val.length
    · rw [if_pos h, hrd 0 (by omega)]
      simp [h]
    · simp [h]
  · by_cases h : 1 ≤ val.length
    · rw [if_pos h, hrd 0 (by omega)]
      simp [h]
    · simp [h]
  · -- any other type
    rename_i h3 h4 h5 h6 h7 h8
    simp_all

/-- **The TLV loop.** Every field has the last value written, or its old one. -/
theorem applyTlvs_eq (ts : List Wire.Tlv) : ∀ c, applyTlvs c ts = some (params c ts) := by
  induction ts with
  | nil => exact fun c => rfl
  | cons t ts ih =>
    intro c
    rw [applyTlvs, List.foldlM_cons, applyTlv_eq, params_cons c t ts]
    exact ih _

/-! ## Refused OPENACKs -/

/-- The fields of a session. -/
structure SessionFields where
  encrypt : UInt8
  serverMtu : UInt16
  dns0 : UInt32
  dns1 : UInt32
  peerDupPkt : UInt8
  peerIp : UInt32
  sessionToken : Vector UInt8 2
  sessionId : Vector UInt8 4
deriving DecidableEq

/-- The session fields of the client. -/
def IwanClient.session (c : IwanClient) : SessionFields :=
  ⟨c.encrypt, c.serverMtu, c.dns0, c.dns1, c.peerDupPkt, c.peerIp, c.sessionToken, c.sessionId⟩

/-- The session fields that an OPENACK describes by itself. -/
def ackSession (pkt : Bytes) : SessionFields :=
  let p := params zeroClient (Wire.items (pkt.drop 24))
  ⟨p.encrypt, p.serverMtu, p.dns0, p.dns1, p.peerDupPkt, p.peerIp, Wire.token pkt, Wire.sessionId pkt⟩

/-- A signed OPENACK after whose items there is a peer IP. -/
def Acceptable (c : IwanClient) (pkt : Bytes) : Prop :=
  Wire.Signed pkt ∧ (written tlvIp (Wire.items (pkt.drop 24))).getD c.peerIp ≠ 0

/-- For each parameter, the last item that carries it carries the client's own
    value. -/
def Repeats (c : IwanClient) (pkt : Bytes) : Prop :=
  let ts := Wire.items (pkt.drop 24)
  (∀ v ∈ written tlvMtu ts, v = c.serverMtu) ∧ (∀ v ∈ written tlvIp ts, v = c.peerIp) ∧
    (∀ v ∈ written tlvDns0 ts, v = c.dns0) ∧ (∀ v ∈ written tlvDns1 ts, v = c.dns1) ∧
    (∀ v ∈ written tlvDup ts, v = c.peerDupPkt) ∧ (∀ v ∈ written tlvEncrypt ts, v = c.encrypt)

/-- The OPENACKs that leave no trace if they are refused: without a valid
    signature, or accepted, or with nothing new in them. -/
def Harmless (c : IwanClient) (pkt : Bytes) : Prop :=
  ¬ Wire.Signed pkt ∨ Acceptable c pkt ∨ Repeats c pkt

/-- If the handler returns 0 in AUTH_SENT then no session field has changed. -/
def LeavesNoTrace (cfg : Config) (env : Env) (c : IwanClient) (pkt : Bytes) : Prop :=
  ∀ p fx, handleOpenack cfg env c pkt = some ⟨p, fx, false⟩ → p.state = .authSent →
    p.session = c.session

/-- `handle_openack` on one packet after another. -/
def receive (cfg : Config) (c : IwanClient) (pkts : List (Env × Bytes)) : Option IwanClient :=
  pkts.foldlM (fun c q => (handleOpenack cfg q.1 c q.2).map Res.client) c

section

variable {cfg : Config} {env : Env} {c : IwanClient} {pkt : Bytes}

theorem getD_eq_self_iff {α : Type} (x : Option α) (d : α) : x.getD d = d ↔ ∀ v ∈ x, v = d := by
  cases x <;> simp

theorem params_session_iff : (params c (Wire.items (pkt.drop 24))).session = c.session ↔
    Repeats c pkt := by
  simp only [IwanClient.session, params, SessionFields.mk.injEq, getD_eq_self_iff, Repeats]
  tauto

/-- Items that repeat the client's values change nothing at all. -/
theorem params_eq_self (h : Repeats c pkt) : params c (Wire.items (pkt.drop 24)) = c := by
  obtain ⟨h1, h2, h3, h4, h5, h6⟩ := h
  simp only [← getD_eq_self_iff] at h1 h2 h3 h4 h5 h6
  simp only [params, h1, h2, h3, h4, h5, h6]

theorem handleOpenack_unsigned (hs : c.state = .authSent) (hsig : ¬ Wire.Signed pkt) :
    handleOpenack cfg env c pkt = some ⟨c, [], false⟩ := by
  rw [handleOpenack, if_neg (by simp [hs]), pktVerify_eq, decide_eq_false hsig]
  rfl

/-- A signed OPENACK without a peer IP is refused after its items were read. -/
theorem handleOpenack_refused (cfg : Config) (env : Env) (hs : c.state = .authSent)
    (hsig : Wire.Signed pkt) (hacc : ¬ Acceptable c pkt) :
    handleOpenack cfg env c pkt = some ⟨params c (Wire.items (pkt.drop 24)), [], false⟩ := by
  have hip : (params c (Wire.items (pkt.drop 24))).peerIp = 0 :=
    not_not.mp fun hne => hacc ⟨hsig, hne⟩
  rw [handleOpenack_eq hs hsig (applyTlvs_eq _ _), if_pos hip]

/-- One with a peer IP leaves AUTH_SENT, even if the TUN cannot be set up. -/
theorem handleOpenack_accepted (cfg : Config) (env : Env) (hs : c.state = .authSent)
    (hacc : Acceptable c pkt) :
    handleOpenack cfg env c pkt = some (establish cfg env (params c (Wire.items (pkt.drop 24)))
      (Wire.token pkt) (Wire.sessionId pkt)) := by
  have hip : (params c (Wire.items (pkt.drop 24))).peerIp ≠ 0 := hacc.2
  rw [handleOpenack_eq hs hacc.1 (applyTlvs_eq _ _), if_neg hip]

theorem establish_state (cfg : Config) (env : Env) (p : IwanClient) (tok : Vector UInt8 2) (id : Vector UInt8 4) :
    (establish cfg env p tok id).client.state ≠ .authSent := by
  unfold establish
  split_ifs <;> simp

theorem leavesNoTrace_iff (hs : c.state = .authSent) :
    LeavesNoTrace cfg env c pkt ↔ Harmless c pkt := by
  unfold LeavesNoTrace Harmless
  by_cases hsig : Wire.Signed pkt
  swap
  · simp [hsig, handleOpenack_unsigned hs hsig]
  by_cases hacc : Acceptable c pkt
  · -- the premise fails: the state is no longer AUTH_SENT
    refine iff_of_true (fun p fx heq hst => ?_) (.inr (.inl hacc))
    rw [handleOpenack_accepted cfg env hs hacc] at heq
    have hne := establish_state cfg env (params c (Wire.items (pkt.drop 24)))
      (Wire.token pkt) (Wire.sessionId pkt)
    rw [Option.some.inj heq] at hne
    exact absurd hst hne
  · rw [handleOpenack_refused cfg env hs hsig hacc]
    have hst : (params c (Wire.items (pkt.drop 24))).state = .authSent := hs
    simp only [Option.some.injEq, Res.mk.injEq, and_true, hsig, not_true_eq_false, hacc, false_or,
      ← params_session_iff]
    constructor
    · exact fun h => h _ [] ⟨rfl, rfl⟩ hst
    · rintro h p fx ⟨rfl, -⟩ -
      exact h

/-- A refused OPENACK that leaves no trace leaves the client as it was. -/
theorem handleOpenack_harmless (hs : c.state = .authSent) (hacc : ¬ Acceptable c pkt)
    (hh : Harmless c pkt) : handleOpenack cfg env c pkt = some ⟨c, [], false⟩ := by
  by_cases hsig : Wire.Signed pkt
  · have hrep : Repeats c pkt := by
      rcases hh with h | h | h
      · exact absurd hsig h
      · exact absurd h hacc
      · exact h
    rw [handleOpenack_refused cfg env hs hsig hacc, params_eq_self hrep]
  · exact handleOpenack_unsigned hs hsig

theorem receive_harmless (cfg : Config) (hs : c.state = .authSent) {pkts : List (Env × Bytes)}
    (h : ∀ q ∈ pkts, ¬ Acceptable c q.2 ∧ Harmless c q.2) : receive cfg c pkts = some c := by
  induction pkts with
  | nil => rfl
  | cons q qs ih =>
    obtain ⟨hacc, hh⟩ := h q (by simp)
    rw [receive, List.foldlM_cons, handleOpenack_harmless hs hacc hh]
    exact ih fun q' hq' => h q' (by simp [hq'])

/-- After a reset the session is that of the accepted OPENACK. -/
theorem handleOpenack_session (hs : c.state = .authSent) (hfresh : c.session = zeroClient.session)
    {r : Res} (hr : handleOpenack cfg env c pkt = some r) (hacc : r.accepted = true) :
    r.client.session = ackSession pkt := by
  by_cases hok : Acceptable c pkt
  · rw [handleOpenack_accepted cfg env hs hok] at hr
    cases hr
    simp only [IwanClient.session, SessionFields.mk.injEq] at hfresh
    obtain ⟨h1, h2, h3, h4, h5, h6, -, -⟩ := hfresh
    unfold establish
    split_ifs <;>
      simp only [IwanClient.session, ackSession, params, h1, h2, h3, h4, h5, h6]
  · by_cases hsig : Wire.Signed pkt
    · rw [handleOpenack_refused cfg env hs hsig hok] at hr
      cases hr
      cases hacc
    · rw [handleOpenack_unsigned hs hsig] at hr
      cases hr
      cases hacc

/-- **Refused OPENACKs.** In AUTH_SENT a refused OPENACK leaves no trace exactly if
    it is harmless; and after any sequence of refused, harmless OPENACKs the
    session is that of the OPENACK which is accepted, and of no other. -/
theorem refused_openack_leaves_no_trace (hs : c.state = .authSent) :
    (∀ env pkt, LeavesNoTrace cfg env c pkt ↔ Harmless c pkt) ∧
    ∀ pkts : List (Env × Bytes), (∀ q ∈ pkts, ¬ Acceptable c q.2 ∧ Harmless c q.2) →
      receive cfg c pkts = some c ∧
      ∀ env ack r, (receive cfg c pkts).bind (handleOpenack cfg env · ack) = some r →
        r.accepted = true → c.session = zeroClient.session → r.client.session = ackSession ack := by
  refine ⟨fun env pkt => leavesNoTrace_iff hs, fun pkts h => ?_⟩
  have hrec := receive_harmless cfg hs h
  refine ⟨hrec, fun env ack r hr hacc hfresh => ?_⟩
  rw [hrec] at hr
  exact handleOpenack_session hs hfresh hr hacc

end

/-- The client when an attempt begins. -/
def attemptClient : IwanClient := { zeroClient with state := .authSent }

/-- A datagram too short for a signature is refused without a trace. -/
theorem short_openack_leaves_no_trace :
    LeavesNoTrace readmeConfig (calmEnv 100) attemptClient [pktOpenack] ∧
      receive readmeConfig attemptClient [(calmEnv 100, [pktOpenack])] = some attemptClient := by
  have hsig : ¬ Wire.Signed [pktOpenack] := fun h => absurd h.1 (by decide)
  obtain ⟨hiff, hseq⟩ :=
    @refused_openack_leaves_no_trace readmeConfig attemptClient rfl
  refine ⟨(hiff _ _).mpr (.inl hsig), (hseq [(calmEnv 100, [pktOpenack])] ?_).1⟩
  intro q hq
  rw [List.mem_singleton.mp hq]
  exact ⟨fun h => hsig h.1, .inl hsig⟩

/-- An OPENACK with one item, the encryption flag. -/
def flagOpenack : Bytes :=
  Wire.signedHeader pktOpenack 0 (Vector.replicate 2 0) (Vector.replicate 4 0) ++
    Wire.encode [⟨8, [1]⟩]

/-- An OPENACK with one item, the peer IP 10.0.0.2. -/
def ipOpenack : Bytes :=
  Wire.signedHeader pktOpenack 0 (Vector.replicate 2 0) (Vector.replicate 4 0) ++
    Wire.encode [⟨4, [10, 0, 0, 2]⟩]

/-- An OPENACK without a peer IP is refused and switches encryption on; the next
    one, which does not ask for encryption, is accepted with it. -/
theorem refused_openack_leaves_trace : ∃ p fx r,
    handleOpenack readmeConfig (calmEnv 100) attemptClient flagOpenack = some ⟨p, fx, false⟩ ∧
      p.state = .authSent ∧ p.encrypt = 1 ∧ attemptClient.encrypt = 0 ∧
      handleOpenack readmeConfig (calmEnv 100) p ipOpenack = some r ∧ r.accepted = true ∧
      r.client.encrypt = 1 ∧ (ackSession ipOpenack).encrypt = 0 := by
  have hflag : Wire.items (flagOpenack.drop 24) = [⟨8, [1]⟩] := by
    rw [flagOpenack, Wire.drop_signedHeader, Wire.items_encode (by decide)]
  have hack : Wire.items (ipOpenack.drop 24) = [⟨4, [10, 0, 0, 2]⟩] := by
    rw [ipOpenack, Wire.drop_signedHeader, Wire.items_encode (by decide)]
  have h1 := handleOpenack_refused readmeConfig (calmEnv 100) (c := attemptClient) rfl
    (show Wire.Signed flagOpenack from Wire.signed_signedHeader _ _ _ _ _)
    (fun h => h.2 (by rw [hflag]; decide))
  rw [hflag] at h1
  have h2 := handleOpenack_accepted readmeConfig (calmEnv 100)
    (c := params attemptClient [⟨8, [1]⟩]) rfl
    (show Acceptable _ ipOpenack from
      ⟨Wire.signed_signedHeader _ _ _ _ _, by rw [hack]; decide⟩)
  rw [hack, establish, if_neg (by decide), if_neg (by decide)] at h2
  refine ⟨_, _, _, h1, rfl, rfl, rfl, h2, rfl, rfl, ?_⟩
  rw [ackSession, hack]
  rfl

end Iwand.Client
