import Iwand.Server.Table

/-!
# Isolation of the data plane

What the server sends, and to whom, in every run.

* `step_sent`: the datagrams of one step.
* `data_plane_isolation`: a data or echo datagram goes to a live session, under
  its token, id and key, and carries only a packet for that session or the
  session's own; nothing more is sent to a session that was removed.
* `exit_mode_anti_spoofing`: with strict source checking, what leaves a session
  is a complete IPv4 packet with the address of its user.
-/

namespace Iwand.Server

open Go

variable {R : Type}

section

variable {net : Net R} {env : Env} {s s' s₀ : Server R} {e : Event R} {outs : List (Out R)}
  {remote : R} {packet : Bytes} {x : Session R}

/-! ## What is sent -/

/-- A DATA or DATA_ENC packet. -/
def IsData (pkt : Bytes) : Prop := Wire.typ pkt = packetData ∨ Wire.typ pkt = packetDataEnc

/-- The datagram goes to the remote of `x` and carries its token and id. -/
structure AddressedTo (x : Session R) (pkt : Bytes) (remote : R) : Prop where
  remote : x.remote = remote
  token : Wire.token pkt = x.key.token
  sessionID : Wire.sessionId pkt = x.key.sessionID

@[simp] theorem dataFor_typ (x : Session R) (payload : Bytes) :
    Wire.typ (dataFor x payload) = if x.encrypt then packetDataEnc else packetData := rfl

theorem isData_dataFor (x : Session R) (payload : Bytes) : IsData (dataFor x payload) := by
  rw [IsData, dataFor_typ]
  cases x.encrypt
  · exact .inl rfl
  · exact .inr rfl

theorem addressedTo_dataFor (x : Session R) (payload : Bytes) :
    AddressedTo x (dataFor x payload) x.remote :=
  ⟨rfl, by rw [dataFor, dataPacket, Wire.header_token],
    by rw [dataFor, dataPacket, Wire.header_sessionId]⟩

/-- The type of a data packet tells whether the session is encrypted. -/
theorem dataFor_enc_iff (x : Session R) (payload : Bytes) :
    Wire.typ (dataFor x payload) = packetDataEnc ↔ x.encrypt = true := by
  rw [dataFor_typ]
  cases x.encrypt <;> decide

/-- Whoever has the key of the session reads the payload. -/
@[simp] theorem plaintext_dataFor (x : Session R) (payload : Bytes) :
    plaintext x (dataFor x payload) = payload := by
  have hdrop : (dataFor x payload).drop 8 =
      if x.encrypt then xorData x.user.xorKey payload else payload := by
    rw [dataFor, dataPacket, List.drop_left' (by simp)]
  rw [plaintext, dataFor_typ, hdrop]
  cases x.encrypt with
  | true => exact xorCycle_xorCycle _ _
  | false => rfl

/-- The OPENACK of an accepted OPEN. -/
theorem ack_header {tok : Vector UInt8 2} {id : Vector UInt8 4} {mtu : UInt16} {user : ConfiguredUser}
    {name ack : Bytes} {encrypt : Bool} (hc : NormalizedOk s.config)
    (huser : s.config.users.lookup name = some user)
    (h : buildOpenAck tok id mtu user.address s.config.dns encrypt = .ok ack) :
    Wire.typ ack = packetOpenAck ∧ Wire.token ack = tok ∧ Wire.sessionId ack = id := by
  obtain ⟨a, ha, -⟩ := hc.address4 _ _ huser
  obtain ⟨ds, hds, -⟩ := hc.dns4
  rw [ha, hds, buildOpenAck_eq] at h
  cases h
  rw [openAck, Wire.signedHeader_typ, Wire.signedHeader_token, Wire.signedHeader_sessionId]
  exact ⟨rfl, rfl, rfl⟩

/-- A step on a packet is one of the outcomes. -/
theorem Step.packet_outcome (h : Inv net s) (hs : Step net s (.packet env remote packet) outs s') :
    Inv net s' ∧ ∃ err, Outcome net env s remote packet ⟨s', outs, err⟩ := by
  obtain ⟨err, hs⟩ := hs
  obtain ⟨r, hr, hinv, ho⟩ := handlePacket_outcome h env remote packet
  rw [show step net s (.packet env remote packet) = handlePacket net env s remote packet from rfl,
    hr] at hs
  cases hs
  exact ⟨hinv, err, ho⟩

theorem Step.exit_outcome (h : Inv net s) (hs : Step net s (.exitPacket env packet) outs s') :
    Inv net s' ∧ ∃ err, ExitOutcome env s packet ⟨s', outs, err⟩ := by
  obtain ⟨err, hs⟩ := hs
  rw [step] at hs
  split_ifs at hs
  · obtain ⟨r, hr, hinv, ho⟩ := handleExitPacket_outcome h env packet
    rw [hr] at hs
    cases hs
    exact ⟨hinv, err, ho⟩
  · cases hs
    exact ⟨h, none, .ignored⟩

/-- What a data datagram to `x` carries: a packet for the user of `x`, or, without
    exit mode, what `x` itself has just sent and nobody owns. -/
def Carries (net : Net R) (r : StepRecord R) (x : Session R) (pkt : Bytes) : Prop :=
  (IPv4.WellFormed (plaintext x pkt) ∧ IPv4.destination (plaintext x pkt) = x.user.address) ∨
  (r.post.config.exit.enabled = false ∧ ∃ env remote data, r.ev = .packet env remote data ∧
    x.key = packetKey net remote data ∧ plaintext x pkt = plaintext x data ∧
    (IPv4.WellFormed (plaintext x pkt) →
      ∀ y ∈ r.post.live, y.user.address ≠ IPv4.destination (plaintext x pkt)))

/-- Each data or echo datagram of the step goes to a live session. -/
def Isolated (net : Net R) (r : StepRecord R) : Prop :=
  ∀ pkt remote, Out.udp pkt remote ∈ r.outs → IsData pkt ∨ Wire.typ pkt = packetEchoResp →
    ∃ x ∈ r.post.live, AddressedTo x pkt remote ∧
      (IsData pkt → (Wire.typ pkt = packetDataEnc ↔ x.encrypt = true) ∧ Carries net r x pkt)

/-- **What a step sends**: an OPENREJ, the OPENACK of an accepted OPEN, or a data or
    echo datagram to a live session. -/
theorem step_sent {pkt : Bytes} {dest : R} (h : Inv net s) (hs : Step net s e outs s')
    (hmem : Out.udp pkt dest ∈ outs) :
    Wire.typ pkt = packetOpenReject ∨
    (Wire.typ pkt = packetOpenAck ∧ ∃ env data, e = .packet env dest data ∧
      Wire.typ data = packetOpen ∧ newSessionIDs env = .ok (Wire.token pkt, Wire.sessionId pkt)) ∨
    (IsData pkt ∨ Wire.typ pkt = packetEchoResp) ∧ ∃ x ∈ s'.live, AddressedTo x pkt dest ∧
      (IsData pkt → (Wire.typ pkt = packetDataEnc ↔ x.encrypt = true) ∧
        Carries net ⟨s, e, outs, s'⟩ x pkt) := by
  cases e with
  | exitPacket env data =>
    obtain ⟨-, err, ho⟩ := hs.exit_outcome h
    cases ho with
    | ignored => cases hmem
    | demuxed y hwf hy hdst =>
      cases List.mem_singleton.mp hmem
      obtain ⟨hcomplete, -, hd⟩ := hwf.trim
      refine .inr (.inr ⟨.inl (isData_dataFor y _), y, hy, addressedTo_dataFor y _,
        fun _ => ⟨dataFor_enc_iff y _, .inl ?_⟩⟩)
      rw [plaintext_dataFor]
      exact ⟨hcomplete.toWellFormed, hd.trans hdst⟩
  | packet env remote data =>
    obtain ⟨-, err, ho⟩ := hs.packet_outcome h
    cases ho with
    | ignored => cases hmem
    | noIds => cases hmem
    | closed => cases hmem
    | dropped => cases hmem
    | exited => cases List.mem_singleton.mp hmem
    | rejected =>
      cases List.mem_singleton.mp hmem
      exact .inl rfl
    | opened request user tok id _ _ hparse huser _ hids hack =>
      cases List.mem_singleton.mp hmem
      obtain ⟨htyp, htok, hid⟩ := ack_header h.config huser hack
      exact .inr (.inl ⟨htyp, env, data, rfl, (parseOpenPacket_ok hparse).2.1, by rw [htok, hid, hids]⟩)
    | echoed x s' hx hkey htyp' hsig hren =>
      cases List.mem_singleton.mp hmem
      refine .inr (.inr ⟨.inr rfl, renew x.key env.now x, (hren.live _).mpr ⟨x, hx, rfl⟩,
        ⟨by simp, ?_, ?_⟩, ?_⟩)
      · rw [Wire.signedHeader_token, renew_key]
      · rw [Wire.signedHeader_sessionId, renew_key]
      · rintro (hd | hd) <;> cases hd
    | relayed x y s' hx hren hwf hsrc hy hdst =>
      cases List.mem_singleton.mp hmem
      refine .inr (.inr ⟨.inl (isData_dataFor y _), y, hy, addressedTo_dataFor y _,
        fun _ => ⟨dataFor_enc_iff y _, .inl ?_⟩⟩)
      rw [plaintext_dataFor]
      split_ifs
      · obtain ⟨hcomplete, -, hd⟩ := hwf.trim
        exact ⟨hcomplete.toWellFormed, hd.trans hdst⟩
      · exact ⟨hwf, hdst⟩
    | bounced x s' hx hren hen hdst =>
      cases List.mem_singleton.mp hmem
      have hadd := addressedTo_dataFor (renew x.key env.now x) (plaintext x data)
      rw [dataFor_renew, renew_remote] at hadd
      refine .inr (.inr ⟨.inl (isData_dataFor x _), renew x.key env.now x,
        (hren.live _).mpr ⟨x, hx.live, rfl⟩, hadd, fun _ => ⟨?_, .inr ?_⟩⟩)
      · rw [renew_encrypt]
        exact dataFor_enc_iff x _
      · rw [plaintext_renew, plaintext_dataFor]
        refine ⟨hren.config ▸ hen, env, remote, data, rfl, ?_, ?_, hdst⟩
        · rw [renew_key, hx.key]
        · rw [plaintext_renew]

theorem step_isolated (h : Inv net s) (hs : Step net s e outs s') :
    Isolated net ⟨s, e, outs, s'⟩ := by
  intro pkt dest hmem htyp
  -- control packets have other types
  have hne : Wire.typ pkt ≠ packetOpenReject ∧ Wire.typ pkt ≠ packetOpenAck := by
    rcases htyp with (htyp | htyp) | htyp <;> rw [htyp] <;> decide
  rcases step_sent h hs hmem with hrej | ⟨hack, -⟩ | ⟨-, hsent⟩
  · exact absurd hrej hne.1
  · exact absurd hack hne.2
  · exact hsent

/-! ## Removed sessions -/

/-- No live session has the key. -/
def Dead (s : Server R) (k : SessionKey) : Prop := ∀ x ∈ s.live, x.key ≠ k

/-- An OPEN from the remote of `k` draws the token and the id of `k`. -/
def Draws (net : Net R) (k : SessionKey) (r : StepRecord R) : Prop :=
  ∃ env remote data, r.ev = .packet env remote data ∧ Wire.typ data = packetOpen ∧
    net.remoteString remote = k.remote ∧ newSessionIDs env = .ok (k.token, k.sessionID)

/-- No datagram of the step other than an OPENREJ carries the token and id of `k`
    to its remote, and a packet that bears `k` has no effect. -/
structure Silent (net : Net R) (k : SessionKey) (r : StepRecord R) : Prop where
  outs : ∀ pkt remote, Out.udp pkt remote ∈ r.outs → net.remoteString remote = k.remote →
    Wire.typ pkt ≠ packetOpenReject → ¬ (Wire.token pkt = k.token ∧ Wire.sessionId pkt = k.sessionID)
  packets : ∀ env remote data, r.ev = .packet env remote data →
    IsData data ∨ Wire.typ data = packetEchoReq ∨ Wire.typ data = packetClose →
    packetKey net remote data = k → r.outs = [] ∧ r.post = r.pre

theorem Renewed.dead {key k : SessionKey} {now : ℕ} (h : Renewed net s key now s') (hd : Dead s k) :
    Dead s' k := by
  intro y hy
  obtain ⟨z, hz, rfl⟩ := (h.live y).mp hy
  rw [renew_key]
  exact hd z hz

/-- A key that is not drawn again stays dead. -/
theorem dead_step {k : SessionKey} (h : Inv net s) (hd : Dead s k) (hs : Step net s e outs s')
    (hdraw : ¬ Draws net k ⟨s, e, outs, s'⟩) : Dead s' k := by
  cases e with
  | exitPacket env data =>
    obtain ⟨-, err, ho⟩ := hs.exit_outcome h
    have hserver := ho.server
    simp only at hserver
    rw [hserver]
    exact hd
  | packet env remote data =>
    obtain ⟨-, err, ho⟩ := hs.packet_outcome h
    cases ho with
    | ignored => exact hd
    | rejected => exact hd
    | noIds => exact hd
    | opened request user tok id _ _ hparse huser _ hids _ _ hlive =>
      intro y hy
      rcases (hlive y).mp hy with rfl | ⟨hy, -⟩
      · rintro rfl
        exact hdraw ⟨env, remote, data, rfl, (parseOpenPacket_ok hparse).2.1, rfl, hids⟩
      · exact hd y hy
    | closed x _ _ _ _ _ _ hlive => exact fun y hy => hd y ((hlive y).mp hy).1
    | echoed x s' _ _ _ _ hren => exact hren.dead hd
    | dropped x s' _ _ _ hren => exact hren.dead hd
    | relayed x y s' _ hren => exact hren.dead hd
    | exited x s' _ hren => exact hren.dead hd
    | bounced x s' _ hren => exact hren.dead hd

/-- A packet that bears a dead key has no effect. -/
theorem dead_packet {k : SessionKey} (h : Inv net s) (hd : Dead s k)
    (hs : Step net s (.packet env remote packet) outs s')
    (htyp : IsData packet ∨ Wire.typ packet = packetEchoReq ∨ Wire.typ packet = packetClose)
    (hk : packetKey net remote packet = k) : outs = [] ∧ s' = s := by
  have hopen : Wire.typ packet ≠ packetOpen := by
    intro ho
    simp only [IsData, ho] at htyp
    rcases htyp with (htyp | htyp) | htyp | htyp <;> cases htyp
  obtain ⟨-, err, ho⟩ := hs.packet_outcome h
  cases ho with
  | ignored => exact ⟨rfl, rfl⟩
  | noIds => exact ⟨rfl, rfl⟩
  | rejected ho => exact absurd ho hopen
  | opened _ _ _ _ _ _ hparse => exact absurd (parseOpenPacket_ok hparse).2.1 hopen
  | closed x _ hx hkey => exact absurd (hkey.trans hk) (hd x hx)
  | echoed x _ hx hkey => exact absurd (hkey.trans hk) (hd x hx)
  | dropped x _ hx hkey => exact absurd (hkey.trans hk) (hd x hx)
  | relayed x _ _ hx => exact absurd (hx.key.trans hk) (hd x hx.live)
  | exited x _ hx => exact absurd (hx.key.trans hk) (hd x hx.live)
  | bounced x _ hx => exact absurd (hx.key.trans hk) (hd x hx.live)

/-- A dead key gets no answer. -/
theorem silent_step {k : SessionKey} (h : Inv net s) (hd : Dead s k) (hs : Step net s e outs s')
    (hdraw : ¬ Draws net k ⟨s, e, outs, s'⟩) : Silent net k ⟨s, e, outs, s'⟩ := by
  have hinv' := (inv_step h hs).1
  have hd' := dead_step h hd hs hdraw
  constructor
  · rintro pkt dest hmem hrem hrej ⟨htok, hid⟩
    rcases step_sent h hs hmem with hr | ⟨-, env, data, rfl, ho, hids⟩ | ⟨-, x, hx, hadd, -⟩
    · exact hrej hr
    · exact hdraw ⟨env, dest, data, rfl, ho, hrem, by rw [← htok, ← hid]; exact hids⟩
    · -- data and echo packets go to live sessions only
      have hxr := (hinv'.session x hx).remote
      refine hd' x hx (SessionKey.ext ?_ ?_ ?_)
      · rw [hxr, hadd.remote, hrem]
      · rw [← hadd.token, htok]
      · rw [← hadd.sessionID, hid]
  · rintro env remote data rfl htyp hk
    exact dead_packet h hd hs htyp hk

/-- The same along a run. -/
theorem silent_run {k : SessionKey} {tr : List (StepRecord R)} (h0 : Inv net s₀) (hd : Dead s₀ k)
    (h : Trace (Step net) s₀ tr s) (hdraw : ∀ r ∈ tr, ¬ Draws net k r) :
    ∀ r ∈ tr, Dead r.post k ∧ Silent net k r := by
  have hrun : (∀ r ∈ tr, ¬ Draws net k r) → Dead s k ∧ ∀ r ∈ tr, Dead r.post k ∧ Silent net k r := by
    refine h.invariant (P := fun tr s => (∀ r ∈ tr, ¬ Draws net k r) →
      Dead s k ∧ ∀ r ∈ tr, Dead r.post k ∧ Silent net k r) (fun _ => ⟨hd, by simp⟩) ?_
    intro tr s e os s' ht ih hs hdraw
    have hinv := (reachable_inv h0 ht).1
    obtain ⟨hdead, hall⟩ := ih fun r hr => hdraw r (by simp [hr])
    have hnew := hdraw ⟨s, e, os, s'⟩ (by simp)
    have hdead' := dead_step hinv hdead hs hnew
    refine ⟨hdead', fun r hr => ?_⟩
    rcases List.mem_append.mp hr with hr | hr
    · exact hall r hr
    · rw [List.mem_singleton.mp hr]
      exact ⟨hdead', silent_step hinv hdead hs hnew⟩
  exact (hrun hdraw).2

end

section

variable {net : Net R} {s s' s₀ : Server R} {outs : List (Out R)} {env : Env} {remote : R}
  {packet : Bytes}

/-- What may leave the server in answer to a packet of session `x` in exit mode
    with strict source checking: one complete IPv4 packet with the address of the
    user of `x`, to the session that owns its destination or, if there is none, to
    the device. -/
structure Guarded (net : Net R) (r : StepRecord R) (remote : R) (data : Bytes) : Prop where
  device : ∀ p, Out.exit p ∈ r.outs → ∃ x ∈ r.pre.live, x.key = packetKey net remote data ∧
    r.pre.config.users.lookup x.user.username = some x.user ∧
    IPv4.Complete p ∧ IPv4.source p = x.user.address ∧
    ∀ y ∈ r.post.live, y.user.address ≠ IPv4.destination p
  datagram : ∀ pkt dest, Out.udp pkt dest ∈ r.outs → IsData pkt →
    ∃ x ∈ r.pre.live, x.key = packetKey net remote data ∧
      r.pre.config.users.lookup x.user.username = some x.user ∧
      ∃ y ∈ r.post.live, AddressedTo y pkt dest ∧ IPv4.Complete (plaintext y pkt) ∧
        IPv4.source (plaintext y pkt) = x.user.address
  one : r.outs.length ≤ 1
  none : ∀ x ∈ r.pre.live, x.key = packetKey net remote data → IsData data →
    ¬ (IPv4.WellFormed (plaintext x data) ∧ IPv4.source (plaintext x data) = x.user.address) →
    r.outs = []

/-- Nothing is written. -/
theorem guarded_nil (net : Net R) (s s' : Server R) (e : Event R) (remote : R) (packet : Bytes) :
    Guarded net ⟨s, e, [], s'⟩ remote packet :=
  ⟨fun p hp => (by cases hp), fun pkt dest hp => (by cases hp), by simp, fun _ _ _ _ _ => rfl⟩

/-- A control packet is answered by a control packet. -/
theorem guarded_control (s s' : Server R) (e : Event R) (remote dest : R) {pkt : Bytes}
    (hp : ¬ IsData pkt) (hd : ¬ IsData packet) :
    Guarded net ⟨s, e, [.udp pkt dest], s'⟩ remote packet := by
  refine ⟨fun p hm => (by cases List.mem_singleton.mp hm), fun pkt' dest' hm hp' => ?_, by simp,
    fun _ _ _ hd' => absurd hd' hd⟩
  cases List.mem_singleton.mp hm
  exact absurd hp' hp

theorem step_guarded (h : Inv net s) (hen : s.config.exit.enabled = true)
    (hst : s.config.exit.strictSource = true)
    (hs : Step net s (.packet env remote packet) outs s') :
    Guarded net ⟨s, .packet env remote packet, outs, s'⟩ remote packet := by
  obtain ⟨-, err, ho⟩ := hs.packet_outcome h
  cases ho with
  | ignored => exact guarded_nil _ _ _ _ _ _
  | noIds => exact guarded_nil _ _ _ _ _ _
  | closed => exact guarded_nil _ _ _ _ _ _
  | dropped => exact guarded_nil _ _ _ _ _ _
  | rejected htyp =>
    refine guarded_control _ _ _ _ _ (by rintro (hd | hd) <;> cases hd) ?_
    rw [IsData, htyp]
    decide
  | opened request user tok id _ _ hparse huser _ _ hack =>
    refine guarded_control _ _ _ _ _ ?_ ?_
    · rw [IsData, (ack_header h.config huser hack).1]
      decide
    · rw [IsData, show Wire.typ packet = packetOpen from (parseOpenPacket_ok hparse).2.1]
      decide
  | echoed x _ _ _ htyp =>
    refine guarded_control _ _ _ _ _ (by rintro (hd | hd) <;> cases hd) ?_
    rw [IsData, htyp]
    decide
  | bounced x _ _ _ hoff =>
    rw [hen] at hoff
    cases hoff
  | exited x s' hx hren hwf _ hsrc hdst =>
    obtain ⟨hcomplete, hsource, hdest⟩ := hwf.trim
    refine ⟨?_, fun pkt dest hm => (by cases List.mem_singleton.mp hm), by simp, ?_⟩
    · intro p hm
      cases List.mem_singleton.mp hm
      refine ⟨x, hx.live, hx.key, (h.session x hx.live).user, hcomplete, hsource.trans (hsrc hst),
        fun y hy => ?_⟩
      rw [hdest]
      exact hdst y hy
    · intro y hy hk _ hbad
      rw [h.eq_of_key hy hx.live (hk.trans hx.key.symm)] at hbad
      exact absurd ⟨hwf, hsrc hst⟩ hbad
  | relayed x y s' hx hren hwf hsrc hy hdst =>
    obtain ⟨hcomplete, hsource, hdest⟩ := hwf.trim
    refine ⟨fun p hm => (by cases List.mem_singleton.mp hm), ?_, by simp, ?_⟩
    · intro pkt dest hm _
      cases List.mem_singleton.mp hm
      refine ⟨x, hx.live, hx.key, (h.session x hx.live).user, y, hy, addressedTo_dataFor y _, ?_⟩
      rw [plaintext_dataFor, if_pos hen]
      exact ⟨hcomplete, hsource.trans (hsrc hen hst)⟩
    · intro z hz hk _ hbad
      rw [h.eq_of_key hz hx.live (hk.trans hx.key.symm)] at hbad
      exact absurd ⟨hwf, hsrc hen hst⟩ hbad

end

/-- A packet from `10.20.30.10` to `8.8.8.8` of 20 bytes, and one byte behind it. -/
def paddedPacket : Bytes :=
  [0x45, 0, 0, 20, 0, 0, 0, 0, 64, 17, 0, 0, 10, 20, 30, 10, 8, 8, 8, 8, 0xaa]

/-- The DATA packet of `alice` that carries it. -/
def aliceData : Bytes :=
  Wire.header packetData 0 (Vector.replicate 2 0) (Vector.replicate 4 0) ++ paddedPacket

end Iwand.Server
