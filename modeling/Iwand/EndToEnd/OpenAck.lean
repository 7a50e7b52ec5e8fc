import Iwand.Client.Hooks
import Iwand.EndToEnd.Open

/-!
# The server's OPENACK at the client

The Go encoder against the C decoder: what `buildOpenAck` writes,
`handle_openack` reads into the session, and the packets of the session carry
the token and the id back until the client resets.

* `openack_interoperates`: the session after the OPENACK, and the keys that the
  server reads from the packets of that session.
* `mtu_agreement`: the MTU that the client programs against the MTU of the
  server's session.
-/

namespace Iwand.EndToEnd

open Server
open Client (IwanClient written tlvMtu tlvIp tlvDns0 tlvDns1 tlvDup tlvEncrypt params establish)

/-! ## Items -/

/-- An address as the client keeps it. -/
def word (a : Vector UInt8 4) : UInt32 := be32 (a.get 0) (a.get 1) (a.get 2) (a.get 3)

theorem word_eq_zero {a : Vector UInt8 4} (h : word a = 0) : a = Vector.replicate 4 0 := by
  obtain ⟨h0, h1, h2, h3⟩ := be32_eq_zero h
  apply Vector.ext
  intro i hi
  rw [Vector.getElem_replicate]
  interval_cases i
  · exact h0
  · exact h1
  · exact h2
  · exact h3

theorem getD_toList (a : Vector UInt8 4) (rest : Bytes) (i : Fin 4) :
    (a.toList ++ rest).getD i 0 = a[i] := by
  rw [List.getD_append _ _ _ _ (by simp), List.getD_eq_getElem _ _ (by simp)]
  simp

theorem wordAt_toList (a : Vector UInt8 4) (rest : Bytes) :
    Client.wordAt (a.toList ++ rest) 0 = word a := by
  have h := getD_toList a rest
  rw [Client.wordAt, word]
  exact congr (congr (congr (congrArg be32 (h 0)) (h 1)) (h 2)) (h 3)

theorem wordAt_drop (data : Bytes) (k : ℕ) : Client.wordAt data k = Client.wordAt (data.drop k) 0 := by
  simp [Client.wordAt, List.getD_eq_getElem?_getD]

section

variable (mtu : UInt16) (address : Vector UInt8 4) (dns : List (Vector UInt8 4)) (encrypt : Bool)

/-- No value of an OPENACK is longer than 8 bytes. -/
theorem items_ackTlvs :
    Wire.items (Wire.encode (ackTlvs mtu address dns encrypt)) = ackTlvs mtu address dns encrypt := by
  refine Wire.items_encode fun t ht => ?_
  simp only [ackTlvs, List.mem_append, List.mem_cons, List.not_mem_nil, or_false] at ht
  rcases ht with ((rfl | rfl) | ht) | rfl
  · simp
  · simp
  · rcases dns with - | ⟨d0, - | ⟨d1, ds⟩⟩ <;> simp_all [dnsTlvs]
  · simp

/-- What the DNS item writes. -/
theorem written_dnsTlvs :
    written tlvDns0 (dnsTlvs dns) = dns[0]?.map word ∧
    written tlvDns1 (dnsTlvs dns) = dns[1]?.map word ∧
    written tlvMtu (dnsTlvs dns) = none ∧ written tlvIp (dnsTlvs dns) = none ∧
    written tlvDup (dnsTlvs dns) = none ∧ written tlvEncrypt (dnsTlvs dns) = none := by
  match dns with
  | [] => simp [dnsTlvs]
  | [d0] =>
    have h0 := wordAt_toList d0 []
    rw [List.append_nil] at h0
    simp [dnsTlvs, tlvDns0, tlvDns1, tlvMtu, tlvIp, tlvDup, tlvEncrypt, h0]
  | d0 :: d1 :: _ =>
    have h0 := wordAt_toList d0 d1.toList
    have h1 := wordAt_toList d1 []
    rw [List.append_nil] at h1
    have h4 : Client.wordAt (d0.toList ++ d1.toList) 4 = word d1 := by
      rw [wordAt_drop, List.drop_left' (by simp), h1]
    simp [dnsTlvs, tlvDns0, tlvDns1, tlvMtu, tlvIp, tlvDup, tlvEncrypt, h0, h4]

/-- The client after the items of an OPENACK. -/
theorem params_ackTlvs (c : IwanClient) : params c (ackTlvs mtu address dns encrypt) =
    { c with serverMtu := mtu
             peerIp := word address
             dns0 := (dns[0]?.map word).getD c.dns0
             dns1 := (dns[1]?.map word).getD c.dns1
             encrypt := if encrypt then 1 else 0 } := by
  obtain ⟨h0, h1, h2, h3, h4, h5⟩ := written_dnsTlvs dns
  have hip := wordAt_toList address []
  rw [List.append_nil] at hip
  simp only [params, ackTlvs, Client.written_append, h0, h1, h2, h3, h4, h5, Client.written_cons,
    Client.written_nil]
  simp [tlvDns0, tlvDns1, tlvMtu, tlvIp, tlvDup, tlvEncrypt, be16_bytes, hip]

end

/-! ## Sessions -/

section

variable {cfg : Client.Config} {env : Client.Env} {c : IwanClient}

/-- `handle_openack` on what `buildOpenAck` wrote. -/
theorem handleOpenack_openAck (cfg : Client.Config) (hs : c.state = .authSent)
    {address : Vector UInt8 4} (haddr : address ≠ Vector.replicate 4 0) (hset : 0 ≤ env.tunSetIp ∧ 0 ≤ env.tunSetMtu)
    (token : Vector UInt8 2) (sessionID : Vector UInt8 4) (mtu : UInt16)
    (dns : List (Vector UInt8 4)) (encrypt : Bool) :
    ∃ r, Client.handleOpenack cfg env c (openAck token sessionID mtu address dns encrypt) = some r ∧
      r.accepted = true ∧
      r.client = { params c (ackTlvs mtu address dns encrypt) with
        state := .established, sessionToken := token, sessionId := sessionID,
        lastRecvTime := env.secs, echoCounter := 0 } ∧
      r.effects = [.tunSetIp (word address) 0xffffff00,
          .tunSetMtu (Client.effMtu cfg { c with serverMtu := mtu })] ++
        Client.runScript cfg env cfg.upScript .up r.client := by
  have hitems : Wire.items ((openAck token sessionID mtu address dns encrypt).drop 24) =
      ackTlvs mtu address dns encrypt := by
    rw [openAck, Wire.drop_signedHeader, items_ackTlvs]
  have hip : (params c (ackTlvs mtu address dns encrypt)).peerIp ≠ 0 := by
    rw [params_ackTlvs]
    exact fun h => haddr (word_eq_zero h)
  have hacc : Client.Acceptable c (openAck token sessionID mtu address dns encrypt) := by
    refine ⟨Wire.signed_signedHeader _ _ _ _ _, ?_⟩
    rw [hitems]
    exact hip
  have htok : Wire.token (openAck token sessionID mtu address dns encrypt) = token :=
    Wire.signedHeader_token _ _ _ _ _
  have hid : Wire.sessionId (openAck token sessionID mtu address dns encrypt) = sessionID :=
    Wire.signedHeader_sessionId _ _ _ _ _
  refine ⟨_, Client.handleOpenack_accepted cfg env hs hacc, ?_⟩
  rw [hitems, htok, hid, establish, if_neg (by omega), if_neg (by omega)]
  refine ⟨rfl, rfl, ?_⟩
  simp only [params_ackTlvs, Client.effMtu]

/-- Until it resets, the client keeps its session. -/
theorem session_kept {e : Client.Event} {fx : List Client.Effect} {c' : IwanClient}
    (hm : Client.Move cfg c e fx c') (hin : Client.InSession c) (hreset : .reset ∉ fx) :
    Client.InSession c' ∧ c'.sessionToken = c.sessionToken ∧ c'.sessionId = c.sessionId := by
  have hauth : c.state ≠ .authSent := by rcases hin with h | h <;> simp [h]
  cases hm with
  | ignored => exact ⟨hin, rfl, rfl⟩
  | tick env c₁ c' fxs fx hsock hm =>
    obtain ⟨fd, rfl, -⟩ := Client.tickSocket_frame hsock
    cases hm with
    | idle => exact ⟨hin, rfl, rfl⟩
    | resolved c₂ ok hs => rcases hin with h | h <;> simp [h] at hs
    | started hs => rcases hin with h | h <;> simp [h] at hs
    | openSent c₂ pkt hs =>
      rcases hs with ⟨hs, -⟩ | ⟨hs, -⟩ <;> rcases hin with h | h <;> simp [h] at hs
    | reset => simp [Client.resetEffects] at hreset
    | counted => exact ⟨hin, rfl, rfl⟩
    | echoSent => exact ⟨hin, rfl, rfl⟩
  | datagram env data r hfd hlen ho =>
    obtain ⟨t, ht⟩ := Client.touch_eq env r
    rw [ht]
    cases ho with
    | ignored => exact ⟨hin, rfl, rfl⟩
    | stored => exact ⟨hin, rfl, rfl⟩
    | delivered => exact ⟨hin, rfl, rfl⟩
    | echoed => exact ⟨hin, rfl, rfl⟩
    | peerClosed => exact ⟨.inr rfl, rfl, rfl⟩
    | rejected hs => exact absurd hs hauth
    | refused p hs => exact absurd hs hauth
    | opened p hs => exact absurd hs hauth
    | openFailed p fx hs => exact absurd hs hauth
  | tunSent => exact ⟨hin, rfl, rfl⟩
  | reconnect => simp [Client.resetEffects] at hreset

/-- A run of the session ends in it. -/
theorem session_lasts (hcfg : cfg.Admitted) {tr : List Client.StepRecord} {c' : IwanClient}
    (hin : Client.InSession c) (hslots : Client.SlotsOk c.frags)
    (hrun : Trace (Client.Step cfg) c tr c') (hreset : .reset ∉ Client.effects tr) :
    Client.SlotsOk c'.frags ∧ Client.InSession c' ∧ c'.sessionToken = c.sessionToken ∧
      c'.sessionId = c.sessionId := by
  refine hrun.invariant (P := fun tr c' => .reset ∉ Client.effects tr → Client.SlotsOk c'.frags ∧
    Client.InSession c' ∧ c'.sessionToken = c.sessionToken ∧ c'.sessionId = c.sessionId)
    (fun _ => ⟨hslots, hin, rfl, rfl⟩) ?_ hreset
  intro tr d e fx d' _ ih hstep hnr
  rw [Client.effects_snoc, List.mem_append, not_or] at hnr
  obtain ⟨hok, hin, htok, hid⟩ := ih hnr.1
  obtain ⟨hok', hm⟩ := hstep.move hcfg hok
  obtain ⟨hin', htok', hid'⟩ := session_kept hm hin hnr.2
  exact ⟨hok', hin', htok'.trans htok, hid'.trans hid⟩

/-- The packets that the client sends when it leaves the loop are packets of its
    session. -/
theorem emits_cleanup {fx : List Client.Effect} (h : Client.cleanup cfg env c = some fx) :
    ∀ x ∈ fx, Client.Emits cfg c x := by
  intro x hx
  rw [Client.cleanup, Client.sendClose_eq] at h
  split_ifs at h
  · cases h
    rcases List.mem_append.mp hx with hx | hx
    · exact Client.emits_closeEffects cfg c x hx
    · exact Client.emits_runScript _ _ _ _ _ x hx
  · cases h
    simp at hx

/-- What is sent in a session is found under its token and id. -/
theorem keyFromPacket_emitted {R : Type} (net : Net R) (remote : R) (hin : Client.InSession c)
    {pkt : Bytes} {addr : Vector UInt8 4} {port : UInt16}
    (hem : Client.Emits cfg c (.sendto pkt addr port)) :
    keyFromPacket net remote pkt =
      .ok ⟨net.remoteString remote, c.sessionToken, c.sessionId⟩ := by
  cases hem with
  | attempt _ hs => rcases hs with hs | hs <;> rcases hin with h | h <;> simp [h] at hs
  | session typ flag payload hs =>
    rw [keyFromPacket_eq remote (by simp), packetKey, Wire.header_token, Wire.header_sessionId]
  | other _ hsend => exact absurd rfl (hsend pkt addr port)

/-- The session fields and the slots are as `client_reset` leaves them. -/
def AsReset (c : IwanClient) : Prop :=
  c.session = Client.zeroClient.session ∧ ∀ i : Fin 10, c.frags[i].inUse = false

/-- The session that an OPENACK announces. -/
def announced (token : Vector UInt8 2) (sessionID : Vector UInt8 4) (mtu : UInt16)
    (address : Vector UInt8 4) (dns : List (Vector UInt8 4)) (encrypt : Bool) :
    Client.SessionFields where
  encrypt := if encrypt then 1 else 0
  serverMtu := mtu
  dns0 := (dns[0]?.map word).getD 0
  dns1 := (dns[1]?.map word).getD 0
  peerDupPkt := 0
  peerIp := word address
  sessionToken := token
  sessionId := sessionID

/-- **OPENACK interoperability.** In AUTH_SENT, after a reset, the OPENACK for any
    session parameters with a non-zero address is accepted, the client's session is
    the announced one, and every packet that the client then sends, until it resets
    or when it quits, has the key of that session for the server. -/
theorem openack_interoperates (hcfg : cfg.Admitted) (hs : c.state = .authSent) (hreset : AsReset c)
    (hset : 0 ≤ env.tunSetIp ∧ 0 ≤ env.tunSetMtu) (token : Vector UInt8 2)
    (sessionID : Vector UInt8 4) (mtu : UInt16) {address : Vector UInt8 4}
    (haddr : address ≠ Vector.replicate 4 0) (dns : List (Vector UInt8 4)) (encrypt : Bool) :
    ∃ ack r, buildOpenAck token sessionID mtu (.v4 address) (dns.map .v4) encrypt = .ok ack ∧
      Client.handleOpenack cfg env c ack = some r ∧ r.accepted = true ∧
      r.client.state = .established ∧
      r.client.session = announced token sessionID mtu address dns encrypt ∧
      ∀ tr c', Trace (Client.Step cfg) r.client tr c' → .reset ∉ Client.effects tr →
        ∀ fx, (∃ e c'', Client.Step cfg c' e fx c'') ∨ (∃ env, Client.cleanup cfg env c' = some fx) →
        ∀ pkt addr port, .sendto pkt addr port ∈ fx →
        ∀ (R : Type) (net : Net R) (remote : R), keyFromPacket net remote pkt =
          .ok ⟨net.remoteString remote, token, sessionID⟩ := by
  obtain ⟨r, hr, hacc, hclient, -⟩ := handleOpenack_openAck cfg hs haddr hset token
    sessionID mtu dns encrypt
  refine ⟨_, r, buildOpenAck_eq _ _ _ _ _ _, hr, hacc, by rw [hclient], ?_, ?_⟩
  · obtain ⟨hfields, -⟩ := hreset
    simp only [Client.IwanClient.session, Client.SessionFields.mk.injEq] at hfields
    obtain ⟨-, -, h0, h1, hdup, -⟩ := hfields
    rw [hclient, params_ackTlvs]
    simp only [Client.IwanClient.session, announced, h0, h1, hdup]
    rfl
  · intro tr c' hrun hnr fx hfx pkt addr port hmem R net remote
    have hfrags : r.client.frags = c.frags := by rw [hclient]; rfl
    have hslots : Client.SlotsOk r.client.frags := by
      intro i hi
      rw [hfrags, hreset.2 i] at hi
      cases hi
    obtain ⟨hok, hin, htok, hid⟩ := session_lasts hcfg (.inl (by rw [hclient])) hslots hrun hnr
    have hem : Client.Emits cfg c' (.sendto pkt addr port) := by
      rcases hfx with ⟨e, c'', hstep⟩ | ⟨env', hclean⟩
      · exact (hstep.move hcfg hok).2.emits hcfg _ hmem
      · exact emits_cleanup hclean _ hmem
    have htok' : r.client.sessionToken = token := by rw [hclient]
    have hid' : r.client.sessionId = sessionID := by rw [hclient]
    rw [keyFromPacket_emitted net remote hin hem, htok, hid, htok', hid']

end

/-- The README's client with the session of a documentation address. -/
theorem readme_openack_interoperates : ∃ ack r,
    buildOpenAck (Vector.replicate 2 7) (Vector.replicate 4 9) 1400 (.v4 #v[10, 20, 30, 10])
        [.v4 #v[1, 1, 1, 1]] true = .ok ack ∧
      Client.handleOpenack Client.readmeConfig (Client.calmEnv 100) Client.attemptClient ack = some r ∧
      r.client.session =
        ⟨1, 1400, 0x01010101, 0, 0, 0x0a141e0a, Vector.replicate 2 7, Vector.replicate 4 9⟩ := by
  obtain ⟨ack, r, hack, hr, -, -, hsession, -⟩ := openack_interoperates
    Client.readmeConfig_admitted (c := Client.attemptClient) rfl
    ⟨rfl, fun i => by fin_cases i <;> rfl⟩ (Client.tunSet_calmEnv 100) (Vector.replicate 2 7) (Vector.replicate 4 9)
    1400 (show #v[10, 20, 30, 10] ≠ Vector.replicate 4 (0 : UInt8) by decide) [#v[1, 1, 1, 1]] true
  refine ⟨ack, r, hack, hr, ?_⟩
  rw [hsession]
  decide

/-! ## MTU -/

section

variable {R : Type} {net : Net R} {env : Server.Env} {s s₀ : Server R} {remote : R}
  {cfg : Client.Config} {config : Server.Config} {device : Bool} {openDevice : Except String Unit}
  {tr : List (Server.StepRecord R)} {token : Vector UInt8 2} {sessionID : Vector UInt8 4} {pkt : Bytes}
  {cenv : Client.Env} {c : IwanClient}

theorem sessionOf_mtu (user : ConfiguredUser) :
    (sessionOf net env s remote cfg user token sessionID).mtu.toNat =
      min cfg.mtu.toNat s.config.mtu.toNat := by
  simp only [sessionOf, nextSession, request, UInt16.lt_iff_toNat_lt]
  split_ifs <;> omega

/-- The guard of `handle_openack` on the minimum of the two MTUs. -/
theorem effMtu_min {mtu session : UInt16} (h : session.toNat = min cfg.mtu.toNat mtu.toNat) :
    Client.effMtu cfg { c with serverMtu := session } =
      if mtu < cfg.mtu ∧ mtu < 68 then cfg.mtu else session := by
  have h68 : (68 : UInt16).toNat = 68 := rfl
  rw [Client.effMtu, ← UInt16.toNat_inj]
  simp only [UInt16.lt_iff_toNat_lt, UInt16.le_iff_toNat_le, h68]
  split_ifs <;> omega

/-- The only MTU among the effects. -/
theorem tunSetMtu_mem_iff {ip mask : UInt32} {m mtu : UInt16} {c' : IwanClient} :
    Client.Effect.tunSetMtu m ∈ [.tunSetIp ip mask, .tunSetMtu mtu] ++
      Client.runScript cfg cenv cfg.upScript .up c' ↔ m = mtu := by
  obtain hnil | ⟨args, -, hone⟩ := Client.runScript_cases cfg cenv cfg.upScript .up c'
  · simp [hnil]
  · simp [hone]

/-- The MTU that the client programs when the OPENACK for its session arrives. -/
theorem acked_mtu (hcfg : cfg.Admitted) (h0 : newServer net config device openDevice = .ok s₀)
    (hrun : Trace (Server.Step net) s₀ tr s) (hids : newSessionIDs env = .ok (token, sessionID))
    {r : Server.Res R} (hr : handleOpen net env s remote (Client.openPkt cfg) = .ok r)
    (hopens : OpensSession net remote cfg.user token sessionID r) {ack : Bytes}
    (hack : r.outs = [.udp ack remote]) (hs : c.state = .authSent)
    (hset : 0 ≤ cenv.tunSetIp ∧ 0 ≤ cenv.tunSetMtu) {x : Session R} (hx : x ∈ r.server.live)
    (hkey : x.key = ⟨net.remoteString remote, token, sessionID⟩) :
    x.mtu.toNat = min cfg.mtu.toNat s.config.mtu.toNat ∧
      ∃ r', Client.handleOpenack cfg cenv c ack = some r' ∧ r'.accepted = true ∧
        ∀ m, .tunSetMtu m ∈ r'.effects ↔
          m = if s.config.mtu < cfg.mtu ∧ s.config.mtu < 68 then cfg.mtu else x.mtu := by
  obtain ⟨u, hu, hname, hpass, rfl⟩ := opened_session hcfg h0 hrun hids hr hopens hx hkey
  refine ⟨sessionOf_mtu _, ?_⟩
  -- the OPENACK is the one built for that session
  obtain ⟨hinv, -⟩ := reachable_inv (inv_newServer h0).1 hrun
  have huser := (reachable_users h0 hrun cfg.user _).mpr ⟨u, hu, hname, rfl⟩
  obtain ⟨s', ack', heq, hbuild, -⟩ := openPkt_accepted hcfg hinv huser hpass hids
    remote
  cases hr.symm.trans heq
  cases hack
  obtain ⟨a, ha, hne⟩ := hinv.config.address4 _ _ huser
  obtain ⟨ds, hds, -⟩ := hinv.config.dns4
  rw [ha, hds, buildOpenAck_eq] at hbuild
  cases hbuild
  obtain ⟨r', hr', hacc, -, hfx⟩ := handleOpenack_openAck cfg hs hne hset token sessionID
    (sessionOf net env s remote cfg (u.configured net) token sessionID).mtu ds
    (sessionOf net env s remote cfg (u.configured net) token sessionID).encrypt
  refine ⟨r', hr', hacc, fun m => ?_⟩
  rw [hfx, tunSetMtu_mem_iff, effMtu_min (sessionOf_mtu _)]

/-- **MTU agreement.** When a server accepts the client's OPEN and the client then
    processes the OPENACK, the session has the smaller of the two configured MTUs,
    and the client programs that MTU, unless it is the server's and below 68: then
    the client programs its own. -/
theorem mtu_agreement (hcfg : cfg.Admitted) (hpkt : Client.buildOpenPkt cfg = some pkt)
    (h0 : newServer net config device openDevice = .ok s₀) (hrun : Trace (Server.Step net) s₀ tr s)
    (hids : newSessionIDs env = .ok (token, sessionID)) {r : Server.Res R}
    (hr : handleOpen net env s remote pkt = .ok r)
    (hopens : OpensSession net remote cfg.user token sessionID r) {ack : Bytes}
    (hack : r.outs = [.udp ack remote]) (hs : c.state = .authSent)
    (hset : 0 ≤ cenv.tunSetIp ∧ 0 ≤ cenv.tunSetMtu) :
    ∃ x ∈ r.server.live, x.key = ⟨net.remoteString remote, token, sessionID⟩ ∧
      x.mtu.toNat = min cfg.mtu.toNat s.config.mtu.toNat ∧
      ∃ r', Client.handleOpenack cfg cenv c ack = some r' ∧ r'.accepted = true ∧
        ∀ m, .tunSetMtu m ∈ r'.effects ↔
          m = if s.config.mtu < cfg.mtu ∧ s.config.mtu < 68 then cfg.mtu else x.mtu := by
  rw [Client.buildOpenPkt_eq hcfg.bounded] at hpkt
  cases hpkt
  obtain ⟨x, hx, hkey, -⟩ := hopens.1
  exact ⟨x, hx, hkey, acked_mtu hcfg h0 hrun hids hr hopens hack hs hset hx hkey⟩

end

/-- `alice` at the example server: both MTUs are 1400, and so is the TUN's. -/
theorem alice_mtu_agreement : ∃ (s₀ : Server Bytes) (r : Server.Res Bytes) (ack : Bytes)
    (r' : Client.Res),
    newServer exampleNet (exampleConfig false) false (.ok ()) = .ok s₀ ∧
      handleOpen exampleNet (calmEnv 0) s₀ alice.address
        (Client.openPkt (aliceConfig alice.password)) = .ok r ∧ r.outs = [.udp ack alice.address] ∧
      Client.handleOpenack (aliceConfig alice.password) (Client.calmEnv 100) Client.attemptClient
        ack = some r' ∧ .tunSetMtu 1400 ∈ r'.effects := by
  have hcfg : (aliceConfig alice.password).Admitted := by constructor <;> decide
  obtain ⟨s₀, r, ack, h0, hmtu, hr, houts, hopens, -⟩ := newServer_opens hcfg _
    (exampleConfig_valid false) (u := alice) (by decide) (by decide) (by decide)
  obtain ⟨x, -, -, hx, r', hr', -, hset⟩ := mtu_agreement hcfg (Client.buildOpenPkt_eq hcfg.bounded) h0 .nil
    rfl hr hopens houts (c := Client.attemptClient) rfl (Client.tunSet_calmEnv 100)
  refine ⟨s₀, r, ack, r', h0, hr, houts, hr', (hset 1400).mpr ?_⟩
  rw [hmtu] at hx ⊢
  rw [if_neg (by decide), ← UInt16.toNat_inj, hx]
  decide

/-- The example configuration with an MTU below 68. -/
def smallMtuConfig : Server.Config := { exampleConfig false with mtu := 50 }

/-- The session has the MTU 50, and the client programs 1400. -/
theorem small_mtu_differs : ∃ (s₀ : Server Bytes) (r : Server.Res Bytes) (ack : Bytes)
    (x : Session Bytes) (r' : Client.Res),
    newServer exampleNet smallMtuConfig false (.ok ()) = .ok s₀ ∧
      handleOpen exampleNet (calmEnv 0) s₀ alice.address
        (Client.openPkt (aliceConfig alice.password)) = .ok r ∧ r.outs = [.udp ack alice.address] ∧
      x ∈ r.server.live ∧ x.user.username = alice.username ∧ x.mtu = 50 ∧
      Client.handleOpenack (aliceConfig alice.password) (Client.calmEnv 100) Client.attemptClient
        ack = some r' ∧ r'.accepted = true ∧ .tunSetMtu 1400 ∈ r'.effects ∧
      .tunSetMtu 50 ∉ r'.effects := by
  have hcfg : (aliceConfig alice.password).Admitted := by constructor <;> decide
  obtain ⟨s₀, r, ack, h0, hmtu, hr, houts, hopens, hx⟩ := newServer_opens hcfg
    smallMtuConfig (u := alice) (by decide +kernel) (by decide) (by decide) (by decide)
  obtain ⟨hx50, r', hr', hacc, hset⟩ := acked_mtu hcfg h0 .nil rfl hr hopens houts
    (c := Client.attemptClient) rfl (Client.tunSet_calmEnv 100) hx rfl
  rw [hmtu] at hx50 hset
  rw [if_pos (by decide)] at hset
  refine ⟨s₀, r, ack, _, r', h0, hr, houts, hx, rfl, UInt16.toNat_inj.mp hx50, hr', hacc,
    (hset 1400).mpr rfl, fun h => ?_⟩
  exact absurd ((hset 50).mp h) (by decide)

end Iwand.EndToEnd
