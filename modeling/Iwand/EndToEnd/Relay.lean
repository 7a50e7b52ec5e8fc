import Iwand.Client.Moves
import Iwand.EndToEnd.Open

/-!
# From TUN to TUN

A packet read from the TUN of one client, through the server, to the TUN of
another: two XOR passes with different keys, the type gates of both ends, and
the lookup of the destination.

* `plaintext_tunPkt`: the server decrypts what the client sends.
* `handleData_dataFor`: the client decrypts what the server sends.
* `relay_transparent`: the whole way, for all four combinations of encryption.
-/

namespace Iwand.EndToEnd

open Server
open Client (IwanClient)

/-- The client is in the session: established, with its token, id, encryption flag
    and key. -/
structure Agrees {R : Type} (remote : R) (c : IwanClient) (x : Session R) : Prop where
  established : c.state = .established
  remote : x.remote = remote
  token : x.key.token = c.sessionToken
  sessionID : x.key.sessionID = c.sessionId
  encrypt : x.encrypt = true ↔ c.encrypt ≠ 0
  xorKey : x.user.xorKey = c.xorKey

section

variable {R : Type} {net : Net R} {env : Server.Env} {s s₀ : Server R} {ra rb : R}
  {a b c : IwanClient} {x y : Session R} {p : Bytes} {config : Server.Config} {device : Bool}
  {openDevice : Except String Unit} {tr : List (Server.StepRecord R)}

/-- The datagram that `handle_tun_recv` builds. -/
def tunPkt (c : IwanClient) (p : Bytes) : Bytes :=
  Wire.header (if c.encrypt ≠ 0 then Client.pktDataEnc else Client.pktData)
    (if c.encrypt ≠ 0 then c.encrypt else 0) c.sessionToken c.sessionId ++
    if c.encrypt ≠ 0 then Client.xorEncrypt c.xorKey p else p

theorem length_tunPkt (c : IwanClient) (p : Bytes) : (tunPkt c p).length = 8 + p.length := by
  rw [tunPkt, List.length_append, Wire.length_header]
  split_ifs <;> simp [Client.xorEncrypt]

/-- It belongs to the session, and its type fits. -/
theorem dataOf_tunPkt (h : Inv net s) (hx : x ∈ s.live) (ha : Agrees ra a x) (p : Bytes) :
    DataOf net s ra (tunPkt a p) x := by
  refine ⟨hx, ?_, ?_⟩
  · rw [packetKey, tunPkt, Wire.header_token, Wire.header_sessionId]
    exact SessionKey.ext ((h.session x hx).remote.trans (by rw [ha.remote])) ha.token ha.sessionID
  · rw [tunPkt, Wire.header_typ]
    simp only [ha.encrypt]

/-- The server decrypts it. -/
theorem plaintext_tunPkt (ha : Agrees ra a x) (p : Bytes) : plaintext x (tunPkt a p) = p := by
  have hdrop : (tunPkt a p).drop 8 = if a.encrypt ≠ 0 then Client.xorEncrypt a.xorKey p else p :=
    List.drop_left' (by simp)
  rw [plaintext, hdrop, tunPkt, Wire.header_typ, ha.xorKey]
  by_cases he : a.encrypt ≠ 0
  · simp only [if_pos he]
    exact xorCycle_xorCycle _ _
  · simp only [if_neg he]
    rfl

/-- The client writes what the server sent to it. -/
theorem handleData_dataFor (hb : Agrees rb b y) (benv : Client.Env) (hne : p ≠ [])
    (hlen : p.length ≤ 2040) :
    ∃ b', Client.handleData benv b (dataFor y p) = some ⟨b', [.tunWrite p], true⟩ := by
  have hpos : 0 < p.length := List.length_pos_iff.mpr hne
  have hlen' : (dataFor y p).length = 8 + p.length := by
    rw [dataFor, dataPacket, List.length_append, Wire.length_header]
    split_ifs <;> simp [xorData]
  have hdrop : (dataFor y p).drop 8 = if y.encrypt then xorData y.user.xorKey p else p :=
    List.drop_left' (by simp)
  have hwrite : (if Wire.typ (dataFor y p) = Client.pktDataEnc then
      Client.xorEncrypt b.xorKey ((dataFor y p).drop 8) else (dataFor y p).drop 8) = p := by
    rw [hdrop, dataFor, dataPacket, Wire.header_typ, hb.xorKey]
    cases y.encrypt with
    | false => rfl
    | true => exact xorCycle_xorCycle _ _
  rw [Client.handleData_eq hb.established (by omega) (by omega), hwrite]
  exact ⟨_, rfl⟩

/-- What leaves the server: the packet, cut to its total length in exit mode. -/
def relayed (s : Server R) (p : Bytes) : Bytes :=
  if s.config.exit.enabled then p.take (IPv4.totalLength p) else p

/-- **Relay transparency.** Clients `a` and `b` are established in live sessions of a
    reachable server. Every packet from the TUN of `a` that parses with the address
    of `b` as its destination (and, with exit mode and strict sources, the address
    of `a` as its source) is accepted from the datagram of `handle_tun_recv`, leaves
    in exactly one datagram, to the remote of `b`, and is what `handle_data` writes
    to the TUN of `b`: unchanged, or cut to its total length in exit mode. -/
theorem relay_transparent (h0 : newServer net config device openDevice = .ok s₀)
    (hrun : Trace (Server.Step net) s₀ tr s) (hx : x ∈ s.live) (ha : Agrees ra a x)
    (hy : y ∈ s.live) (hb : Agrees rb b y) (hlen : 1 ≤ p.length ∧ p.length ≤ 2040)
    {parsed : Ipv4Packet} (hparse : parseIPv4Packet p = .ok parsed)
    (hdst : parsed.destination = y.user.address)
    (hsrc : s.config.exit.enabled = true → s.config.exit.strictSource = true →
      parsed.source = x.user.address) (env : Server.Env) (benv : Client.Env) :
    ∃ a' pkt s' out b',
      Client.handleTunRecv a p = some (a', [.sendto pkt a.serverAddr a.serverPort]) ∧
      handleData net env s ra pkt = .ok ⟨s', [.udp out rb], env.writeErr⟩ ∧
      Client.handleData benv b out = some ⟨b', [.tunWrite (relayed s p)], true⟩ := by
  obtain ⟨hinv, -⟩ := reachable_inv (inv_newServer h0).1 hrun
  obtain ⟨hwf, rfl⟩ := parseIPv4Packet_ok_iff.mp hparse
  have hp : p ≠ [] := List.ne_nil_of_length_pos (by omega)
  -- the server renews the session of the sender and looks the destination up
  obtain ⟨s', hren, hdata⟩ := handleData_eq hinv env (by rw [length_tunPkt]; omega)
    (dataOf_tunPkt hinv hx ha p)
  rw [plaintext_tunPkt ha] at hdata
  have hy' : renew x.key env.now y ∈ s'.live := (hren.live _).mpr ⟨y, hy, rfl⟩
  have hspoof : ¬ Spoofed s' x p := by
    rw [Spoofed, hren.config]
    exact fun ⟨hen, hst, hne⟩ => hne (hsrc hen hst)
  rw [routePayload_relay hren.inv.linked hwf hspoof hy' (by rw [renew_user]; exact hdst),
    hren.config] at hdata
  -- the payload still has a header
  have hrel : relayed s p ≠ [] ∧ (relayed s p).length ≤ 2040 := by
    have hhdr := hwf.header
    have htotal := hwf.total
    have hcomplete := hwf.complete
    rw [relayed, ← List.length_pos_iff]
    split_ifs
    · rw [List.length_take]
      omega
    · omega
  obtain ⟨b', hb'⟩ := handleData_dataFor hb benv hrel.1 hrel.2
  refine ⟨_, tunPkt a p, s', dataFor y (relayed s p), b',
    Client.handleTunRecv_eq ha.established hp hlen.2, ?_, hb'⟩
  rw [← dataFor_renew x.key env.now, ← hb.remote, hdata, renew_remote]
  rfl

end

/-- The client of `bob`, without encryption. -/
def bobConfig : Client.Config :=
  { Client.readmeConfig with
    username := toArr 32 bob.username
    password := toArr 32 bob.password }

/-- A client in the session with token and id 0. -/
def establishedClient (u : UserConfig) (encrypt : UInt8) : IwanClient :=
  { Client.attemptClient with
    state := .established
    encrypt := encrypt
    xorKey := (u.configured exampleNet).xorKey }

/-- An IPv4 header from `10.20.30.10` to `10.20.30.11`, and a byte behind its end. -/
def helloPacket : Bytes :=
  [0x45, 0, 0, 20, 0, 0, 0, 0, 64, 17, 0, 0, 10, 20, 30, 10, 10, 20, 30, 11, 0xff]

/-- From `alice`, encrypted, to `bob`, in the clear, at the example server in exit
    mode: the byte behind the packet is cut off. -/
theorem alice_to_bob : ∃ (s s' : Server Bytes) (a' b' : IwanClient) (pkt out : Bytes),
    Client.handleTunRecv (establishedClient alice 1) helloPacket =
        some (a', [.sendto pkt (Vector.replicate 4 0) 0]) ∧
      handleData exampleNet (calmEnv 2) s alice.address pkt =
        .ok ⟨s', [.udp out bob.address], none⟩ ∧
      Client.handleData (Client.calmEnv 100) (establishedClient bob 0) out =
        some ⟨b', [.tunWrite (helloPacket.take 20)], true⟩ := by
  have hcfgA : (aliceConfig alice.password).Admitted := by constructor <;> decide
  have hcfgB : bobConfig.Admitted := by constructor <;> decide
  have haddr : IPv4.source helloPacket = (alice.configured exampleNet).address ∧
      IPv4.destination helloPacket = (bob.configured exampleNet).address := by decide +kernel
  obtain ⟨s₀, h0, hinv, -, hexit, -⟩ := example_newServer true
  have huserA := (reachable_users h0 .nil (aliceConfig alice.password).user _).mpr
    ⟨alice, by decide, by decide, rfl⟩
  have huserB := (reachable_users h0 .nil bobConfig.user _).mpr ⟨bob, by decide, by decide, rfl⟩
  -- both open a session
  obtain ⟨s₁, ack₁, hstep₁, -, hinv₁, hconfig₁, hlive₁⟩ := step_openPkt hcfgA hinv huserA
    (by decide) (newSessionIDs_calmEnv 0) alice.address
  rw [← hconfig₁] at huserB
  obtain ⟨s₂, ack₂, hstep₂, -, hinv₂, hconfig₂, hlive₂⟩ := step_openPkt hcfgB hinv₁ huserB
    (by decide) (newSessionIDs_calmEnv 1) bob.address
  have hkept : ¬ Replaced (exampleNet.remoteString bob.address) bob.username (sessionOf exampleNet
      (calmEnv 0) s₀ alice.address (aliceConfig alice.password) (alice.configured exampleNet)
      (Vector.replicate 2 0) (Vector.replicate 4 0)) := by
    rintro (h | h)
    · exact absurd h (show alice.address ≠ bob.address by decide)
    · exact absurd h (show alice.username ≠ bob.username by decide)
  have hx := (hlive₂ _).mpr (.inr ⟨(hlive₁ _).mpr (.inl rfl), hkept⟩)
  have hy := (hlive₂ _).mpr (.inl rfl)
  obtain ⟨a', pkt, s', out, b', h1, h2, h3⟩ := relay_transparent h0 ((Trace.nil.snoc hstep₁).snoc hstep₂)
    hx (show Agrees alice.address (establishedClient alice 1) _ from
      ⟨rfl, rfl, rfl, rfl, iff_of_true rfl (by decide), rfl⟩)
    hy (show Agrees bob.address (establishedClient bob 0) _ from
      ⟨rfl, rfl, rfl, rfl, iff_of_false
        (by simp [sessionOf, nextSession, request, bobConfig, Client.readmeConfig]) (by decide), rfl⟩)
    (p := helloPacket) (by decide) (parseIPv4Packet_eq (by decide)) haddr.2
    (fun _ _ => haddr.1) (calmEnv 2) (Client.calmEnv 100)
  rw [relayed, hconfig₂, hconfig₁, hexit, if_pos rfl] at h3
  exact ⟨s₂, s', a', b', pkt, out, h1, h2, h3⟩

end Iwand.EndToEnd
