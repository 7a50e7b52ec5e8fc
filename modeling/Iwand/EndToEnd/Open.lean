import Iwand.Client.Packets
import Iwand.Server.Table

/-!
# The client's OPEN at the server

The C encoder against the Go decoder: what `build_open_pkt` writes,
`parseOpenPacket` reads back, and `handleOpen` accepts it exactly if the user is
known and the passwords agree on their first 16 bytes. The data key hashes the
whole password, so agreement on 16 bytes is not enough for it.

* `open_interoperates`: decoding, and acceptance as an equivalence.
* `data_keys_agree`: the two data keys are equal if the passwords are.
-/

namespace Iwand.EndToEnd

open Server

/-! ## Decoding -/

section

variable {cfg : Client.Config}

/-- The request that the server reads from the OPEN. -/
def request (cfg : Client.Config) : OpenRequest where
  username := cfg.user
  passwordBlock := Client.passwordBlock cfg.user cfg.pass
  mtu := cfg.mtu
  encrypt := cfg.encrypt ≠ 0

/-- The decoder reads back what the encoder wrote. -/
theorem parseOpenPacket_openPkt (h : cfg.Admitted) :
    parseOpenPacket (Client.openPkt cfg) = .ok (request cfg) := by
  have hul := h.bounded.user.2
  obtain ⟨hmin, hmax⟩ := h.mtu_range
  have hparse := parseOpenPacket_items cfg.encrypt (Vector.replicate 2 0) (Vector.replicate 4 0) cfg.mtu
    cfg.user (Client.passwordBlock cfg.user cfg.pass) ((Client.openTlvs cfg).drop 3) h.user_ne_nil
    (by omega) hmin hmax
    (by simp only [Client.openTlvs]; split_ifs <;> simp) (by simp only [Client.openTlvs]; split_ifs <;> simp)
  have htlvs : Client.openTlvs cfg = [⟨3, [(cfg.mtu >>> 8).toUInt8, cfg.mtu.toUInt8]⟩, ⟨1, cfg.user⟩,
      ⟨2, (Client.passwordBlock cfg.user cfg.pass).toList⟩] ++ (Client.openTlvs cfg).drop 3 := by
    simp [Client.openTlvs]
  rw [← htlvs] at hparse
  refine hparse.trans ?_
  rw [request]
  -- the flag byte and the optional item agree
  congr 2
  simp only [Client.openTlvs]
  by_cases he : cfg.encrypt ≠ 0 <;> by_cases hp : cfg.pipeid ≠ 0 ∨ cfg.pipeidx ≠ 0 <;>
    simp [he, hp, encryptItem]

/-- The password block is an item of the packet. -/
theorem passwordBlock_mem_openPkt (h : cfg.Admitted) :
    ⟨2, (Client.passwordBlock cfg.user cfg.pass).toList⟩ ∈ Wire.items ((Client.openPkt cfg).drop 24) := by
  rw [Client.items_openPkt h.bounded]
  simp [Client.openTlvs]

/-! ## Passwords -/

/-- A password after zero-padding or truncation to 16 bytes. -/
def padded (password : Bytes) : Vector UInt8 16 := toArr 16 password

theorem toArr_take (n : ℕ) (l : Bytes) : toArr n (l.take n) = toArr n l := by
  apply Vector.ext
  intro i hi
  simp [toArr, List.getD_eq_getElem?_getD]

/-- The client's password block is the one that the server recomputes. -/
theorem passwordBlock_eq (username password : Bytes) :
    Client.passwordBlock username password = encryptedPassword username password := by
  rw [Client.passwordBlock, encryptedPassword, toArr_take, Wire.magic]

/-- The two ends compute the same block from the same padded password, and
    different blocks from different ones. -/
theorem passwordMatches_iff (username password password' : Bytes) :
    passwordMatches username password (Client.passwordBlock username password') = true ↔
      padded password' = padded password := by
  rw [passwordMatches, decide_eq_true_iff, passwordBlock_eq, encryptedPassword, encryptedPassword]
  constructor
  · intro h
    exact AES.cipherWith_injective _ h
  · intro h
    rw [show toArr 16 password' = toArr 16 password from h]

end

/-! ## Acceptance -/

section

variable {R : Type} {net : Net R} {env : Server.Env} {s s₀ : Server R} {remote : R}
  {cfg : Client.Config} {user : ConfiguredUser} {token : Vector UInt8 2} {sessionID : Vector UInt8 4}

/-- The session that the server opens for the client. -/
def sessionOf (net : Net R) (env : Server.Env) (s : Server R) (remote : R) (cfg : Client.Config)
    (user : ConfiguredUser) (token : Vector UInt8 2) (sessionID : Vector UInt8 4) : Session R :=
  nextSession net env s remote (request cfg) user token sessionID

/-- The OPEN of a configured user with the right password opens a session. -/
theorem openPkt_accepted (hcfg : cfg.Admitted) (h : Inv net s)
    (huser : s.config.users.lookup cfg.user = some user) (hpass : padded cfg.pass = padded user.password)
    (hids : newSessionIDs env = .ok (token, sessionID)) (remote : R) :
    ∃ s' ack, handleOpen net env s remote (Client.openPkt cfg) =
        .ok ⟨s', [.udp ack remote], env.writeErr⟩ ∧
      buildOpenAck token sessionID (sessionOf net env s remote cfg user token sessionID).mtu
        user.address s.config.dns (sessionOf net env s remote cfg user token sessionID).encrypt =
        .ok ack ∧
      Inv net s' ∧ s'.config = s.config ∧
      ∀ y, y ∈ s'.live ↔ y = sessionOf net env s remote cfg user token sessionID ∨
        y ∈ s.live ∧ ¬ Replaced (net.remoteString remote) user.username y := by
  have hparse := parseOpenPacket_openPkt hcfg
  have hname : user.username = cfg.user := h.config.username _ _ huser
  have hmatch : passwordMatches user.username user.password (request cfg).passwordBlock = true := by
    rw [hname]
    exact (passwordMatches_iff _ _ _).mpr hpass
  rw [handleOpen_accept hparse huser hmatch, hids]
  exact openSession_spec env h (nextSession_ok h env remote hparse huser token sessionID)

/-- Its step of the server. -/
theorem step_openPkt (hcfg : cfg.Admitted) (h : Inv net s)
    (huser : s.config.users.lookup cfg.user = some user) (hpass : padded cfg.pass = padded user.password)
    (hids : newSessionIDs env = .ok (token, sessionID)) (remote : R) :
    ∃ s' ack, Server.Step net s (.packet env remote (Client.openPkt cfg)) [.udp ack remote] s' ∧
      buildOpenAck token sessionID (sessionOf net env s remote cfg user token sessionID).mtu
        user.address s.config.dns (sessionOf net env s remote cfg user token sessionID).encrypt =
        .ok ack ∧
      Inv net s' ∧ s'.config = s.config ∧
      ∀ y, y ∈ s'.live ↔ y = sessionOf net env s remote cfg user token sessionID ∨
        y ∈ s.live ∧ ¬ Replaced (net.remoteString remote) user.username y := by
  obtain ⟨s', ack, heq, hrest⟩ := openPkt_accepted hcfg h huser hpass hids remote
  refine ⟨s', ack, ⟨env.writeErr, ?_⟩, hrest⟩
  have h8 : 8 ≤ (Client.openPkt cfg).length := by
    rw [Client.openPkt, List.length_append, Wire.length_signedHeader]
    omega
  rw [Server.step, handlePacket_open h8 rfl, heq]

/-- Every other OPEN is rejected. -/
theorem openPkt_rejected (hcfg : cfg.Admitted) (h : Inv net s)
    (hno : ∀ user, s.config.users.lookup cfg.user = some user → padded cfg.pass ≠ padded user.password) :
    handleOpen net env s remote (Client.openPkt cfg) =
      .ok ⟨s, [.udp openReject remote], env.writeErr⟩ := by
  refine handleOpen_reject fun req user hparse huser => ?_
  rw [parseOpenPacket_openPkt hcfg] at hparse
  cases hparse
  have hname : user.username = cfg.user := h.config.username _ _ huser
  rw [← Bool.not_eq_true, hname]
  exact fun hm => hno user huser ((passwordMatches_iff _ _ _).mp hm)

/-- What answers an accepted OPEN is an OPENACK. -/
theorem openAck_typ {name : Bytes} {mtu : UInt16} {encrypt : Bool} {ack : Bytes} (h : Inv net s)
    (huser : s.config.users.lookup name = some user)
    (hack : buildOpenAck token sessionID mtu user.address s.config.dns encrypt = .ok ack) :
    Wire.typ ack = packetOpenAck := by
  obtain ⟨a, ha, -⟩ := h.config.address4 _ _ huser
  obtain ⟨ds, hds, -⟩ := h.config.dns4
  rw [ha, hds, buildOpenAck_eq] at hack
  cases hack
  rfl

/-- The call answers with an OPENACK, and the user has a live session under the
    ids drawn. -/
def OpensSession (net : Net R) (remote : R) (username : Bytes) (token : Vector UInt8 2)
    (sessionID : Vector UInt8 4) (r : Server.Res R) : Prop :=
  (∃ x ∈ r.server.live, x.key = ⟨net.remoteString remote, token, sessionID⟩ ∧
    x.user.username = username) ∧
  ∃ ack, r.outs = [.udp ack remote] ∧ Wire.typ ack = packetOpenAck

/-- The user map of a reachable server. -/
theorem reachable_users {config : Server.Config} {device : Bool} {openDevice : Except String Unit}
    {tr : List (Server.StepRecord R)} (h0 : newServer net config device openDevice = .ok s₀)
    (h : Trace (Server.Step net) s₀ tr s) (name : Bytes) (user : ConfiguredUser) :
    s.config.users.lookup name = some user ↔
      ∃ u ∈ config.users, u.username = name ∧ user = u.configured net := by
  obtain ⟨hinv, hn, -⟩ := inv_newServer h0
  rw [(reachable_inv hinv h).2]
  exact normalized_users hn name user

/-- **OPEN interoperability.** The packet of every admitted client configuration is
    decoded to that user name, MTU, encryption flag and the password block in the
    packet; and in every reachable state of every server it opens a session exactly
    if the user is configured and the passwords agree after padding or truncation
    to 16 bytes. -/
theorem open_interoperates (hcfg : cfg.Admitted) :
    ∃ pkt block, Client.buildOpenPkt cfg = some pkt ∧
      ⟨2, block.toList⟩ ∈ Wire.items (pkt.drop 24) ∧
      parseOpenPacket pkt = .ok ⟨cfg.user, block, cfg.mtu, cfg.encrypt ≠ 0⟩ ∧
      ∀ (R : Type) (net : Net R) (config : Server.Config) (device : Bool)
        (openDevice : Except String Unit) (s₀ s : Server R) (tr : List (Server.StepRecord R)),
        newServer net config device openDevice = .ok s₀ → Trace (Server.Step net) s₀ tr s →
        ∀ env remote token sessionID, newSessionIDs env = .ok (token, sessionID) →
        ∃ r, handleOpen net env s remote pkt = .ok r ∧
          (OpensSession net remote cfg.user token sessionID r ↔
            ∃ u ∈ config.users, u.username = cfg.user ∧ padded cfg.pass = padded u.password) := by
  refine ⟨_, _, Client.buildOpenPkt_eq hcfg.bounded, passwordBlock_mem_openPkt hcfg,
    parseOpenPacket_openPkt hcfg, ?_⟩
  intro R net config device openDevice s₀ s tr h0 hrun env remote token sessionID hids
  obtain ⟨hinv, -⟩ := reachable_inv (inv_newServer h0).1 hrun
  have husers := reachable_users h0 hrun
  by_cases hacc : ∃ u ∈ config.users, u.username = cfg.user ∧ padded cfg.pass = padded u.password
  · obtain ⟨u, hu, hname, hpass⟩ := hacc
    have huser := (husers cfg.user _).mpr ⟨u, hu, hname, rfl⟩
    obtain ⟨s', ack, heq, hack, -, -, hlive⟩ := openPkt_accepted hcfg hinv huser hpass hids
      remote
    refine ⟨_, heq, ?_⟩
    simp only [OpensSession]
    refine ⟨fun _ => ⟨u, hu, hname, hpass⟩, fun _ => ⟨?_, ack, rfl, openAck_typ hinv huser hack⟩⟩
    exact ⟨_, (hlive _).mpr (.inl rfl), rfl, hname⟩
  · refine ⟨_, openPkt_rejected hcfg hinv fun user huser hpass => ?_, ?_⟩
    · obtain ⟨u, hu, hname, rfl⟩ := (husers cfg.user user).mp huser
      exact hacc ⟨u, hu, hname, hpass⟩
    · constructor
      · rintro ⟨-, ack, houts, htyp⟩
        cases houts
        cases htyp
      · exact fun h => absurd h hacc

end

/-- The OPEN of the README's client. -/
theorem readme_open_interoperates : ∃ pkt, Client.buildOpenPkt Client.readmeConfig = some pkt ∧
    ∃ request, parseOpenPacket pkt = .ok request ∧ request.mtu = 1400 := by
  obtain ⟨pkt, block, hpkt, -, hparse, -⟩ := open_interoperates Client.readmeConfig_admitted
  exact ⟨pkt, hpkt, _, hparse, rfl⟩

/-! ## Data keys -/

section

variable {R : Type} {net : Net R} {env : Server.Env} {s s₀ : Server R} {remote : R}
  {cfg : Client.Config} {config : Server.Config} {device : Bool} {openDevice : Except String Unit}
  {tr : List (Server.StepRecord R)} {token : Vector UInt8 2} {sessionID : Vector UInt8 4} {pkt : Bytes}

/-- The client derives the key that the server holds for the session, and what
    either end encrypts the other decrypts. -/
def SameKey (cfg : Client.Config) (x : Session R) : Prop :=
  ∃ key, Client.deriveXorKey cfg = some key ∧ key = x.user.xorKey ∧
    ∀ plain, xorData x.user.xorKey (Client.xorEncrypt key plain) = plain ∧
      Client.xorEncrypt key (xorData x.user.xorKey plain) = plain

/-- The client and the server use one key on every encrypted session that the
    call opens. -/
def KeysAgree (net : Net R) (env : Server.Env) (s : Server R) (remote : R) (cfg : Client.Config)
    (token : Vector UInt8 2) (sessionID : Vector UInt8 4) (pkt : Bytes) : Prop :=
  ∀ r, handleOpen net env s remote pkt = .ok r →
    OpensSession net remote cfg.user token sessionID r →
    ∀ x ∈ r.server.live, x.key = ⟨net.remoteString remote, token, sessionID⟩ → x.encrypt = true →
      SameKey cfg x

/-- The user's password is the client's whenever it passes for it and both ends
    allow encryption. -/
def SamePassword (config : Server.Config) (cfg : Client.Config) : Prop :=
  ∀ u ∈ config.users, u.username = cfg.user → padded cfg.pass = padded u.password →
    cfg.encrypt ≠ 0 → u.allowEncrypt.getD true = true → cfg.pass = u.password

/-- The data key tells the client's password from the configured one. -/
def KeyTellsApart (config : Server.Config) (cfg : Client.Config) : Prop :=
  ∀ u ∈ config.users, u.username = cfg.user →
    deriveXORKey cfg.user cfg.pass = deriveXORKey cfg.user u.password → cfg.pass = u.password

/-- The keys are the same exactly if the two hashes are. -/
theorem sameKey_iff (hcfg : cfg.Admitted) (x : Session R) :
    SameKey cfg x ↔ deriveXORKey cfg.user cfg.pass = x.user.xorKey := by
  constructor
  · rintro ⟨key, hkey, rfl, -⟩
    rw [Client.deriveXorKey_eq hcfg.bounded] at hkey
    exact Option.some.inj hkey
  · intro h
    refine ⟨x.user.xorKey, (Client.deriveXorKey_eq hcfg.bounded).trans (congrArg some h), rfl, fun plain => ?_⟩
    exact ⟨xorCycle_xorCycle _ _, xorCycle_xorCycle _ _⟩

/-- A call that opens a session for a user accepts that user's password, and the
    session under the ids drawn is the one just built. -/
theorem opened_session (hcfg : cfg.Admitted)
    (h0 : newServer net config device openDevice = .ok s₀) (hrun : Trace (Server.Step net) s₀ tr s)
    (hids : newSessionIDs env = .ok (token, sessionID)) {r : Server.Res R}
    (hr : handleOpen net env s remote (Client.openPkt cfg) = .ok r)
    (hopens : OpensSession net remote cfg.user token sessionID r) {x : Session R}
    (hx : x ∈ r.server.live) (hkey : x.key = ⟨net.remoteString remote, token, sessionID⟩) :
    ∃ u ∈ config.users, u.username = cfg.user ∧ padded cfg.pass = padded u.password ∧
      x = sessionOf net env s remote cfg (u.configured net) token sessionID := by
  obtain ⟨hinv, -⟩ := reachable_inv (inv_newServer h0).1 hrun
  have husers := reachable_users h0 hrun
  by_cases hacc : ∃ user, s.config.users.lookup cfg.user = some user ∧
      padded cfg.pass = padded user.password
  · obtain ⟨user, huser, hpass⟩ := hacc
    obtain ⟨s', ack, heq, -, -, -, hlive⟩ := openPkt_accepted hcfg hinv huser hpass hids
      remote
    rw [heq] at hr
    cases hr
    obtain ⟨u, hu, hname, rfl⟩ := (husers cfg.user user).mp huser
    refine ⟨u, hu, hname, hpass, ?_⟩
    rcases (hlive x).mp hx with rfl | ⟨-, hold⟩
    · rfl
    · exact absurd (.inl (by rw [hkey])) hold
  · rw [openPkt_rejected hcfg hinv fun user huser hpass => hacc ⟨user, huser, hpass⟩] at hr
    cases hr
    obtain ⟨-, ack, houts, htyp⟩ := hopens
    cases houts
    cases htyp

/-- **Data keys.** The OPEN of an admitted client configuration, at any reachable
    state of any server: if the password behind every session it can open encrypted
    is the client's password and not only one with the same first 16 bytes, then
    both ends hold one key and decrypt what the other sends. If it is not, they hold
    different keys, as far as the first 8 bytes of MD5 tell the passwords apart. -/
theorem data_keys_agree (hcfg : cfg.Admitted) (hpkt : Client.buildOpenPkt cfg = some pkt)
    (h0 : newServer net config device openDevice = .ok s₀) (hrun : Trace (Server.Step net) s₀ tr s)
    (hids : newSessionIDs env = .ok (token, sessionID)) :
    (SamePassword config cfg → KeysAgree net env s remote cfg token sessionID pkt) ∧
    (KeyTellsApart config cfg → KeysAgree net env s remote cfg token sessionID pkt →
      SamePassword config cfg) := by
  rw [Client.buildOpenPkt_eq hcfg.bounded] at hpkt
  cases hpkt
  constructor
  · intro hsame r hr hopens x hx hkey henc
    obtain ⟨u, hu, hname, hpass, rfl⟩ := opened_session hcfg h0 hrun hids hr hopens hx hkey
    have hboth : cfg.encrypt ≠ 0 ∧ u.allowEncrypt.getD true = true := by
      simpa [sessionOf, nextSession, request, UserConfig.configured] using henc
    rw [sameKey_iff hcfg, hsame u hu hname hpass hboth.1 hboth.2, ← hname]
    rfl
  · intro htells hagree u hu hname hpass henc hallow
    obtain ⟨hinv, -⟩ := reachable_inv (inv_newServer h0).1 hrun
    have huser := (reachable_users h0 hrun cfg.user _).mpr ⟨u, hu, hname, rfl⟩
    obtain ⟨s', ack, heq, hack, -, -, hlive⟩ := openPkt_accepted hcfg hinv huser hpass hids
      remote
    have hx := (hlive _).mpr (.inl rfl)
    have hsame := hagree _ heq ⟨⟨_, hx, rfl, hname⟩, ack, rfl, openAck_typ hinv huser hack⟩ _ hx rfl
      (by simp [sessionOf, nextSession, request, UserConfig.configured, henc, hallow])
    refine htells u hu hname ?_
    rw [sameKey_iff hcfg] at hsame
    rw [hsame, ← hname]
    rfl

end

/-- The client of `alice` with encryption on; `cfg_load` copies 31 bytes of the
    password. -/
def aliceConfig (password : Bytes) : Client.Config :=
  { Client.readmeConfig with
    username := toArr 32 alice.username
    password := toArr 32 (password.take 31)
    encrypt := 1 }

/-- With the password of the example configuration both ends hold one key. -/
theorem alice_data_keys_agree : ∃ (s₀ : Server Bytes) (pkt : Bytes),
    newServer exampleNet (exampleConfig false) false (.ok ()) = .ok s₀ ∧
      Client.buildOpenPkt (aliceConfig alice.password) = some pkt ∧
      KeysAgree exampleNet (calmEnv 0) s₀ alice.address (aliceConfig alice.password)
        (Vector.replicate 2 0) (Vector.replicate 4 0) pkt := by
  have hcfg : (aliceConfig alice.password).Admitted := by constructor <;> decide
  obtain ⟨s₀, h0, -⟩ := example_newServer false
  refine ⟨s₀, _, h0, Client.buildOpenPkt_eq hcfg.bounded, ?_⟩
  refine (data_keys_agree hcfg (Client.buildOpenPkt_eq hcfg.bounded) h0 .nil rfl).1 ?_
  rintro u hu hname - - -
  simp only [exampleConfig, List.mem_cons, List.not_mem_nil, or_false] at hu
  rcases hu with rfl | rfl
  · decide
  · exact absurd hname (by decide)

/-- A new server opens a session for a client with the password of its user. -/
theorem newServer_opens {cfg : Client.Config} (hcfg : cfg.Admitted) (config : Server.Config)
    (hv : validate exampleNet config = .ok config) {u : UserConfig} (hu : u ∈ config.users)
    (hname : u.username = cfg.user) (hpass : padded cfg.pass = padded u.password) :
    ∃ s₀ r ack, newServer exampleNet config false (.ok ()) = .ok s₀ ∧ s₀.config.mtu = config.mtu ∧
      handleOpen exampleNet (calmEnv 0) s₀ alice.address (Client.openPkt cfg) = .ok r ∧
      r.outs = [.udp ack alice.address] ∧
      OpensSession exampleNet alice.address cfg.user (Vector.replicate 2 0) (Vector.replicate 4 0) r ∧
      sessionOf exampleNet (calmEnv 0) s₀ alice.address cfg (u.configured exampleNet)
        (Vector.replicate 2 0) (Vector.replicate 4 0) ∈ r.server.live := by
  obtain ⟨n, hn, -, hmtu, -⟩ := normalized_valid hv
  have h0 : newServer exampleNet config false (.ok ()) =
      .ok { config := n, exit := n.exit.enabled, heap := [], sessions := ∅, byAddress := ∅ } := by
    rw [newServer, hn, Go.bind_ok]
    split_ifs <;> rfl
  have hinv := (inv_newServer h0).1
  have huser := (reachable_users h0 .nil cfg.user _).mpr ⟨u, hu, hname, rfl⟩
  obtain ⟨s', ack, heq, hack, -, -, hlive⟩ := openPkt_accepted hcfg hinv huser hpass
    (newSessionIDs_calmEnv 0) alice.address
  have hx := (hlive _).mpr (.inl rfl)
  exact ⟨_, _, ack, h0, hmtu, heq, rfl,
    ⟨⟨_, hx, rfl, hname⟩, ack, rfl, openAck_typ hinv huser hack⟩, hx⟩

/-- A password that `cfg_load` cuts by one byte. -/
def longPassword : Bytes := List.replicate 32 97

/-- The example configuration with that password for `alice`. -/
def longConfig : Server.Config :=
  { exampleConfig false with users := [{ alice with password := longPassword }] }

/-- Both configurations hold the same password of 32 bytes: the OPEN is accepted,
    the session is encrypted, and the two ends hold different keys. -/
theorem long_password_keys_differ : ∃ (s₀ : Server Bytes) (pkt : Bytes) (r : Server.Res Bytes)
    (x : Session Bytes),
    newServer exampleNet longConfig false (.ok ()) = .ok s₀ ∧
      Client.buildOpenPkt (aliceConfig longPassword) = some pkt ∧
      handleOpen exampleNet (calmEnv 0) s₀ alice.address pkt = .ok r ∧
      OpensSession exampleNet alice.address alice.username (Vector.replicate 2 0)
        (Vector.replicate 4 0) r ∧
      x ∈ r.server.live ∧ x.user.username = alice.username ∧ x.encrypt = true ∧
      Client.deriveXorKey (aliceConfig longPassword) ≠ some x.user.xorKey := by
  have hcfg : (aliceConfig longPassword).Admitted := by constructor <;> decide
  obtain ⟨s₀, r, ack, h0, -, hr, -, hopens, hx⟩ := newServer_opens hcfg longConfig
    (by decide +kernel) (List.mem_singleton.mpr rfl) (by decide) (by decide)
  refine ⟨s₀, _, r, _, h0, Client.buildOpenPkt_eq hcfg.bounded, hr, hopens, hx, rfl, rfl, ?_⟩
  rw [Client.deriveXorKey_eq hcfg.bounded]
  intro h
  have hkeys : Client.dataKey alice.username (List.replicate 31 97) ≠
      deriveXORKey alice.username longPassword := by
    decide +kernel
  exact hkeys (Option.some.inj h)

end Iwand.EndToEnd
