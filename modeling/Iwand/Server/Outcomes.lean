import Iwand.Server.Sessions

/-!
# Everything the server can do in one call

`Outcome net env s remote packet r` lists what `handlePacket` can do, with the
conditions on the packet and the live sessions; `ExitOutcome` does so for
`handleExitPacket`. The lists are complete, no call panics, and each call keeps
the invariant. Claims about the server are proved by cases on them.

* `handlePacket_outcome`, `handleExitPacket_outcome`: one call.
* `handleOpen_accept`, `handleOpen_reject`, `handleData_eq`: what the handlers
  do on the packets they accept.
-/

namespace Iwand.Server

open Go

variable {R : Type}

/-! ## Outcomes -/

/-- The payload of a data packet of session `x`, decrypted. -/
def plaintext (x : Session R) (packet : Bytes) : Bytes :=
  if Wire.typ packet = packetDataEnc then xorData x.user.xorKey (packet.drop 8) else packet.drop 8

/-- The data packet that carries `payload` to session `x`. -/
def dataFor (x : Session R) (payload : Bytes) : Bytes :=
  dataPacket x.key.token x.key.sessionID payload x.encrypt x.user.xorKey

theorem dataFor_renew (key : SessionKey) (now : ℕ) (x : Session R) (payload : Bytes) :
    dataFor (renew key now x) payload = dataFor x payload := by
  simp [dataFor]

theorem plaintext_renew (key : SessionKey) (now : ℕ) (x : Session R) (packet : Bytes) :
    plaintext (renew key now x) packet = plaintext x packet := by
  simp [plaintext]

/-- A data packet whose type fits the session that it belongs to. -/
structure DataOf (net : Net R) (s : Server R) (remote : R) (packet : Bytes) (x : Session R) :
    Prop where
  live : x ∈ s.live
  key : x.key = packetKey net remote packet
  typ : Wire.typ packet = if x.encrypt then packetDataEnc else packetData

/-- What `handlePacket` can do. -/
inductive Outcome (net : Net R) (env : Env) (s : Server R) (remote : R) (packet : Bytes) :
    Res R → Prop
  /-- The packet is ignored. -/
  | ignored : Outcome net env s remote packet ⟨s, [], none⟩
  /-- An OPEN is rejected. -/
  | rejected (htyp : Wire.typ packet = packetOpen) :
      Outcome net env s remote packet ⟨s, [.udp openReject remote], env.writeErr⟩
  /-- No random numbers. -/
  | noIds (msg : String) (hids : newSessionIDs env = .error msg) :
      Outcome net env s remote packet ⟨s, [], some msg⟩
  /-- An OPEN is accepted. -/
  | opened (request : OpenRequest) (user : ConfiguredUser) (token : Vector UInt8 2)
      (sessionID : Vector UInt8 4) (s' : Server R) (ack : Bytes)
      (hparse : parseOpenPacket packet = .ok request)
      (huser : s.config.users.lookup request.username = some user)
      (hpass : passwordMatches user.username user.password request.passwordBlock = true)
      (hids : newSessionIDs env = .ok (token, sessionID))
      (hack : buildOpenAck token sessionID
        (nextSession net env s remote request user token sessionID).mtu user.address s.config.dns
        (nextSession net env s remote request user token sessionID).encrypt = .ok ack)
      (hconfig : s'.config = s.config)
      (hlive : ∀ y, y ∈ s'.live ↔
        y = nextSession net env s remote request user token sessionID ∨
        y ∈ s.live ∧ ¬ Replaced (net.remoteString remote) user.username y) :
      Outcome net env s remote packet ⟨s', [.udp ack remote], env.writeErr⟩
  /-- A CLOSE removes its session. -/
  | closed (x : Session R) (s' : Server R) (hx : x ∈ s.live)
      (hkey : x.key = packetKey net remote packet) (htyp : Wire.typ packet = packetClose)
      (hsig : Wire.Signed packet) (hconfig : s'.config = s.config)
      (hlive : ∀ y, y ∈ s'.live ↔ y ∈ s.live ∧ y.key ≠ x.key) :
      Outcome net env s remote packet ⟨s', [], none⟩
  /-- An ECHOREQ is answered. -/
  | echoed (x : Session R) (s' : Server R) (hx : x ∈ s.live)
      (hkey : x.key = packetKey net remote packet) (htyp : Wire.typ packet = packetEchoReq)
      (hsig : Wire.Signed packet) (hren : Renewed net s x.key env.now s') :
      Outcome net env s remote packet
        ⟨s', [.udp (Wire.signedHeader packetEchoResp 0 x.key.token x.key.sessionID ++
          packet.drop 24) x.remote], env.writeErr⟩
  /-- A data packet is dropped after its session was renewed. -/
  | dropped (x : Session R) (s' : Server R) (hx : x ∈ s.live)
      (hkey : x.key = packetKey net remote packet)
      (htyp : Wire.typ packet = packetData ∨ Wire.typ packet = packetDataEnc)
      (hren : Renewed net s x.key env.now s') :
      Outcome net env s remote packet ⟨s', [], none⟩
  /-- A data packet goes to the session that owns its destination. -/
  | relayed (x y : Session R) (s' : Server R) (hx : DataOf net s remote packet x)
      (hren : Renewed net s x.key env.now s') (hwf : IPv4.WellFormed (plaintext x packet))
      (hsrc : s.config.exit.enabled = true → s.config.exit.strictSource = true →
        IPv4.source (plaintext x packet) = x.user.address)
      (hy : y ∈ s'.live) (hdst : IPv4.destination (plaintext x packet) = y.user.address) :
      Outcome net env s remote packet
        ⟨s', [.udp (dataFor y (if s.config.exit.enabled then
          (plaintext x packet).take (IPv4.totalLength (plaintext x packet))
          else plaintext x packet)) y.remote], env.writeErr⟩
  /-- A data packet goes to the exit device. -/
  | exited (x : Session R) (s' : Server R) (hx : DataOf net s remote packet x)
      (hren : Renewed net s x.key env.now s') (hwf : IPv4.WellFormed (plaintext x packet))
      (hen : s.config.exit.enabled = true)
      (hsrc : s.config.exit.strictSource = true →
        IPv4.source (plaintext x packet) = x.user.address)
      (hdst : ∀ y ∈ s'.live, y.user.address ≠ IPv4.destination (plaintext x packet)) :
      Outcome net env s remote packet
        ⟨s', [.exit ((plaintext x packet).take (IPv4.totalLength (plaintext x packet)))],
          env.exitErr⟩
  /-- Without exit mode a data packet for nobody goes back to its sender. -/
  | bounced (x : Session R) (s' : Server R) (hx : DataOf net s remote packet x)
      (hren : Renewed net s x.key env.now s') (hen : s.config.exit.enabled = false)
      (hdst : IPv4.WellFormed (plaintext x packet) →
        ∀ y ∈ s'.live, y.user.address ≠ IPv4.destination (plaintext x packet)) :
      Outcome net env s remote packet
        ⟨s', [.udp (dataFor x (plaintext x packet)) x.remote], env.writeErr⟩

/-- What `handleExitPacket` can do. -/
inductive ExitOutcome (env : Env) (s : Server R) (payload : Bytes) : Res R → Prop
  | ignored : ExitOutcome env s payload ⟨s, [], none⟩
  /-- The packet goes to the session that owns its destination. -/
  | demuxed (y : Session R) (hwf : IPv4.WellFormed payload) (hy : y ∈ s.live)
      (hdst : IPv4.destination payload = y.user.address) :
      ExitOutcome env s payload
        ⟨s, [.udp (dataFor y (payload.take (IPv4.totalLength payload))) y.remote], env.writeErr⟩

/-! ## Data -/

section

variable {net : Net R} {env : Env} {s : Server R} {remote : R} {packet p : Bytes}
  {x y : Session R}

theorem sendData_eq (env : Env) (s : Server R) (y : Session R) (payload : Bytes) :
    sendData env s (sessionToOutbound y) payload =
      .ok ⟨s, [.udp (dataFor y payload) y.remote], env.writeErr⟩ := by
  simp only [sendData, sessionToOutbound, buildDataPacket_eq, bind_ok]
  rfl

theorem attempt_parse_ok (h : IPv4.WellFormed p) : attempt (parseIPv4Packet p) =
    .ok (.ok ⟨p.take (IPv4.totalLength p), IPv4.source p, IPv4.destination p⟩) := by
  rw [parseIPv4Packet_eq h]
  rfl

theorem attempt_parse_error (h : ¬ IPv4.WellFormed p) :
    ∃ msg, attempt (parseIPv4Packet p) = .ok (.error msg) := by
  obtain ⟨msg, hmsg⟩ := parseIPv4Packet_fail h
  exact ⟨msg, by rw [hmsg]; rfl⟩

/-- The check on the source address in exit mode. -/
def Spoofed (s : Server R) (x : Session R) (p : Bytes) : Prop :=
  s.config.exit.enabled = true ∧ s.config.exit.strictSource = true ∧
    IPv4.source p ≠ x.user.address

/-- A packet for a live session is sent to it. -/
theorem routePayload_relay (hl : Linked s) (hwf : IPv4.WellFormed p) (hsrc : ¬ Spoofed s x p)
    (hy : y ∈ s.live) (hdst : IPv4.destination p = y.user.address) :
    routePayload env s (sessionToOutbound x) p =
      .ok ⟨s, [.udp (dataFor y (if s.config.exit.enabled then p.take (IPv4.totalLength p) else p))
        y.remote], env.writeErr⟩ := by
  simp only [routePayload, attempt_parse_ok hwf, bind_ok]
  rw [if_neg (show ¬ (_ ∧ _ ∧ IPv4.source p ≠ (sessionToOutbound x).address) from hsrc), hdst,
    outboundForAddress_live hl hy, bind_ok]
  simp only [sendData_eq]

/-- A packet for nobody goes to the exit device, or back. -/
theorem routePayload_nobody (h : Inv net s) (hwf : IPv4.WellFormed p) (hsrc : ¬ Spoofed s x p)
    (hdst : ∀ y ∈ s.live, y.user.address ≠ IPv4.destination p) :
    routePayload env s (sessionToOutbound x) p =
      if s.config.exit.enabled then .ok ⟨s, [.exit (p.take (IPv4.totalLength p))], env.exitErr⟩
      else .ok ⟨s, [.udp (dataFor x p) x.remote], env.writeErr⟩ := by
  simp only [routePayload, attempt_parse_ok hwf, bind_ok]
  rw [if_neg (show ¬ (_ ∧ _ ∧ IPv4.source p ≠ (sessionToOutbound x).address) from hsrc),
    outboundForAddress_none h.linked hdst, bind_ok]
  simp only [sendData_eq]
  split_ifs with hen hdev
  · rw [h.exit, hen] at hdev
    cases hdev
  · rfl
  · rfl

theorem routePayload_spoofed (hwf : IPv4.WellFormed p) (hsrc : Spoofed s x p) :
    routePayload env s (sessionToOutbound x) p = .ok ⟨s, [], none⟩ := by
  simp only [routePayload, attempt_parse_ok hwf, bind_ok]
  rw [if_pos (show _ ∧ _ ∧ IPv4.source p ≠ (sessionToOutbound x).address from hsrc)]
  rfl

theorem routePayload_malformed (hwf : ¬ IPv4.WellFormed p) :
    routePayload env s (sessionToOutbound x) p =
      if s.config.exit.enabled then .ok ⟨s, [], none⟩
      else .ok ⟨s, [.udp (dataFor x p) x.remote], env.writeErr⟩ := by
  obtain ⟨msg, hmsg⟩ := attempt_parse_error hwf
  simp only [routePayload, hmsg, bind_ok, sendData_eq]
  rfl

theorem typ_eq (h : 0 < packet.length) : idx packet 0 = .ok (Wire.typ packet) := by
  rw [idx_eq h, Wire.typ, List.getD_eq_getElem]

/-- A data packet of a live session: the session is renewed and the plaintext
    routed. -/
theorem handleData_eq (h : Inv net s) (env : Env) (h8 : 8 < packet.length)
    (hx : DataOf net s remote packet x) :
    ∃ s', Renewed net s x.key env.now s' ∧ handleData net env s remote packet =
      routePayload env s' (sessionToOutbound x) (plaintext x packet) := by
  obtain ⟨s', hs', hren⟩ := sessionForPacket_live h env remote (by omega) hx.live hx.key
  refine ⟨s', hren, ?_⟩
  have hgate : ¬ (Wire.typ packet = packetDataEnc ∧ x.encrypt = false) ∧
      ¬ (Wire.typ packet = packetData ∧ x.encrypt = true) := by
    rw [hx.typ]
    cases x.encrypt <;> decide
  rw [handleData, if_neg (show ¬ packet.length ≤ 8 by omega), hs', bind_ok]
  simp only [typ_eq (show 0 < packet.length by omega), bind_ok]
  rw [if_neg (show ¬ (_ ∧ (sessionToOutbound x).encrypt = false) from hgate.1),
    if_neg (show ¬ (_ ∧ (sessionToOutbound x).encrypt = true) from hgate.2),
    sliceFrom_eq (by simp; omega), bind_ok]
  rfl

/-- A data packet whose type does not fit its session renews the session. -/
theorem handleData_unfit (h : Inv net s) (env : Env) (h8 : 8 < packet.length) (hx : x ∈ s.live)
    (hkey : x.key = packetKey net remote packet)
    (htyp : Wire.typ packet = packetData ∨ Wire.typ packet = packetDataEnc)
    (hgate : Wire.typ packet ≠ if x.encrypt then packetDataEnc else packetData) :
    ∃ s', Renewed net s x.key env.now s' ∧
      handleData net env s remote packet = .ok ⟨s', [], none⟩ := by
  obtain ⟨s', hs', hren⟩ := sessionForPacket_live h env remote (by omega) hx hkey
  refine ⟨s', hren, ?_⟩
  rw [handleData, if_neg (show ¬ packet.length ≤ 8 by omega), hs', bind_ok]
  simp only [typ_eq (show 0 < packet.length by omega), bind_ok]
  rcases htyp with htyp | htyp
  · have henc : x.encrypt = true := by
      by_contra hne
      rw [if_neg hne] at hgate
      exact hgate htyp
    rw [if_neg (fun hc => absurd (htyp.symm.trans hc.1) (by decide)),
      if_pos (show _ ∧ (sessionToOutbound x).encrypt = true from ⟨htyp, henc⟩)]
    rfl
  · have henc : x.encrypt = false := by
      rw [← Bool.not_eq_true]
      intro he
      rw [if_pos he] at hgate
      exact hgate htyp
    rw [if_pos (show _ ∧ (sessionToOutbound x).encrypt = false from ⟨htyp, henc⟩)]
    rfl

/-- Where the plaintext of a data packet goes, after its session was renewed. -/
theorem routePayload_outcome {s' : Server R} (hdata : DataOf net s remote packet x)
    (hren : Renewed net s x.key env.now s')
    (htyp : Wire.typ packet = packetData ∨ Wire.typ packet = packetDataEnc) :
    ∃ r, routePayload env s' (sessionToOutbound x) (plaintext x packet) = .ok r ∧
      Inv net r.server ∧ Outcome net env s remote packet r := by
  have hcfg := hren.config
  by_cases hwf : IPv4.WellFormed (plaintext x packet)
  swap
  · rw [routePayload_malformed hwf]
    split_ifs with hen
    · exact ⟨_, rfl, hren.inv, .dropped x s' hdata.live hdata.key htyp hren⟩
    · rw [hcfg, Bool.not_eq_true] at hen
      exact ⟨_, rfl, hren.inv, .bounced x s' hdata hren hen fun hw => absurd hw hwf⟩
  by_cases hsp : Spoofed s' x (plaintext x packet)
  · rw [routePayload_spoofed hwf hsp]
    exact ⟨_, rfl, hren.inv, .dropped x s' hdata.live hdata.key htyp hren⟩
  have hsrc : s.config.exit.enabled = true → s.config.exit.strictSource = true →
      IPv4.source (plaintext x packet) = x.user.address := by
    intro hen hst
    by_contra hne
    exact hsp ⟨hcfg ▸ hen, hcfg ▸ hst, hne⟩
  by_cases hdst : ∃ y ∈ s'.live, IPv4.destination (plaintext x packet) = y.user.address
  · obtain ⟨y, hy, hd⟩ := hdst
    rw [routePayload_relay hren.inv.linked hwf hsp hy hd, hcfg]
    exact ⟨_, rfl, hren.inv, .relayed x y s' hdata hren hwf hsrc hy hd⟩
  · have hnone : ∀ y ∈ s'.live, y.user.address ≠ IPv4.destination (plaintext x packet) :=
      fun y hy hd => hdst ⟨y, hy, hd.symm⟩
    rw [routePayload_nobody hren.inv hwf hsp hnone, hcfg]
    split_ifs with hen
    · exact ⟨_, rfl, hren.inv, .exited x s' hdata hren hwf hen (hsrc hen) hnone⟩
    · rw [Bool.not_eq_true] at hen
      exact ⟨_, rfl, hren.inv, .bounced x s' hdata hren hen fun _ => hnone⟩

theorem handleData_outcome (h : Inv net s) (h8 : 8 ≤ packet.length)
    (htyp : Wire.typ packet = packetData ∨ Wire.typ packet = packetDataEnc) :
    ∃ r, handleData net env s remote packet = .ok r ∧ Inv net r.server ∧
      Outcome net env s remote packet r := by
  by_cases hlen : packet.length ≤ 8
  · exact ⟨_, by rw [handleData, if_pos hlen]; rfl, h, .ignored⟩
  by_cases hlive : ∃ x ∈ s.live, x.key = packetKey net remote packet
  swap
  · have hnone : ∀ x ∈ s.live, x.key ≠ packetKey net remote packet := fun x hx hk =>
      hlive ⟨x, hx, hk⟩
    refine ⟨_, ?_, h, .ignored⟩
    rw [handleData, if_neg hlen, sessionForPacket_none h.linked env remote h8 hnone]
    rfl
  obtain ⟨x, hx, hkey⟩ := hlive
  by_cases hgate : Wire.typ packet = if x.encrypt then packetDataEnc else packetData
  · have hdata : DataOf net s remote packet x := ⟨hx, hkey, hgate⟩
    obtain ⟨s', hren, heq⟩ := handleData_eq h env (by omega) hdata
    rw [heq]
    exact routePayload_outcome hdata hren htyp
  · obtain ⟨s', hren, heq⟩ := handleData_unfit h env (by omega) hx hkey htyp hgate
    exact ⟨_, heq, hren.inv, .dropped x s' hx hkey htyp hren⟩

/-! ## The other packets -/

/-- `handleOpen` by the result of `parseOpenPacket` and the user table. -/
theorem handleOpen_reject
    (hrej : ∀ request user, parseOpenPacket packet = .ok request →
      s.config.users.lookup request.username = some user →
      passwordMatches user.username user.password request.passwordBlock = false) :
    handleOpen net env s remote packet = .ok ⟨s, [.udp openReject remote], env.writeErr⟩ := by
  obtain ⟨r, hr, hiff⟩ := (parseOpenPacket_noPanic packet).attempt
  rw [handleOpen, hr, bind_ok]
  cases r with
  | error msg =>
    simp only [buildOpenReject_eq, bind_ok]
    rfl
  | ok request =>
    have hparse := (hiff request).mp rfl
    simp only [buildOpenReject_eq, bind_ok]
    cases huser : s.config.users.lookup request.username with
    | none => rfl
    | some user =>
      simp only [hrej request user hparse huser, if_true]
      rfl

theorem handleOpen_accept {request : OpenRequest} {user : ConfiguredUser}
    (hparse : parseOpenPacket packet = .ok request)
    (huser : s.config.users.lookup request.username = some user)
    (hpass : passwordMatches user.username user.password request.passwordBlock = true) :
    handleOpen net env s remote packet =
      match newSessionIDs env with
      | .error msg => .ok ⟨s, [], some msg⟩
      | .ok (token, sessionID) =>
        openSession net env s (nextSession net env s remote request user token sessionID) := by
  rw [handleOpen, hparse]
  simp only [attempt, bind_ok, huser, hpass, Bool.true_eq_false, if_false]
  rfl

/-- The session of an accepted OPEN satisfies the invariant. -/
theorem nextSession_ok (h : Inv net s) (env : Env) (remote : R) {request : OpenRequest}
    {user : ConfiguredUser} (hparse : parseOpenPacket packet = .ok request)
    (huser : s.config.users.lookup request.username = some user) (token : Vector UInt8 2)
    (sessionID : Vector UInt8 4) :
    SessionOk net s.config (nextSession net env s remote request user token sessionID) := by
  obtain ⟨-, -, -, -, hmin, -⟩ := parseOpenPacket_ok hparse
  have hname : user.username = request.username := h.config.username _ _ huser
  refine ⟨?_, ?_, ?_, ?_, rfl⟩
  · show s.config.users.lookup user.username = some user
    rw [hname]
    exact huser
  · intro henc
    simp only [nextSession, Bool.and_eq_true] at henc
    exact henc.2
  · simp only [nextSession]
    split_ifs
    · exact hmin
    · exact h.config.mtu_min
  · simp only [nextSession]
    split_ifs with hlt
    · exact UInt16.le_of_lt hlt
    · exact UInt16.le_refl _

theorem handleOpen_outcome (h : Inv net s) (htyp : Wire.typ packet = packetOpen) :
    ∃ r, handleOpen net env s remote packet = .ok r ∧ Inv net r.server ∧
      Outcome net env s remote packet r := by
  by_cases hacc : ∃ request user, parseOpenPacket packet = .ok request ∧
      s.config.users.lookup request.username = some user ∧
      passwordMatches user.username user.password request.passwordBlock = true
  swap
  · refine ⟨_, handleOpen_reject fun request user hparse huser => ?_, h, .rejected htyp⟩
    rw [← Bool.not_eq_true]
    exact fun hpass => hacc ⟨request, user, hparse, huser, hpass⟩
  obtain ⟨request, user, hparse, huser, hpass⟩ := hacc
  rw [handleOpen_accept hparse huser hpass]
  cases hids : newSessionIDs env with
  | error msg => exact ⟨_, rfl, h, .noIds msg hids⟩
  | ok ids =>
    obtain ⟨token, sessionID⟩ := ids
    obtain ⟨s', ack, heq, hack, hinv, hconfig, hlive⟩ := openSession_spec env h
      (nextSession_ok h env remote hparse huser token sessionID)
    exact ⟨_, heq, hinv, .opened request user token sessionID s' ack hparse huser hpass hids hack
      hconfig hlive⟩

/-- A signed ECHOREQ of a live session is answered with its own payload. -/
theorem handleEchoReq_live (h : Inv net s) (env : Env) (hx : x ∈ s.live)
    (hkey : x.key = packetKey net remote packet) (hsig : Wire.Signed packet) :
    ∃ s', Renewed net s x.key env.now s' ∧ handleEchoReq net env s remote packet =
      .ok ⟨s', [.udp (Wire.signedHeader packetEchoResp 0 x.key.token x.key.sessionID ++
        packet.drop 24) x.remote], env.writeErr⟩ := by
  have h24 := hsig.1
  obtain ⟨s', hs', hren⟩ := sessionForPacket_live h env remote (by omega) hx hkey
  refine ⟨s', hren, ?_⟩
  rw [handleEchoReq, verifyPacket_eq, bind_ok, decide_eq_true hsig, if_neg (by simp), hs']
  simp only [bind_ok, sliceFrom_eq (show signedHeaderSize ≤ packet.length from h24),
    buildEchoResp_eq]
  rfl

theorem handleEchoReq_outcome (h : Inv net s) (htyp : Wire.typ packet = packetEchoReq) :
    ∃ r, handleEchoReq net env s remote packet = .ok r ∧ Inv net r.server ∧
      Outcome net env s remote packet r := by
  by_cases hsig : Wire.Signed packet
  swap
  · rw [handleEchoReq, verifyPacket_eq, bind_ok, decide_eq_false hsig, if_pos rfl]
    exact ⟨_, rfl, h, .ignored⟩
  by_cases hlive : ∃ x ∈ s.live, x.key = packetKey net remote packet
  · obtain ⟨x, hx, hkey⟩ := hlive
    obtain ⟨s', hren, heq⟩ := handleEchoReq_live h env hx hkey hsig
    exact ⟨_, heq, hren.inv, .echoed x s' hx hkey htyp hsig hren⟩
  · have h24 := hsig.1
    rw [handleEchoReq, verifyPacket_eq, bind_ok, decide_eq_true hsig, if_neg (by simp),
      sessionForPacket_none h.linked env remote (by omega) fun x hx hk => hlive ⟨x, hx, hk⟩]
    exact ⟨_, rfl, h, .ignored⟩

theorem handleClose_outcome (h : Inv net s) (htyp : Wire.typ packet = packetClose) :
    ∃ r, handleClose net s remote packet = .ok r ∧ Inv net r.server ∧
      Outcome net env s remote packet r := by
  rw [handleClose, verifyPacket_eq, bind_ok]
  by_cases hsig : Wire.Signed packet
  swap
  · rw [decide_eq_false hsig, if_pos rfl]
    exact ⟨_, rfl, h, .ignored⟩
  have h24 := hsig.1
  rw [decide_eq_true hsig, if_neg (by simp), keyFromPacket_eq remote (by omega), bind_ok]
  cases hlook : s.sessions.lookup (packetKey net remote packet) with
  | none => exact ⟨_, rfl, h, .ignored⟩
  | some p =>
    obtain ⟨x, hx, hkey⟩ := h.linked.at_of_lookup hlook
    obtain ⟨s', hs', hinv, hconfig, hlive⟩ := removeSessionLocked_live h hx
    simp only [hs', bind_ok]
    exact ⟨_, rfl, hinv, .closed x s' ⟨p, hx⟩ hkey htyp hsig hconfig hlive⟩

section

variable (h8 : 8 ≤ packet.length)

include h8

theorem handlePacket_open (htyp : Wire.typ packet = packetOpen) :
    handlePacket net env s remote packet = handleOpen net env s remote packet := by
  rw [handlePacket, if_neg (show ¬ packet.length < 8 by omega), typ_eq (by omega), bind_ok,
    if_pos htyp]

theorem handlePacket_echoReq (htyp : Wire.typ packet = packetEchoReq) :
    handlePacket net env s remote packet = handleEchoReq net env s remote packet := by
  rw [handlePacket, if_neg (show ¬ packet.length < 8 by omega), typ_eq (by omega), bind_ok, htyp,
    if_neg (by decide), if_pos rfl]

theorem handlePacket_close (htyp : Wire.typ packet = packetClose) :
    handlePacket net env s remote packet = handleClose net s remote packet := by
  rw [handlePacket, if_neg (show ¬ packet.length < 8 by omega), typ_eq (by omega), bind_ok, htyp,
    if_neg (by decide), if_neg (by decide), if_pos rfl]

theorem handlePacket_data
    (htyp : Wire.typ packet = packetData ∨ Wire.typ packet = packetDataEnc) :
    handlePacket net env s remote packet = handleData net env s remote packet := by
  rw [handlePacket, if_neg (show ¬ packet.length < 8 by omega), typ_eq (by omega), bind_ok,
    if_neg (by rcases htyp with h | h <;> rw [h] <;> decide),
    if_neg (by rcases htyp with h | h <;> rw [h] <;> decide),
    if_neg (by rcases htyp with h | h <;> rw [h] <;> decide), if_pos htyp]

end

/-- **Completeness of the outcomes.** Every packet is handled without a panic. -/
theorem handlePacket_outcome (h : Inv net s) (env : Env) (remote : R) (packet : Bytes) :
    ∃ r, handlePacket net env s remote packet = .ok r ∧ Inv net r.server ∧
      Outcome net env s remote packet r := by
  by_cases h8 : packet.length < 8
  · exact ⟨_, by rw [handlePacket, if_pos h8]; rfl, h, .ignored⟩
  have h8' : 8 ≤ packet.length := by omega
  by_cases h1 : Wire.typ packet = packetOpen
  · rw [handlePacket_open h8' h1]
    exact handleOpen_outcome h h1
  by_cases h2 : Wire.typ packet = packetEchoReq
  · rw [handlePacket_echoReq h8' h2]
    exact handleEchoReq_outcome h h2
  by_cases h3 : Wire.typ packet = packetClose
  · rw [handlePacket_close h8' h3]
    exact handleClose_outcome h h3
  by_cases h4 : Wire.typ packet = packetData ∨ Wire.typ packet = packetDataEnc
  · rw [handlePacket_data h8' h4]
    exact handleData_outcome h h8' h4
  · refine ⟨_, ?_, h, .ignored⟩
    rw [handlePacket, if_neg h8, typ_eq (by omega), bind_ok, if_neg h1, if_neg h2, if_neg h3,
      if_neg h4]
    rfl

theorem handleExitPacket_outcome (h : Inv net s) (env : Env) (payload : Bytes) :
    ∃ r, handleExitPacket env s payload = .ok r ∧ Inv net r.server ∧
      ExitOutcome env s payload r := by
  by_cases hwf : IPv4.WellFormed payload
  swap
  · obtain ⟨msg, hmsg⟩ := attempt_parse_error hwf
    rw [handleExitPacket, hmsg]
    exact ⟨_, rfl, h, .ignored⟩
  rw [handleExitPacket, attempt_parse_ok hwf]
  simp only [bind_ok]
  by_cases hdst : ∃ y ∈ s.live, IPv4.destination payload = y.user.address
  · obtain ⟨y, hy, hd⟩ := hdst
    rw [hd, outboundForAddress_live h.linked hy]
    simp only [bind_ok, sendData_eq]
    exact ⟨_, rfl, h, .demuxed y hwf hy hd⟩
  · rw [outboundForAddress_none h.linked fun y hy hd => hdst ⟨y, hy, hd.symm⟩]
    exact ⟨_, rfl, h, .ignored⟩

end

end Iwand.Server
