import Iwand.Server.Config

/-!
# The server

Model of `server/server.go`. Sessions live in a heap and are reached through
pointers, as in the source: `sessions` and `byAddress` map to pointers,
`removeSessionLocked` compares pointers, and `lastSeen` is written through one.
Each handler runs to its end before the next one starts.

A handler returns the new server, what it wrote and the error it returns; it
fails only with a panic.

The random session ids, the clock, the outcomes of writes and the order in
which `range` visits the sessions come from the environment of the call.
-/

namespace Iwand.Server

open Go

variable {R : Type}

/-! ## State -/

/-- `sessionKey`. -/
@[ext]
structure SessionKey where
  remote : Bytes
  token : Vector UInt8 2
  sessionID : Vector UInt8 4
deriving DecidableEq

/-- `session`. -/
structure Session (R : Type) where
  key : SessionKey
  user : ConfiguredUser
  remote : R
  encrypt : Bool
  mtu : UInt16
  createdAt : ℕ
  lastSeen : ℕ

/-- `outboundSession`. -/
structure OutboundSession (R : Type) where
  remote : R
  token : Vector UInt8 2
  sessionID : Vector UInt8 4
  encrypt : Bool
  xorKey : Vector UInt8 8
  address : Addr

/-- `Server`, with the sessions allocated so far; a `*session` is an index into
    `heap`. `exit` tells whether there is a packet device. -/
structure Server (R : Type) where
  config : NormalizedConfig
  exit : Bool
  heap : List (Session R)
  sessions : GoMap SessionKey ℕ
  byAddress : GoMap Addr ℕ

/-- What the runtime and the operating system return to one call. -/
structure Env where
  /-- `rand.Read(token[:])`. -/
  randToken : Except String (Vector UInt8 2)
  /-- `rand.Read(sessionID[:])`. -/
  randSessionID : Except String (Vector UInt8 4)
  /-- `time.Now()`. -/
  now : ℕ
  /-- The error of `WriteToUDP`. -/
  writeErr : Option String
  /-- The error of the device's `Write`. -/
  exitErr : Option String
  /-- The order of `range s.sessions`. -/
  order : RangeOrder SessionKey

/-- What the server writes: a datagram, or a packet to the exit device. -/
inductive Out (R : Type) where
  | udp (pkt : Bytes) (remote : R)
  | exit (pkt : Bytes)

/-- What a handler leaves behind and returns. -/
structure Res (R : Type) where
  server : Server R
  outs : List (Out R)
  err : Option String

/-- `newServer` (lines 61–87): `device` tells whether the caller passes a packet
    device, `openDevice` is the outcome of `openPacketDevice`. -/
def newServer (net : Net R) (config : Config) (device : Bool) (openDevice : Except String Unit) :
    Go (Server R) := do
  let normalized ← normalized net config
  let server : Server R :=
    { config := normalized, exit := normalized.exit.enabled, heap := [], sessions := ∅,
      byAddress := ∅ }
  if normalized.exit.enabled ∧ device = false then
    match openDevice with
    | .error msg => fail msg
    | .ok () => return server
  else return server

/-! ## Session table -/

/-- Dereference a `*session`. -/
def Server.deref (s : Server R) (p : ℕ) : Go (Session R) :=
  match s.heap[p]? with
  | some current => .ok current
  | none => .error (.panic .nilDereference)

/-- `removeSessionLocked` (lines 378–383). -/
def removeSessionLocked (s : Server R) (p : ℕ) : Go (Server R) := do
  let current ← s.deref p
  let s := { s with sessions := s.sessions.erase current.key }
  if s.byAddress.lookup current.user.address = some p then
    return { s with byAddress := s.byAddress.erase current.user.address }
  else return s

/-- The iteration over the keys that are left to visit; an entry that was removed
    before it is reached is not visited. -/
def removeLoop (remote username : Bytes) : List SessionKey → Server R → Go (Server R)
  | [], s => .ok s
  | key :: keys, s =>
    match s.sessions.lookup key with
    | none => removeLoop remote username keys s
    | some p => do
      let current ← s.deref p
      if current.key.remote = remote ∨ current.user.username = username then
        removeLoop remote username keys (← removeSessionLocked s p)
      else removeLoop remote username keys s

/-- `removeSessionsForRemoteOrUserLocked` (lines 370–376). -/
def removeSessionsForRemoteOrUserLocked (env : Env) (s : Server R) (remote username : Bytes) :
    Go (Server R) :=
  removeLoop remote username (env.order.keys s.sessions.keys) s

/-- `keyFromPacket` (lines 385–395). -/
def keyFromPacket (net : Net R) (remote : R) (packet : Bytes) : Go SessionKey := do
  let token ← slice packet 2 4
  let sessionID ← slice packet 4 8
  return { remote := net.remoteString remote
           token := toArr 2 token
           sessionID := toArr 4 sessionID }

/-- `newSessionIDs` (lines 397–407). -/
def newSessionIDs (env : Env) : Except String (Vector UInt8 2 × Vector UInt8 4) :=
  match env.randToken, env.randSessionID with
  | .error msg, _ => .error ("generate token: " ++ msg)
  | .ok _, .error msg => .error ("generate session id: " ++ msg)
  | .ok token, .ok sessionID => .ok (token, sessionID)

/-- `sessionToOutbound` (lines 359–368). -/
def sessionToOutbound (current : Session R) : OutboundSession R where
  remote := current.remote
  token := current.key.token
  sessionID := current.key.sessionID
  encrypt := current.encrypt
  xorKey := current.user.xorKey
  address := current.user.address

/-- `sessionForPacket` (lines 337–347): the session of the packet, after its
    `lastSeen` was set. -/
def sessionForPacket (net : Net R) (env : Env) (s : Server R) (remote : R) (packet : Bytes) :
    Go (Server R × Option (OutboundSession R)) := do
  let key ← keyFromPacket net remote packet
  match s.sessions.lookup key with
  | none => return (s, none)
  | some p =>
    let current ← s.deref p
    let current := { current with lastSeen := env.now }
    return ({ s with heap := s.heap.set p current }, some (sessionToOutbound current))

/-- `outboundForAddress` (lines 349–357). -/
def outboundForAddress (s : Server R) (destination : Addr) : Go (Option (OutboundSession R)) :=
  match s.byAddress.lookup destination with
  | none => .ok none
  | some p => do
    let current ← s.deref p
    return some (sessionToOutbound current)

/-! ## Handlers -/

/-- `_, err = conn.WriteToUDP(pkt, remote); return err`. -/
def writeToUDP (env : Env) (s : Server R) (pkt : Bytes) (remote : R) : Res R :=
  ⟨s, [.udp pkt remote], env.writeErr⟩

/-- `nextSession` of `handleOpen` (lines 185–204). -/
def nextSession (net : Net R) (env : Env) (s : Server R) (remote : R) (request : OpenRequest)
    (user : ConfiguredUser) (token : Vector UInt8 2) (sessionID : Vector UInt8 4) : Session R where
  key := ⟨net.remoteString remote, token, sessionID⟩
  user := user
  remote := remote
  encrypt := request.encrypt && user.allowEncrypt
  mtu := if request.mtu < s.config.mtu then request.mtu else s.config.mtu
  createdAt := env.now
  lastSeen := env.now

/-- The end of `handleOpen`, with `nextSession` just allocated (lines 206–214). -/
def openSession (net : Net R) (env : Env) (s : Server R) (next : Session R) : Go (Res R) := do
  let p := s.heap.length
  let s := { s with heap := s.heap ++ [next] }
  let s ← removeSessionsForRemoteOrUserLocked env s (net.remoteString next.remote)
    next.user.username
  let s := { s with sessions := s.sessions.insert next.key p
                    byAddress := s.byAddress.insert next.user.address p }
  let response ← buildOpenAck next.key.token next.key.sessionID next.mtu next.user.address
    s.config.dns next.encrypt
  return writeToUDP env s response next.remote

/-- `handleOpen` (lines 151–215). -/
def handleOpen (net : Net R) (env : Env) (s : Server R) (remote : R) (packet : Bytes) :
    Go (Res R) := do
  match ← attempt (parseOpenPacket packet) with
  | .error _ => return writeToUDP env s (← buildOpenReject) remote
  | .ok request =>
    match s.config.users.lookup request.username with
    | none => return writeToUDP env s (← buildOpenReject) remote
    | some user =>
      if passwordMatches user.username user.password request.passwordBlock = false then
        return writeToUDP env s (← buildOpenReject) remote
      else
        match newSessionIDs env with
        | .error msg => return ⟨s, [], some msg⟩
        | .ok (token, sessionID) =>
          openSession net env s (nextSession net env s remote request user token sessionID)

/-- `handleEchoReq` (lines 217–228). -/
def handleEchoReq (net : Net R) (env : Env) (s : Server R) (remote : R) (packet : Bytes) :
    Go (Res R) := do
  if (← verifyPacket packet) = false then return ⟨s, [], none⟩
  else
    match ← sessionForPacket net env s remote packet with
    | (s, none) => return ⟨s, [], none⟩
    | (s, some outbound) =>
      let payload ← sliceFrom packet signedHeaderSize
      let response ← buildEchoResp outbound.token outbound.sessionID payload
      return writeToUDP env s response outbound.remote

/-- `handleClose` (lines 230–243). -/
def handleClose (net : Net R) (s : Server R) (remote : R) (packet : Bytes) : Go (Res R) := do
  if (← verifyPacket packet) = false then return ⟨s, [], none⟩
  else
    let key ← keyFromPacket net remote packet
    match s.sessions.lookup key with
    | none => return ⟨s, [], none⟩
    | some p => return ⟨← removeSessionLocked s p, [], none⟩

/-- Send a payload to a session (lines 273–275, 290–292, 325–327). -/
def sendData (env : Env) (s : Server R) (target : OutboundSession R) (payload : Bytes) :
    Go (Res R) := do
  let response ← buildDataPacket target.token target.sessionID payload target.encrypt target.xorKey
  return writeToUDP env s response target.remote

/-- The error of `handleData` in exit mode without a device (line 281). -/
def exitDeviceMissing : String := "exit mode enabled without packet device"

/-- `handleData` on the payload of `source`, after decryption (lines 263–293). -/
def routePayload (env : Env) (s : Server R) (source : OutboundSession R) (payload : Bytes) :
    Go (Res R) := do
  let originalPayload := payload
  match ← attempt (parseIPv4Packet payload) with
  | .ok parsed =>
    let payload := if s.config.exit.enabled then parsed.packet else payload
    if s.config.exit.enabled ∧ s.config.exit.strictSource ∧ parsed.source ≠ source.address then
      return ⟨s, [], none⟩
    else
      match ← outboundForAddress s parsed.destination with
      | some target => sendData env s target payload
      | none =>
        if s.config.exit.enabled then
          if s.exit = false then
            return ⟨s, [], some exitDeviceMissing⟩
          else return ⟨s, [.exit payload], env.exitErr⟩
        else sendData env s source originalPayload
  | .error _ =>
    if s.config.exit.enabled then return ⟨s, [], none⟩
    else sendData env s source originalPayload

/-- `handleData` (lines 245–294). -/
def handleData (net : Net R) (env : Env) (s : Server R) (remote : R) (packet : Bytes) :
    Go (Res R) := do
  if packet.length ≤ headerSize then return ⟨s, [], none⟩
  else
    match ← sessionForPacket net env s remote packet with
    | (s, none) => return ⟨s, [], none⟩
    | (s, some source) =>
      let typ ← idx packet 0
      if typ = packetDataEnc ∧ source.encrypt = false then return ⟨s, [], none⟩
      else if typ = packetData ∧ source.encrypt then return ⟨s, [], none⟩
      else
        let payload ← sliceFrom packet headerSize
        routePayload env s source
          (if typ = packetDataEnc then xorData source.xorKey payload else payload)

/-- `handlePacket` (lines 133–149). -/
def handlePacket (net : Net R) (env : Env) (s : Server R) (remote : R) (packet : Bytes) :
    Go (Res R) := do
  if packet.length < headerSize then return ⟨s, [], none⟩
  else
    let typ ← idx packet 0
    if typ = packetOpen then handleOpen net env s remote packet
    else if typ = packetEchoReq then handleEchoReq net env s remote packet
    else if typ = packetClose then handleClose net s remote packet
    else if typ = packetData ∨ typ = packetDataEnc then handleData net env s remote packet
    else return ⟨s, [], none⟩

/-- `handleExitPacket` (lines 315–327). -/
def handleExitPacket (env : Env) (s : Server R) (payload : Bytes) : Go (Res R) := do
  match ← attempt (parseIPv4Packet payload) with
  | .error _ => return ⟨s, [], none⟩
  | .ok parsed =>
    match ← outboundForAddress s parsed.destination with
    | none => return ⟨s, [], none⟩
    | some target => sendData env s target parsed.packet

/-! ## Runs -/

/-- What the server reacts to: a datagram from a remote, or a packet read from
    the exit device. -/
inductive Event (R : Type) where
  | packet (env : Env) (remote : R) (data : Bytes)
  | exitPacket (env : Env) (data : Bytes)

/-- One call of `handlePacket` or `handleExitPacket`. The latter is called only
    by the reader of the exit device. -/
def step (net : Net R) (s : Server R) : Event R → Go (Res R)
  | .packet env remote data => handlePacket net env s remote data
  | .exitPacket env data => if s.exit then handleExitPacket env s data else return ⟨s, [], none⟩

/-- One event, as a relation. -/
def Step (net : Net R) (s : Server R) (e : Event R) (outs : List (Out R)) (s' : Server R) : Prop :=
  ∃ err, step net s e = .ok ⟨s', outs, err⟩

end Iwand.Server
