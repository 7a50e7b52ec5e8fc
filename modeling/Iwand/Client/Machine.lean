import Iwand.Client.Outcomes

/-!
# The client state machine

Model of `resolve_server`, `client_reset`, `timer_tick` and `main` (lines
1472–1636 and 1713–1892). `mainInit` is `main` up to its event loop; the loop
body is a sequence of events, of which `step` handles one; `cleanup` is what
follows the loop.

The loop handles the events that are ready in one pass; every order of events
that it can produce is a sequence of `step`s.
-/

namespace Iwand.Client

/-! ## `resolve_server` -/

/-- `inet_pton(AF_INET, s, …)`: the address in network order, `none` if the
    result is not 1. -/
def inetPton (s : Bytes) : Option (Vector UInt8 4) := dottedQuad s

/-- `resolve_server` (lines 1472–1503): the client and whether the result is 0. -/
def resolveServer (cfg : Config) (gai : Option (Vector UInt8 4)) (c : IwanClient) :
    Option (IwanClient × Bool) := do
  let server ← cstr cfg.server
  match inetPton server with
  | some addr => return ({ c with serverAddr := addr, serverDomain := c.serverDomain.set 0 0 }, true)
  | none =>
    let c := { c with serverDomain := toArr 64 (server.take 63) }
    match gai with
    | none => return (c, false)
    | some addr => return ({ c with serverAddr := addr }, true)

/-! ## `client_reset` -/

/-- The first block of `client_reset`: CLOSE, clear the TUN, run the down script
    (lines 1511–1517). -/
def resetDown (cfg : Config) (env : Env) (c : IwanClient) : Option (List Effect) :=
  if c.state = .established ∨ c.state = .closed then do
    let close ← sendClose c
    return close ++ [.tunClearIp] ++ runScript cfg env cfg.downScript .down c
  else some []

/-- The fields that `client_reset` assigns, with the new socket (lines
    1524–1554). -/
def resetClient (fd : Int) (c : IwanClient) : IwanClient :=
  { c with
    udpFd := fd
    sessionToken := Vector.replicate 2 0
    sessionId := Vector.replicate 4 0
    peerIp := 0
    dns0 := 0
    dns1 := 0
    frags := c.frags.map fun slot => { slot with inUse := false }
    serverMtu := 0
    encrypt := 0
    peerDupPkt := 0
    curDelay := 0
    minDelay := 5000000
    maxDelay := 0
    echoCounter := 0
    lastRecvTime := 0
    lastOpenTime := 0
    state := if firstByte c.serverDomain ≠ 0 then .dnsNeeded else .ipReady }

/-- `client_reset` (lines 1509–1555). -/
def clientReset (cfg : Config) (env : Env) (c : IwanClient) : Option (IwanClient × List Effect) := do
  let fx ← resetDown cfg env c
  let fd := udpSocketCreate env.resetSocket
  return (resetClient fd c, [.reset] ++ fx ++ [.socket fd])

/-! ## `timer_tick` -/

/-- The socket check at the head of `timer_tick` (lines 1565–1568). -/
def tickSocket (env : Env) (c : IwanClient) : IwanClient × List Effect :=
  if c.udpFd < 0 then
    let fd := udpSocketCreate env.tickSocket
    ({ c with udpFd := fd }, [.socket fd])
  else (c, [])

/-- `case STATE_AUTH_SENT` (lines 1595–1609). -/
def tickAuth (cfg : Config) (env : Env) (c : IwanClient) : Option (IwanClient × List Effect) :=
  if env.secs - c.lastRecvTime > authTimeout then clientReset cfg env c
  else if env.secs - c.lastOpenTime ≥ authRetryInterval then do
    let c := { c with lastOpenTime := env.secs }
    let pkt ← buildOpenPkt cfg
    return (c, [sendToServer c pkt])
  else some (c, [])

/-- `case STATE_IP_READY`, before it falls through (lines 1581–1590). -/
def startAuth (cfg : Config) (env : Env) (c : IwanClient) : IwanClient :=
  { c with serverPort := cfg.port
           lastRecvTime := env.secs
           lastOpenTime := 0
           state := .authSent }

/-- `case STATE_ESTABLISHED` (lines 1611–1625). -/
def tickEstablished (cfg : Config) (env : Env) (c : IwanClient) :
    Option (IwanClient × List Effect) :=
  if env.secs - c.lastRecvTime > dataTimeout then clientReset cfg env c
  else
    let c := { c with echoCounter := c.echoCounter + 1 }
    if c.echoCounter &&& 1 = 0 then do
      let pkt ← buildEchoReq env.usecs c
      return (c, [sendToServer c pkt])
    else some (c, [])

/-- The `switch` of `timer_tick` (lines 1570–1635). -/
def tickState (cfg : Config) (env : Env) (c : IwanClient) : Option (IwanClient × List Effect) :=
  match c.state with
  | .notReady => some (c, [])
  | .dnsNeeded => do
    let (c, ok) ← resolveServer cfg env.getaddrinfo c
    return (if ok then { c with state := .ipReady } else c, [.resolved ok])
  | .ipReady => tickAuth cfg env (startAuth cfg env c)
  | .authSent => tickAuth cfg env c
  | .established => tickEstablished cfg env c
  | .closed => clientReset cfg env c

/-- `timer_tick` (lines 1561–1636). -/
def timerTick (cfg : Config) (env : Env) (c : IwanClient) : Option (IwanClient × List Effect) := do
  let (c, fx₀) := tickSocket env c
  if c.udpFd < 0 then return (c, fx₀)
  else
    let (c, fx) ← tickState cfg env c
    return (c, fx₀ ++ fx)

/-! ## `main` -/

/-- Results of the system calls made by `main` before its event loop. -/
structure InitEnv where
  tunOpen : Int
  getaddrinfo : Option (Vector UInt8 4)
  socket : Int

/-- `main` from `cfg_valid` to the event loop (lines 1770–1832): the running
    configuration, the client and the effects, or `none` inside if the program
    exits. -/
def mainInit (cfg : Config) (env : InitEnv) : Option (Option (Config × IwanClient × List Effect)) :=
  if cfgValid cfg = false then some none
  else if env.tunOpen < 0 then some none
  else do
    let key ← deriveXorKey cfg
    let (cfg, c) ← srSetupKeys cfg { zeroClient with tunFd := env.tunOpen, xorKey := key }
    let (c, ok) ← resolveServer cfg env.getaddrinfo { c with serverPort := cfg.port }
    let fd := udpSocketCreate env.socket
    if fd < 0 then return none
    else
      let c := { c with state := if ok then .ipReady else .dnsNeeded, udpFd := fd }
      return some (cfg, c, [.resolved ok, .socket fd])

/-- What the event loop reacts to: the one-second timer, a datagram with its
    source, bytes from the TUN, and SIGUSR1. -/
inductive Event where
  | tick (env : Env)
  | datagram (env : Env) (addr : Vector UInt8 4) (port : UInt16) (data : Bytes)
  | tun (data : Bytes)
  | reconnect (env : Env)

/-- One event of the loop (lines 1836–1880). A datagram is read only through an
    open socket, is cut to the size of the buffer and must come from the
    server. -/
def step (cfg : Config) (c : IwanClient) : Event → Option (IwanClient × List Effect)
  | .tick env => timerTick cfg env c
  | .datagram env addr port data =>
    if c.udpFd < 0 then some (c, [])
    else
      let buf := data.take maxPktSize
      if buf = [] then some (c, [])
      else if addr = c.serverAddr ∧ port = c.serverPort then handleRecv cfg env c buf
      else some (c, [])
  | .tun data => if c.tunFd < 0 then some (c, []) else handleTunRecv c (data.take (maxPktSize - hdrSize))
  | .reconnect env => clientReset cfg env c

/-- The shutdown path (lines 1882–1891). -/
def cleanup (cfg : Config) (env : Env) (c : IwanClient) : Option (List Effect) :=
  if c.state = .established then do
    let close ← sendClose c
    return close ++ runScript cfg env cfg.downScript .down c
  else some []

end Iwand.Client
