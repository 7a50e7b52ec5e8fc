import Iwand.Client.Machine
import Iwand.Common.Run

/-!
# Everything the client can do in one event

`Move cfg c e fx c'` lists the ways in which the client can handle the event
`e` in state `c`: the new state as an update of the old one, the effects, and
the conditions. `step_move` shows that the list is complete and that every step
succeeds, that is, the code never leaves the bounds of an array. The
invariants of the state machine are proved by cases on `Move`.

* `step_move`, `Step.move`: one step.
* `mainInit_eq`, `mainInit_exit`, `mainInit_some`: the state in which the event loop
  starts, if it does.
-/

namespace Iwand.Client

/-! ## Reset -/

/-- The effects of the first block of `client_reset`. -/
def downEffects (cfg : Config) (env : Env) (c : IwanClient) : List Effect :=
  if c.state = .established ∨ c.state = .closed then
    closeEffects c ++ [.tunClearIp] ++ runScript cfg env cfg.downScript .down c
  else []

/-- The effects of `client_reset`. -/
def resetEffects (cfg : Config) (env : Env) (c : IwanClient) : List Effect :=
  [.reset] ++ downEffects cfg env c ++ [.socket (udpSocketCreate env.resetSocket)]

theorem clientReset_eq (cfg : Config) (env : Env) (c : IwanClient) :
    clientReset cfg env c =
      some (resetClient (udpSocketCreate env.resetSocket) c, resetEffects cfg env c) := by
  have hdown : resetDown cfg env c = some (downEffects cfg env c) := by
    rw [resetDown, downEffects, sendClose_eq]
    split_ifs <;> rfl
  rw [clientReset, hdown]
  rfl

theorem resetClient_state (fd : Int) (c : IwanClient) :
    (resetClient fd c).state = .dnsNeeded ∨ (resetClient fd c).state = .ipReady := by
  simp only [resetClient]
  split_ifs <;> simp

theorem resetClient_state_ne (fd : Int) (c : IwanClient) :
    (resetClient fd c).state ≠ .authSent ∧ (resetClient fd c).state ≠ .established := by
  rcases resetClient_state fd c with h | h <;> simp [h]

/-! ## Ticks -/

/-- What the `switch` of `timer_tick` can do. -/
inductive TickMove (cfg : Config) (env : Env) (c : IwanClient) : List Effect → IwanClient → Prop
  /-- No socket, or nothing to do yet. -/
  | idle : TickMove cfg env c [] c
  /-- DNS_NEEDED: the server was resolved, or not. -/
  | resolved (c₁ : IwanClient) (ok : Bool) (hs : c.state = .dnsNeeded)
      (hr : resolveServer cfg env.getaddrinfo c = some (c₁, ok)) :
      TickMove cfg env c [.resolved ok] (if ok then { c₁ with state := .ipReady } else c₁)
  /-- IP_READY in the first two seconds of the clock: no OPEN yet. -/
  | started (hs : c.state = .ipReady) : TickMove cfg env c [] (startAuth cfg env c)
  /-- IP_READY or AUTH_SENT: an OPEN is sent. -/
  | openSent (c₁ : IwanClient) (pkt : Bytes)
      (hs : c.state = .ipReady ∧ c₁ = startAuth cfg env c ∨ c.state = .authSent ∧ c₁ = c)
      (hpkt : buildOpenPkt cfg = some pkt) (htime : env.secs - c₁.lastOpenTime ≥ authRetryInterval) :
      TickMove cfg env c [sendToServer c₁ pkt] { c₁ with lastOpenTime := env.secs }
  /-- AUTH_SENT or ESTABLISHED timed out, or CLOSED. -/
  | reset (hs : c.state = .authSent ∨ c.state = .established ∨ c.state = .closed) :
      TickMove cfg env c (resetEffects cfg env c)
        (resetClient (udpSocketCreate env.resetSocket) c)
  /-- ESTABLISHED, odd tick. -/
  | counted (hs : c.state = .established) :
      TickMove cfg env c [] { c with echoCounter := c.echoCounter + 1 }
  /-- ESTABLISHED, even tick: an ECHOREQ is sent. -/
  | echoSent (payload : Bytes) (hs : c.state = .established) :
      TickMove cfg env c
        [sendToServer c (Wire.signedHeader pktEchoreq 0 c.sessionToken c.sessionId ++ payload)]
        { c with echoCounter := c.echoCounter + 1 }

section

variable {cfg : Config} {env : Env} {c : IwanClient}

theorem resolveServer_total (h : cfg.Admitted) (gai : Option (Vector UInt8 4)) (c : IwanClient) :
    ∃ c₁ ok, resolveServer cfg gai c = some (c₁, ok) := by
  have hserver := h.bounded.server.cstr_eq.1
  rw [resolveServer, hserver]
  simp only [Option.bind_eq_bind, Option.bind_some]
  split
  · exact ⟨_, _, rfl⟩
  · split
    · exact ⟨_, _, rfl⟩
    · exact ⟨_, _, rfl⟩

/-- `resolve_server` writes only the address and the domain name. -/
theorem resolveServer_frame {gai : Option (Vector UInt8 4)} {c₁ : IwanClient} {ok : Bool}
    (hr : resolveServer cfg gai c = some (c₁, ok)) :
    c₁ = { c with serverAddr := c₁.serverAddr, serverDomain := c₁.serverDomain } := by
  rw [resolveServer] at hr
  cases hserver : cstr cfg.server with
  | none => simp [hserver] at hr
  | some server =>
    simp only [hserver, Option.bind_eq_bind, Option.bind_some] at hr
    split at hr
    · cases hr
      rfl
    · split at hr <;> cases hr <;> rfl

theorem tickAuth_move (h : cfg.Admitted) {c₁ : IwanClient}
    (hs : c.state = .ipReady ∧ c₁ = startAuth cfg env c ∨ c.state = .authSent ∧ c₁ = c) :
    ∃ c' fx, tickAuth cfg env c₁ = some (c', fx) ∧ TickMove cfg env c fx c' := by
  unfold tickAuth
  by_cases hto : env.secs - c₁.lastRecvTime > authTimeout
  · rw [if_pos hto]
    rcases hs with ⟨-, rfl⟩ | ⟨hs, rfl⟩
    · -- the attempt has just begun
      simp [startAuth] at hto
    · exact ⟨_, _, clientReset_eq _ _ _, .reset (.inl hs)⟩
  rw [if_neg hto]
  by_cases hretry : env.secs - c₁.lastOpenTime ≥ authRetryInterval
  · rw [if_pos hretry, buildOpenPkt_eq h.bounded]
    exact ⟨_, _, rfl, .openSent c₁ _ hs (buildOpenPkt_eq h.bounded) hretry⟩
  · rw [if_neg hretry]
    rcases hs with ⟨hs, rfl⟩ | ⟨hs, rfl⟩
    · exact ⟨_, _, rfl, .started hs⟩
    · exact ⟨_, _, rfl, .idle⟩

theorem tickEstablished_move (hs : c.state = .established) :
    ∃ c' fx, tickEstablished cfg env c = some (c', fx) ∧ TickMove cfg env c fx c' := by
  unfold tickEstablished
  by_cases hto : env.secs - c.lastRecvTime > dataTimeout
  · rw [if_pos hto]
    exact ⟨_, _, clientReset_eq _ _ _, .reset (.inr (.inl hs))⟩
  rw [if_neg hto]
  by_cases heven : (c.echoCounter + 1) &&& 1 = 0
  · simp only [heven, if_true, buildEchoReq_eq]
    exact ⟨_, _, rfl, .echoSent _ hs⟩
  · simp only [heven, if_false]
    exact ⟨_, _, rfl, .counted hs⟩

theorem tickState_move (h : cfg.Admitted) (env : Env) (c : IwanClient) :
    ∃ c' fx, tickState cfg env c = some (c', fx) ∧ TickMove cfg env c fx c' := by
  unfold tickState
  split
  next => exact ⟨_, _, rfl, .idle⟩
  next hs =>
    obtain ⟨c₁, ok, hr⟩ := resolveServer_total h env.getaddrinfo c
    rw [hr]
    exact ⟨_, _, rfl, .resolved c₁ ok hs hr⟩
  next hs => exact tickAuth_move h (.inl ⟨hs, rfl⟩)
  next hs => exact tickAuth_move h (.inr ⟨hs, rfl⟩)
  next hs => exact tickEstablished_move hs
  next hs => exact ⟨_, _, clientReset_eq _ _ _, .reset (.inr (.inr hs))⟩

end

/-! ## Events -/

/-- The client after `handle_recv` has refreshed liveness. -/
def touch (env : Env) (r : Res) : IwanClient :=
  if r.accepted then { r.client with lastRecvTime := env.secsAfter } else r.client

/-- Everything the client can do in one event. -/
inductive Move (cfg : Config) (c : IwanClient) : Event → List Effect → IwanClient → Prop
  /-- The event is ignored. -/
  | ignored (e : Event) : Move cfg c e [] c
  /-- A tick, after the socket check. -/
  | tick (env : Env) (c₁ c' : IwanClient) (fx₀ fx : List Effect)
      (hsock : tickSocket env c = (c₁, fx₀)) (hm : TickMove cfg env c₁ fx c') :
      Move cfg c (.tick env) (fx₀ ++ fx) c'
  /-- A datagram from the server. -/
  | datagram (env : Env) (data : Bytes) (r : Res) (hfd : 0 ≤ c.udpFd)
      (hlen : 8 ≤ (data.take 2048).length)
      (ho : Outcome cfg env (data.take 2048) { c with rxPkts := c.rxPkts + 1 } r) :
      Move cfg c (.datagram env c.serverAddr c.serverPort data) r.effects (touch env r)
  /-- Bytes from the TUN are sent to the server. -/
  | tunSent (data : Bytes) (typ flag : UInt8) (payload : Bytes) (hs : c.state = .established)
      (htyp : typ = pktData ∨ typ = pktDataEnc) :
      Move cfg c (.tun data)
        [sendToServer c (Wire.header typ flag c.sessionToken c.sessionId ++ payload)]
        { c with tunRx := c.tunRx + 1, txPkts := c.txPkts + 1 }
  /-- SIGUSR1. -/
  | reconnect (env : Env) :
      Move cfg c (.reconnect env) (resetEffects cfg env c)
        (resetClient (udpSocketCreate env.resetSocket) c)

section

variable {cfg : Config} {c : IwanClient}

/-- `handle_tun_recv` in ESTABLISHED. -/
theorem handleTunRecv_eq {data : Bytes} (hs : c.state = .established) (hne : data ≠ [])
    (hlen : data.length ≤ 2040) :
    handleTunRecv c data = some ({ c with tunRx := c.tunRx + 1, txPkts := c.txPkts + 1 },
      [sendToServer c (Wire.header (if c.encrypt ≠ 0 then pktDataEnc else pktData)
        (if c.encrypt ≠ 0 then c.encrypt else 0) c.sessionToken c.sessionId ++
          (if c.encrypt ≠ 0 then xorEncrypt c.xorKey data else data))]) := by
  rw [handleTunRecv, if_neg hne, if_neg (by simp [hs])]
  by_cases he : c.encrypt ≠ 0
  · simp only [if_pos he]
    rw [emit_pkt (by simp)]
    simp only [Option.bind_eq_bind, Option.bind_some]
    rw [emit_pkt (by simp [xorEncrypt]; omega)]
    rfl
  · simp only [if_neg he]
    rw [emit_pkt (by simp)]
    simp only [Option.bind_eq_bind, Option.bind_some]
    rw [emit_pkt (by simp; omega)]
    rfl

/-- `handle_recv` on a packet with a header. -/
theorem handleRecv_eq {env : Env} {pkt : Bytes} {r : Res} (h8 : 8 ≤ pkt.length)
    (hr : dispatch cfg env { c with rxPkts := c.rxPkts + 1 } pkt (Wire.typ pkt) = some r) :
    handleRecv cfg env c pkt = some (touch env r, r.effects) := by
  have htyp : rd pkt 0 = some (Wire.typ pkt) := by
    rw [rd_eq (by omega), Wire.typ, List.getD_eq_getElem]
  rw [handleRecv, if_neg (show ¬ pkt.length < 8 by omega), htyp]
  simp only [Option.bind_eq_bind, Option.bind_some, hr, touch]
  split_ifs <;> rfl

/-- A datagram is dropped by the loop, or dispatched. -/
theorem step_datagram_cases (cfg : Config) (c : IwanClient) (env : Env) (addr : Vector UInt8 4)
    (port : UInt16) (data : Bytes) :
    step cfg c (.datagram env addr port data) = some (c, []) ∨
      0 ≤ c.udpFd ∧ addr = c.serverAddr ∧ port = c.serverPort ∧ 8 ≤ (data.take 2048).length ∧
      ∀ r, dispatch cfg env { c with rxPkts := c.rxPkts + 1 } (data.take 2048)
          (Wire.typ (data.take 2048)) = some r →
        step cfg c (.datagram env addr port data) = some (touch env r, r.effects) := by
  rw [step]
  by_cases hfd : c.udpFd < 0
  · exact .inl (if_pos hfd)
  rw [if_neg hfd]
  simp only [maxPktSize]
  by_cases hnil : data.take 2048 = []
  · exact .inl (if_pos hnil)
  rw [if_neg hnil]
  by_cases hsrc : addr = c.serverAddr ∧ port = c.serverPort
  swap
  · exact .inl (if_neg hsrc)
  rw [if_pos hsrc]
  by_cases h8 : (data.take 2048).length < 8
  · exact .inl (if_pos h8)
  · exact .inr ⟨by omega, hsrc.1, hsrc.2, by omega, fun r hr => handleRecv_eq (by omega) hr⟩

theorem slotsOk_resetClient (fd : Int) (c : IwanClient) : SlotsOk (resetClient fd c).frags := by
  intro i hi
  simp [resetClient] at hi

/-- A tick keeps the slots or clears them. -/
theorem TickMove.slotsOk {env : Env} {fx : List Effect} {c' : IwanClient}
    (hm : TickMove cfg env c fx c') (hok : SlotsOk c.frags) : SlotsOk c'.frags := by
  cases hm with
  | idle => exact hok
  | resolved c₁ ok hs hr =>
    have hfr : c₁.frags = c.frags := by rw [resolveServer_frame hr]
    split_ifs
    · exact hfr ▸ hok
    · exact hfr ▸ hok
  | started => exact hok
  | openSent c₁ pkt hs =>
    rcases hs with ⟨-, rfl⟩ | ⟨-, rfl⟩ <;> exact hok
  | reset => exact slotsOk_resetClient _ _
  | counted => exact hok
  | echoSent => exact hok

/-- **Completeness of the moves.** Every event is handled without an access out of
    bounds, keeps the slot invariant and is one of the moves. -/
theorem step_move (h : cfg.Admitted) (hok : SlotsOk c.frags) (e : Event) :
    ∃ c' fx, step cfg c e = some (c', fx) ∧ SlotsOk c'.frags ∧ Move cfg c e fx c' := by
  cases e with
  | tick env =>
    have hok₁ : SlotsOk (tickSocket env c).1.frags := by
      unfold tickSocket
      split_ifs <;> exact hok
    rw [step, timerTick]
    rcases hsock : tickSocket env c with ⟨c₁, fx₀⟩
    rw [hsock] at hok₁
    by_cases hfd : c₁.udpFd < 0
    · simp only [hfd, if_true]
      exact ⟨_, _, rfl, hok₁, by simpa using Move.tick env c₁ c₁ fx₀ [] hsock .idle⟩
    · obtain ⟨c', fx, heq, hm⟩ := tickState_move h env c₁
      simp only [hfd, if_false, heq]
      exact ⟨_, _, rfl, hm.slotsOk hok₁, .tick env c₁ c' fx₀ fx hsock hm⟩
  | datagram env addr port data =>
    obtain hdrop | ⟨hfd, rfl, rfl, h8, hdisp⟩ := step_datagram_cases cfg c env addr port data
    · exact ⟨_, _, hdrop, hok, .ignored _⟩
    obtain ⟨r, hr, hokr, ho⟩ := dispatch_outcome cfg env
      (c := { c with rxPkts := c.rxPkts + 1 }) hok (List.length_take_le 2048 data)
    refine ⟨_, _, hdisp r hr, ?_, .datagram env data r hfd h8 ho⟩
    unfold touch
    split_ifs <;> exact hokr
  | tun data =>
    rw [step]
    by_cases hfd : c.tunFd < 0
    · exact ⟨_, _, if_pos hfd, hok, .ignored _⟩
    rw [if_neg hfd]
    by_cases hnil : data.take (maxPktSize - hdrSize) = []
    · exact ⟨_, _, if_pos hnil, hok, .ignored _⟩
    by_cases hs : c.state = .established
    swap
    · exact ⟨_, _, by rw [handleTunRecv, if_neg hnil, if_pos hs], hok, .ignored _⟩
    refine ⟨_, _, handleTunRecv_eq hs hnil (by simp), hok, .tunSent data _ _ _ hs ?_⟩
    split_ifs
    · exact .inr rfl
    · exact .inl rfl
  | reconnect env =>
    exact ⟨_, _, clientReset_eq _ _ _, slotsOk_resetClient _ _, .reconnect env⟩

/-- A datagram from the server that fits the buffer is dispatched. -/
theorem step_datagram {env : Env} {pkt : Bytes} {r : Res} (hfd : 0 ≤ c.udpFd) (h8 : 8 ≤ pkt.length)
    (hlen : pkt.length ≤ 2048)
    (hr : dispatch cfg env { c with rxPkts := c.rxPkts + 1 } pkt (Wire.typ pkt) = some r) :
    step cfg c (.datagram env c.serverAddr c.serverPort pkt) = some (touch env r, r.effects) := by
  have htake : pkt.take maxPktSize = pkt := List.take_of_length_le hlen
  have hne : pkt ≠ [] := by
    rintro rfl
    simp at h8
  rw [step, if_neg (by omega), htake]
  show (if pkt = [] then _ else if _ then _ else _) = _
  rw [if_neg hne, if_pos ⟨rfl, rfl⟩, handleRecv_eq h8 hr]

/-- The first tick of an attempt sends an OPEN, unless the clock is below 2. -/
theorem step_open (env : Env) (h : cfg.Admitted) (hs : c.state = .ipReady) (hfd : 0 ≤ c.udpFd)
    (ht : 2 ≤ env.secs) :
    step cfg c (.tick env) = some ({ startAuth cfg env c with lastOpenTime := env.secs },
      [sendToServer (startAuth cfg env c) (openPkt cfg)]) := by
  have hsock : tickSocket env c = (c, []) := if_neg (by omega)
  rw [step, timerTick, hsock]
  simp only [if_neg (show ¬ c.udpFd < 0 by omega), tickState, hs, tickAuth]
  rw [if_neg (by simp [startAuth]), if_pos (by simpa [startAuth] using ht), buildOpenPkt_eq h.bounded]
  rfl

/-- A tick in AUTH_SENT repeats the OPEN every two seconds. -/
theorem step_retry {env : Env} (h : cfg.Admitted) (hs : c.state = .authSent) (hfd : 0 ≤ c.udpFd)
    (hto : ¬ env.secs - c.lastRecvTime > authTimeout)
    (ht : env.secs - c.lastOpenTime ≥ authRetryInterval) :
    step cfg c (.tick env) = some ({ c with lastOpenTime := env.secs },
      [sendToServer c (openPkt cfg)]) := by
  have hsock : tickSocket env c = (c, []) := if_neg (by omega)
  rw [step, timerTick, hsock]
  simp only [if_neg (show ¬ c.udpFd < 0 by omega), tickState, hs, tickAuth]
  rw [if_neg hto, if_pos ht, buildOpenPkt_eq h.bounded]
  rfl

/-- A tick in CLOSED resets the client. -/
theorem step_closed {env : Env} (hs : c.state = .closed) (hfd : 0 ≤ c.udpFd) :
    step cfg c (.tick env) =
      some (resetClient (udpSocketCreate env.resetSocket) c, resetEffects cfg env c) := by
  have hsock : tickSocket env c = (c, []) := if_neg (by omega)
  rw [step, timerTick, hsock]
  simp only [if_neg (show ¬ c.udpFd < 0 by omega), tickState, hs, clientReset_eq]
  rfl

end

/-! ## Start and runs -/

theorem srSetupKeys_spec {cfg : Config} (h : cfg.Admitted) (c : IwanClient) :
    ∃ mode dk ek, mode ≤ 2 ∧ srSetupKeys cfg c =
      some ({ cfg with srEncryptMode := mode }, { c with srDecryptKey := dk, srEncryptKey := ek }) := by
  by_cases hcnt : cfg.srCount = 0
  · exact ⟨cfg.srEncryptMode, _, _, h.srEncryptMode_le, if_pos hcnt⟩
  rw [srSetupKeys_eq h.bounded hcnt, srFallback]
  split_ifs
  · exact ⟨1, _, _, by decide, rfl⟩
  · exact ⟨cfg.srEncryptMode, _, _, h.srEncryptMode_le, rfl⟩

theorem Config.Admitted.setMode {cfg : Config} (h : cfg.Admitted) {mode : UInt8} (hm : mode ≤ 2) :
    ({ cfg with srEncryptMode := mode } : Config).Admitted :=
  { h with srEncryptMode_le := hm, valid := h.valid }

/-- `main` enters its loop if the TUN and the socket could be opened: with an
    untouched session and the outcome of the first `resolve_server` in the
    state. -/
theorem mainInit_eq {cfg₀ : Config} (h : cfg₀.Admitted) (ienv : InitEnv) (htun : 0 ≤ ienv.tunOpen)
    (hsock : 0 ≤ ienv.socket) :
    ∃ mode dk ek c₁ ok, mode ≤ 2 ∧
      resolveServer { cfg₀ with srEncryptMode := mode } ienv.getaddrinfo
        { zeroClient with tunFd := ienv.tunOpen
                          xorKey := dataKey cfg₀.user cfg₀.pass
                          srDecryptKey := dk
                          srEncryptKey := ek
                          serverPort := cfg₀.port } = some (c₁, ok) ∧
      mainInit cfg₀ ienv = some (some ({ cfg₀ with srEncryptMode := mode },
        { c₁ with state := if ok then .ipReady else .dnsNeeded, udpFd := ienv.socket },
        [.resolved ok, .socket ienv.socket])) := by
  have hfd : udpSocketCreate ienv.socket = ienv.socket := if_neg (by omega)
  obtain ⟨mode, dk, ek, hmode, hsr⟩ := srSetupKeys_spec h
    { zeroClient with tunFd := ienv.tunOpen, xorKey := dataKey cfg₀.user cfg₀.pass }
  obtain ⟨c₁, ok, hr⟩ := resolveServer_total (h.setMode hmode) ienv.getaddrinfo
    { zeroClient with tunFd := ienv.tunOpen
                      xorKey := dataKey cfg₀.user cfg₀.pass
                      srDecryptKey := dk
                      srEncryptKey := ek
                      serverPort := cfg₀.port }
  refine ⟨mode, dk, ek, c₁, ok, hmode, hr, ?_⟩
  rw [mainInit, if_neg (by simp [h.valid]), if_neg (by omega), deriveXorKey_eq h.bounded]
  simp only [Option.bind_eq_bind, Option.bind_some, hsr, hr, hfd]
  rw [if_neg (by omega)]
  rfl

/-- With the TUN and the socket `main` enters its loop. -/
theorem mainInit_starts {cfg₀ : Config} (h : cfg₀.Admitted) (ienv : InitEnv) (htun : 0 ≤ ienv.tunOpen)
    (hsock : 0 ≤ ienv.socket) :
    ∃ cfg c₀ fx₀, mainInit cfg₀ ienv = some (some (cfg, c₀, fx₀)) := by
  obtain ⟨mode, dk, ek, c₁, ok, -, -, hinit⟩ := mainInit_eq h ienv htun hsock
  exact ⟨_, _, _, hinit⟩

/-- Otherwise the program exits. -/
theorem mainInit_exit {cfg₀ : Config} (h : cfg₀.Admitted) {ienv : InitEnv}
    (hfail : ienv.tunOpen < 0 ∨ ienv.socket < 0) : mainInit cfg₀ ienv = some none := by
  rw [mainInit, if_neg (by simp [h.valid])]
  by_cases htun : ienv.tunOpen < 0
  · exact if_pos htun
  have hfd : udpSocketCreate ienv.socket = -1 := if_pos (by omega)
  obtain ⟨mode, dk, ek, hmode, hsr⟩ := srSetupKeys_spec h
    { zeroClient with tunFd := ienv.tunOpen, xorKey := dataKey cfg₀.user cfg₀.pass }
  obtain ⟨c₁, ok, hr⟩ := resolveServer_total (h.setMode hmode) ienv.getaddrinfo
    { zeroClient with tunFd := ienv.tunOpen
                      xorKey := dataKey cfg₀.user cfg₀.pass
                      srDecryptKey := dk
                      srEncryptKey := ek
                      serverPort := cfg₀.port }
  rw [if_neg htun, deriveXorKey_eq h.bounded]
  simp only [Option.bind_eq_bind, Option.bind_some, hsr, hr, hfd]
  rfl

/-- Everything about a start that enters the loop. -/
theorem mainInit_some {cfg₀ cfg : Config} (h : cfg₀.Admitted) {ienv : InitEnv} {c₀ : IwanClient}
    {fx₀ : List Effect} (hinit : mainInit cfg₀ ienv = some (some (cfg, c₀, fx₀))) :
    ∃ mode dk ek c₁ ok, mode ≤ 2 ∧ cfg = { cfg₀ with srEncryptMode := mode } ∧
      resolveServer cfg ienv.getaddrinfo
        { zeroClient with tunFd := ienv.tunOpen
                          xorKey := dataKey cfg₀.user cfg₀.pass
                          srDecryptKey := dk
                          srEncryptKey := ek
                          serverPort := cfg₀.port } = some (c₁, ok) ∧
      c₀ = { c₁ with state := if ok then .ipReady else .dnsNeeded, udpFd := ienv.socket } ∧
      fx₀ = [.resolved ok, .socket ienv.socket] := by
  by_cases hfail : ienv.tunOpen < 0 ∨ ienv.socket < 0
  · rw [mainInit_exit h hfail] at hinit
    cases hinit
  obtain ⟨mode, dk, ek, c₁, ok, hmode, hr, hsome⟩ := mainInit_eq h ienv (by omega) (by omega)
  rw [hinit] at hsome
  cases hsome
  exact ⟨mode, dk, ek, c₁, ok, hmode, rfl, hr, rfl, rfl⟩

/-- One event of the loop, as a relation. -/
def Step (cfg : Config) (c : IwanClient) (e : Event) (fx : List Effect) (c' : IwanClient) : Prop :=
  step cfg c e = some (c', fx)

/-- Every step is one of the moves. -/
theorem Step.move {cfg : Config} {c c' : IwanClient} {e : Event} {fx : List Effect}
    (hadm : cfg.Admitted) (hok : SlotsOk c.frags) (hstep : Step cfg c e fx c') :
    SlotsOk c'.frags ∧ Move cfg c e fx c' := by
  obtain ⟨c₁, fx₁, heq, hok', hm⟩ := step_move hadm hok e
  obtain ⟨rfl, rfl⟩ := Prod.mk.inj (Option.some.inj (heq.symm.trans hstep))
  exact ⟨hok', hm⟩

/-- One step of a run. -/
abbrev StepRecord := Record IwanClient Event Effect

/-- The effects of a run, in order. -/
def effects (tr : List StepRecord) : List Effect := tr.flatMap (·.outs)

@[simp] theorem effects_snoc (tr : List StepRecord) (r : StepRecord) :
    effects (tr ++ [r]) = effects tr ++ r.outs := by
  simp [effects]

end Iwand.Client
