import Iwand.Client.Echo
import Iwand.EndToEnd.Handshake

/-!
# Keepalives between both ends

An established client, the server and the keepalives between them. A datagram
stays in flight: it may arrive at any time, in any order, several times or
never. Each is kept with the reading of the client's clock when the client built
the ECHOREQ, so that the round-trip time of an exchange is known apart from the
timestamp in the packet.

* `answered`: a live session answers an ECHOREQ, and the client accepts the
  answer.
* `tracked_step`: in every run the statistics are those of the round-trip times
  so far, cut to 32 bits.
* `keepalive_exact`: both, for round-trip times below `2 ^ 32` microseconds.
-/

namespace Iwand.EndToEnd

open Server
open Client (IwanClient Delays delays IsRequest IsAnswer)

/-! ## One exchange -/

section

variable {R : Type} {net : Net R} {env : Server.Env} {s : Server R} {remote : R} {usecs : UInt64}
  {pkt : Bytes}

/-- In every live session of an established client at `remote`, each packet of
    `build_echo_req` is answered to that address, and every established client
    accepts the answer and takes it as a sign of life. -/
def Answered (cfg : Client.Config) (net : Net R) (s : Server R) (remote : R) : Prop :=
  ∀ (c : IwanClient) (x : Session R), c.state = .established → x ∈ s.live →
    x.key = ⟨net.remoteString remote, c.sessionToken, c.sessionId⟩ →
    ∀ (usecs : UInt64) (env : Server.Env), ∃ req resp s',
      Client.buildEchoReq usecs c = some req ∧
      handleEchoReq net env s remote req = .ok ⟨s', [.udp resp x.remote], env.writeErr⟩ ∧
      net.remoteString x.remote = net.remoteString remote ∧
      ∀ (c' : IwanClient) (cenv : Client.Env), c'.state = .established →
        (∃ c'', Client.handleEchoResp cenv c' resp = some ⟨c'', [], true⟩) ∧
        (0 ≤ c'.udpFd → ∃ c'',
          Client.Step cfg c' (.datagram cenv c'.serverAddr c'.serverPort resp) [] c'' ∧
          c''.lastRecvTime = cenv.secsAfter)

/-- The server answers a request of a live session with its payload. -/
theorem answered (cfg : Client.Config) (h : Server.Inv net s) (remote : R) :
    Answered cfg net s remote := by
  intro c x hs hx hkey usecs env
  have hpkt : x.key = packetKey net remote (Wire.signedHeader Client.pktEchoreq 0 c.sessionToken
      c.sessionId ++ Client.echoPayload usecs c) := by
    rw [hkey, packetKey, Wire.signedHeader_token, Wire.signedHeader_sessionId]
  obtain ⟨s', -, hecho⟩ := handleEchoReq_live h env hx hpkt (Wire.signed_signedHeader _ _ _ _ _)
  rw [Wire.drop_signedHeader] at hecho
  have hans : IsAnswer usecs (Wire.signedHeader packetEchoResp 0 x.key.token x.key.sessionID ++
      Client.echoPayload usecs c) := ⟨_, _, c, rfl⟩
  refine ⟨_, _, s', Client.buildEchoReq_eq usecs c, hecho, ?_, fun c' cenv hs' => ⟨?_, fun hfd => ?_⟩⟩
  · rw [← (h.session x hx).remote, hkey]
  · exact ⟨_, Client.handleEchoResp_eq cenv hs' hans⟩
  · exact ⟨_, Client.step_echoResp cfg cenv hs' hfd hans, rfl⟩

/-- What the server sends on a request is an answer to it. -/
theorem outcome_request {r : Server.Res R} (ho : Server.Outcome net env s remote pkt r)
    (hreq : IsRequest usecs pkt) : ∀ q ∈ datagrams r.outs, IsAnswer usecs q.2 := by
  obtain ⟨c, hc⟩ := hreq
  rw [Client.buildEchoReq_eq] at hc
  have hpkt := (Option.some.inj hc).symm
  have htyp : Wire.typ pkt = packetEchoReq := by rw [hpkt, Wire.signedHeader_typ]
  have hdata : ∀ {x : Session R}, ¬ DataOf net s remote pkt x := by
    intro x hx
    have h := htyp.symm.trans hx.typ
    split_ifs at h <;> exact absurd h (by decide)
  cases ho with
  | ignored => simp [datagrams]
  | rejected h => exact absurd (htyp.symm.trans h) (by decide)
  | noIds => simp [datagrams]
  | opened request user token sessionID s' ack hparse =>
    exact absurd (htyp.symm.trans (parseOpenPacket_ok hparse).2.1) (by decide)
  | closed => simp [datagrams]
  | echoed x s' =>
    intro q hq
    rw [List.mem_singleton.mp hq, hpkt, Wire.drop_signedHeader]
    exact ⟨_, _, c, rfl⟩
  | dropped => simp [datagrams]
  | relayed x y s' hx => exact absurd hx hdata
  | exited x s' hx => exact absurd hx hdata
  | bounced x s' hx => exact absurd hx hdata

end

/-! ## An ESTABLISHED period -/

/-- An established client, the server and their keepalives, each with the reading
    of the clock for which the request was built. -/
structure Period (R : Type) where
  /-- The client's monotonic clock, in microseconds. -/
  now : ℕ
  client : IwanClient
  server : Server R
  requests : List (ℕ × Bytes)
  answers : List (ℕ × Bytes)

/-- What happens in a period. -/
inductive Period.Event (R : Type) where
  /-- Anything that the client reacts to, except an ECHORESP. -/
  | client (e : Client.Event)
  /-- A request reaches the server. -/
  | serverRecv (env : Server.Env)
  /-- Anything else that the server reacts to. -/
  | server (e : Server.Event R)
  /-- An answer reaches the client. -/
  | clientRecv (env : Client.Env)

/-- `mono_usecs()` returns the clock reading `t` in the event, if it is called. -/
def Reads (t : ℕ) : Client.Event → Prop
  | .tick env => env.usecs = UInt64.ofNat t
  | .datagram env _ _ _ => env.usecs = UInt64.ofNat t
  | .tun _ => True
  | .reconnect env => env.usecs = UInt64.ofNat t

/-- One step of a period, in which the client stays in ESTABLISHED. Its output is
    the round-trip time of the answer that arrives. -/
inductive Period.Step {R : Type} (cfg : Client.Config) (net : Net R) (remote : R) :
    Period R → Period.Event R → List ℕ → Period R → Prop
  | client {π : Period R} {t : ℕ} {e : Client.Event} {fx : List Client.Effect} {c' : IwanClient}
      (hnow : π.now ≤ t) (hclock : Reads t e) (hecho : ¬ Client.EchoResp e)
      (hstep : Client.Step cfg π.client e fx c') (hest : c'.state = .established) :
      Period.Step cfg net remote π (.client e) []
        { π with now := t, client := c',
                 requests := π.requests ++ (Client.requests fx).map fun pkt => (t, pkt) }
  | serverRecv {π : Period R} {env : Server.Env} {t : ℕ} {pkt : Bytes} {outs : List (Out R)}
      {s' : Server R} (hmem : (t, pkt) ∈ π.requests)
      (hstep : Server.Step net π.server (.packet env remote pkt) outs s') :
      Period.Step cfg net remote π (.serverRecv env) []
        { π with server := s', answers := π.answers ++ (datagrams outs).map fun q => (t, q.2) }
  | server {π : Period R} {e : Server.Event R} {outs : List (Out R)} {s' : Server R}
      (hstep : Server.Step net π.server e outs s') :
      Period.Step cfg net remote π (.server e) [] { π with server := s' }
  | clientRecv {π : Period R} {env : Client.Env} {t sent : ℕ} {pkt : Bytes}
      {fx : List Client.Effect} {c' : IwanClient} (hmem : (sent, pkt) ∈ π.answers)
      (hnow : π.now ≤ t) (hclock : env.usecs = UInt64.ofNat t)
      (hstep : Client.Step cfg π.client
        (.datagram env π.client.serverAddr π.client.serverPort pkt) fx c')
      (hest : c'.state = .established) :
      Period.Step cfg net remote π (.clientRecv env) [t - sent] { π with now := t, client := c' }

/-- One step of a run. -/
abbrev Period.StepRecord (R : Type) := Record (Period R) (Period.Event R) ℕ

/-- The round-trip times of a run, in order of receipt. -/
def roundTrips {R : Type} (tr : List (Period.StepRecord R)) : List ℕ := tr.flatMap (·.outs)

section

variable {R : Type} {cfg : Client.Config} {net : Net R} {remote : R} {π π' : Period R}
  {tr : List (Period.StepRecord R)}

@[simp] theorem roundTrips_snoc (tr : List (Period.StepRecord R)) (r : Period.StepRecord R) :
    roundTrips (tr ++ [r]) = roundTrips tr ++ r.outs := by
  simp [roundTrips]

theorem roundTrips_append (tr tr' : List (Period.StepRecord R)) :
    roundTrips (tr ++ tr') = roundTrips tr ++ roundTrips tr' := List.flatMap_append

/-- The difference of two clock readings, as the client computes it. -/
theorem toNat_delay {sent t : ℕ} (h : sent ≤ t) :
    (UInt64.ofNat t - UInt64.ofNat sent).toUInt32.toNat = (t - sent) % 2 ^ 32 := by
  rw [← UInt64.ofNat_sub h, UInt64.toNat_toUInt32, UInt64.toNat_ofNat',
    Nat.mod_mod_of_dvd _ (by norm_num)]

/-- What holds in every state of a period. -/
structure Tracked (net : Net R) (tr : List (Period.StepRecord R)) (π : Period R) : Prop where
  inv : Server.Inv net π.server
  slots : Client.SlotsOk π.client.frags
  established : π.client.state = .established
  socket : 0 ≤ π.client.udpFd
  requests : ∀ q ∈ π.requests, q.1 ≤ π.now ∧ IsRequest (UInt64.ofNat q.1) q.2
  answers : ∀ q ∈ π.answers, q.1 ≤ π.now ∧ IsAnswer (UInt64.ofNat q.1) q.2
  delays : delays π.client = Delays.ofList ((roundTrips tr).map (· % 2 ^ 32))

/-- **Every step keeps the statistics of the round-trip times.** -/
theorem tracked_step (hadm : cfg.Admitted) (h : Tracked net tr π) {e : Period.Event R} {ds : List ℕ}
    (hstep : Period.Step cfg net remote π e ds π') : Tracked net (tr ++ [⟨π, e, ds, π'⟩]) π' := by
  cases hstep with
  | @client t e fx c' hnow hclock hecho hstep hest =>
    obtain ⟨hok, hm⟩ := hstep.move hadm h.slots
    obtain ⟨hfd, -⟩ := hm.stays h.established h.socket hest
    obtain ⟨hd, hreq⟩ := hstep.stays hadm h.slots h.established h.socket hest hecho
    refine ⟨h.inv, hok, hest, hfd ▸ h.socket, fun q hq => ?_, fun q hq => ?_, ?_⟩
    · rcases List.mem_append.mp hq with hq | hq
      · exact ⟨(h.requests q hq).1.trans hnow, (h.requests q hq).2⟩
      · obtain ⟨pkt, hpkt, rfl⟩ := List.mem_map.mp hq
        obtain ⟨env, rfl, hbuild⟩ := hreq pkt hpkt
        have husecs : env.usecs = UInt64.ofNat t := hclock
        exact ⟨le_rfl, _, husecs ▸ hbuild⟩
    · exact ⟨(h.answers q hq).1.trans hnow, (h.answers q hq).2⟩
    · rw [roundTrips_snoc, List.append_nil, ← h.delays]
      exact hd
  | @serverRecv env t pkt outs s' hmem hstep =>
    obtain ⟨hinv, err, ho⟩ := hstep.packet_outcome h.inv
    obtain ⟨hle, hreq⟩ := h.requests _ hmem
    refine ⟨hinv, h.slots, h.established, h.socket, h.requests, fun q hq => ?_, ?_⟩
    · rcases List.mem_append.mp hq with hq | hq
      · exact h.answers q hq
      · obtain ⟨q', hq', rfl⟩ := List.mem_map.mp hq
        exact ⟨hle, outcome_request ho hreq q' hq'⟩
    · rw [roundTrips_snoc, List.append_nil]
      exact h.delays
  | server hstep =>
    refine ⟨(Server.inv_step h.inv hstep).1, h.slots, h.established, h.socket, h.requests, h.answers,
      ?_⟩
    rw [roundTrips_snoc, List.append_nil]
    exact h.delays
  | @clientRecv env t sent pkt fx c' hmem hnow hclock hstep hest =>
    obtain ⟨hle, hans⟩ := h.answers _ hmem
    obtain ⟨hok, hm⟩ := hstep.move hadm h.slots
    obtain ⟨hfd, -⟩ := hm.stays h.established h.socket hest
    -- the step records one delay
    obtain ⟨rfl, -⟩ := Prod.mk.inj (Option.some.inj (hstep.symm.trans
      (Client.step_echoResp cfg _ h.established h.socket hans)))
    refine ⟨h.inv, hok, hest, hfd ▸ h.socket, fun q hq => ?_, fun q hq => ?_, ?_⟩
    · exact ⟨(h.requests q hq).1.trans hnow, (h.requests q hq).2⟩
    · exact ⟨(h.answers q hq).1.trans hnow, (h.answers q hq).2⟩
    · have hd := Client.delays_measured (env.usecs - UInt64.ofNat sent).toUInt32
        { π.client with rxPkts := π.client.rxPkts + 1 }
      rw [hclock, toNat_delay (hle.trans hnow)] at hd
      rw [roundTrips_snoc, List.map_append, List.map_singleton, Delays.ofList_snoc, ← h.delays,
        hclock]
      exact hd

/-- **Keepalives.** The client of an admitted configuration has just entered
    ESTABLISHED, and the server is in any state that it can reach. In every state of
    the period that follows, each ECHOREQ of a live session is answered and the answer
    is accepted; and if the round-trip times measured so far are below `2 ^ 32`
    microseconds, the statistics are the last, the greatest and the least of them, the
    least also bounded by five seconds. -/
theorem keepalive_exact {cfg₀ : Client.Config} {ienv : Client.InitEnv} {c₀ c₁ c : IwanClient}
    {fx₀ fx : List Client.Effect} {ctr : List Client.StepRecord} {e : Client.Event}
    {config : Server.Config} {device : Bool} {openDevice : Except String Unit} {s₀ s : Server R}
    {str : List (Server.StepRecord R)} {now : ℕ} (hcfg : cfg₀.Admitted)
    (hinit : Client.mainInit cfg₀ ienv = some (some (cfg, c₀, fx₀)))
    (hclient : Trace (Client.Step cfg) c₀ ctr c₁) (hopen : Client.Step cfg c₁ e fx c)
    (hpre : c₁.state ≠ .established) (hest : c.state = .established)
    (h0 : newServer net config device openDevice = .ok s₀)
    (hserver : Trace (Server.Step net) s₀ str s)
    (hrun : Trace (Period.Step cfg net remote) ⟨now, c, s, [], []⟩ tr π) :
    Answered cfg net π.server remote ∧
    ∀ hne : roundTrips tr ≠ [], (∀ d ∈ roundTrips tr, d < 2 ^ 32) →
      π.client.curDelay.toNat = (roundTrips tr).getLast hne ∧
      π.client.maxDelay.toNat = (roundTrips tr).foldl max 0 ∧
      π.client.minDelay.toNat = (roundTrips tr).foldl min 5000000 ∧
      π.client.minDelay ≤ π.client.curDelay ∧ π.client.curDelay ≤ π.client.maxDelay := by
  obtain ⟨hadm, -⟩ := Client.inv_init hcfg hinit
  obtain ⟨hslots, hfresh⟩ := Client.run_fresh hcfg hinit hclient
  obtain ⟨hok, hm⟩ := hopen.move hadm hslots
  obtain ⟨hdelays, hfd⟩ := hm.start hfresh hpre hest
  have hstart : Tracked net [] ⟨now, c, s, [], []⟩ :=
    { inv := (reachable_inv (inv_newServer h0).1 hserver).1
      slots := hok
      established := hest
      socket := hfd
      requests := by simp
      answers := by simp
      delays := hdelays }
  have h : Tracked net tr π :=
    hrun.invariant hstart fun tr π e ds π' _ h hs => tracked_step hadm h hs
  refine ⟨answered cfg h.inv remote, fun hne hlt => ?_⟩
  -- nothing is cut off
  have hmod : (roundTrips tr).map (· % 2 ^ 32) = roundTrips tr := by
    conv_rhs => rw [← List.map_id (roundTrips tr)]
    exact List.map_congr_left fun d hd => Nat.mod_eq_of_lt (hlt d hd)
  have hd := h.delays
  rw [hmod] at hd
  obtain ⟨hcur, hmin, hmax⟩ := Delays.cur_ofList (roundTrips tr) hne
  rw [← hd] at hcur hmin hmax
  refine ⟨hcur, ?_, ?_, UInt32.le_iff_toNat_le.mpr hmin, UInt32.le_iff_toNat_le.mpr hmax⟩
  · exact (congrArg Delays.max hd).trans (Delays.max_ofList _)
  · exact (congrArg Delays.min hd).trans (Delays.min_ofList _)

end

/-! ## Two overlapping exchanges -/

section

variable {R : Type} {cfg : Client.Config} {net : Net R} {s : Server R} {remote : R} {π : Period R}
  {x : Session R}

/-- The keepalive of type `typ` for the request that `c` builds when the clock
    shows `t`. -/
def echoPkt (typ : UInt8) (t : ℕ) (c : IwanClient) : Bytes :=
  Wire.signedHeader typ 0 c.sessionToken c.sessionId ++ Client.echoPayload (UInt64.ofNat t) c

/-- System calls that succeed at second 102, when the clock shows `t`. -/
def clockEnv (t : ℕ) : Client.Env := { Client.calmEnv 102 with usecs := UInt64.ofNat t }

/-- A client in session `x` after `n` ticks of a period that began at second 101. -/
structure Ticked (net : Net R) (remote : R) (x : Session R) (n : UInt32) (c : IwanClient) : Prop where
  established : c.state = .established
  socket : 0 ≤ c.udpFd
  recv : c.lastRecvTime = 101
  count : c.echoCounter = n
  key : x.key = ⟨net.remoteString remote, c.sessionToken, c.sessionId⟩

/-- Two ticks at second 102 send a request. -/
theorem period_request (cfg : Client.Config) {c : IwanClient} {n : UInt32} {now t : ℕ}
    (h : Ticked net remote x n c) (hodd : ¬ (n + 1) &&& 1 = 0) (heven : (n + 1 + 1) &&& 1 = 0)
    (hnow : now ≤ t) (s : Server R) (reqs : List (ℕ × Bytes)) :
    ∃ d tr, Ticked net remote x (n + 1 + 1) d ∧ roundTrips tr = [] ∧
      Trace (Period.Step cfg net remote) ⟨now, c, s, reqs, []⟩ tr
        ⟨t, d, s, reqs ++ [(t, echoPkt Client.pktEchoreq t c)], []⟩ := by
  obtain ⟨hs, hfd, hrecv, rfl, hkey⟩ := h
  have hto : ¬ (clockEnv t).secs - c.lastRecvTime > Client.dataTimeout := by
    rw [hrecv]
    show ¬ (102 : UInt32) - 101 > Client.dataTimeout
    decide
  have hclock : Reads t (.tick (clockEnv t)) := rfl
  have hfirst := Client.step_tick cfg hs hfd hto
  rw [if_neg hodd] at hfirst
  have hsecond := Client.step_tick (c := { c with echoCounter := c.echoCounter + 1 }) cfg hs hfd hto
  rw [if_pos heven] at hsecond
  have hsent : (Client.requests [Client.sendToServer c (Wire.signedHeader Client.pktEchoreq 0
      c.sessionToken c.sessionId ++ Client.echoPayload (clockEnv t).usecs c)]).map (fun pkt => (t, pkt)) =
      [(t, echoPkt Client.pktEchoreq t c)] := rfl
  have h₁ : Period.Step cfg net remote ⟨now, c, s, reqs, []⟩ _ _ _ :=
    .client hnow hclock id hfirst hs
  rw [show Client.requests [] = [] from rfl, List.map_nil, List.append_nil] at h₁
  have h₂ : Period.Step cfg net remote
      ⟨t, { c with echoCounter := c.echoCounter + 1 }, s, reqs, []⟩ _ _ _ :=
    .client le_rfl hclock id hsecond hs
  rw [← hsent]
  refine ⟨_, _, ?_, rfl, (Trace.nil.snoc h₁).snoc h₂⟩
  exact ⟨hs, hfd, hrecv, rfl, hkey⟩

/-- The server answers a request of a live session. -/
theorem period_answer (cfg : Client.Config) {c : IwanClient} {s : Server R} {t : ℕ}
    {reqs : List (ℕ × Bytes)} (hkey : x.key = ⟨net.remoteString remote, c.sessionToken, c.sessionId⟩)
    (hinv : Server.Inv net s) (hx : x ∈ s.live)
    (hmem : (t, echoPkt Client.pktEchoreq t c) ∈ reqs) :
    ∃ s', Renewed net s x.key 0 s' ∧ ∀ (now : ℕ) (d : IwanClient) (anss : List (ℕ × Bytes)),
      Period.Step cfg net remote ⟨now, d, s, reqs, anss⟩ (.serverRecv (calmEnv 0)) []
        ⟨now, d, s', reqs, anss ++ [(t, echoPkt Client.pktEchoresp t c)]⟩ := by
  have hpkt : x.key = packetKey net remote (echoPkt Client.pktEchoreq t c) := by
    rw [hkey, packetKey, echoPkt, Wire.signedHeader_token, Wire.signedHeader_sessionId]
  have htyp : Wire.typ (echoPkt Client.pktEchoreq t c) = packetEchoReq := by
    rw [echoPkt, Wire.signedHeader_typ]
  have hresp : echoPkt Client.pktEchoresp t c = Wire.signedHeader packetEchoResp 0 c.sessionToken
      c.sessionId ++ (echoPkt Client.pktEchoreq t c).drop 24 := by
    rw [echoPkt, echoPkt, Wire.drop_signedHeader]
  have hlen : 8 ≤ (echoPkt Client.pktEchoreq t c).length := by
    rw [echoPkt, List.length_append, Wire.length_signedHeader]
    omega
  have hsig : Wire.Signed (echoPkt Client.pktEchoreq t c) := by
    rw [echoPkt]
    exact Wire.signed_signedHeader _ _ _ _ _
  obtain ⟨s', hren, hecho⟩ := handleEchoReq_live hinv (calmEnv 0) hx hpkt hsig
  have hstep : Server.Step net s (.packet (calmEnv 0) remote (echoPkt Client.pktEchoreq t c))
      [.udp (echoPkt Client.pktEchoresp t c) x.remote] s' := by
    refine ⟨none, ?_⟩
    rw [Server.step, handlePacket_echoReq hlen htyp, hecho, hkey, hresp]
    rfl
  refine ⟨s', hren, fun now d anss => ?_⟩
  have hans : Period.Step cfg net remote ⟨now, d, s, reqs, anss⟩ _ _ _ := .serverRecv hmem hstep
  exact hans

/-- An answer arrives. -/
theorem period_receipt (cfg : Client.Config) (net : Net R) (remote : R) (sent : ℕ) {c d : IwanClient}
    {now t : ℕ} {reqs anss : List (ℕ × Bytes)} (hs : d.state = .established) (hfd : 0 ≤ d.udpFd)
    (hnow : now ≤ t) (hmem : (sent, echoPkt Client.pktEchoresp sent c) ∈ anss) (s : Server R) :
    ∃ d', d'.state = .established ∧ 0 ≤ d'.udpFd ∧
      Period.Step cfg net remote ⟨now, d, s, reqs, anss⟩ (.clientRecv (clockEnv t)) [t - sent]
        ⟨t, d', s, reqs, anss⟩ := by
  have hans : IsAnswer (UInt64.ofNat sent) (echoPkt Client.pktEchoresp sent c) := ⟨_, _, c, rfl⟩
  have hstep := Client.step_echoResp cfg (clockEnv t) hs hfd hans
  refine ⟨_, ?_, ?_, .clientRecv hmem hnow rfl hstep ?_⟩
  · exact hs
  · exact hfd
  · exact hs

end

/-- The client of `alice` enters ESTABLISHED at second 101, in a session that is live
    at the server. -/
theorem alice_established : ∃ (cfg : Client.Config) (c₀ c₁ c : IwanClient)
    (fx₀ fx : List Client.Effect) (ctr : List Client.StepRecord) (e : Client.Event)
    (s₀ s : Server Bytes) (str : List (Server.StepRecord Bytes)) (x : Session Bytes),
    Client.mainInit (aliceConfig alice.password) ⟨4, none, 3⟩ = some (some (cfg, c₀, fx₀)) ∧
      Trace (Client.Step cfg) c₀ ctr c₁ ∧ Client.Step cfg c₁ e fx c ∧ c₁.state ≠ .established ∧
      newServer exampleNet (exampleConfig false) false (.ok ()) = .ok s₀ ∧
      Trace (Server.Step exampleNet) s₀ str s ∧ Server.Inv exampleNet s ∧ x ∈ s.live ∧
      Ticked exampleNet alice.address x 0 c := by
  obtain ⟨cfg, c₀, fx₀, hinit, hcfg, hadm, huser, hpass, hst, hfd⟩ := alice_starts
  obtain ⟨s₀, h0, hinv, -⟩ := example_newServer false
  obtain ⟨halice, hpass'⟩ := alice_known huser hpass h0
  have hopen : Client.Step cfg c₀ (.tick (Client.calmEnv 100)) _ _ :=
    Client.step_open _ hadm hst hfd (by decide)
  obtain ⟨s₁, mtu, a, ds, enc, hne, hstep, hinv₁, -, ⟨x, hx, hkey⟩, -⟩ :=
    step_openPkt_ack hadm hinv halice hpass' (newSessionIDs_calmEnv 0) alice.address
  obtain ⟨fx, c, hrecv, -, hest, htok, hid⟩ := step_openAck {alice.address} cfg
    (c := { Client.startAuth cfg (Client.calmEnv 100) c₀ with lastOpenTime := 100 }) rfl hfd 101
    alice.address hne (Vector.replicate 2 0) (Vector.replicate 4 0) mtu ds enc
  obtain ⟨hslots, -⟩ := Client.run_fresh hcfg hinit (Trace.nil.snoc hopen)
  -- what the OPENACK leaves behind
  obtain ⟨-, -, env, data, p, he, -, -, rfl, -, rfl, -⟩ :=
    (hrecv.move hadm hslots).2.began (by simp [Client.startAuth]) hest
  obtain ⟨rfl, -, -, -⟩ := Client.Event.datagram.inj he
  refine ⟨cfg, c₀, _, _, fx₀, fx, _, _, s₀, s₁, _, x, hinit, Trace.nil.snoc hopen, hrecv,
    by simp [Client.startAuth], h0, Trace.nil.snoc hstep, hinv₁, hx, hest, hfd, rfl, rfl, ?_⟩
  rw [hkey, htok, hid]

/-- `alice` builds a request when the clock shows 20 and another one at 40. The answer
    to the second arrives at 70, and the one to the first at 75. -/
theorem alice_keepalive : ∃ (cfg : Client.Config) (c : IwanClient) (s : Server Bytes)
    (tr : List (Period.StepRecord Bytes)) (π : Period Bytes),
    Trace (Period.Step cfg exampleNet alice.address) ⟨10, c, s, [], []⟩ tr π ∧
      Answered cfg exampleNet π.server alice.address ∧ roundTrips tr = [30, 55] ∧
      π.client.curDelay.toNat = 55 ∧ π.client.maxDelay.toNat = 55 ∧ π.client.minDelay.toNat = 30 := by
  obtain ⟨cfg, c₀, c₁, c, fx₀, fx, ctr, e, s₀, s, str, x, hinit, hclient, hopen, hpre, h0, hserver,
    hinv, hx, hc⟩ := alice_established
  have hcfg : (aliceConfig alice.password).Admitted := by constructor <;> decide
  -- two requests
  obtain ⟨d, tr₁, hd, hnil₁, hrun₁⟩ :=
    period_request cfg hc (by decide) (by decide) (show 10 ≤ 20 by decide) s []
  obtain ⟨d', tr₂, hd', hnil₂, hrun₂⟩ := period_request cfg hd (by decide) (by decide)
    (show 20 ≤ 40 by decide) s ([] ++ [(20, echoPkt Client.pktEchoreq 20 c)])
  -- two answers, that to the second request first
  obtain ⟨s₁, hren₁, hans₁⟩ := period_answer cfg hd.key hinv hx
    (List.mem_append_right ([] ++ [(20, echoPkt Client.pktEchoreq 20 c)]) (List.mem_singleton.mpr rfl))
  obtain ⟨s₂, -, hans₂⟩ := period_answer cfg ((renew_key _ _ _).trans hc.key) hren₁.inv
    ((hren₁.live _).mpr ⟨x, hx, rfl⟩) (List.mem_append_left [(40, echoPkt Client.pktEchoreq 40 d)]
      (List.mem_singleton.mpr rfl))
  obtain ⟨d₁, hs₁, hfd₁, hrecv₁⟩ := period_receipt cfg exampleNet alice.address 40 hd'.established
    hd'.socket (show 40 ≤ 70 by decide)
    (List.mem_append_left [(20, echoPkt Client.pktEchoresp 20 c)] (List.mem_singleton.mpr rfl)) s₂
  obtain ⟨d₂, -, -, hrecv₂⟩ := period_receipt cfg exampleNet alice.address 20 hs₁ hfd₁
    (show 70 ≤ 75 by decide)
    (List.mem_append_right [(40, echoPkt Client.pktEchoresp 40 d)] (List.mem_singleton.mpr rfl)) s₂
  obtain ⟨tr, htimes, hrun⟩ : ∃ tr, roundTrips tr = [30, 55] ∧
      Trace (Period.Step cfg exampleNet alice.address) ⟨10, c, s, [], []⟩ tr ⟨75, d₂, s₂, _, _⟩ := by
    refine ⟨_, ?_, ((((hrun₁.append hrun₂).snoc (hans₁ 40 d' [])).snoc (hans₂ 40 d' _)).snoc
      hrecv₁).snoc hrecv₂⟩
    simp only [roundTrips_append, hnil₁, hnil₂]
    rfl
  obtain ⟨hanswered, hstats⟩ :=
    keepalive_exact hcfg hinit hclient hopen hpre hc.established h0 hserver hrun
  simp only [htimes] at hstats
  obtain ⟨hcur, hmax, hmin, -⟩ := hstats (by decide) (by decide)
  exact ⟨cfg, c, s, tr, _, hrun, hanswered, htimes, hcur, hmax, hmin⟩

end Iwand.EndToEnd
