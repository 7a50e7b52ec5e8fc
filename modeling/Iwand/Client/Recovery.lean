import Iwand.Client.Deadline

/-!
# Recovery

No state of the client is a trap. Once the server has been silent for seventeen
seconds, three ticks with a working socket and resolver are enough: the client
resets, resolves the server and sends an OPEN, unless a packet was accepted in the
meantime. Packets that are not accepted, bytes from the TUN and failing ticks in
between do not delay it.

* `stuck_step`: how many late ticks can pass in silence is bounded by a rank of the
  state, which each of them lowers.
* `recovery`: the consequence for runs.
-/

namespace Iwand.Client

/-! ## Silence -/

/-- The step handles a packet of the server that its handler accepts. -/
def Hears (cfg : Config) (r : StepRecord) : Prop :=
  ∃ env data res, r.ev = .datagram env r.pre.serverAddr r.pre.serverPort data ∧
    dispatch cfg env { r.pre with rxPkts := r.pre.rxPkts + 1 } (data.take maxPktSize)
      (Wire.typ (data.take maxPktSize)) = some res ∧ res.accepted = true

/-- A tick at least 17 seconds after `start`, with a socket and an answer of the
    resolver. -/
def lateTick (start : UInt32) (r : StepRecord) : Bool :=
  match r.ev with
  | .tick env => start.toNat + 17 ≤ env.secs.toNat ∧
      (0 ≤ r.pre.udpFd ∨ 0 ≤ env.tickSocket) ∧ env.getaddrinfo ≠ none
  | _ => false

/-- How many late ticks the state can let pass before an OPEN. -/
def State.rank : State → ℕ
  | .dnsNeeded => 2
  | .ipReady => 1
  | .notReady | .authSent | .established | .closed => 3

/-- A part `seg` of a run in which nothing was accepted and no OPEN was sent. -/
structure Stuck (start : UInt32) (seg : List StepRecord) (c : IwanClient) : Prop where
  slots : SlotsOk c.frags
  ready : c.state ≠ .notReady
  recv : c.state = .authSent ∨ c.state = .established → c.lastRecvTime.toNat ≤ start.toNat + 1
  count : (seg.filter (lateTick start)).length + c.state.rank ≤ 3

section

variable {cfg : Config} {start : UInt32} {seg : List StepRecord} {c c' : IwanClient} {e : Event}
  {fx : List Effect}

theorem rank_le (s : State) : s.rank ≤ 3 := by cases s <;> decide

theorem filter_late_snoc (r : StepRecord) : ((seg ++ [r]).filter (lateTick start)).length =
    (seg.filter (lateTick start)).length + if lateTick start r then 1 else 0 := by
  rw [List.filter_append, List.length_append]
  cases h : lateTick start r <;> simp [h]

theorem lateTick_tick {env : Env} : lateTick start ⟨c, .tick env, fx, c'⟩ = true ↔
    start.toNat + 17 ≤ env.secs.toNat ∧ (0 ≤ c.udpFd ∨ 0 ≤ env.tickSocket) ∧
      env.getaddrinfo ≠ none := by
  unfold lateTick
  exact decide_eq_true_iff

/-- A late tick is late by the clock. -/
theorem late_reading (h : seg.filter (lateTick start) ≠ []) :
    ∃ u ∈ readings seg, start.toNat + 17 ≤ u.toNat := by
  obtain ⟨⟨c, e, fx, c'⟩, hr⟩ := List.exists_mem_of_ne_nil _ h
  obtain ⟨hmem, hlate⟩ := List.mem_filter.mp hr
  cases e with
  | tick env =>
    exact ⟨env.secs, List.mem_flatMap.mpr ⟨_, hmem, by simp [Event.readings]⟩,
      (lateTick_tick.mp hlate).1⟩
  | datagram env addr port data => cases hlate
  | tun data => cases hlate
  | reconnect env => cases hlate

/-- A step that is no late tick and does not raise the rank. -/
theorem Stuck.keep (h : Stuck start seg c) (r : StepRecord) (hr : lateTick start r = false)
    (hok : SlotsOk c'.frags) (hready : c'.state ≠ .notReady)
    (hrecv : c'.state = .authSent ∨ c'.state = .established →
      c'.lastRecvTime.toNat ≤ start.toNat + 1)
    (hrank : c'.state.rank ≤ c.state.rank) : Stuck start (seg ++ [r]) c' := by
  refine ⟨hok, hready, hrecv, ?_⟩
  have hcount := h.count
  rw [filter_late_snoc, hr, if_neg (by decide)]
  omega

/-- A tick that lowers the rank. -/
theorem Stuck.lower (h : Stuck start seg c) (r : StepRecord) (hok : SlotsOk c'.frags)
    (hidle : c'.state = .dnsNeeded ∨ c'.state = .ipReady) (hrank : c'.state.rank < c.state.rank) :
    Stuck start (seg ++ [r]) c' := by
  refine ⟨hok, ?_, fun hs => ?_, ?_⟩
  · rcases hidle with hd | hd <;> simp [hd]
  · rcases hidle with hd | hd <;> simp [hd] at hs
  have hcount := h.count
  rw [filter_late_snoc]
  split_ifs <;> omega

/-! ## Late ticks -/

/-- Opening the socket comes before anything else in a tick. -/
theorem step_tick_socket (cfg : Config) {env : Env} (hsock : 0 ≤ c.udpFd ∨ 0 ≤ env.tickSocket) :
    ∃ d fxs, 0 ≤ d.udpFd ∧ d.state = c.state ∧ d.lastRecvTime = c.lastRecvTime ∧
      (fxs = [] ∨ ∃ fd, fxs = [.socket fd]) ∧
      step cfg c (.tick env) = (step cfg d (.tick env)).map fun x => (x.1, fxs ++ x.2) := by
  by_cases hfd : c.udpFd < 0
  · have hsock : 0 ≤ env.tickSocket := by omega
    refine ⟨{ c with udpFd := env.tickSocket }, [.socket env.tickSocket], hsock, rfl, rfl,
      .inr ⟨_, rfl⟩, ?_⟩
    have hcreate : udpSocketCreate env.tickSocket = env.tickSocket := if_neg (by omega)
    unfold step timerTick tickSocket
    simp only [if_pos hfd, hcreate, if_neg (show ¬ env.tickSocket < 0 by omega)]
    cases tickState cfg env { c with udpFd := env.tickSocket } <;> rfl
  · refine ⟨c, [], by omega, rfl, rfl, .inl rfl, ?_⟩
    simp

/-- With a socket a tick is its `switch`. -/
theorem step_tick_eq (cfg : Config) (env : Env) (hfd : 0 ≤ c.udpFd) :
    step cfg c (.tick env) = tickState cfg env c := by
  have hsock : tickSocket env c = (c, []) := if_neg (by omega)
  rw [step, timerTick, hsock]
  simp only [if_neg (show ¬ c.udpFd < 0 by omega)]
  cases tickState cfg env c <;> rfl

theorem resolveServer_answered (h : cfg.Admitted) {gai : Option (Vector UInt8 4)} (hgai : gai ≠ none) :
    ∃ c₁, resolveServer cfg gai c = some (c₁, true) := by
  have hserver := h.bounded.server.cstr_eq.1
  obtain ⟨addr, rfl⟩ := Option.ne_none_iff_exists'.mp hgai
  rw [resolveServer, hserver]
  simp only [Option.bind_eq_bind, Option.bind_some]
  split
  · exact ⟨_, rfl⟩
  · exact ⟨_, rfl⟩

/-- A timeout that has passed by the clock has passed for `timer_tick`. -/
theorem expired {now t timeout : UInt32} (h : t.toNat + timeout.toNat < now.toNat) :
    now - t > timeout := by
  have hle : t ≤ now := UInt32.le_iff_toNat_le.mpr (by omega)
  show timeout.toNat < (now - t).toNat
  rw [UInt32.toNat_sub_of_le _ _ hle]
  omega

theorem rank_resetClient (fd : Int) (c : IwanClient) : (resetClient fd c).state.rank < 3 := by
  rcases resetClient_state fd c with hs | hs <;> rw [hs] <;> decide

/-- A tick with a socket and an answer of the resolver, after the timeout of a
    session, sends an OPEN or lowers the rank. -/
theorem tick_lowers (h : cfg.Admitted) (hready : c.state ≠ .notReady) {env : Env}
    (hsock : 0 ≤ c.udpFd ∨ 0 ≤ env.tickSocket) (hgai : env.getaddrinfo ≠ none)
    (htwo : c.state = .ipReady → 2 ≤ env.secs)
    (hto : c.state = .authSent ∨ c.state = .established → env.secs - c.lastRecvTime > dataTimeout)
    (hs : Step cfg c (.tick env) fx c') :
    (c.state = .ipReady ∧ ∃ x ∈ fx, isOpen x = true) ∨ c'.state.rank < c.state.rank ∧
      (c'.state = .dnsNeeded ∨ c'.state = .ipReady) := by
  obtain ⟨d, fxs, hfd, hstate, hlast, -, hstep⟩ := step_tick_socket cfg hsock
  unfold Step at hs
  rw [hstep, step_tick_eq cfg env hfd] at hs
  rw [← hlast, ← hstate] at hto
  rw [← hstate] at hready htwo ⊢
  -- a reset from a state of rank 3
  have hreset : d.state.rank = 3 → tickState cfg env d = clientReset cfg env d →
      c'.state.rank < d.state.rank ∧ (c'.state = .dnsNeeded ∨ c'.state = .ipReady) := by
    intro hrank heq
    rw [heq, clientReset_eq] at hs
    cases hs
    rw [hrank]
    exact ⟨rank_resetClient _ _, resetClient_state _ _⟩
  cases hst : d.state with
  | notReady => exact absurd hst hready
  | dnsNeeded =>
    obtain ⟨c₁, hr⟩ := resolveServer_answered (c := d) h hgai
    simp only [tickState, hst, hr] at hs
    cases hs
    exact .inr ⟨Nat.lt_succ_self 1, .inr rfl⟩
  | ipReady =>
    rw [← step_tick_eq cfg env hfd, step_open env h hst hfd (htwo hst)] at hs
    cases hs
    exact .inl ⟨rfl, _, List.mem_append_right _ (List.mem_singleton_self _),
      isOpen_openPkt h (buildOpenPkt_eq h.bounded) _⟩
  | authSent =>
    have hauth : env.secs - d.lastRecvTime > authTimeout :=
      UInt32.lt_trans (show authTimeout < dataTimeout by decide) (hto (.inl hst))
    refine .inr (hst ▸ hreset (by rw [hst]; rfl) ?_)
    simp only [tickState, hst, tickAuth, if_pos hauth]
  | established =>
    refine .inr (hst ▸ hreset (by rw [hst]; rfl) ?_)
    simp only [tickState, hst, tickEstablished, if_pos (hto (.inr hst))]
  | closed =>
    refine .inr (hst ▸ hreset (by rw [hst]; rfl) ?_)
    simp only [tickState, hst]

/-- **A late tick** sends an OPEN or lowers the rank. -/
theorem late_tick (h : cfg.Admitted) (hready : c.state ≠ .notReady)
    (hrecv : c.state = .authSent ∨ c.state = .established → c.lastRecvTime.toNat ≤ start.toNat + 1)
    {env : Env} (hlate : lateTick start ⟨c, .tick env, fx, c'⟩ = true)
    (hs : Step cfg c (.tick env) fx c') :
    (∃ x ∈ fx, isOpen x = true) ∨ c'.state.rank < c.state.rank ∧
      (c'.state = .dnsNeeded ∨ c'.state = .ipReady) := by
  obtain ⟨htime, hsock, hgai⟩ := lateTick_tick.mp hlate
  refine (tick_lowers h hready hsock hgai (fun _ => ?_) (fun hst => ?_) hs).imp_left And.right
  · show (2 : UInt32).toNat ≤ env.secs.toNat
    rw [show (2 : UInt32).toNat = 2 from rfl]
    omega
  · refine expired ?_
    have hle := hrecv hst
    rw [show dataTimeout.toNat = 15 from rfl]
    omega

/-! ## Silent steps -/

/-- A packet that is not accepted renews nothing and starts nothing. -/
theorem deaf_datagram (hok : SlotsOk c.frags) {env : Env} {addr : Vector UInt8 4} {port : UInt16}
    {data : Bytes} (hs : Step cfg c (.datagram env addr port data) fx c')
    (hdeaf : ¬ Hears cfg ⟨c, .datagram env addr port data, fx, c'⟩) :
    c'.state = c.state ∧ c'.lastRecvTime = c.lastRecvTime ∨
      c.state = .authSent ∧ c'.state = .closed := by
  unfold Step at hs
  rcases step_datagram_cases cfg c env addr port data with hdrop | ⟨-, rfl, rfl, -, hdisp⟩
  · rw [hdrop] at hs
    cases hs
    exact .inl ⟨rfl, rfl⟩
  obtain ⟨res, hres, -, ho⟩ := dispatch_outcome cfg env
    (c := { c with rxPkts := c.rxPkts + 1 }) hok (List.length_take_le 2048 data)
  have hacc : res.accepted = false := by
    by_contra hacc
    exact hdeaf ⟨env, data, res, rfl, hres, by simpa using hacc⟩
  rw [hdisp res hres] at hs
  obtain ⟨rfl, -⟩ := Prod.mk.inj (Option.some.inj hs)
  unfold touch
  rw [hacc, if_neg (by decide)]
  cases ho with
  | ignored => exact .inl ⟨rfl, rfl⟩
  | stored => exact .inl ⟨rfl, rfl⟩
  | delivered => cases hacc
  | echoed => cases hacc
  | peerClosed => cases hacc
  | rejected hst => exact .inr ⟨hst, rfl⟩
  | refused p _ _ _ hp =>
    obtain rfl : params _ _ = p := Option.some.inj ((applyTlvs_eq _ _).symm.trans hp)
    exact .inl ⟨rfl, rfl⟩
  | opened => cases hacc
  | openFailed p fx hst => exact .inr ⟨hst, rfl⟩

/-- A tick that enters AUTH_SENT without an OPEN is one of the first two seconds of
    the clock. -/
theorem early_start (h : cfg.Admitted) {env : Env} (hs : Step cfg c (.tick env) fx c')
    (hpre : c.state = .ipReady) (hpost : c'.state = .authSent)
    (hquiet : ∀ x ∈ fx, isOpen x = false) : env.secs.toNat < 2 := by
  by_contra htwo
  have htwo : (2 : UInt32) ≤ env.secs := by
    show (2 : UInt32).toNat ≤ env.secs.toNat
    rw [show (2 : UInt32).toNat = 2 from rfl]
    omega
  unfold Step at hs
  by_cases hsock : 0 ≤ c.udpFd ∨ 0 ≤ env.tickSocket
  · obtain ⟨d, fxs, hfd, hstate, -, -, hstep⟩ := step_tick_socket cfg hsock
    rw [hstep, step_open env h (hstate.trans hpre) hfd htwo] at hs
    cases hs
    have hopen := isOpen_openPkt h (buildOpenPkt_eq h.bounded) (startAuth cfg env d)
    rw [hquiet _ (List.mem_append_right _ (List.mem_singleton_self _))] at hopen
    cases hopen
  · -- without a socket the state stays
    have hfd : c.udpFd < 0 := by omega
    have hcreate : udpSocketCreate env.tickSocket = -1 := if_pos (by omega)
    rw [step, timerTick, tickSocket, if_pos hfd, hcreate] at hs
    cases hs
    rw [hpre] at hpost
    cases hpost

/-- **One silent step.** -/
theorem stuck_step (h : cfg.Admitted) (hst : Stuck start seg c) (hs : Step cfg c e fx c')
    (hquiet : ∀ x ∈ fx, isOpen x = false) (hdeaf : ¬ Hears cfg ⟨c, e, fx, c'⟩)
    (hsig : ∀ env, e ≠ .reconnect env) (hnow : ∀ t ∈ e.readings, ∀ u ∈ readings seg, u ≤ t) :
    Stuck start (seg ++ [⟨c, e, fx, c'⟩]) c' := by
  obtain ⟨hok, hm⟩ := hs.move h hst.slots
  cases e with
  | reconnect env => exact absurd rfl (hsig env)
  | datagram env addr port data =>
    rcases deaf_datagram hst.slots hs hdeaf with ⟨hstate, hlast⟩ | ⟨hauth, hclosed⟩
    · exact hst.keep _ rfl hok (hstate ▸ hst.ready) (hlast ▸ hstate ▸ hst.recv) (by rw [hstate])
    · exact hst.keep _ rfl hok (by simp [hclosed]) (by simp [hclosed]) (by rw [hauth, hclosed]; rfl)
  | tun data =>
    cases hm with
    | ignored => exact hst.keep _ rfl hok hst.ready hst.recv le_rfl
    | tunSent => exact hst.keep _ rfl hok hst.ready hst.recv le_rfl
  | tick env =>
    by_cases hlate : lateTick start ⟨c, .tick env, fx, c'⟩ = true
    · rcases late_tick h hst.ready hst.recv hlate hs with ⟨x, hx, hopen⟩ | ⟨hrank, hidle⟩
      · rw [hquiet x hx] at hopen
        cases hopen
      · exact hst.lower _ hok hidle hrank
    have hlate : lateTick start ⟨c, .tick env, fx, c'⟩ = false := by simpa using hlate
    cases hm with
    | ignored => exact hst.keep _ hlate hok hst.ready hst.recv le_rfl
    | tick _ c₁ _ fxs fx hsock hm =>
      obtain ⟨fd, rfl, -⟩ := tickSocket_frame hsock
      cases hm with
      | idle => exact hst.keep _ hlate hok hst.ready hst.recv le_rfl
      | resolved c₂ ok hdns hr =>
        have hc₂ : c₂.state = .dnsNeeded := by rw [resolveServer_frame hr]; exact hdns
        have hdns : c.state = .dnsNeeded := hdns
        cases ok with
        | true => exact hst.keep _ hlate hok (by simp) (by simp) (by rw [hdns]; exact Nat.le_succ 1)
        | false =>
          exact hst.keep _ hlate hok (by simp [hc₂]) (by simp [hc₂]) (by rw [hdns]; simp [hc₂])
      | started hpre =>
        -- the clock is below 2, so no tick was late yet
        have htwo := early_start h hs hpre rfl hquiet
        have hnone : seg.filter (lateTick start) = [] := by
          by_contra hne
          obtain ⟨u, hu, hlate⟩ := late_reading hne
          have hle : u.toNat ≤ env.secs.toNat := hnow env.secs (by simp [Event.readings]) u hu
          omega
        refine ⟨hok, by simp [startAuth], fun _ => ?_, ?_⟩
        · show env.secs.toNat ≤ _
          omega
        · rw [filter_late_snoc, hlate, hnone]
          exact le_rfl
      | openSent c₂ pkt hpre hpkt =>
        have hopen := isOpen_openPkt h hpkt c₂
        rw [hquiet _ (List.mem_append_right _ (List.mem_singleton_self _))] at hopen
        cases hopen
      | reset hpre =>
        refine hst.lower _ hok (resetClient_state _ _) ?_
        have hrank : c.state.rank = 3 := by
          rcases hpre with hs | hs | hs <;> rw [show c.state = _ from hs] <;> rfl
        rw [hrank]
        exact rank_resetClient _ _
      | counted => exact hst.keep _ hlate hok hst.ready hst.recv le_rfl
      | echoSent => exact hst.keep _ hlate hok hst.ready hst.recv le_rfl

/-- What holds where a part of a run begins. -/
theorem stuck_start (hinv : Inv cfg fx seg c) (hclock : Clock seg c)
    (hstart : ∀ t ∈ readings seg, t ≤ start) : Stuck start [] c := by
  refine ⟨hinv.slots, hinv.ready, fun hs => ?_, by simpa using rank_le c.state⟩
  rcases hclock.recv hs with hzero | ⟨now, hnow, hle⟩
  · rw [hzero]
    exact Nat.zero_le _
  · have hle : c.lastRecvTime.toNat ≤ start.toNat := UInt32.le_trans hle (hstart now hnow)
    omega

/-- No late tick passes in silence more than twice. -/
theorem stuck_run (h : cfg.Admitted) (hst : Stuck start [] c) (hseg : Trace (Step cfg) c seg c')
    (htime : Timely seg) (hsig : ∀ r ∈ seg, ∀ env, r.ev ≠ .reconnect env)
    (hsilent : ∀ r ∈ seg, (∀ x ∈ r.outs, isOpen x = false) ∧ ¬ Hears cfg r) :
    Stuck start seg c' := by
  refine hseg.invariant (P := fun seg c' => Timely seg →
    (∀ r ∈ seg, ∀ env, r.ev ≠ .reconnect env) →
    (∀ r ∈ seg, (∀ x ∈ r.outs, isOpen x = false) ∧ ¬ Hears cfg r) → Stuck start seg c')
    (fun _ _ _ => hst) ?_ htime hsig hsilent
  intro seg c e fx c' _ ih hs htime hsig hsilent
  rw [Timely, readings_snoc, List.pairwise_append] at htime
  obtain ⟨htime, -, hnow⟩ := htime
  have hlast : (⟨c, e, fx, c'⟩ : StepRecord) ∈ seg ++ [⟨c, e, fx, c'⟩] := by simp
  have hst := ih htime (fun r hr => hsig r (List.mem_append_left _ hr))
    fun r hr => hsilent r (List.mem_append_left _ hr)
  exact stuck_step h hst hs (hsilent _ hlast).1 (hsilent _ hlast).2 (hsig _ hlast)
    fun t ht u hu => hnow u hu t ht

end

/-- **Recovery.** Let `start` be no earlier than any reading of the clock in a run
    `tr` of the client. If the run goes on by `seg` without SIGUSR1, and `seg` contains
    three ticks at least 17 seconds after `start` with a socket and an answer of the
    resolver, then an OPEN was sent in `seg` or a packet of the server was
    accepted. -/
theorem recovery {cfg₀ cfg : Config} (hcfg : cfg₀.Admitted) {ienv : InitEnv} {c₀ : IwanClient}
    {fx₀ : List Effect} (hinit : mainInit cfg₀ ienv = some (some (cfg, c₀, fx₀)))
    {tr seg : List StepRecord} {c c' : IwanClient} (hrun : Trace (Step cfg) c₀ tr c)
    (hseg : Trace (Step cfg) c seg c') (htime : Timely (tr ++ seg)) {start : UInt32}
    (hstart : ∀ t ∈ readings tr, t ≤ start) (hsig : ∀ r ∈ seg, ∀ env, r.ev ≠ .reconnect env)
    (hlate : 3 ≤ (seg.filter (lateTick start)).length) :
    ∃ r ∈ seg, (∃ x ∈ r.outs, isOpen x = true) ∨ Hears cfg r := by
  obtain ⟨hadm, hinv₀⟩ := inv_init hcfg hinit
  have hclock₀ : Clock [] c₀ := by
    rcases mainInit_state hcfg hinit with hst | hst
    · exact clock_idle (by simp [hst]) (by simp [hst])
    · exact clock_idle (by simp [hst]) (by simp [hst])
  have hp : Progress cfg fx₀ tr c := hrun.invariant (P := fun tr c => Progress cfg fx₀ tr c)
    ⟨hinv₀, hclock₀, by simp⟩ fun _ _ _ _ _ _ hp hs => progress_step hadm hp hs
  have htail : Timely seg := by
    unfold Timely readings at htime ⊢
    rw [List.flatMap_append, List.pairwise_append] at htime
    exact htime.2.1
  by_contra hsilent
  have hstuck := stuck_run hadm (stuck_start hp.inv hp.clock hstart) hseg htail hsig
    fun r hr => ⟨fun x hx => ?_, fun hh => hsilent ⟨r, hr, .inr hh⟩⟩
  · -- three late ticks leave no rank
    have hcount := hstuck.count
    have hpos : 0 < c'.state.rank := by cases c'.state <;> decide
    omega
  · by_contra hopen
    exact hsilent ⟨r, hr, .inl ⟨x, hx, by simpa using hopen⟩⟩

/-- System calls that all succeed, the resolver's among them. -/
def dnsEnv (now : UInt32) : Env := { calmEnv now with getaddrinfo := some #v[1, 2, 3, 4] }

/-- Three ticks of the README's client, 20 seconds apart. -/
theorem readme_recovery : ∃ cfg c₀ fx₀ seg c,
    mainInit readmeConfig ⟨4, none, 3⟩ = some (some (cfg, c₀, fx₀)) ∧
    Trace (Step cfg) c₀ seg c ∧ 3 ≤ (seg.filter (lateTick 0)).length ∧
    ∃ r ∈ seg, (∃ x ∈ r.outs, isOpen x = true) ∨ Hears cfg r := by
  obtain ⟨cfg, c₀, fx₀, hinit⟩ :=
    mainInit_starts readmeConfig_admitted ⟨4, none, 3⟩ (by decide) (by decide)
  obtain ⟨hadm, hinv⟩ := inv_init readmeConfig_admitted hinit
  obtain ⟨c₁, fx₁, hs₁, hok₁, -⟩ := step_move hadm hinv.slots (.tick (dnsEnv 20))
  obtain ⟨c₂, fx₂, hs₂, hok₂, -⟩ := step_move hadm hok₁ (.tick (dnsEnv 40))
  obtain ⟨c₃, fx₃, hs₃, -, -⟩ := step_move hadm hok₂ (.tick (dnsEnv 60))
  have hseg : Trace (Step cfg) c₀ [⟨c₀, .tick (dnsEnv 20), fx₁, c₁⟩, ⟨c₁, .tick (dnsEnv 40), fx₂, c₂⟩,
      ⟨c₂, .tick (dnsEnv 60), fx₃, c₃⟩] c₃ := ((Trace.nil.snoc hs₁).snoc hs₂).snoc hs₃
  have hlate : ∀ c now fx c', 17 ≤ now.toNat → lateTick 0 ⟨c, .tick (dnsEnv now), fx, c'⟩ = true := by
    intro c now fx c' hnow
    refine lateTick_tick.mpr ⟨?_, .inr (show (0 : Int) ≤ 3 by decide), by simp [dnsEnv]⟩
    show 0 + 17 ≤ now.toNat
    omega
  have hcount : 3 ≤ ([⟨c₀, .tick (dnsEnv 20), fx₁, c₁⟩, ⟨c₁, .tick (dnsEnv 40), fx₂, c₂⟩,
      ⟨c₂, .tick (dnsEnv 60), fx₃, c₃⟩].filter (lateTick 0)).length := by
    rw [List.filter_cons_of_pos (hlate _ _ _ _ (by decide)),
      List.filter_cons_of_pos (hlate _ _ _ _ (by decide)),
      List.filter_cons_of_pos (hlate _ _ _ _ (by decide))]
    exact le_rfl
  refine ⟨cfg, c₀, fx₀, _, c₃, hinit, hseg, hcount, ?_⟩
  exact recovery readmeConfig_admitted hinit .nil hseg
    (by simp [Timely, readings, Event.readings, dnsEnv, calmEnv])
    (show ∀ t ∈ readings [], t ≤ (0 : UInt32) by simp [readings]) (by simp) hcount

end Iwand.Client
