import Iwand.Client.Invariant

/-!
# Keepalives at the client

`build_echo_req` puts the clock into the ECHOREQ and `handle_echo_resp` reads it
back from the ECHORESP: the difference to the clock of that moment, cut to 32
bits, is the delay.

* `Delays`: the statistics as a function of the delays in their order.
* `handleEchoResp_eq`: one ECHORESP records one delay.
* `Move.fresh`: the statistics are at their start until ESTABLISHED is entered.
* `Step.stays`: no other step in ESTABLISHED changes the statistics or sends an
  ECHOREQ that `build_echo_req` has not built.
-/

namespace Iwand.Client

/-! ## Statistics -/

/-- The current, the least and the greatest delay in microseconds. -/
@[ext]
structure Delays where
  cur : ℕ
  min : ℕ
  max : ℕ

/-- No delay was measured; the least one is below five seconds. -/
def Delays.start : Delays := ⟨0, 5000000, 0⟩

/-- The statistics after a delay of `d`. -/
def Delays.record (s : Delays) (d : ℕ) : Delays := ⟨d, Min.min s.min d, Max.max s.max d⟩

/-- The statistics after the delays `ds`, oldest first. -/
def Delays.ofList (ds : List ℕ) : Delays := ds.foldl Delays.record .start

namespace Delays

theorem ofList_snoc (ds : List ℕ) (d : ℕ) : ofList (ds ++ [d]) = (ofList ds).record d := by
  rw [ofList, List.foldl_append]
  rfl

theorem min_ofList (ds : List ℕ) : (ofList ds).min = ds.foldl Min.min 5000000 := by
  induction ds using List.reverseRecOn with
  | nil => rfl
  | append_singleton ds d ih =>
    rw [ofList_snoc, List.foldl_append, ← ih]
    rfl

theorem max_ofList (ds : List ℕ) : (ofList ds).max = ds.foldl Max.max 0 := by
  induction ds using List.reverseRecOn with
  | nil => rfl
  | append_singleton ds d ih =>
    rw [ofList_snoc, List.foldl_append, ← ih]
    rfl

/-- After a delay the current one is the last one and lies between the bounds. -/
theorem cur_ofList (ds : List ℕ) (h : ds ≠ []) :
    (ofList ds).cur = ds.getLast h ∧ (ofList ds).min ≤ (ofList ds).cur ∧
      (ofList ds).cur ≤ (ofList ds).max := by
  induction ds using List.reverseRecOn with
  | nil => exact absurd rfl h
  | append_singleton ds d _ =>
    rw [List.getLast_append_singleton, ofList_snoc]
    exact ⟨rfl, min_le_right _ _, le_max_right _ _⟩

end Delays

/-- The statistics of a client. -/
def delays (c : IwanClient) : Delays := ⟨c.curDelay.toNat, c.minDelay.toNat, c.maxDelay.toNat⟩

/-- The client after `handle_echo_resp` has measured `delay`. -/
def measured (delay : UInt32) (c : IwanClient) : IwanClient :=
  { c with curDelay := delay
           maxDelay := if delay > c.maxDelay then delay else c.maxDelay
           minDelay := if delay < c.minDelay then delay else c.minDelay }

theorem delays_measured (delay : UInt32) (c : IwanClient) :
    delays (measured delay c) = (delays c).record delay.toNat := by
  have hmin : (if delay < c.minDelay then delay else c.minDelay).toNat =
      min c.minDelay.toNat delay.toNat := by
    split_ifs with h
    · exact (min_eq_right (UInt32.lt_iff_toNat_lt.mp h).le).symm
    · exact (min_eq_left (UInt32.le_iff_toNat_le.mp (UInt32.not_lt.mp h))).symm
  have hmax : (if delay > c.maxDelay then delay else c.maxDelay).toNat =
      max c.maxDelay.toNat delay.toNat := by
    split_ifs with h
    · exact (max_eq_right (UInt32.lt_iff_toNat_lt.mp h).le).symm
    · exact (max_eq_left (UInt32.le_iff_toNat_le.mp (UInt32.not_lt.mp h))).symm
  exact Delays.ext rfl hmin hmax

/-! ## The timestamp -/

/-- The integer whose bytes in memory are `bs`. -/
def hostWord (bs : Bytes) : UInt64 := bs.foldr (fun b acc => (acc <<< 8) ||| b.toUInt64) 0

theorem hostBytes_succ (n x : ℕ) : hostBytes (n + 1) x = UInt8.ofNat x :: hostBytes n (x / 256) := by
  unfold hostBytes
  rw [List.range_succ_eq_map, List.map_cons, List.map_map]
  congr 1
  apply List.map_congr_left
  intro i _
  rw [Function.comp_apply, Nat.succ_eq_add_one, Nat.mul_add, Nat.shiftRight_eq_div_pow,
    Nat.shiftRight_eq_div_pow, Nat.pow_add, Nat.div_div_eq_div_mul, Nat.mul_comm (2 ^ (8 * i))]

theorem length_hostBytes (n x : ℕ) : (hostBytes n x).length = n := by
  rw [hostBytes, List.length_map, List.length_range]

/-- Eight bytes at most hold a 64-bit integer. -/
theorem toNat_hostWord_hostBytes (n x : ℕ) (hn : n ≤ 8) :
    (hostWord (hostBytes n x)).toNat = x % 2 ^ (8 * n) := by
  induction n generalizing x with
  | zero => simp [hostWord, hostBytes, Nat.mod_one]
  | succ n ih =>
    have hih := ih (x / 256) (by omega)
    have hpow : 2 ^ (8 * n) * 2 ^ 8 ≤ 2 ^ 64 := by
      rw [← Nat.pow_add]
      exact Nat.pow_le_pow_right (by omega) (by omega)
    have hlt : x / 256 % 2 ^ (8 * n) < 2 ^ (8 * n) := Nat.mod_lt _ (by positivity)
    have hmul : x / 256 % 2 ^ (8 * n) * 2 ^ 8 < 2 ^ 64 :=
      lt_of_lt_of_le (Nat.mul_lt_mul_of_pos_right hlt (by norm_num)) hpow
    rw [hostBytes_succ, hostWord, List.foldr_cons, ← hostWord, UInt64.toNat_or,
      UInt64.toNat_shiftLeft, hih, Nat.shiftLeft_eq, show UInt64.toNat 8 % 64 = 8 from rfl,
      Nat.mod_eq_of_lt hmul, UInt8.toNat_toUInt64, UInt8.toNat_ofNat']
    rw [or_eq_add (Nat.mod_lt _ (by norm_num)), Nat.mul_succ, Nat.pow_add, Nat.mul_comm (2 ^ (8 * n)),
      Nat.mod_mul, Nat.mul_comm, Nat.add_comm]

/-- What `build_echo_req` writes, `handle_echo_resp` reads. -/
theorem hostWord_hostBytes (usecs : UInt64) : hostWord (hostBytes 8 usecs.toNat) = usecs := by
  apply UInt64.toNat_inj.mp
  rw [toNat_hostWord_hostBytes 8 _ le_rfl]
  exact Nat.mod_eq_of_lt usecs.toNat_lt

theorem length_echoPayload (usecs : UInt64) (c : IwanClient) : (echoPayload usecs c).length = 36 := by
  simp [echoPayload, length_hostBytes]

theorem take_echoPayload (usecs : UInt64) (c : IwanClient) :
    (echoPayload usecs c).take 8 = hostBytes 8 usecs.toNat := by
  simp only [echoPayload, List.append_assoc]
  rw [List.take_left' (length_hostBytes _ _)]

/-- A packet that `build_echo_req` builds when the clock shows `usecs`. -/
def IsRequest (usecs : UInt64) (pkt : Bytes) : Prop := ∃ c, buildEchoReq usecs c = some pkt

/-- An ECHORESP with the payload of such a packet. -/
def IsAnswer (usecs : UInt64) (pkt : Bytes) : Prop :=
  ∃ tok id c, pkt = Wire.signedHeader pktEchoresp 0 tok id ++ echoPayload usecs c

theorem IsAnswer.length {usecs : UInt64} {pkt : Bytes} (h : IsAnswer usecs pkt) : pkt.length = 60 := by
  obtain ⟨tok, id, c, rfl⟩ := h
  rw [List.length_append, Wire.length_signedHeader, length_echoPayload]

/-- **One ECHORESP.** It is accepted and records the time since its timestamp. -/
theorem handleEchoResp_eq {c : IwanClient} {usecs : UInt64} {pkt : Bytes} (env : Env)
    (hs : c.state = .established) (h : IsAnswer usecs pkt) :
    handleEchoResp env c pkt = some ⟨measured (env.usecs - usecs).toUInt32 c, [], true⟩ := by
  have hlen := h.length
  obtain ⟨tok, id, d, rfl⟩ := h
  have hsent : ((Wire.signedHeader pktEchoresp 0 tok id ++ echoPayload usecs d).drop 24).take 8 =
      hostBytes 8 usecs.toNat := by
    rw [Wire.drop_signedHeader, take_echoPayload]
  rw [handleEchoResp, if_neg (not_not.mpr hs), pktVerify_eq,
    decide_eq_true (Wire.signed_signedHeader _ _ _ _ _)]
  simp only [Option.bind_eq_bind, Option.bind_some, hdrSize, signSize]
  rw [if_neg (by simp), if_neg (by omega), rdN_eq (by omega), hsent, Option.bind_some]
  rw [← hostWord, hostWord_hostBytes]
  rfl

/-! ## The state machine -/

section

variable {cfg : Config} {c c' : IwanClient} {e : Event} {fx : List Effect}

/-- The statistics are at their start in the states before ESTABLISHED. -/
def Fresh (c : IwanClient) : Prop := Before c → delays c = .start

theorem fresh_of_established (hs : c.state = .established) : Fresh c :=
  fun hb => absurd hb (not_before_of_established hs)

theorem fresh_of_closed (hs : c.state = .closed) : Fresh c := by
  intro hb
  unfold Before at hb
  simp [hs] at hb

/-- Steps that keep the state and the statistics. -/
theorem Fresh.keep (h : Fresh c) (hst : c'.state = c.state) (hd : delays c' = delays c) : Fresh c' := by
  intro hb
  unfold Before at hb
  rw [hst] at hb
  exact hd.trans (h hb)

theorem TickMove.fresh {env : Env} (hm : TickMove cfg env c fx c') (h : Fresh c) : Fresh c' := by
  cases hm with
  | idle => exact h
  | resolved c₁ ok hs hr =>
    have hd : delays c₁ = delays c := by rw [resolveServer_frame hr]; rfl
    intro _
    have hc : delays c = .start := h (.inl hs)
    cases ok with
    | true => exact hd.trans hc
    | false => exact hd.trans hc
  | started hs => exact fun _ => h (.inr (.inl hs))
  | openSent c₁ pkt hs =>
    rcases hs with ⟨hs, rfl⟩ | ⟨hs, rfl⟩
    · exact fun _ => h (.inr (.inl hs))
    · exact fun _ => h (.inr (.inr hs))
  | reset => exact fun _ => rfl
  | counted hs => exact fresh_of_established hs
  | echoSent payload hs => exact fresh_of_established hs

theorem Outcome.fresh {env : Env} {pkt : Bytes} {r : Res} (ho : Outcome cfg env pkt c r) (h : Fresh c) :
    Fresh r.client := by
  cases ho with
  | ignored => exact h
  | stored frags acc hs => exact fresh_of_established hs
  | delivered frags tunTx out hs => exact fresh_of_established hs
  | echoed cur max min hs => exact fresh_of_established hs
  | peerClosed => exact fresh_of_closed rfl
  | rejected => exact fresh_of_closed rfl
  | refused p hs htyp hsig hp =>
    rw [applyTlvs_eq] at hp
    cases hp
    exact h.keep rfl rfl
  | opened => exact fresh_of_established rfl
  | openFailed => exact fresh_of_closed rfl

theorem Move.fresh (hm : Move cfg c e fx c') (h : Fresh c) : Fresh c' := by
  cases hm with
  | ignored => exact h
  | tick env c₁ c' fxs fx hsock hm =>
    obtain ⟨fd, rfl, -⟩ := tickSocket_frame hsock
    exact hm.fresh (h.keep rfl rfl)
  | datagram env data r hfd hlen ho =>
    obtain ⟨t, ht⟩ := touch_eq env r
    rw [ht]
    exact (ho.fresh (h.keep rfl rfl)).keep rfl rfl
  | tunSent data typ flag payload hs => exact fresh_of_established hs
  | reconnect => exact fun _ => rfl

/-- The statistics when `main` enters its loop. -/
theorem fresh_init {cfg₀ : Config} (h : cfg₀.Admitted) {ienv : InitEnv} {c₀ : IwanClient}
    {fx₀ : List Effect} (hinit : mainInit cfg₀ ienv = some (some (cfg, c₀, fx₀))) : Fresh c₀ := by
  obtain ⟨-, dk, ek, c₁, ok, -, -, hr, rfl, -⟩ := mainInit_some h hinit
  have hd : delays c₁ = .start := by rw [resolveServer_frame hr]; rfl
  exact fun _ => hd

/-- The statistics are at their start whenever ESTABLISHED may be entered. -/
theorem run_fresh {cfg₀ : Config} (h : cfg₀.Admitted) {ienv : InitEnv} {c₀ : IwanClient}
    {fx₀ : List Effect} (hinit : mainInit cfg₀ ienv = some (some (cfg, c₀, fx₀)))
    {tr : List StepRecord} (hrun : Trace (Step cfg) c₀ tr c) : SlotsOk c.frags ∧ Fresh c := by
  obtain ⟨hadm, hinv⟩ := inv_init h hinit
  refine hrun.invariant_state (P := fun c => SlotsOk c.frags ∧ Fresh c)
    ⟨hinv.slots, fresh_init h hinit⟩ ?_
  intro c e fx c' hc hstep
  obtain ⟨hok, hm⟩ := hstep.move hadm hc.1
  exact ⟨hok, hm.fresh hc.2⟩

/-- The step that enters ESTABLISHED leaves the statistics at their start, and the
    socket open. -/
theorem Move.start (hm : Move cfg c e fx c') (h : Fresh c) (hpre : c.state ≠ .established)
    (hest : c'.state = .established) : delays c' = .start ∧ 0 ≤ c'.udpFd := by
  obtain ⟨hs, hfd, env, data, p, -, -, -, rfl, -, rfl, -⟩ := hm.began hpre hest
  exact ⟨h (.inr (.inr hs)), hfd⟩

/-- The ECHOREQs that are sent. -/
def requests (fx : List Effect) : List Bytes :=
  fx.filterMap fun x => match x with
    | .sendto pkt _ _ => if Wire.typ pkt = pktEchoreq then some pkt else none
    | _ => none

/-- The event is the receipt of an ECHORESP. -/
def EchoResp : Event → Prop
  | .datagram _ _ _ data => Wire.typ (data.take maxPktSize) = pktEchoresp
  | _ => False

/-- A tick in ESTABLISHED, before the timeout. -/
theorem step_tick {env : Env} (cfg : Config) (hs : c.state = .established) (hfd : 0 ≤ c.udpFd)
    (hto : ¬ env.secs - c.lastRecvTime > dataTimeout) :
    Step cfg c (.tick env)
      (if (c.echoCounter + 1) &&& 1 = 0 then
        [sendToServer c (Wire.signedHeader pktEchoreq 0 c.sessionToken c.sessionId ++
          echoPayload env.usecs c)]
      else []) { c with echoCounter := c.echoCounter + 1 } := by
  have hsock : tickSocket env c = (c, []) := if_neg (by omega)
  rw [Step, step, timerTick, hsock]
  simp only [if_neg (show ¬ c.udpFd < 0 by omega), tickState, hs, tickEstablished, if_neg hto,
    buildEchoReq_eq]
  split_ifs <;> rfl

/-- A tick in ESTABLISHED sends what `build_echo_req` builds, if anything. -/
theorem tick_stays {env : Env} (hstep : Step cfg c (.tick env) fx c') (hs : c.state = .established)
    (hfd : 0 ≤ c.udpFd) (hs' : c'.state = .established) :
    delays c' = delays c ∧ ∀ pkt ∈ requests fx, buildEchoReq env.usecs c = some pkt := by
  by_cases hto : env.secs - c.lastRecvTime > dataTimeout
  · -- the timeout ends the period
    have hsock : tickSocket env c = (c, []) := if_neg (by omega)
    rw [Step, step, timerTick, hsock] at hstep
    simp only [if_neg (show ¬ c.udpFd < 0 by omega), tickState, hs, tickEstablished, if_pos hto,
      clientReset_eq] at hstep
    cases hstep
    exact absurd hs' (resetClient_state_ne _ _).2
  · obtain ⟨rfl, rfl⟩ := Prod.mk.inj (Option.some.inj (hstep.symm.trans (step_tick cfg hs hfd hto)))
    refine ⟨rfl, fun pkt hpkt => ?_⟩
    split_ifs at hpkt
    · have hpkt' : pkt ∈ [Wire.signedHeader pktEchoreq 0 c.sessionToken c.sessionId ++
          echoPayload env.usecs c] := hpkt
      rw [buildEchoReq_eq, List.mem_singleton.mp hpkt']
    · simp [requests] at hpkt

/-- An ECHORESP from the server in ESTABLISHED. -/
theorem step_echoResp (cfg : Config) (env : Env) {usecs : UInt64} {pkt : Bytes}
    (hs : c.state = .established) (hfd : 0 ≤ c.udpFd) (h : IsAnswer usecs pkt) :
    Step cfg c (.datagram env c.serverAddr c.serverPort pkt) []
      { measured (env.usecs - usecs).toUInt32 { c with rxPkts := c.rxPkts + 1 } with
        lastRecvTime := env.secsAfter } := by
  have hlen := h.length
  have htyp : Wire.typ pkt = pktEchoresp := by
    obtain ⟨tok, id, d, rfl⟩ := h
    rfl
  have hr : dispatch cfg env { c with rxPkts := c.rxPkts + 1 } pkt (Wire.typ pkt) =
      handleEchoResp env { c with rxPkts := c.rxPkts + 1 } pkt := by
    rw [htyp, dispatch, if_neg (by decide), if_neg (by decide), if_neg (by decide), if_pos rfl]
  rw [handleEchoResp_eq env (show { c with rxPkts := c.rxPkts + 1 }.state = .established from hs) h] at hr
  exact step_datagram hfd (by omega) (by omega) hr

/-- **Staying in ESTABLISHED.** Only an ECHORESP changes the statistics, and only
    `build_echo_req` builds an ECHOREQ. -/
theorem Step.stays (hadm : cfg.Admitted) (hok : SlotsOk c.frags) (hstep : Step cfg c e fx c')
    (hs : c.state = .established) (hfd : 0 ≤ c.udpFd) (hs' : c'.state = .established)
    (hecho : ¬ EchoResp e) :
    delays c' = delays c ∧ ∀ pkt ∈ requests fx, ∃ env, e = .tick env ∧
      buildEchoReq env.usecs c = some pkt := by
  obtain ⟨-, hm⟩ := hstep.move hadm hok
  cases hm with
  | ignored => exact ⟨rfl, by simp [requests]⟩
  | tick env c₁ c' fxs fx hsock hm =>
    obtain ⟨hd, hreq⟩ := tick_stays hstep hs hfd hs'
    exact ⟨hd, fun pkt hpkt => ⟨env, rfl, hreq pkt hpkt⟩⟩
  | datagram env data r _ hlen ho =>
    obtain ⟨t, ht⟩ := touch_eq env r
    rw [ht] at hs' ⊢
    have hne : c.state ≠ .authSent := by simp [hs]
    cases ho with
    | ignored => exact ⟨rfl, by simp [requests]⟩
    | stored => exact ⟨rfl, by simp [requests]⟩
    | delivered => exact ⟨rfl, by simp [requests]⟩
    | echoed cur max min _ htyp => exact absurd htyp hecho
    | peerClosed => cases hs'
    | rejected => cases hs'
    | refused p hst => exact absurd hst hne
    | opened p hst => exact absurd hst hne
    | openFailed => cases hs'
  | tunSent data typ flag payload _ htyp =>
    refine ⟨rfl, fun pkt hpkt => ?_⟩
    have hdata : typ ≠ pktEchoreq := by rcases htyp with rfl | rfl <;> decide
    simp [requests, sendToServer, hdata] at hpkt
  | reconnect => exact absurd hs' (resetClient_state_ne _ _).2

end

end Iwand.Client
