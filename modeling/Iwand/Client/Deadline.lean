import Iwand.Client.Invariant

/-!
# The deadline of a connection attempt

In AUTH_SENT the client gives up six seconds after the tick that began the
attempt, whatever it receives, and until then it repeats the OPEN every two
seconds. The comparisons of `timer_tick` are differences of `uint32_t`; with a
clock that does not run backwards they never wrap.

* `clock_step`: no recorded time lies in the future.
* `stay_step`: one step inside AUTH_SENT.
* `attempt_deadline`: the consequences for whole runs.
-/

namespace Iwand.Client

/-! ## The clock -/

/-- The readings of `mono_secs()` while an event is handled. -/
def Event.readings : Event → List UInt32
  | .tick env => [env.secs]
  | .datagram env _ _ _ => [env.secs, env.secsAfter]
  | .tun _ => []
  | .reconnect _ => []

/-- The clock readings of a run, in order. -/
def readings (tr : List StepRecord) : List UInt32 := tr.flatMap (·.ev.readings)

/-- The clock does not run backwards. -/
def Timely (tr : List StepRecord) : Prop := (readings tr).Pairwise (· ≤ ·)

/-- `t` is not behind the last reading of the run. -/
def Past (tr : List StepRecord) (t : UInt32) : Prop := t = 0 ∨ ∃ now ∈ readings tr, t ≤ now

@[simp] theorem readings_snoc (tr : List StepRecord) (r : StepRecord) :
    readings (tr ++ [r]) = readings tr ++ r.ev.readings := by
  simp [readings]

theorem Past.snoc {tr : List StepRecord} {t : UInt32} (h : Past tr t) (r : StepRecord) :
    Past (tr ++ [r]) t := by
  rcases h with h | ⟨now, hnow, hle⟩
  · exact .inl h
  · exact .inr ⟨now, by simp [hnow], hle⟩

theorem past_of_mem {tr : List StepRecord} {t : UInt32} (r : StepRecord) (h : t ∈ r.ev.readings) :
    Past (tr ++ [r]) t :=
  .inr ⟨t, by simp [h], UInt32.le_refl t⟩

theorem Past.le {tr : List StepRecord} {t now : UInt32} (h : Past tr t)
    (hnow : ∀ u ∈ readings tr, u ≤ now) : t ≤ now := by
  rcases h with rfl | ⟨u, hu, hle⟩
  · exact UInt32.zero_le
  · exact UInt32.le_trans hle (hnow u hu)

/-- The times that `timer_tick` compares with the clock. -/
structure Clock (tr : List StepRecord) (c : IwanClient) : Prop where
  recv : c.state = .authSent ∨ c.state = .established → Past tr c.lastRecvTime
  opened : c.state = .authSent → Past tr c.lastOpenTime

/-- A state in which `timer_tick` compares nothing. -/
theorem clock_idle {tr : List StepRecord} {c : IwanClient} (h1 : c.state ≠ .authSent)
    (h2 : c.state ≠ .established) : Clock tr c :=
  ⟨fun h => (h.elim h1 h2).elim, fun h => (h1 h).elim⟩

theorem clock_reset (tr : List StepRecord) (fd : Int) (c : IwanClient) :
    Clock tr (resetClient fd c) := by
  obtain ⟨hauth, hest⟩ := resetClient_state_ne fd c
  exact clock_idle hauth hest

section

variable {cfg : Config} {tr : List StepRecord} {c c' : IwanClient} {e : Event} {fx : List Effect}

theorem Clock.keep (h : Clock tr c) (hst : c'.state = c.state) (hr : c'.lastRecvTime = c.lastRecvTime)
    (ho : c'.lastOpenTime = c.lastOpenTime) (r : StepRecord) : Clock (tr ++ [r]) c' := by
  refine ⟨fun hs => ?_, fun hs => ?_⟩
  · rw [hr]
    exact (h.recv (hst ▸ hs)).snoc r
  · rw [ho]
    exact (h.opened (hst ▸ hs)).snoc r

theorem clock_tick (h : Clock tr c) {env : Env} {c₁ : IwanClient} {fxs : List Effect}
    (hsock : tickSocket env c = (c₁, fxs)) (hm : TickMove cfg env c₁ fx c') :
    Clock (tr ++ [⟨c, .tick env, fxs ++ fx, c'⟩]) c' := by
  obtain ⟨fd, rfl, -⟩ := tickSocket_frame hsock
  have hnow : ∀ fx c', Past (tr ++ [⟨c, .tick env, fx, c'⟩]) env.secs :=
    fun fx c' => past_of_mem _ (by simp [Event.readings])
  cases hm with
  | idle => exact h.keep (by rfl) (by rfl) (by rfl) _
  | resolved c₂ ok hs hr =>
    have hst : c₂.state = .dnsNeeded := by rw [resolveServer_frame hr]; exact hs
    cases ok <;> exact clock_idle (by simp [hst]) (by simp [hst])
  | started hs => exact ⟨fun _ => hnow _ _, fun _ => .inl rfl⟩
  | openSent c₂ pkt hs =>
    rcases hs with ⟨-, rfl⟩ | ⟨hs, rfl⟩
    · exact ⟨fun _ => hnow _ _, fun _ => hnow _ _⟩
    · exact ⟨fun _ => (h.recv (.inl hs)).snoc _, fun _ => hnow _ _⟩
  | reset hs => exact clock_reset _ _ _
  | counted => exact h.keep (by rfl) (by rfl) (by rfl) _
  | echoSent => exact h.keep (by rfl) (by rfl) (by rfl) _

theorem clock_datagram (h : Clock tr c) {env : Env} {data : Bytes} {r : Res}
    (ho : Outcome cfg env (data.take 2048) { c with rxPkts := c.rxPkts + 1 } r) (rec : StepRecord)
    (hrec : rec.ev.readings = [env.secs, env.secsAfter]) : Clock (tr ++ [rec]) (touch env r) := by
  have hafter : Past (tr ++ [rec]) env.secsAfter := past_of_mem _ (by simp [hrec])
  -- an accepted packet in ESTABLISHED, or one that ends it
  have hacc : ∀ {p : IwanClient}, p.state ≠ .authSent →
      Clock (tr ++ [rec]) { p with lastRecvTime := env.secsAfter } :=
    fun hne => ⟨fun _ => hafter, fun hs => (hne hs).elim⟩
  cases ho with
  | ignored => exact h.keep (by rfl) (by rfl) (by rfl) _
  | stored frags acc hs =>
    cases acc with
    | true => exact hacc (by simp [show c.state = .established from hs])
    | false => exact h.keep (by rfl) (by rfl) (by rfl) _
  | delivered frags tunTx out hs => exact hacc (by simp [show c.state = .established from hs])
  | echoed cur max min hs => exact hacc (by simp [show c.state = .established from hs])
  | peerClosed => exact hacc (by simp)
  | rejected => exact clock_idle (by simp [touch]) (by simp [touch])
  | refused p hs htyp hsig hp hip =>
    obtain rfl : params _ _ = p := Option.some.inj ((applyTlvs_eq _ _).symm.trans hp)
    exact h.keep (by rfl) (by rfl) (by rfl) _
  | opened => exact hacc (by simp [beginSession])
  | openFailed => exact clock_idle (by simp [touch]) (by simp [touch])

/-- **No recorded time lies in the future**, after every step. -/
theorem clock_step (h : Clock tr c) (hm : Move cfg c e fx c') :
    Clock (tr ++ [⟨c, e, fx, c'⟩]) c' := by
  cases hm with
  | ignored => exact h.keep (by rfl) (by rfl) (by rfl) _
  | tick env c₁ c' fxs fx hsock hm => exact clock_tick h hsock hm
  | datagram env data r hfd hlen ho => exact clock_datagram h ho _ rfl
  | tunSent => exact h.keep (by rfl) (by rfl) (by rfl) _
  | reconnect env => exact clock_reset _ _ _

end

/-! ## A connection attempt -/

/-- An OPEN. -/
def isOpen : Effect → Bool
  | .sendto pkt _ _ => Wire.typ pkt == pktOpen
  | _ => false

/-- The clock when an event is handled. -/
def Event.time : Event → UInt32
  | .tick env => env.secs
  | .datagram env _ _ _ => env.secs
  | .tun _ => 0
  | .reconnect env => env.secs

/-- The times at which OPENs were sent, one for each of them. -/
def openTimes (tr : List StepRecord) : List UInt32 :=
  tr.flatMap fun r => (r.outs.filter isOpen).map fun _ => r.ev.time

theorem openTimes_append (tr₁ tr₂ : List StepRecord) :
    openTimes (tr₁ ++ tr₂) = openTimes tr₁ ++ openTimes tr₂ := by
  simp [openTimes]

theorem openTimes_singleton (r : StepRecord) :
    openTimes [r] = (r.outs.filter isOpen).map fun _ => r.ev.time := by
  simp [openTimes]

/-- An attempt that began at `start` and has sent OPENs at the times `opens`. -/
structure Attempting (start : UInt32) (opens : List UInt32) (c : IwanClient) : Prop where
  state : c.state = .authSent
  recv : c.lastRecvTime = start
  last : ∀ t ∈ opens, t ≤ c.lastOpenTime
  spaced : opens.Pairwise fun t t' => t.toNat + 2 ≤ t'.toNat
  window : ∀ t ∈ opens, start ≤ t ∧ t.toNat ≤ start.toNat + 6

/-- Times two apart in an interval. -/
theorem length_spaced {b : ℕ} : ∀ (opens : List UInt32) (a : ℕ), a ≤ b →
    opens.Pairwise (fun t t' => t.toNat + 2 ≤ t'.toNat) →
    (∀ t ∈ opens, a ≤ t.toNat ∧ t.toNat ≤ b) → 2 * opens.length ≤ b - a + 2 := by
  intro opens
  induction opens with
  | nil => intro a _ _ _; simp
  | cons t ts ih =>
    intro a hab hp hw
    obtain ⟨hhead, htail⟩ := List.pairwise_cons.mp hp
    obtain ⟨h1, h2⟩ := hw t (by simp)
    cases ts with
    | nil => simp
    | cons u us =>
      have hu := hhead u (by simp)
      have hub := (hw u (by simp)).2
      have hlen := ih (t.toNat + 2) (by omega) htail
        fun v hv => ⟨hhead v hv, (hw v (List.mem_cons_of_mem t hv)).2⟩
      simp only [List.length_cons] at hlen ⊢
      omega

/-- At most four OPENs fit into an attempt. -/
theorem Attempting.length_le {start : UInt32} {opens : List UInt32} {c : IwanClient}
    (h : Attempting start opens c) : opens.length ≤ 4 := by
  have hlen := length_spaced (b := start.toNat + 6) opens start.toNat (by omega) h.spaced h.window
  omega

section

variable {cfg : Config} {tr : List StepRecord} {c c' : IwanClient} {e : Event} {fx : List Effect}

theorem filter_isOpen_socket {env : Env} {c₁ : IwanClient} {fxs : List Effect}
    (hsock : tickSocket env c = (c₁, fxs)) : fxs.filter isOpen = [] := by
  obtain ⟨fd, -, rfl | rfl⟩ := tickSocket_frame hsock <;> rfl

theorem isOpen_openPkt (h : cfg.Admitted) {pkt : Bytes} (hpkt : buildOpenPkt cfg = some pkt)
    (c : IwanClient) : isOpen (sendToServer c pkt) = true := by
  rw [buildOpenPkt_eq h.bounded] at hpkt
  cases hpkt
  simp [sendToServer, isOpen, openPkt]

/-- A tick with a socket in AUTH_SENT, more than six seconds after the attempt
    began. -/
theorem step_expired (cfg : Config) {env : Env} (hs : c.state = .authSent)
    (hsock : 0 ≤ c.udpFd ∨ 0 ≤ env.tickSocket) (hto : env.secs - c.lastRecvTime > authTimeout) :
    ∃ c₁ fxs, tickSocket env c = (c₁, fxs) ∧
      step cfg c (.tick env) = some (resetClient (udpSocketCreate env.resetSocket) c₁,
        fxs ++ resetEffects cfg env c₁) := by
  have hfd : ¬ (tickSocket env c).1.udpFd < 0 := by
    unfold tickSocket udpSocketCreate
    split_ifs with h1 h2
    · omega
    · simpa using h2
    · exact h1
  rcases hts : tickSocket env c with ⟨c₁, fxs⟩
  rw [hts] at hfd
  obtain ⟨fd, rfl, -⟩ := tickSocket_frame hts
  refine ⟨_, _, rfl, ?_⟩
  rw [step, timerTick, hts]
  simp only [hfd, if_false, tickState, hs, tickAuth]
  rw [if_pos hto, clientReset_eq]
  rfl

/-- A tick that sends an OPEN in AUTH_SENT had a socket, and the deadline had not
    passed. -/
theorem open_in_time {env : Env} (hs : c.state = .authSent) (hstep : Step cfg c (.tick env) fx c')
    (hpost : c'.state = .authSent) (hopen : ∃ x ∈ fx, isOpen x = true) :
    ¬ env.secs - c.lastRecvTime > authTimeout := by
  intro hto
  by_cases hfd : 0 ≤ c.udpFd ∨ 0 ≤ env.tickSocket
  · obtain ⟨c₁, fxs, -, hreset⟩ := step_expired cfg hs hfd hto
    rw [Step, hreset] at hstep
    obtain ⟨rfl, -⟩ := Prod.mk.inj (Option.some.inj hstep)
    exact (resetClient_state_ne _ _).1 hpost
  · have hsock : tickSocket env c = ({ c with udpFd := -1 }, [.socket (-1)]) := by
      unfold tickSocket udpSocketCreate
      rw [if_pos (by omega), if_pos (by omega)]
    rw [Step, step, timerTick, hsock] at hstep
    obtain ⟨-, rfl⟩ := Prod.mk.inj (Option.some.inj hstep)
    obtain ⟨x, hx, hxo⟩ := hopen
    rw [List.mem_singleton.mp hx] at hxo
    cases hxo

/-- An OPEN within the deadline, two seconds after the last one. -/
theorem Attempting.sendOpen {start now : UInt32} {opens : List UInt32}
    (ha : Attempting start opens c) (hst : c'.state = .authSent)
    (hr : c'.lastRecvTime = c.lastRecvTime) (ho : c'.lastOpenTime = now)
    (hlast : c.lastOpenTime ≤ now) (hrecv : c.lastRecvTime ≤ now)
    (htime : now - c.lastOpenTime ≥ authRetryInterval)
    (hto : ¬ now - c.lastRecvTime > authTimeout) : Attempting start (opens ++ [now]) c' := by
  have h1 := UInt32.toNat_sub_of_le _ _ hlast
  have h2 := UInt32.toNat_sub_of_le _ _ hrecv
  have h3 : 2 ≤ (now - c.lastOpenTime).toNat := htime
  have h4 : (now - c.lastRecvTime).toNat ≤ 6 := UInt32.not_lt.mp hto
  have h5 : c.lastOpenTime.toNat ≤ now.toNat := hlast
  have h6 : c.lastRecvTime.toNat ≤ now.toNat := hrecv
  refine ⟨hst, hr.trans ha.recv, fun t ht => ?_, ?_, fun t ht => ?_⟩
  · rw [ho]
    rcases List.mem_append.mp ht with ht | ht
    · exact UInt32.le_trans (ha.last t ht) hlast
    · rw [List.mem_singleton.mp ht]
      exact UInt32.le_refl _
  · refine List.pairwise_append.mpr ⟨ha.spaced, by simp, fun t ht u hu => ?_⟩
    rw [List.mem_singleton.mp hu]
    have : t.toNat ≤ c.lastOpenTime.toNat := ha.last t ht
    omega
  · rcases List.mem_append.mp ht with ht | ht
    · exact ha.window t ht
    · rw [List.mem_singleton.mp ht, ← ha.recv]
      exact ⟨hrecv, by omega⟩

/-- The tick that enters AUTH_SENT. -/
theorem enter_step (h : cfg.Admitted) (hm : Move cfg c e fx c') (hpre : c.state ≠ .authSent)
    (hpost : c'.state = .authSent) :
    ∃ env, e = .tick env ∧ Attempting env.secs (openTimes [⟨c, e, fx, c'⟩]) c' := by
  cases hm with
  | ignored => exact absurd hpost hpre
  | tick env c₁ c' fxs fx hsock hm =>
    refine ⟨env, rfl, ?_⟩
    have hfxs := filter_isOpen_socket hsock
    obtain ⟨fd, rfl, -⟩ := tickSocket_frame hsock
    rw [openTimes_singleton]
    simp only [List.filter_append, hfxs, List.nil_append, Event.time]
    cases hm with
    | idle => exact absurd hpost hpre
    | resolved c₂ ok hs hr =>
      have hst : c₂.state = .dnsNeeded := by rw [resolveServer_frame hr]; exact hs
      cases ok <;> simp [hst] at hpost
    | started hs => exact ⟨rfl, rfl, by simp, by simp, by simp⟩
    | openSent c₂ pkt hs hpkt =>
      rcases hs with ⟨-, rfl⟩ | ⟨hs, -⟩
      · simp only [List.filter_cons, isOpen_openPkt h hpkt, if_true, List.filter_nil, List.map_cons,
          List.map_nil]
        exact ⟨rfl, rfl, by simp, by simp, by simp⟩
      · exact absurd hs hpre
    | reset => exact absurd hpost (resetClient_state_ne _ _).1
    | counted hs => exact absurd hpost hpre
    | echoSent payload hs => exact absurd hpost hpre
  | datagram env data r hfd hlen ho =>
    exfalso
    obtain ⟨t, ht⟩ := touch_eq env r
    rw [ht] at hpost
    cases ho with
    | ignored => exact hpre hpost
    | stored => exact hpre hpost
    | delivered => exact hpre hpost
    | echoed => exact hpre hpost
    | peerClosed => cases hpost
    | rejected => cases hpost
    | refused p hs => exact hpre hs
    | opened p hs => exact hpre hs
    | openFailed p fx hs => exact hpre hs
  | tunSent => exact absurd hpost hpre
  | reconnect => exact absurd hpost (resetClient_state_ne _ _).1

/-- **One step inside AUTH_SENT.** It keeps `last_recv_time`, and sends an OPEN
    only within the deadline and two seconds after the last one. -/
theorem stay_step (h : cfg.Admitted) {start : UInt32} {opens : List UInt32}
    (ha : Attempting start opens c) (hc : Clock tr c) (hstep : Step cfg c e fx c')
    (hm : Move cfg c e fx c') (hnow : ∀ t ∈ e.readings, ∀ u ∈ readings tr, u ≤ t)
    (hpost : c'.state = .authSent) :
    Attempting start (opens ++ openTimes [⟨c, e, fx, c'⟩]) c' := by
  -- steps without an OPEN that keep the two times
  have hkeep : ∀ {c'}, c'.state = .authSent → c'.lastRecvTime = c.lastRecvTime →
      c'.lastOpenTime = c.lastOpenTime → fx.filter isOpen = [] →
      Attempting start (opens ++ openTimes [⟨c, e, fx, c'⟩]) c' := by
    intro c' hst hr ho hfx
    rw [openTimes_singleton, hfx, List.map_nil, List.append_nil]
    exact ⟨hst, hr.trans ha.recv, fun t ht => ho ▸ ha.last t ht, ha.spaced, ha.window⟩
  cases hm with
  | ignored => exact hkeep hpost rfl rfl rfl
  | tick env c₁ c' fxs fx hsock hm =>
    have hfxs := filter_isOpen_socket hsock
    obtain ⟨fd, rfl, -⟩ := tickSocket_frame hsock
    cases hm with
    | idle => exact hkeep hpost rfl rfl (by simp [hfxs])
    | resolved c₂ ok hs => exact absurd (ha.state.symm.trans hs) (by simp)
    | started hs => exact absurd (ha.state.symm.trans hs) (by simp)
    | openSent c₂ pkt hs hpkt htime =>
      rcases hs with ⟨hs, -⟩ | ⟨hs, rfl⟩
      · exact absurd (ha.state.symm.trans hs) (by simp)
      have hnow' : ∀ u ∈ readings tr, u ≤ env.secs := hnow env.secs (by simp [Event.readings])
      have hlast : c.lastOpenTime ≤ env.secs := (hc.opened ha.state).le hnow'
      have hrecv : c.lastRecvTime ≤ env.secs := (hc.recv (.inl ha.state)).le hnow'
      have hopen := isOpen_openPkt h hpkt { c with udpFd := fd }
      have hto := open_in_time ha.state hstep hpost ⟨_, by simp, hopen⟩
      rw [openTimes_singleton]
      simp only [List.filter_append, hfxs, List.nil_append, Event.time, List.filter_cons, hopen,
        if_true, List.filter_nil, List.map_cons, List.map_nil]
      exact ha.sendOpen hs rfl rfl hlast hrecv htime hto
    | reset => exact absurd hpost (resetClient_state_ne _ _).1
    | counted hs => exact absurd (ha.state.symm.trans hs) (by simp)
    | echoSent payload hs => exact absurd (ha.state.symm.trans hs) (by simp)
  | datagram env data r hfd hlen ho =>
    have hne : c.state ≠ .established := by simp [ha.state]
    cases ho with
    | ignored => exact hkeep hpost rfl rfl rfl
    | stored frags acc hs => exact absurd hs hne
    | delivered frags tunTx out hs => exact absurd hs hne
    | echoed cur max min hs => exact absurd hs hne
    | peerClosed hs => exact absurd hs hne
    | rejected => simp [touch] at hpost
    | refused p hs htyp hsig hp hip =>
      obtain rfl : params _ _ = p := Option.some.inj ((applyTlvs_eq _ _).symm.trans hp)
      exact hkeep hpost rfl rfl rfl
    | opened => simp [touch, beginSession] at hpost
    | openFailed => simp [touch] at hpost
  | tunSent data typ flag payload hs => exact absurd (ha.state.symm.trans hs) (by simp)
  | reconnect => exact absurd hpost (resetClient_state_ne _ _).1

end

/-! ## Runs -/

/-- What holds of a run whose clock does not run backwards, and of the state `c`
    it has reached. -/
structure Punctual (cfg : Config) (tr : List StepRecord) (c : IwanClient) : Prop where
  /-- A stay in AUTH_SENT, from the tick `r` that entered it until now:
      `last_recv_time` is the time of that tick, and at most four OPENs were sent,
      at least two seconds apart. -/
  attempt : ∀ tr₁ r tr₂, tr = tr₁ ++ r :: tr₂ → r.pre.state ≠ .authSent →
    r.post.state = .authSent → (∀ x ∈ tr₂, x.post.state = .authSent) →
    ∃ env, r.ev = .tick env ∧ c.lastRecvTime = env.secs ∧
      (openTimes (r :: tr₂)).length ≤ 4 ∧
      (openTimes (r :: tr₂)).Pairwise fun t t' => t.toNat + 2 ≤ t'.toNat
  /-- An OPEN is sent only in such a stay. -/
  opens : ∀ r ∈ tr, ∀ x ∈ r.outs, isOpen x = true → r.post.state = .authSent
  /-- A tick with a socket more than six seconds after the beginning resets the
      client. -/
  expires : c.state = .authSent → ∀ env, (∀ t ∈ readings tr, t ≤ env.secs) →
    0 ≤ c.udpFd ∨ 0 ≤ env.tickSocket → c.lastRecvTime.toNat + 6 < env.secs.toNat →
    ∃ c' fx, Step cfg c (.tick env) fx c' ∧ .reset ∈ fx ∧
      (c'.state = .dnsNeeded ∨ c'.state = .ipReady)
  /-- The differences in `timer_tick` do not wrap. -/
  elapsed : ∀ now, (∀ t ∈ readings tr, t ≤ now) →
    (c.state = .authSent ∨ c.state = .established → c.lastRecvTime ≤ now ∧
      (now - c.lastRecvTime).toNat = now.toNat - c.lastRecvTime.toNat) ∧
    (c.state = .authSent → (now - c.lastOpenTime).toNat = now.toNat - c.lastOpenTime.toNat)
  /-- From ESTABLISHED, until the next reset, `last_recv_time` changes only on a
      packet that its handler accepted, to the time of its receipt. -/
  liveness : ∀ r ∈ tr, r.pre.state = .established → .reset ∉ r.outs →
    r.post.lastRecvTime ≠ r.pre.lastRecvTime →
    ∃ env data res, r.ev = .datagram env r.pre.serverAddr r.pre.serverPort data ∧
      dispatch cfg env { r.pre with rxPkts := r.pre.rxPkts + 1 } (data.take maxPktSize)
        (Wire.typ (data.take maxPktSize)) = some res ∧
      res.accepted = true ∧ r.post.lastRecvTime = env.secsAfter

section

variable {cfg : Config} {c c' : IwanClient} {e : Event} {fx : List Effect}

theorem reset_mem_resetEffects (env : Env) (c : IwanClient) : .reset ∈ resetEffects cfg env c := by
  simp [resetEffects]

/-- The step of an OPEN ends in AUTH_SENT. -/
theorem Move.open_post (hm : Move cfg c e fx c') {x : Effect} (hx : x ∈ fx)
    (hopen : isOpen x = true) : c'.state = .authSent := by
  obtain ⟨pkt, addr, port, rfl⟩ : ∃ pkt addr port, x = .sendto pkt addr port := by
    cases x <;> first | exact ⟨_, _, _, rfl⟩ | cases hopen
  exact (hm.open_sent hx (by simpa [isOpen] using hopen)).2.2

/-- A step from ESTABLISHED that does not reset. -/
theorem Move.liveness (hok : SlotsOk c.frags) (hm : Move cfg c e fx c')
    (hstep : Step cfg c e fx c') (hs : c.state = .established) (hnr : .reset ∉ fx)
    (hne : c'.lastRecvTime ≠ c.lastRecvTime) :
    ∃ env data res, e = .datagram env c.serverAddr c.serverPort data ∧
      dispatch cfg env { c with rxPkts := c.rxPkts + 1 } (data.take maxPktSize)
        (Wire.typ (data.take maxPktSize)) = some res ∧
      res.accepted = true ∧ c'.lastRecvTime = env.secsAfter := by
  cases hm with
  | ignored => exact absurd rfl hne
  | tick env c₁ c' fxs fx hsock hm =>
    obtain ⟨fd, rfl, -⟩ := tickSocket_frame hsock
    exfalso
    cases hm with
    | idle => exact hne rfl
    | resolved c₂ ok hs' => exact absurd (hs.symm.trans hs') (by simp)
    | started hs' => exact absurd (hs.symm.trans hs') (by simp)
    | openSent c₂ q hs' =>
      rcases hs' with ⟨hs', -⟩ | ⟨hs', -⟩ <;> exact absurd (hs.symm.trans hs') (by simp)
    | reset => exact hnr (List.mem_append_right fxs (reset_mem_resetEffects env _))
    | counted => exact hne rfl
    | echoSent => exact hne rfl
  | datagram env data r hfd hlen ho =>
    obtain ⟨res, hres, -, ho'⟩ := dispatch_outcome cfg env
      (c := { c with rxPkts := c.rxPkts + 1 }) hok (List.length_take_le 2048 data)
    have hpost : touch env res = touch env r := by
      obtain hdrop | ⟨-, -, -, -, hdisp⟩ :=
        step_datagram_cases cfg c env c.serverAddr c.serverPort data
      · rw [Step, hdrop] at hstep
        exact absurd (congrArg IwanClient.lastRecvTime (Prod.mk.inj (Option.some.inj hstep)).1.symm) hne
      · rw [Step, hdisp res hres] at hstep
        exact (Prod.mk.inj (Option.some.inj hstep)).1
    refine ⟨env, data, res, rfl, hres, ?_⟩
    rw [← hpost] at hne ⊢
    cases hacc : res.accepted with
    | true => exact ⟨rfl, by simp [touch, hacc]⟩
    | false =>
      -- what is not accepted leaves the time alone
      refine absurd ?_ hne
      simp only [touch, hacc]
      cases ho' with
      | ignored => rfl
      | stored => rfl
      | delivered => rfl
      | echoed => rfl
      | peerClosed => rfl
      | rejected => rfl
      | refused p hs' => exact absurd (hs.symm.trans hs') (by simp)
      | opened p hs' => exact absurd (hs.symm.trans hs') (by simp)
      | openFailed p fx hs' => exact absurd (hs.symm.trans hs') (by simp)
  | tunSent => exact absurd rfl hne
  | reconnect env => exact absurd (reset_mem_resetEffects env c) hnr

/-- A tick after the deadline, in the readings of the clock. -/
theorem Clock.expires {tr : List StepRecord} (hc : Clock tr c) (hs : c.state = .authSent) {env : Env}
    (hnow : ∀ t ∈ readings tr, t ≤ env.secs) (hsock : 0 ≤ c.udpFd ∨ 0 ≤ env.tickSocket)
    (hto : c.lastRecvTime.toNat + 6 < env.secs.toNat) :
    ∃ c' fx, Step cfg c (.tick env) fx c' ∧ .reset ∈ fx ∧
      (c'.state = .dnsNeeded ∨ c'.state = .ipReady) := by
  have helapsed := UInt32.toNat_sub_of_le _ _ ((hc.recv (.inl hs)).le hnow)
  have hgt : env.secs - c.lastRecvTime > authTimeout := by
    show (6 : UInt32).toNat < (env.secs - c.lastRecvTime).toNat
    rw [helapsed, show (6 : UInt32).toNat = 6 from rfl]
    omega
  obtain ⟨c₁, fxs, -, heq⟩ := step_expired cfg hs hsock hgt
  exact ⟨_, _, heq, List.mem_append_right fxs (reset_mem_resetEffects env c₁),
    resetClient_state _ _⟩

end

/-- What the runs carry along: the invariant, the clock and the attempt in
    progress. -/
structure Progress (cfg : Config) (fx₀ : List Effect) (tr : List StepRecord) (c : IwanClient) :
    Prop where
  inv : Inv cfg fx₀ tr c
  clock : Clock tr c
  attempt : Timely tr → ∀ tr₁ r tr₂, tr = tr₁ ++ r :: tr₂ → r.pre.state ≠ .authSent →
    r.post.state = .authSent → (∀ x ∈ tr₂, x.post.state = .authSent) →
    ∃ env, r.ev = .tick env ∧ Attempting env.secs (openTimes (r :: tr₂)) c

theorem progress_step {cfg : Config} (h : cfg.Admitted) {fx₀ : List Effect} {tr : List StepRecord}
    {c c' : IwanClient} {e : Event} {fx : List Effect} (hp : Progress cfg fx₀ tr c)
    (hstep : Step cfg c e fx c') : Progress cfg fx₀ (tr ++ [⟨c, e, fx, c'⟩]) c' := by
  obtain ⟨hinv, hm⟩ := inv_step h hp.inv hstep
  refine ⟨hinv, clock_step hp.clock hm, fun htime tr₁ r tr₂ heq hpre hpost hstay => ?_⟩
  rw [Timely, readings_snoc, List.pairwise_append] at htime
  obtain ⟨htime₀, -, hnow⟩ := htime
  rcases snoc_eq_append_cons heq with ⟨rfl, rfl, rfl⟩ | ⟨tr₃, rfl, htr⟩
  · exact enter_step h hm hpre hpost
  · obtain ⟨env, hev, ha⟩ := hp.attempt htime₀ tr₁ r tr₃ htr hpre hpost
      fun y hy => hstay y (List.mem_append_left _ hy)
    refine ⟨env, hev, ?_⟩
    rw [← List.cons_append, openTimes_append]
    exact stay_step h ha hp.clock hstep hm (fun t ht u hu => hnow u hu t ht)
      (hstay _ (List.mem_append_right tr₃ (List.mem_singleton_self _)))

/-- **The deadline of an attempt.** Every run of the client whose clock does not run
    backwards is punctual, whatever datagrams it receives. -/
theorem attempt_deadline {cfg₀ cfg : Config} (hcfg : cfg₀.Admitted) {ienv : InitEnv}
    {c₀ : IwanClient} {fx₀ : List Effect}
    (hinit : mainInit cfg₀ ienv = some (some (cfg, c₀, fx₀)))
    {tr : List StepRecord} {c : IwanClient} (hrun : Trace (Step cfg) c₀ tr c)
    (htime : Timely tr) : Punctual cfg tr c := by
  obtain ⟨hadm, hinv₀⟩ := inv_init hcfg hinit
  have hclock₀ : Clock [] c₀ := by
    rcases mainInit_state hcfg hinit with hst | hst <;>
      exact clock_idle (by simp [hst]) (by simp [hst])
  have hp₀ : Progress cfg fx₀ [] c₀ := ⟨hinv₀, hclock₀, by simp⟩
  have hpres : ∀ tr s e os s', Trace (Step cfg) c₀ tr s → Progress cfg fx₀ tr s →
      Step cfg s e os s' → Progress cfg fx₀ (tr ++ [⟨s, e, os, s'⟩]) s' :=
    fun tr s e os s' _ hp hs => progress_step hadm hp hs
  have hp : Progress cfg fx₀ tr c := hrun.invariant hp₀ hpres
  have hsteps : ∀ tr₁ r tr₂, tr = tr₁ ++ r :: tr₂ →
      SlotsOk r.pre.frags ∧ Step cfg r.pre r.ev r.outs r.post ∧ Move cfg r.pre r.ev r.outs r.post :=
    hrun.forall_split (Q := fun _ r => SlotsOk r.pre.frags ∧ Step cfg r.pre r.ev r.outs r.post ∧
      Move cfg r.pre r.ev r.outs r.post) hp₀ hpres
      fun tr s e os s' h hs => ⟨h.inv.slots, hs, (inv_step hadm h.inv hs).2⟩
  refine ⟨?_, ?_, ?_, ?_, ?_⟩
  · intro tr₁ r tr₂ heq hpre hpost hstay
    obtain ⟨env, hev, ha⟩ := hp.attempt htime tr₁ r tr₂ heq hpre hpost hstay
    exact ⟨env, hev, ha.recv, ha.length_le, ha.spaced⟩
  · intro r hr x hx hopen
    obtain ⟨tr₁, tr₂, rfl⟩ := List.append_of_mem hr
    exact (hsteps tr₁ r tr₂ rfl).2.2.open_post hx hopen
  · exact fun hs env hnow hsock hto => hp.clock.expires hs hnow hsock hto
  · intro now hnow
    refine ⟨fun hs => ?_, fun hs => ?_⟩
    · have hle := (hp.clock.recv hs).le hnow
      exact ⟨hle, UInt32.toNat_sub_of_le _ _ hle⟩
    · exact UInt32.toNat_sub_of_le _ _ ((hp.clock.opened hs).le hnow)
  · intro r hr hs hnr hne
    obtain ⟨tr₁, tr₂, rfl⟩ := List.append_of_mem hr
    obtain ⟨hok, hstep, hm⟩ := hsteps tr₁ r tr₂ rfl
    exact hm.liveness hok hstep hs hnr hne

/-- The first tick of the README's configuration. -/
theorem readme_attempt_deadline : ∃ cfg c₀ fx₀ c fx,
    mainInit readmeConfig ⟨4, none, 3⟩ = some (some (cfg, c₀, fx₀)) ∧
    Trace (Step cfg) c₀ [⟨c₀, .tick (calmEnv 100), fx, c⟩] c ∧
    Punctual cfg [⟨c₀, .tick (calmEnv 100), fx, c⟩] c := by
  obtain ⟨mode, dk, ek, c₁, ok, -, -, hinit⟩ :=
    mainInit_eq readmeConfig_admitted ⟨4, none, 3⟩ (by decide) (by decide)
  obtain ⟨hadm, hinv⟩ := inv_init readmeConfig_admitted hinit
  obtain ⟨c, fx, hstep, -⟩ := step_move hadm hinv.slots (.tick (calmEnv 100))
  exact ⟨_, _, _, c, fx, hinit, Trace.nil.snoc hstep,
    attempt_deadline readmeConfig_admitted hinit (Trace.nil.snoc hstep)
      (by simp [Timely, readings, Event.readings])⟩

end Iwand.Client
