import Iwand.Client.Hooks

/-!
# The MTU of a session

`handle_openack` programs the TUN with the MTU of the server if it is at least 68
and smaller than the configured one, and with the configured one otherwise.
`run_script` computes the MTU that it prints once more: it is that of the server
whenever the server sent one.

* `Move.session`: the MTU that the scripts are given stays the same until
  `client_reset` has run the down script.
* `hook_mtu_iff`: when the scripts and the TUN have one MTU, as an equivalence.
* `hook_mtu_too_large`: a server that advertises 1500 to a client configured
  with 1400.
-/

namespace Iwand.Client

/-! ## The two computations -/

/-- The MTU that `run_script` prints. -/
def hookMtu (cfg : Config) (c : IwanClient) : UInt16 :=
  if c.serverMtu > 0 then c.serverMtu else cfg.mtu

/-- The server's MTU for which both computations give the same. -/
def MtuAgrees (cfg : Config) (mtu : UInt16) : Prop :=
  mtu = 0 ∨ mtu = cfg.mtu ∨ 68 ≤ mtu ∧ mtu < cfg.mtu

theorem hookMtu_eq_effMtu_iff (cfg : Config) (c : IwanClient) :
    hookMtu cfg c = effMtu cfg c ↔ MtuAgrees cfg c.serverMtu := by
  unfold hookMtu effMtu MtuAgrees
  simp only [gt_iff_lt, UInt16.lt_iff_toNat_lt, UInt16.le_iff_toNat_le, ← UInt16.toNat_inj,
    UInt16.reduceToNat]
  split_ifs <;> omega

/-- `%d` is injective. -/
theorem toString_toNat_inj {a b : UInt16} (h : toString a.toNat = toString b.toNat) : a = b := by
  have hnat : a.toNat = b.toNat := Nat.repr_injective h
  exact UInt16.toNat_inj.mp hnat

/-! ## What the scripts are given -/

/-- Every script that is run is given the MTU `mtu`. -/
def Given (mtu : UInt16) (fx : List Effect) : Prop :=
  ∀ script args, .runScript script args ∈ fx → args.mtu = toString mtu.toNat

/-- The MTUs programmed on the TUN, in order. -/
def tunMtus (fx : List Effect) : List UInt16 :=
  fx.filterMap fun x => match x with
    | .tunSetMtu mtu => some mtu
    | _ => none

theorem given_append {mtu : UInt16} {fx fx' : List Effect} :
    Given mtu (fx ++ fx') ↔ Given mtu fx ∧ Given mtu fx' := by
  unfold Given
  simp only [List.mem_append, or_imp, forall_and]

theorem given_of_hooks {mtu : UInt16} {fx : List Effect} (h : hooks fx = []) : Given mtu fx := by
  intro script args hmem
  have hev : args.event ∈ hooks fx := List.mem_filterMap.mpr ⟨_, hmem, rfl⟩
  rw [h] at hev
  simp at hev

theorem given_runScript_iff (cfg : Config) (env : Env) (script : Vector UInt8 256) (ev : Hook)
    (c : IwanClient) (mtu : UInt16) :
    Given mtu (runScript cfg env script ev c) ↔
      (firstByte script = 0 ∨ ¬ Runnable env) ∨ hookMtu cfg c = mtu := by
  unfold runScript Runnable
  by_cases hs : firstByte script = 0
  · rw [if_pos hs]
    exact iff_of_true (given_of_hooks rfl) (.inl (.inl hs))
  by_cases ha : env.access = false
  · rw [if_neg hs, if_pos ha]
    exact iff_of_true (given_of_hooks rfl) (.inl (.inr (by simp [ha])))
  by_cases hf : env.fork = false
  · rw [if_neg hs, if_neg ha, if_pos hf]
    exact iff_of_true (given_of_hooks rfl) (.inl (.inr (by simp [hf])))
  rw [if_neg hs, if_neg ha, if_neg hf]
  constructor
  · intro h
    exact .inr (toString_toNat_inj (h _ _ (List.mem_singleton.mpr rfl)))
  · rintro (h | rfl)
    · simp [hs, ha, hf] at h
    · intro script' args hmem
      obtain ⟨-, rfl⟩ := Effect.runScript.inj (List.mem_singleton.mp hmem)
      rfl

/-- The down script is given `mtu`, if there is one. -/
def DownMtu (cfg : Config) (c : IwanClient) (mtu : UInt16) : Prop :=
  firstByte cfg.downScript = 0 ∨ hookMtu cfg c = mtu

theorem given_downScript {cfg : Config} {env : Env} {c : IwanClient} {mtu : UInt16}
    (h : DownMtu cfg c mtu) : Given mtu (runScript cfg env cfg.downScript .down c) := by
  rw [given_runScript_iff]
  rcases h with h | h
  · exact .inl (.inl h)
  · exact .inr h

theorem given_resetEffects {cfg : Config} {c : IwanClient} {mtu : UInt16} (h : DownMtu cfg c mtu)
    (env : Env) : Given mtu (resetEffects cfg env c) := by
  unfold resetEffects downEffects
  rw [given_append, given_append]
  refine ⟨⟨given_of_hooks rfl, ?_⟩, given_of_hooks rfl⟩
  split_ifs
  · rw [given_append, given_append]
    exact ⟨⟨given_of_hooks (hooks_closeEffects c), given_of_hooks rfl⟩, given_downScript h⟩
  · exact given_of_hooks rfl

theorem given_cleanup {cfg : Config} {env : Env} {c : IwanClient} {fx : List Effect} {mtu : UInt16}
    (h : DownMtu cfg c mtu) (hfx : cleanup cfg env c = some fx) : Given mtu fx := by
  unfold cleanup at hfx
  split_ifs at hfx with hst
  · rw [sendClose_eq] at hfx
    cases hfx
    rw [given_append]
    exact ⟨given_of_hooks (hooks_closeEffects c), given_downScript h⟩
  · cases hfx
    exact given_of_hooks rfl

/-! ## One session -/

section

variable {cfg : Config} {c c' : IwanClient} {e : Event} {fx : List Effect} {mtu : UInt16}

/-- The state and the server's MTU are those of the same session. -/
def SameSession (c c' : IwanClient) : Prop := InSession c' ∧ c'.serverMtu = c.serverMtu

theorem InSession.ne_authSent (h : InSession c) : c.state ≠ .authSent := by
  rcases h with h | h <;> simp [h]

theorem TickMove.session {env : Env} (hm : TickMove cfg env c fx c') (hin : InSession c)
    (hmtu : DownMtu cfg c mtu) : Given mtu fx ∧ (.reset ∉ fx → SameSession c c') := by
  cases hm with
  | idle => exact ⟨given_of_hooks rfl, fun _ => ⟨hin, rfl⟩⟩
  | resolved c₁ ok hs => rcases hin with h | h <;> simp [hs] at h
  | started hs => rcases hin with h | h <;> simp [hs] at h
  | openSent c₁ pkt hs =>
    rcases hs with ⟨hs, -⟩ | ⟨hs, -⟩
    · rcases hin with h | h <;> simp [hs] at h
    · exact absurd hs hin.ne_authSent
  | reset => exact ⟨given_resetEffects hmtu env, fun hno => absurd (by simp [resetEffects]) hno⟩
  | counted => exact ⟨given_of_hooks rfl, fun _ => ⟨hin, rfl⟩⟩
  | echoSent => exact ⟨given_of_hooks rfl, fun _ => ⟨hin, rfl⟩⟩

theorem Outcome.session {env : Env} {pkt : Bytes} {r : Res} (ho : Outcome cfg env pkt c r)
    (hin : InSession c) : Given mtu r.effects ∧ SameSession c r.client := by
  cases ho with
  | ignored => exact ⟨given_of_hooks rfl, hin, rfl⟩
  | stored => exact ⟨given_of_hooks rfl, hin, rfl⟩
  | delivered => exact ⟨given_of_hooks rfl, hin, rfl⟩
  | echoed => exact ⟨given_of_hooks rfl, hin, rfl⟩
  | peerClosed => exact ⟨given_of_hooks rfl, .inr rfl, rfl⟩
  | rejected hs => exact absurd hs hin.ne_authSent
  | refused p hs => exact absurd hs hin.ne_authSent
  | opened p hs => exact absurd hs hin.ne_authSent
  | openFailed p fx hs => exact absurd hs hin.ne_authSent

/-- A step inside a session gives its script the MTU of the session, and keeps the
    session unless it resets the client. -/
theorem Move.session (hm : Move cfg c e fx c') (hin : InSession c) (hmtu : DownMtu cfg c mtu) :
    Given mtu fx ∧ (.reset ∉ fx → SameSession c c') := by
  cases hm with
  | ignored => exact ⟨given_of_hooks rfl, fun _ => ⟨hin, rfl⟩⟩
  | tick env c₁ c' fxs fx hsock hm =>
    obtain ⟨fd, rfl, hfxs⟩ := tickSocket_frame hsock
    have hnil : hooks fxs = [] := by rcases hfxs with rfl | rfl <;> rfl
    obtain ⟨hgiven, hsame⟩ := hm.session hin hmtu
    refine ⟨given_append.mpr ⟨given_of_hooks hnil, hgiven⟩, fun hno => hsame fun hmem => hno ?_⟩
    exact List.mem_append_right _ hmem
  | datagram env data r hfd hlen ho =>
    obtain ⟨t, ht⟩ := touch_eq env r
    rw [ht]
    obtain ⟨hgiven, hsame⟩ := ho.session hin
    exact ⟨hgiven, fun _ => hsame⟩
  | tunSent => exact ⟨given_of_hooks rfl, fun _ => ⟨hin, rfl⟩⟩
  | reconnect env =>
    exact ⟨given_resetEffects hmtu env, fun hno => absurd (by simp [resetEffects]) hno⟩

/-- The session goes on until the client is reset. -/
theorem session_run (hadm : cfg.Admitted) (hok : SlotsOk c.frags) (hin : InSession c)
    {tr : List StepRecord} (hrun : Trace (Step cfg) c tr c') (hno : .reset ∉ effects tr) :
    SlotsOk c'.frags ∧ SameSession c c' := by
  have h : SlotsOk c'.frags ∧ (.reset ∉ effects tr → SameSession c c') := by
    refine hrun.invariant (P := fun tr c' => SlotsOk c'.frags ∧
      (.reset ∉ effects tr → SameSession c c')) ⟨hok, fun _ => ⟨hin, rfl⟩⟩ ?_
    rintro tr s e os s' - ⟨hoks, hs⟩ hstep
    obtain ⟨hoks', hm⟩ := Step.move hadm hoks hstep
    refine ⟨hoks', fun hno => ?_⟩
    rw [effects_snoc, List.mem_append, not_or] at hno
    obtain ⟨hins, hmtu⟩ := hs hno.1
    obtain ⟨hins', hmtu'⟩ := (hm.session hins (.inr rfl)).2 hno.2
    exact ⟨hins', hmtu'.trans hmtu⟩
  exact ⟨h.1, h.2 hno⟩

/-! ## The OPENACK -/

/-- The MTU of the server after the OPENACK `pkt`: that of the last item which
    carries one. -/
def ackMtu (c : IwanClient) (pkt : Bytes) : UInt16 :=
  (written tlvMtu (Wire.items (pkt.drop 24))).getD c.serverMtu

/-- A datagram that takes the client from AUTH_SENT to ESTABLISHED is an OPENACK
    that `handle_openack` accepts. -/
theorem Move.accepted {env : Env} {addr : Vector UInt8 4} {port : UInt16} {data : Bytes}
    (hm : Move cfg c (.datagram env addr port data) fx c') (hs : c.state = .authSent)
    (hest : c'.state = .established) :
    ∃ p, p.serverMtu = ackMtu c (data.take 2048) ∧ c'.serverMtu = p.serverMtu ∧
      fx = [.tunSetIp p.peerIp 0xffffff00, .tunSetMtu (effMtu cfg p)] ++
        runScript cfg env cfg.upScript .up (beginSession env (data.take 2048) p) := by
  obtain ⟨-, -, env, data, p, he, -, -, rfl, -, rfl, hfx⟩ := hm.began (by simp [hs]) hest
  obtain ⟨rfl, -, -, rfl⟩ := Event.datagram.inj he
  exact ⟨_, rfl, rfl, hfx⟩

end

/-- The TUN and the scripts of the session that begins in `c` with the effects `fx`
    have the MTU `mtu`. -/
structure OneMtu (cfg : Config) (fx : List Effect) (c : IwanClient) (mtu : UInt16) : Prop where
  tun : tunMtus fx = [mtu]
  up : Given mtu fx
  /-- The down script, when the client is reset. -/
  down : ∀ tr c' e fx' c'', Trace (Step cfg) c tr c' → .reset ∉ effects tr →
    Step cfg c' e fx' c'' → Given mtu fx'
  /-- The down script, when the program ends. -/
  atEnd : ∀ tr c' env fx', Trace (Step cfg) c tr c' → .reset ∉ effects tr →
    cleanup cfg env c' = some fx' → Given mtu fx'

/-- No script is run: no up script now and no down script later. -/
def NoScript (cfg : Config) (env : Env) : Prop :=
  (firstByte cfg.upScript = 0 ∨ ¬ Runnable env) ∧ firstByte cfg.downScript = 0

section

variable {cfg : Config} {c c' : IwanClient} {fx : List Effect} {mtu : UInt16}

theorem DownMtu.congr (h : DownMtu cfg c mtu) (heq : c'.serverMtu = c.serverMtu) :
    DownMtu cfg c' mtu := by
  unfold DownMtu hookMtu at h ⊢
  rwa [heq]

/-- The down scripts of a session are given what they would be given at once. -/
theorem OneMtu.ofSession (hadm : cfg.Admitted) (hok : SlotsOk c.frags) (hin : InSession c)
    (htun : tunMtus fx = [mtu]) (hup : Given mtu fx) (hdown : DownMtu cfg c mtu) :
    OneMtu cfg fx c mtu := by
  refine ⟨htun, hup, ?_, ?_⟩
  · intro tr c' e fx' c'' hrun hno hstep
    obtain ⟨hok', hin', hmtu⟩ := session_run hadm hok hin hrun hno
    exact ((Step.move hadm hok' hstep).2.session hin' (hdown.congr hmtu)).1
  · intro tr c' env fx' hrun hno hfx
    obtain ⟨-, -, hmtu⟩ := session_run hadm hok hin hrun hno
    exact given_cleanup (hdown.congr hmtu) hfx

/-- The program may end at once. -/
theorem OneMtu.downMtu (h : OneMtu cfg fx c mtu) (hest : c.state = .established) :
    DownMtu cfg c mtu := by
  have hend := h.atEnd [] c (calmEnv 0) _ .nil (by simp [effects]) (by
    rw [Client.cleanup, if_pos hest, sendClose_eq]
    rfl)
  rw [given_append, given_runScript_iff] at hend
  rcases hend.2 with (h | h) | h
  · exact .inl h
  · exact absurd ⟨rfl, rfl⟩ h
  · exact .inr h

theorem tunMtus_append (fx fx' : List Effect) : tunMtus (fx ++ fx') = tunMtus fx ++ tunMtus fx' := by
  simp [tunMtus]

theorem tunMtus_runScript (env : Env) (script : Vector UInt8 256) (ev : Hook) :
    tunMtus (runScript cfg env script ev c) = [] := by
  obtain hnil | ⟨args, -, hone⟩ := runScript_cases cfg env script ev c
  · rw [hnil]
    rfl
  · rw [hone]
    rfl

/-- The MTUs of an accepted OPENACK and of its session. -/
theorem oneMtu_iff (hadm : cfg.Admitted) (hok : SlotsOk c'.frags) (hest : c'.state = .established)
    {env : Env} {pkt : Bytes} {p : IwanClient} (hmtu : c'.serverMtu = p.serverMtu)
    (hfx : fx = [.tunSetIp p.peerIp 0xffffff00, .tunSetMtu (effMtu cfg p)] ++
      runScript cfg env cfg.upScript .up (beginSession env pkt p)) :
    (∃ mtu, OneMtu cfg fx c' mtu) ↔ NoScript cfg env ∨ MtuAgrees cfg p.serverMtu := by
  have htun : tunMtus fx = [effMtu cfg p] := by
    rw [hfx, tunMtus_append, tunMtus_runScript]
    rfl
  have hup : ∀ mtu, Given mtu fx ↔
      (firstByte cfg.upScript = 0 ∨ ¬ Runnable env) ∨ hookMtu cfg p = mtu := by
    intro mtu
    rw [hfx, given_append, given_runScript_iff]
    exact and_iff_right (given_of_hooks rfl)
  have hdown : hookMtu cfg c' = hookMtu cfg p := by rw [hookMtu, hookMtu, hmtu]
  rw [← hookMtu_eq_effMtu_iff]
  constructor
  · rintro ⟨mtu, h⟩
    obtain rfl : effMtu cfg p = mtu := by simpa [htun] using h.tun
    rcases (hup _).mp h.up with hno | heq
    · rcases h.downMtu hest with hnodown | heq
      · exact .inl ⟨hno, hnodown⟩
      · exact .inr (hdown.symm.trans heq)
    · exact .inr heq
  · rintro (hno | heq)
    · exact ⟨_, .ofSession hadm hok (.inl hest) htun ((hup _).mpr (.inl hno.1)) (.inl hno.2)⟩
    · exact ⟨_, .ofSession hadm hok (.inl hest) htun ((hup _).mpr (.inr heq))
        (.inr (hdown.trans heq))⟩

end

/-- **One MTU.** Let an OPENACK begin a session, after any run. The TUN, the up
    script and the down script of the session have one MTU exactly if no script
    is run, or the last MTU item of the OPENACK is 0, the configured MTU, or
    between 68 and the configured MTU. -/
theorem hook_mtu_iff {cfg₀ cfg : Config} (hcfg : cfg₀.Admitted) {ienv : InitEnv}
    {c₀ : IwanClient} {fx₀ : List Effect}
    (hinit : mainInit cfg₀ ienv = some (some (cfg, c₀, fx₀)))
    {tr : List StepRecord} {c : IwanClient} (hrun : Trace (Step cfg) c₀ tr c)
    (hs : c.state = .authSent) {env : Env} {addr : Vector UInt8 4} {port : UInt16} {data : Bytes}
    {fx : List Effect} {c' : IwanClient} (hstep : Step cfg c (.datagram env addr port data) fx c')
    (hest : c'.state = .established) :
    (∃ mtu, OneMtu cfg fx c' mtu) ↔
      NoScript cfg env ∨ MtuAgrees cfg (ackMtu c (data.take 2048)) := by
  obtain ⟨hadm, hinv₀⟩ := inv_init hcfg hinit
  have hinv := hrun.invariant hinv₀ fun tr s e os s' _ h hs => (inv_step hadm h hs).1
  obtain ⟨hok, hm⟩ := Step.move hadm hinv.slots hstep
  obtain ⟨p, hp, hmtu, hfx⟩ := hm.accepted hs hest
  rw [← hp]
  exact oneMtu_iff hadm hok hest hmtu hfx

/-- An OPENACK with two items, the peer IP 10.0.0.2 and an MTU. -/
def mtuOpenack (hi lo : UInt8) : Bytes :=
  Wire.signedHeader pktOpenack 0 (Vector.replicate 2 0) (Vector.replicate 4 0) ++
    Wire.encode [⟨4, [10, 0, 0, 2]⟩, ⟨3, [hi, lo]⟩]

theorem items_mtuOpenack (hi lo : UInt8) :
    Wire.items ((mtuOpenack hi lo).drop 24) = [⟨4, [10, 0, 0, 2]⟩, ⟨3, [hi, lo]⟩] := by
  rw [mtuOpenack, Wire.drop_signedHeader, Wire.items_encode]
  simp

/-- The configured client, with an MTU of 1400, accepts it. -/
theorem hook_session (hi lo : UInt8) : ∃ cfg c₀ fx₀ tr c fx c',
    mainInit hookConfig ⟨4, none, 3⟩ = some (some (cfg, c₀, fx₀)) ∧ Trace (Step cfg) c₀ tr c ∧
    c.state = .authSent ∧
    Step cfg c (.datagram (calmEnv 100) c.serverAddr c.serverPort (mtuOpenack hi lo)) fx c' ∧
    c'.state = .established ∧ cfg.mtu = 1400 ∧
    ackMtu c ((mtuOpenack hi lo).take 2048) = be16 hi lo := by
  obtain ⟨cfg, c₀, fx₀, tr, c, hinit, hrun, hs, hfd⟩ :=
    run_authSent hookConfig_admitted (by decide +kernel)
  have hlen : (mtuOpenack hi lo).length = 34 := by
    rw [mtuOpenack, List.length_append, Wire.length_signedHeader]
    rfl
  have hacc : Acceptable c (mtuOpenack hi lo) := by
    refine ⟨Wire.signed_signedHeader _ _ _ _ _, ?_⟩
    rw [items_mtuOpenack, written_cons, written_singleton]
    exact show (0x0a000002 : UInt32) ≠ 0 by decide
  obtain ⟨p, rfl, hstep⟩ := step_openack cfg (calmEnv 100) hs hfd
    (show Wire.typ (mtuOpenack hi lo) = pktOpenack from rfl) hacc (by omega) (tunSet_calmEnv 100)
  refine ⟨cfg, c₀, fx₀, tr, c, _, _, hinit, hrun, hs, hstep, rfl, ?_, ?_⟩
  · obtain ⟨mode, rfl⟩ := mainInit_config hookConfig_admitted hinit
    rfl
  · rw [List.take_of_length_le (by omega), ackMtu, items_mtuOpenack]
    simp [written, tlvMtu]

/-- For the advertised MTU 1300 the condition holds. -/
theorem hook_mtu_smaller : ∃ cfg c₀ fx₀ tr c fx c' mtu,
    mainInit hookConfig ⟨4, none, 3⟩ = some (some (cfg, c₀, fx₀)) ∧ Trace (Step cfg) c₀ tr c ∧
    Step cfg c (.datagram (calmEnv 100) c.serverAddr c.serverPort (mtuOpenack 5 20)) fx c' ∧
    OneMtu cfg fx c' mtu := by
  obtain ⟨cfg, c₀, fx₀, tr, c, fx, c', hinit, hrun, hs, hstep, hest, hmtu, hack⟩ := hook_session 5 20
  obtain ⟨mtu, h⟩ := (hook_mtu_iff hookConfig_admitted hinit hrun hs hstep hest).mpr (.inr (by
    rw [hack, MtuAgrees, hmtu]
    decide))
  exact ⟨cfg, c₀, fx₀, tr, c, fx, c', mtu, hinit, hrun, hstep, h⟩

/-- **Two MTUs.** The server advertises 1500: the TUN has the MTU 1400, and the up
    script is told 1500. -/
theorem hook_mtu_too_large : ∃ cfg c₀ fx₀ tr c fx c' script args,
    mainInit hookConfig ⟨4, none, 3⟩ = some (some (cfg, c₀, fx₀)) ∧ Trace (Step cfg) c₀ tr c ∧
    c.state = .authSent ∧
    Step cfg c (.datagram (calmEnv 100) c.serverAddr c.serverPort (mtuOpenack 5 220)) fx c' ∧
    c'.state = .established ∧ tunMtus fx = [1400] ∧ .runScript script args ∈ fx ∧
    args.event = .up ∧ args.mtu = "1500" ∧ ¬ ∃ mtu, OneMtu cfg fx c' mtu := by
  obtain ⟨cfg, c₀, fx₀, tr, c, fx, c', hinit, hrun, hs, hstep, hest, hmtu, hack⟩ :=
    hook_session 5 220
  obtain ⟨hadm, hinv₀⟩ := inv_init hookConfig_admitted hinit
  have hinv := hrun.invariant hinv₀ fun tr s e os s' _ h hs => (inv_step hadm h hs).1
  have hup := (mainInit_scripts hookConfig_admitted hinit hookConfig_scripts).1.1
  obtain ⟨p, hp, -, hfx⟩ := (inv_step hadm hinv hstep).2.accepted hs hest
  rw [hack] at hp
  have hp' : p.serverMtu = 1500 := hp
  have htun : effMtu cfg p = 1400 := by
    rw [effMtu, hp', hmtu]
    decide
  rw [runScript, if_neg hup, if_neg (by decide), if_neg (by decide)] at hfx
  have hfx' : tunMtus fx = [1400] := by
    rw [hfx, htun]
    rfl
  have hmem : .runScript cfg.upScript ⟨.up, cfg.tunName, ipStr p.peerIp, "1500", ipStr p.dns0,
      ipStr p.dns1⟩ ∈ fx := by
    rw [hfx]
    simp [beginSession, hp']
    rfl
  refine ⟨cfg, c₀, fx₀, tr, c, fx, c', _, _, hinit, hrun, hs, hstep, hest, hfx', hmem, rfl, rfl, ?_⟩
  rintro ⟨mtu, h⟩
  obtain rfl : 1400 = mtu := by simpa [hfx'] using h.tun
  have hstr : "1500" = toString (1400 : UInt16).toNat := h.up _ _ hmem
  exact absurd hstr (by decide)

end Iwand.Client
