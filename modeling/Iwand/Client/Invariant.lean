import Iwand.Client.Moves

/-!
# Invariants of the client state machine

What holds in every run of the client from `main`'s initial state, for every
order of ticks, datagrams, TUN reads and reconnects and every outcome of the
system calls.

* `Inv`: the inductive invariant, with `inv_init` and `inv_step`.
* `lawful_run`: its consequences for the run as a whole.
-/

namespace Iwand.Client

/-! ## History -/

/-- The OPENACK with which the last ESTABLISHED period began. -/
def lastOpenack (tr : List StepRecord) : Option Bytes :=
  tr.foldl (fun ack r =>
    if r.pre.state ≠ .established ∧ r.post.state = .established then
      match r.ev with
      | .datagram _ _ _ data => some (data.take maxPktSize)
      | _ => none
    else ack) none

theorem lastOpenack_snoc (tr : List StepRecord) (r : StepRecord) :
    lastOpenack (tr ++ [r]) =
      if r.pre.state ≠ .established ∧ r.post.state = .established then
        match r.ev with
        | .datagram _ _ _ data => some (data.take maxPktSize)
        | _ => none
      else lastOpenack tr := by
  simp [lastOpenack]

/-- The configured server is a name that has to be resolved by DNS. -/
def IsDomain (cfg : Config) : Prop := inetPton (cfg.server.toList.takeWhile (· ≠ 0)) = none

instance (cfg : Config) : Decidable (IsDomain cfg) := inferInstanceAs (Decidable (_ = none))

/-- A `resolve_server` has succeeded; for a domain server, since the last
    reset. -/
def Resolved (cfg : Config) (fx : List Effect) : Prop :=
  .resolved true ∈ fx ∧ (IsDomain cfg → ∃ l₁ l₂, fx = l₁ ++ .resolved true :: l₂ ∧ .reset ∉ l₂)

theorem Resolved.append {cfg : Config} {fx new : List Effect} (h : Resolved cfg fx)
    (hnew : IsDomain cfg → .reset ∉ new) : Resolved cfg (fx ++ new) := by
  refine ⟨List.mem_append_left _ h.1, fun hd => ?_⟩
  obtain ⟨l₁, l₂, rfl, hl₂⟩ := h.2 hd
  exact ⟨l₁, l₂ ++ new, by simp, by simp [hl₂, hnew hd]⟩

theorem resolved_snoc (cfg : Config) (fx : List Effect) :
    Resolved cfg (fx ++ [.resolved true]) :=
  ⟨by simp, fun _ => ⟨fx, [], rfl, by simp⟩⟩

/-! ## Resolution -/

/-- `resolve_server` fills `server_domain` exactly for a domain server, and only
    a domain server can fail to resolve. -/
theorem resolveServer_domain {cfg : Config} (h : cfg.Admitted) {gai : Option (Vector UInt8 4)}
    {c c₁ : IwanClient} {ok : Bool} (hr : resolveServer cfg gai c = some (c₁, ok)) :
    (firstByte c₁.serverDomain ≠ 0 ↔ IsDomain cfg) ∧ (ok = false → IsDomain cfg) := by
  have hserver := h.bounded.server.cstr_eq.1
  have hne : firstByte cfg.server ≠ 0 := by
    have hv := h.valid
    simp only [cfgValid, decide_eq_true_eq] at hv
    exact hv.2.1
  have hstr := takeWhile_ne_nil hne
  have hfst : ∀ b ∈ cfg.server.toList.takeWhile (· ≠ 0), b ≠ 0 := ne_zero_of_mem_cstr hserver
  rw [resolveServer, hserver] at hr
  simp only [Option.bind_eq_bind, Option.bind_some] at hr
  unfold IsDomain
  generalize cfg.server.toList.takeWhile (· ≠ 0) = server at *
  obtain ⟨b, rest, rfl⟩ := List.exists_cons_of_ne_nil hstr
  have hb : b ≠ 0 := hfst b (by simp)
  split at hr
  next addr haddr =>
    cases hr
    simp [haddr]
  next hnone =>
    split at hr <;> cases hr <;> simp [hnone, toArr, hb]

/-! ## The inductive invariant -/

/-- No session: what `client_reset` leaves behind. -/
def Idle (c : IwanClient) : Prop :=
  c.sessionToken = Vector.replicate 2 0 ∧ c.sessionId = Vector.replicate 4 0 ∧ c.peerIp = 0 ∧
    ∀ i : Fin 10, c.frags[i].inUse = false

/-- The states before ESTABLISHED. -/
def Before (c : IwanClient) : Prop :=
  c.state = .dnsNeeded ∨ c.state = .ipReady ∨ c.state = .authSent

theorem not_before_of_established {c : IwanClient} (hs : c.state = .established) : ¬ Before c := by
  unfold Before
  simp [hs]

/-- What holds after every run `tr` of the loop, which `main` entered with the
    effects `fx₀`. -/
structure Inv (cfg : Config) (fx₀ : List Effect) (tr : List StepRecord) (c : IwanClient) : Prop where
  slots : SlotsOk c.frags
  ready : c.state ≠ .notReady
  idle : Before c → Idle c
  session : c.state = .established → ∃ ack, lastOpenack tr = some ack ∧
    c.sessionToken = Wire.token ack ∧ c.sessionId = Wire.sessionId ack
  domain : firstByte c.serverDomain ≠ 0 ↔ IsDomain cfg
  dns : c.state = .dnsNeeded → IsDomain cfg
  resolved : c.state ≠ .dnsNeeded → Resolved cfg (fx₀ ++ effects tr)

/-- The invariant holds when the loop starts. -/
theorem inv_init {cfg₀ cfg : Config} (h : cfg₀.Admitted) {ienv : InitEnv} {c₀ : IwanClient}
    {fx₀ : List Effect} (hinit : mainInit cfg₀ ienv = some (some (cfg, c₀, fx₀))) :
    cfg.Admitted ∧ Inv cfg fx₀ [] c₀ := by
  obtain ⟨mode, dk, ek, c₁, ok, hmode, rfl, hr, rfl, rfl⟩ := mainInit_some h hinit
  have hadm := h.setMode hmode
  obtain ⟨hdom, hok⟩ := resolveServer_domain hadm hr
  have hframe := resolveServer_frame hr
  have hfree : ∀ i : Fin 10, c₁.frags[i].inUse = false := by
    intro i
    have hfr : c₁.frags = zeroClient.frags := by rw [hframe]
    rw [hfr]
    simp only [zeroClient, getElem_fin, Vector.getElem_replicate]
  refine ⟨hadm, ?_, ?_, ?_, ?_, hdom, ?_, ?_⟩
  · intro i hi
    exact absurd hi (by rw [hfree i]; simp)
  · cases ok <;> simp
  · intro _
    exact ⟨by rw [hframe]; rfl, by rw [hframe]; rfl, by rw [hframe]; rfl, hfree⟩
  · cases ok <;> simp
  · cases ok with
    | true => simp
    | false => exact fun _ => hok rfl
  · cases ok with
    | true => exact fun _ => ⟨by simp, fun _ => ⟨[], [.socket ienv.socket], rfl, by simp⟩⟩
    | false => simp

/-- `main` starts in IP_READY for a numeric server. -/
theorem mainInit_numeric {cfg₀ : Config} (h : cfg₀.Admitted) (hnum : ¬ IsDomain cfg₀) (ienv : InitEnv)
    (htun : 0 ≤ ienv.tunOpen) (hsock : 0 ≤ ienv.socket) :
    ∃ cfg c₀ fx₀, mainInit cfg₀ ienv = some (some (cfg, c₀, fx₀)) ∧ cfg.Admitted ∧
      c₀.state = .ipReady ∧ c₀.udpFd = ienv.socket := by
  obtain ⟨mode, dk, ek, c₁, ok, hmode, hr, hinit⟩ := mainInit_eq h ienv htun hsock
  have hok : ok = true := by
    by_contra hf
    exact hnum ((resolveServer_domain (h.setMode hmode) hr).2 (by simpa using hf))
  subst hok
  exact ⟨_, _, _, hinit, h.setMode hmode, rfl, rfl⟩

/-- The running configuration differs only in the encryption mode for segments. -/
theorem mainInit_config {cfg₀ cfg : Config} (h : cfg₀.Admitted) {ienv : InitEnv} {c₀ : IwanClient}
    {fx₀ : List Effect} (hinit : mainInit cfg₀ ienv = some (some (cfg, c₀, fx₀))) :
    ∃ mode, cfg = { cfg₀ with srEncryptMode := mode } := by
  obtain ⟨mode, -, -, -, -, -, hmode, -⟩ := mainInit_some h hinit
  exact ⟨mode, hmode⟩

/-- The state in which the loop starts. -/
theorem mainInit_state {cfg₀ cfg : Config} (h : cfg₀.Admitted) {ienv : InitEnv} {c₀ : IwanClient}
    {fx₀ : List Effect} (hinit : mainInit cfg₀ ienv = some (some (cfg, c₀, fx₀))) :
    c₀.state = .dnsNeeded ∨ c₀.state = .ipReady := by
  obtain ⟨-, -, -, c₁, ok, -, -, -, rfl, -⟩ := mainInit_some h hinit
  cases ok <;> simp

section

variable {cfg : Config} {fx₀ : List Effect} {tr : List StepRecord} {c : IwanClient}

/-- Steps that keep the state and the fields of the invariant, and do not
    reset. -/
theorem Inv.keep (h : Inv cfg fx₀ tr c) {e : Event} {fx : List Effect} {c' : IwanClient}
    (hslots : SlotsOk c'.frags) (hst : c'.state = c.state) (htok : c'.sessionToken = c.sessionToken)
    (hid : c'.sessionId = c.sessionId) (hdom : c'.serverDomain = c.serverDomain)
    (hidle : Before c → c'.peerIp = 0 ∧ c'.frags = c.frags) (hfx : .reset ∉ fx) :
    Inv cfg fx₀ (tr ++ [⟨c, e, fx, c'⟩]) c' := by
  refine ⟨hslots, hst ▸ h.ready, fun hb => ?_, fun he => ?_, hdom ▸ h.domain, hst ▸ h.dns, fun hd => ?_⟩
  · have hb' : Before c := by
      unfold Before at hb ⊢
      rwa [hst] at hb
    obtain ⟨h1, h2, -, h4⟩ := h.idle hb'
    obtain ⟨hip, hfr⟩ := hidle hb'
    exact ⟨htok.trans h1, hid.trans h2, hip, hfr ▸ h4⟩
  · rw [hst] at he
    obtain ⟨ack, hack, h1, h2⟩ := h.session he
    refine ⟨ack, ?_, htok.trans h1, hid.trans h2⟩
    rw [lastOpenack_snoc, if_neg (by simp [he]), hack]
  · rw [effects_snoc, ← List.append_assoc]
    exact (h.resolved (hst ▸ hd)).append fun _ => hfx

/-- A reset. -/
theorem Inv.reset (h : Inv cfg fx₀ tr c) {e : Event} {fx : List Effect} {fd : Int}
    (hcl : firstByte c.serverDomain = 0 → c.state ≠ .dnsNeeded) :
    Inv cfg fx₀ (tr ++ [⟨c, e, fx, resetClient fd c⟩]) (resetClient fd c) := by
  have hst : (resetClient fd c).state = if firstByte c.serverDomain ≠ 0 then .dnsNeeded else .ipReady := rfl
  refine ⟨slotsOk_resetClient fd c, ?_, fun _ => ⟨rfl, rfl, rfl, fun i => ?_⟩, ?_, h.domain, ?_, ?_⟩
  · rw [hst]
    split_ifs <;> simp
  · simp [resetClient]
  · rw [hst]
    split_ifs <;> simp
  · rw [hst]
    split_ifs with hd
    · exact fun _ => h.domain.mp hd
    · simp
  · rw [hst]
    split_ifs with hd
    · simp
    · -- a numeric server stays resolved
      intro _
      have hnum : ¬ IsDomain cfg := fun hdom => hd (h.domain.mpr hdom)
      rw [effects_snoc, ← List.append_assoc]
      exact (h.resolved (hcl (not_not.mp hd))).append fun hdom => absurd hdom hnum

theorem Inv.not_dns (h : Inv cfg fx₀ tr c) (hd : firstByte c.serverDomain = 0) : c.state ≠ .dnsNeeded :=
  fun hs => (h.domain.mpr (h.dns hs)) hd

/-- Steps between the states before ESTABLISHED. -/
theorem Inv.before (h : Inv cfg fx₀ tr c) {e : Event} {fx : List Effect} {c' : IwanClient}
    (hb : Before c) (hb' : Before c') (htok : c'.sessionToken = c.sessionToken)
    (hid : c'.sessionId = c.sessionId) (hip : c'.peerIp = 0) (hfr : c'.frags = c.frags)
    (hdom : firstByte c'.serverDomain ≠ 0 ↔ IsDomain cfg) (hdns : c'.state = .dnsNeeded → IsDomain cfg)
    (hres : c'.state ≠ .dnsNeeded → Resolved cfg (fx₀ ++ effects tr ++ fx)) :
    Inv cfg fx₀ (tr ++ [⟨c, e, fx, c'⟩]) c' := by
  obtain ⟨h1, h2, -, h4⟩ := h.idle hb
  refine ⟨hfr ▸ h.slots, ?_, fun _ => ⟨htok.trans h1, hid.trans h2, hip, hfr ▸ h4⟩, ?_, hdom, hdns, ?_⟩
  · rcases hb' with hs | hs | hs <;> simp [hs]
  · rcases hb' with hs | hs | hs <;> simp [hs]
  · intro hd
    rw [effects_snoc, ← List.append_assoc]
    exact hres hd

/-- Steps into CLOSED. -/
theorem Inv.toClosed (h : Inv cfg fx₀ tr c) {e : Event} {fx : List Effect} {c' : IwanClient}
    (hst : c'.state = .closed) (hslots : SlotsOk c'.frags) (hdom : c'.serverDomain = c.serverDomain)
    (hpre : c.state ≠ .dnsNeeded) (hfx : .reset ∉ fx) :
    Inv cfg fx₀ (tr ++ [⟨c, e, fx, c'⟩]) c' := by
  refine ⟨hslots, by simp [hst], ?_, by simp [hst], hdom ▸ h.domain, by simp [hst], fun _ => ?_⟩
  · rintro (hs | hs | hs) <;> simp [hst] at hs
  · rw [effects_snoc, ← List.append_assoc]
    exact (h.resolved hpre).append fun _ => hfx

theorem reset_notMem_runScript (cfg : Config) (env : Env) (script : Vector UInt8 256) (ev : Hook)
    (c : IwanClient) : .reset ∉ runScript cfg env script ev c := by
  obtain hnil | ⟨args, -, hone⟩ := runScript_cases cfg env script ev c
  · simp [hnil]
  · simp [hone]

/-- The socket check of a tick changes only the socket. -/
theorem tickSocket_frame {env : Env} {c₁ : IwanClient} {fxs : List Effect}
    (h : tickSocket env c = (c₁, fxs)) :
    ∃ fd, c₁ = { c with udpFd := fd } ∧ (fxs = [] ∨ fxs = [.socket fd]) := by
  unfold tickSocket at h
  split_ifs at h
  · cases h
    exact ⟨_, rfl, .inr rfl⟩
  · cases h
    exact ⟨c.udpFd, rfl, .inl rfl⟩

theorem inv_tick (hcfg : cfg.Admitted) (h : Inv cfg fx₀ tr c) {env : Env} {c₁ c' : IwanClient}
    {fxs fx : List Effect} (hsock : tickSocket env c = (c₁, fxs)) (hm : TickMove cfg env c₁ fx c') :
    Inv cfg fx₀ (tr ++ [⟨c, .tick env, fxs ++ fx, c'⟩]) c' := by
  obtain ⟨fd, rfl, hfxs⟩ := tickSocket_frame hsock
  have hsockreset : Effect.reset ∉ fxs := by rcases hfxs with rfl | rfl <;> simp
  cases hm with
  | idle => exact h.keep h.slots rfl rfl rfl rfl (fun hb => ⟨(h.idle hb).2.2.1, rfl⟩) (by simpa)
  | resolved c₂ ok hs hr =>
    have hb : Before c := .inl hs
    obtain ⟨hdom, hok⟩ := resolveServer_domain hcfg hr
    have hframe := resolveServer_frame hr
    have htok : c₂.sessionToken = c.sessionToken := by rw [hframe]
    have hid : c₂.sessionId = c.sessionId := by rw [hframe]
    have hip : c₂.peerIp = 0 := by rw [hframe]; exact (h.idle hb).2.2.1
    have hfr : c₂.frags = c.frags := by rw [hframe]
    have hst : c₂.state = .dnsNeeded := by rw [hframe]; exact hs
    cases ok with
    | true =>
      refine h.before hb (.inr (.inl rfl)) htok hid hip hfr hdom (by simp) fun _ => ?_
      rw [← List.append_assoc]
      exact resolved_snoc _ _
    | false =>
      exact h.before hb (.inl hst) htok hid hip hfr hdom (fun _ => hok rfl) fun hd => absurd hst hd
  | started hs =>
    have hb : Before c := .inr (.inl hs)
    refine h.before hb (.inr (.inr rfl)) rfl rfl (h.idle hb).2.2.1 rfl h.domain
      (by simp [startAuth]) fun _ => ?_
    exact (h.resolved (by simp [show c.state = .ipReady from hs])).append fun _ => by simpa
  | openSent c₂ pkt hs hpkt =>
    have hnr : Effect.reset ∉ fxs ++ [sendToServer c₂ pkt] := by simp [hsockreset, sendToServer]
    rcases hs with ⟨hs, rfl⟩ | ⟨hs, rfl⟩
    · have hb : Before c := .inr (.inl hs)
      exact h.before hb (.inr (.inr rfl)) rfl rfl (h.idle hb).2.2.1 rfl h.domain
        (by simp [startAuth]) fun _ =>
          (h.resolved (by simp [show c.state = .ipReady from hs])).append fun _ => hnr
    · have hb : Before c := .inr (.inr hs)
      exact h.keep h.slots rfl rfl rfl rfl (fun _ => ⟨(h.idle hb).2.2.1, rfl⟩) hnr
  | reset hs => exact h.reset h.not_dns
  | counted hs =>
    exact h.keep h.slots rfl rfl rfl rfl (fun hb => ⟨(h.idle hb).2.2.1, rfl⟩) (by simpa)
  | echoSent payload hs =>
    exact h.keep h.slots rfl rfl rfl rfl (fun hb => ⟨(h.idle hb).2.2.1, rfl⟩)
      (by simp [hsockreset, sendToServer])

theorem touch_eq (env : Env) (r : Res) :
    ∃ t, touch env r = { r.client with lastRecvTime := t } := by
  unfold touch
  split_ifs
  · exact ⟨_, rfl⟩
  · exact ⟨r.client.lastRecvTime, rfl⟩

theorem inv_datagram (h : Inv cfg fx₀ tr c) {env : Env} {data : Bytes} {r : Res}
    (ho : Outcome cfg env (data.take 2048) { c with rxPkts := c.rxPkts + 1 } r)
    (hok : SlotsOk (touch env r).frags) :
    Inv cfg fx₀ (tr ++ [⟨c, .datagram env c.serverAddr c.serverPort data, r.effects, touch env r⟩])
      (touch env r) := by
  obtain ⟨t, ht⟩ := touch_eq env r
  rw [ht] at hok ⊢
  cases ho with
  | ignored => exact h.keep hok rfl rfl rfl rfl (fun hb => ⟨(h.idle hb).2.2.1, rfl⟩) (by simp)
  | stored frags acc hs =>
    exact h.keep hok rfl rfl rfl rfl (fun hb => absurd hb (not_before_of_established hs)) (by simp)
  | delivered frags tunTx out hs =>
    exact h.keep hok rfl rfl rfl rfl (fun hb => absurd hb (not_before_of_established hs)) (by simp)
  | echoed cur max min hs =>
    exact h.keep hok rfl rfl rfl rfl (fun hb => ⟨(h.idle hb).2.2.1, rfl⟩) (by simp)
  | peerClosed hs =>
    exact h.toClosed rfl hok rfl (by simp [show c.state = .established from hs]) (by simp)
  | rejected hs =>
    exact h.toClosed rfl hok rfl (by simp [show c.state = .authSent from hs]) (by simp)
  | refused p hs htyp hsig hp hip =>
    obtain ⟨hpc, -⟩ := applyTlvs_frame hp
    have hst : p.state = .authSent := by rw [hpc]; exact hs
    refine h.before (.inr (.inr hs)) (.inr (.inr hst)) ?_ ?_ hip ?_ ?_ ?_ fun _ => ?_
    · rw [hpc]; rfl
    · rw [hpc]; rfl
    · rw [hpc]; rfl
    · rw [hpc]; exact h.domain
    · rw [hst]; simp
    · exact (h.resolved (by simp [show c.state = .authSent from hs])).append fun _ => by simp
  | opened p hs htyp hsig hp hip hset =>
    obtain ⟨hpc, -⟩ := applyTlvs_frame hp
    have hpre : c.state = .authSent := hs
    have hdom : firstByte p.serverDomain ≠ 0 ↔ IsDomain cfg := by rw [hpc]; exact h.domain
    refine ⟨hok, by simp [beginSession], ?_, fun _ => ?_, ?_, by simp [beginSession], fun _ => ?_⟩
    · rintro (hb | hb | hb) <;> simp [beginSession] at hb
    · refine ⟨data.take 2048, ?_, rfl, rfl⟩
      rw [lastOpenack_snoc, if_pos ⟨by simp [hpre], rfl⟩]
    · exact hdom
    · rw [effects_snoc, ← List.append_assoc]
      refine (h.resolved (by simp [hpre])).append fun _ => ?_
      simp [reset_notMem_runScript]
  | openFailed p fx hs htyp hsig hp hip hset hfx =>
    obtain ⟨hpc, -⟩ := applyTlvs_frame hp
    have hdom : p.serverDomain = c.serverDomain := by rw [hpc]; rfl
    refine h.toClosed rfl hok hdom (by simp [show c.state = .authSent from hs]) fun hmem => ?_
    simpa using hfx.subset hmem

/-- **Every step preserves the invariant.** -/
theorem inv_step (hcfg : cfg.Admitted) (h : Inv cfg fx₀ tr c) {e : Event} {fx : List Effect}
    {c' : IwanClient} (hstep : Step cfg c e fx c') :
    Inv cfg fx₀ (tr ++ [⟨c, e, fx, c'⟩]) c' ∧ Move cfg c e fx c' := by
  obtain ⟨hok, hm⟩ := hstep.move hcfg h.slots
  refine ⟨?_, hm⟩
  cases hm with
  | ignored => exact h.keep hok rfl rfl rfl rfl (fun hb => ⟨(h.idle hb).2.2.1, rfl⟩) (by simp)
  | tick env c₁ c' fxs fx hsock hm => exact inv_tick hcfg h hsock hm
  | datagram env data r hfd hlen ho => exact inv_datagram h ho hok
  | tunSent data typ flag payload hs =>
    exact h.keep hok rfl rfl rfl rfl (fun hb => ⟨(h.idle hb).2.2.1, rfl⟩) (by simp [sendToServer])
  | reconnect env => exact h.reset h.not_dns

/-- The invariant holds in every state of every run. -/
theorem inv_run {cfg₀ : Config} (hcfg : cfg₀.Admitted) {ienv : InitEnv} {c₀ : IwanClient}
    (hinit : mainInit cfg₀ ienv = some (some (cfg, c₀, fx₀)))
    (hrun : Trace (Step cfg) c₀ tr c) : Inv cfg fx₀ tr c := by
  obtain ⟨hadm, hinv₀⟩ := inv_init hcfg hinit
  exact hrun.invariant hinv₀ fun tr s e os s' _ h hs => (inv_step hadm h hs).1

end

/-! ## What single steps do -/

section

variable {cfg : Config} {fx₀ : List Effect} {tr : List StepRecord} {c c' : IwanClient} {e : Event}
  {fx : List Effect}

/-- A TUN write happens in ESTABLISHED, and so does every send except that of an
    OPEN, which carries no session. -/
def Carries (c : IwanClient) : Effect → Prop
  | .tunWrite _ => c.state = .established
  | .sendto pkt _ _ => Wire.typ pkt ≠ pktOpen → c.state = .established ∧
      Wire.token pkt = c.sessionToken ∧ Wire.sessionId pkt = c.sessionId
  | _ => True

/-- What the client may put out in state `c`: the OPEN of an attempt, a packet of
    the session, a packet for the TUN, or no packet at all. -/
inductive Emits (cfg : Config) (c : IwanClient) : Effect → Prop
  | attempt (port : UInt16) (hs : c.state = .ipReady ∨ c.state = .authSent) :
      Emits cfg c (.sendto (openPkt cfg) c.serverAddr port)
  | session (typ flag : UInt8) (payload : Bytes) (hs : c.state = .established)
      (htyp : typ = pktData ∨ typ = pktDataEnc ∨ typ = pktEchoreq ∨ typ = pktClose) :
      Emits cfg c (.sendto (Wire.header typ flag c.sessionToken c.sessionId ++ payload)
        c.serverAddr c.serverPort)
  | tunWrite (data : Bytes) (hs : c.state = .established) : Emits cfg c (.tunWrite data)
  | other (x : Effect) (hsend : ∀ pkt addr port, x ≠ .sendto pkt addr port)
      (htun : ∀ data, x ≠ .tunWrite data) : Emits cfg c x

theorem emits_runScript (env : Env) (script : Vector UInt8 256) (ev : Hook) (c c₁ : IwanClient) :
    ∀ x ∈ runScript cfg env script ev c₁, Emits cfg c x := by
  intro x hx
  obtain hnil | ⟨args, -, hone⟩ := runScript_cases cfg env script ev c₁
  · simp [hnil] at hx
  · rw [hone] at hx
    rw [List.mem_singleton.mp hx]
    exact .other _ (by simp) (by simp)

theorem emits_closeEffects (cfg : Config) (c : IwanClient) : ∀ x ∈ closeEffects c, Emits cfg c x := by
  intro x hx
  unfold closeEffects at hx
  split_ifs at hx with hs
  · simp at hx
  · rw [List.mem_singleton.mp hx]
    rw [not_or, not_not] at hs
    exact .session pktClose 0 _ hs.1 (by simp)

theorem emits_resetEffects (env : Env) (c : IwanClient) :
    ∀ x ∈ resetEffects cfg env c, Emits cfg c x := by
  intro x hx
  simp only [resetEffects, downEffects, List.mem_append, List.mem_singleton] at hx
  rcases hx with (rfl | hx) | rfl
  · exact .other _ (by simp) (by simp)
  · split_ifs at hx
    · rcases List.mem_append.mp hx with hx | hx
      · rcases List.mem_append.mp hx with hx | hx
        · exact emits_closeEffects cfg c x hx
        · rw [List.mem_singleton.mp hx]
          exact .other _ (by simp) (by simp)
      · exact emits_runScript _ _ _ _ _ x hx
    · simp at hx
  · exact .other _ (by simp) (by simp)

theorem Outcome.emits {env : Env} {pkt : Bytes} {r : Res} (ho : Outcome cfg env pkt c r) :
    ∀ x ∈ r.effects, Emits cfg c x := by
  intro x hx
  cases ho with
  | ignored => simp at hx
  | stored => simp at hx
  | delivered frags tunTx data hs =>
    rw [List.mem_singleton.mp hx]
    exact .tunWrite data hs
  | echoed => simp at hx
  | peerClosed => simp at hx
  | rejected => simp at hx
  | refused => simp at hx
  | opened p =>
    rcases List.mem_append.mp hx with hx | hx
    · simp only [List.mem_cons, List.not_mem_nil, or_false] at hx
      rcases hx with rfl | rfl <;> exact .other _ (by simp) (by simp)
    · exact emits_runScript _ _ _ _ _ x hx
  | openFailed p fx hs htyp hsig hp hip hset hfx =>
    have hx' := hfx.subset hx
    simp only [List.mem_cons, List.not_mem_nil, or_false] at hx'
    rcases hx' with rfl | rfl <;> exact .other _ (by simp) (by simp)

theorem TickMove.emits {env : Env} (hcfg : cfg.Admitted) (hm : TickMove cfg env c fx c') :
    ∀ x ∈ fx, Emits cfg c x := by
  intro x hx
  cases hm with
  | idle => simp at hx
  | resolved c₁ ok hs hr =>
    rw [List.mem_singleton.mp hx]
    exact .other _ (by simp) (by simp)
  | started => simp at hx
  | openSent c₁ pkt hs hpkt =>
    rw [List.mem_singleton.mp hx]
    rw [buildOpenPkt_eq hcfg.bounded] at hpkt
    cases hpkt
    rcases hs with ⟨hs, rfl⟩ | ⟨hs, rfl⟩
    · exact .attempt _ (.inl hs)
    · exact .attempt _ (.inr hs)
  | reset => exact emits_resetEffects env c x hx
  | counted => simp at hx
  | echoSent payload hs =>
    rw [List.mem_singleton.mp hx, sendToServer, Wire.signedHeader, List.append_assoc]
    exact .session pktEchoreq 0 _ hs (by simp)

/-- What may be put out depends on a few fields only. -/
theorem Emits.congr {x : Effect} (h : Emits cfg c x) (hst : c'.state = c.state)
    (htok : c'.sessionToken = c.sessionToken) (hid : c'.sessionId = c.sessionId)
    (haddr : c'.serverAddr = c.serverAddr) (hport : c'.serverPort = c.serverPort) :
    Emits cfg c' x := by
  cases h with
  | attempt port hs => exact haddr ▸ .attempt port (hst ▸ hs)
  | session typ flag payload hs htyp =>
    rw [← htok, ← hid, ← haddr, ← hport]
    exact .session typ flag payload (hst ▸ hs) htyp
  | tunWrite data hs => exact .tunWrite data (hst ▸ hs)
  | other x hsend htun => exact .other x hsend htun

/-- Every effect of a step is allowed in the state before it. -/
theorem Move.emits (hcfg : cfg.Admitted) (hm : Move cfg c e fx c') : ∀ x ∈ fx, Emits cfg c x := by
  intro x hx
  cases hm with
  | ignored => simp at hx
  | tick env c₁ c' fxs fx hsock hm =>
    obtain ⟨fd, rfl, hfxs⟩ := tickSocket_frame hsock
    rcases List.mem_append.mp hx with hx | hx
    · rcases hfxs with rfl | rfl
      · simp at hx
      · rw [List.mem_singleton.mp hx]
        exact .other _ (by simp) (by simp)
    · exact (hm.emits hcfg x hx).congr rfl rfl rfl rfl rfl
  | datagram env data r hfd hlen ho => exact (ho.emits x hx).congr rfl rfl rfl rfl rfl
  | tunSent data typ flag payload hs htyp =>
    rw [List.mem_singleton.mp hx]
    refine .session typ flag payload hs ?_
    rcases htyp with rfl | rfl <;> simp
  | reconnect env => exact emits_resetEffects env c x hx

/-- The packets of a session carry it. -/
theorem Emits.carries {x : Effect} (h : Emits cfg c x) : Carries c x := by
  cases h with
  | attempt => exact fun hne => absurd (Wire.signedHeader_typ _ _ _ _ _) hne
  | session typ flag payload hs =>
    exact fun _ => ⟨hs, Wire.header_token _ _ _ _ _, Wire.header_sessionId _ _ _ _ _⟩
  | tunWrite data hs => exact hs
  | other x hsend htun =>
    cases x with
    | sendto pkt addr port => exact absurd rfl (hsend pkt addr port)
    | tunWrite data => exact absurd rfl (htun data)
    | _ => trivial

/-- **Entering ESTABLISHED.** Only an accepted OPENACK does it, and it begins a
    session with the parameters of the OPENACK. -/
theorem Move.began (hm : Move cfg c e fx c') (hpre : c.state ≠ .established)
    (hpost : c'.state = .established) :
    c.state = .authSent ∧ 0 ≤ c.udpFd ∧ ∃ env data p,
      e = .datagram env c.serverAddr c.serverPort data ∧
      Wire.typ (data.take 2048) = pktOpenack ∧ Wire.Signed (data.take 2048) ∧
      p = params { c with rxPkts := c.rxPkts + 1 } (Wire.items ((data.take 2048).drop 24)) ∧
      p.peerIp ≠ 0 ∧
      c' = { beginSession env (data.take 2048) p with lastRecvTime := env.secsAfter } ∧
      fx = [.tunSetIp p.peerIp 0xffffff00, .tunSetMtu (effMtu cfg p)] ++
        runScript cfg env cfg.upScript .up (beginSession env (data.take 2048) p) := by
  cases hm with
  | ignored => exact absurd hpost hpre
  | tick env c₁ c' fxs fx hsock hm =>
    obtain ⟨fd, rfl, -⟩ := tickSocket_frame hsock
    exfalso
    cases hm with
    | idle => exact hpre hpost
    | resolved c₂ ok hs hr =>
      have hst : c₂.state = .dnsNeeded := by rw [resolveServer_frame hr]; exact hs
      cases ok <;> simp [hst] at hpost
    | started hs => simp [startAuth] at hpost
    | openSent c₂ pkt hs =>
      rcases hs with ⟨-, rfl⟩ | ⟨hs, rfl⟩
      · simp [startAuth] at hpost
      · exact hpre hpost
    | reset => exact (resetClient_state_ne _ _).2 hpost
    | counted hs => exact hpre hs
    | echoSent payload hs => exact hpre hs
  | datagram env data r hfd hlen ho =>
    cases ho with
    | ignored => exact absurd hpost hpre
    | stored frags acc hs => exact absurd hs hpre
    | delivered frags tunTx out hs => exact absurd hs hpre
    | echoed cur max min hs => exact absurd hs hpre
    | peerClosed hs => exact absurd hs hpre
    | rejected => cases hpost
    | refused p hs htyp hsig hp hip =>
      rw [applyTlvs_eq] at hp
      cases hp
      exact absurd hpost hpre
    | opened p hs htyp hsig hp hip =>
      rw [applyTlvs_eq] at hp
      cases hp
      exact ⟨hs, hfd, env, data, _, rfl, htyp, hsig, rfl, hip, rfl, rfl⟩
    | openFailed => cases hpost
  | tunSent data typ flag payload hs => exact absurd hs hpre
  | reconnect env => exact absurd hpost (resetClient_state_ne _ _).2

/-- A step enters ESTABLISHED only by an accepted OPENACK. -/
theorem Move.entered (h : Inv cfg fx₀ tr c) (hm : Move cfg c e fx c')
    (hpre : c.state ≠ .established) (hpost : c'.state = .established) :
    c.state = .authSent ∧ ∃ env data, e = .datagram env c.serverAddr c.serverPort data ∧
      Wire.typ (data.take 2048) = pktOpenack ∧ Wire.Signed (data.take 2048) ∧
      c'.peerIp = peerIp (data.take 2048) ∧ peerIp (data.take 2048) ≠ 0 := by
  obtain ⟨hs, -, env, data, p, he, htyp, hsig, hp, hip, rfl, -⟩ := hm.began hpre hpost
  have hzero : c.peerIp = 0 := (h.idle (.inr (.inr hs))).2.2.1
  have hpkt : p.peerIp = peerIp (data.take 2048) := by
    rw [peerIp, foldl_tlvPeerIp, hp, ← hzero]
    rfl
  exact ⟨hs, env, data, he, htyp, hsig, hpkt, hpkt ▸ hip⟩

/-- **Staying in ESTABLISHED.** The session and the socket stay. -/
theorem Move.stays (hm : Move cfg c e fx c') (hs : c.state = .established) (hfd : 0 ≤ c.udpFd)
    (hs' : c'.state = .established) :
    c'.udpFd = c.udpFd ∧ c'.sessionToken = c.sessionToken ∧ c'.sessionId = c.sessionId ∧
      ∀ fd, .socket fd ∉ fx := by
  cases hm with
  | ignored => exact ⟨rfl, rfl, rfl, by simp⟩
  | tick env c₁ c' fxs fx hsock hm =>
    obtain ⟨rfl, rfl⟩ : c₁ = c ∧ fxs = [] := by
      rw [tickSocket, if_neg (by omega)] at hsock
      exact ⟨(congrArg Prod.fst hsock).symm, (congrArg Prod.snd hsock).symm⟩
    cases hm with
    | idle => exact ⟨rfl, rfl, rfl, by simp⟩
    | resolved c₂ ok hst => exact absurd (hs.symm.trans hst) (by decide)
    | started hst => exact absurd (hs.symm.trans hst) (by decide)
    | openSent c₂ pkt hst =>
      rcases hst with ⟨hst, -⟩ | ⟨hst, -⟩
      · exact absurd (hs.symm.trans hst) (by decide)
      · exact absurd (hs.symm.trans hst) (by decide)
    | reset => exact absurd hs' (resetClient_state_ne _ _).2
    | counted => exact ⟨rfl, rfl, rfl, by simp⟩
    | echoSent => exact ⟨rfl, rfl, rfl, by simp [sendToServer]⟩
  | datagram env data r _ hlen ho =>
    obtain ⟨t, ht⟩ := touch_eq env r
    rw [ht] at hs' ⊢
    have hne : c.state ≠ .authSent := by simp [hs]
    cases ho with
    | ignored => exact ⟨rfl, rfl, rfl, by simp⟩
    | stored => exact ⟨rfl, rfl, rfl, by simp⟩
    | delivered => exact ⟨rfl, rfl, rfl, by simp⟩
    | echoed => exact ⟨rfl, rfl, rfl, by simp⟩
    | peerClosed => cases hs'
    | rejected => cases hs'
    | refused p hst => exact absurd hst hne
    | opened p hst => exact absurd hst hne
    | openFailed => cases hs'
  | tunSent => exact ⟨rfl, rfl, rfl, by simp [sendToServer]⟩
  | reconnect => exact absurd hs' (resetClient_state_ne _ _).2

/-- An OPEN is sent only in IP_READY or AUTH_SENT, by a step that does not reset
    and ends in AUTH_SENT. -/
theorem Move.open_sent (hm : Move cfg c e fx c') {pkt : Bytes} {addr : Vector UInt8 4} {port : UInt16}
    (hmem : .sendto pkt addr port ∈ fx) (htyp : Wire.typ pkt = pktOpen) :
    (c.state = .ipReady ∨ c.state = .authSent) ∧ .reset ∉ fx ∧ c'.state = .authSent := by
  have hscript : ∀ {env script ev c₁}, Effect.sendto pkt addr port ∉ runScript cfg env script ev c₁ := by
    intro env script ev c₁
    obtain hnil | ⟨args, -, hone⟩ := runScript_cases cfg env script ev c₁
    · simp [hnil]
    · simp [hone]
  have hreset : ∀ {env c₁}, Effect.sendto pkt addr port ∉ resetEffects cfg env c₁ := by
    intro env c₁ hmem
    simp only [resetEffects, downEffects, closeEffects, sendToServer, List.mem_append,
      List.mem_singleton, reduceCtorEq, false_or, or_false] at hmem
    split_ifs at hmem with hdown hclose
    · simp [hscript] at hmem
    · simp only [List.mem_append, List.mem_singleton, reduceCtorEq, hscript, or_false,
        Effect.sendto.injEq] at hmem
      rw [hmem.1] at htyp
      exact absurd (show pktClose = pktOpen from htyp) (by decide)
    · simp at hmem
  cases hm with
  | ignored => simp at hmem
  | tick env c₁ c' fxs fx hsock hm =>
    obtain ⟨fd, rfl, hfxs⟩ := tickSocket_frame hsock
    have hmem' : Effect.sendto pkt addr port ∈ fx := by
      rcases hfxs with rfl | rfl <;> simpa using hmem
    cases hm with
    | idle => simp at hmem'
    | resolved => simp at hmem'
    | started => simp at hmem'
    | openSent c₂ q hs =>
      refine ⟨hs.imp And.left And.left, ?_, ?_⟩
      · rcases hfxs with rfl | rfl <;> simp [sendToServer]
      · rcases hs with ⟨-, rfl⟩ | ⟨hs, rfl⟩
        · rfl
        · exact hs
    | reset => exact absurd hmem' hreset
    | counted => simp at hmem'
    | echoSent payload hs =>
      simp only [List.mem_singleton, sendToServer, Effect.sendto.injEq] at hmem'
      rw [hmem'.1, Wire.signedHeader_typ] at htyp
      exact absurd htyp (by decide)
  | datagram env data r hfd hlen ho =>
    cases ho with
    | ignored => simp at hmem
    | stored => simp at hmem
    | delivered => simp at hmem
    | echoed => simp at hmem
    | peerClosed => simp at hmem
    | rejected => simp at hmem
    | refused => simp at hmem
    | opened => simp [hscript] at hmem
    | openFailed p fx hs htyp hsig hp hip hset hfx => simpa using hfx.subset hmem
  | tunSent data typ flag payload hs ht =>
    simp only [List.mem_singleton, sendToServer, Effect.sendto.injEq] at hmem
    rw [hmem.1, Wire.header_typ] at htyp
    rcases ht with rfl | rfl <;> exact absurd htyp (by decide)
  | reconnect env => exact absurd hmem hreset

end

/-! ## Runs -/

/-- What holds of the run `tr` that `main` began with the effects `fx₀` and of
    the state `c` it has reached. -/
structure Lawful (cfg : Config) (fx₀ : List Effect) (tr : List StepRecord) (c : IwanClient) :
    Prop where
  /-- ESTABLISHED is entered only from AUTH_SENT, by a signed OPENACK with a
      peer IP. -/
  entered : ∀ r ∈ tr, r.pre.state ≠ .established → r.post.state = .established →
    r.pre.state = .authSent ∧
      ∃ env data, r.ev = .datagram env r.pre.serverAddr r.pre.serverPort data ∧
        Wire.typ (data.take maxPktSize) = pktOpenack ∧ Wire.Signed (data.take maxPktSize) ∧
        r.post.peerIp = peerIp (data.take maxPktSize) ∧ peerIp (data.take maxPktSize) ≠ 0
  /-- Before ESTABLISHED there is no session and no fragment. -/
  idle : c.state = .dnsNeeded ∨ c.state = .ipReady ∨ c.state = .authSent →
    c.sessionToken = Vector.replicate 2 0 ∧ c.sessionId = Vector.replicate 4 0 ∧ c.peerIp = 0 ∧
      ∀ i : Fin 10, c.frags[i].inUse = false
  /-- The TUN is written only in ESTABLISHED. -/
  writes : ∀ r ∈ tr, ∀ data, .tunWrite data ∈ r.outs → r.pre.state = .established
  /-- Everything but an OPEN is sent only in ESTABLISHED, with the session of the
      OPENACK that began the period. -/
  sends : ∀ tr₁ r tr₂, tr = tr₁ ++ r :: tr₂ → ∀ pkt addr port, .sendto pkt addr port ∈ r.outs →
    Wire.typ pkt ≠ pktOpen → r.pre.state = .established ∧
      ∃ ack, lastOpenack tr₁ = some ack ∧ Wire.token pkt = Wire.token ack ∧
        Wire.sessionId pkt = Wire.sessionId ack
  /-- The same holds for the CLOSE sent at shutdown. -/
  quits : ∀ env, ∃ fx, cleanup cfg env c = some fx ∧
    ∀ x ∈ fx, (∀ data, x ≠ .tunWrite data) ∧ ∀ pkt addr port, x = .sendto pkt addr port →
      c.state = .established ∧ ∃ ack, lastOpenack tr = some ack ∧
        Wire.token pkt = Wire.token ack ∧ Wire.sessionId pkt = Wire.sessionId ack
  /-- DNS_NEEDED means that the server is a domain name. -/
  dns : c.state = .dnsNeeded → firstByte c.serverDomain ≠ 0
  /-- An OPEN is sent only after the server was resolved, and not in the step of a
      reset. -/
  opens : ∀ tr₁ r tr₂, tr = tr₁ ++ r :: tr₂ → ∀ pkt addr port, .sendto pkt addr port ∈ r.outs →
    Wire.typ pkt = pktOpen → Resolved cfg (fx₀ ++ effects tr₁) ∧ .reset ∉ r.outs
  /-- NOT_READY is never entered. -/
  ready : c.state ≠ .notReady
  /-- No event gets stuck. -/
  progress : ∀ e, ∃ c' fx, Step cfg c e fx c'

/-- The effects at shutdown. -/
theorem cleanup_spec {cfg : Config} {fx₀ : List Effect} {tr : List StepRecord} {c : IwanClient}
    (h : Inv cfg fx₀ tr c) (env : Env) :
    ∃ fx, cleanup cfg env c = some fx ∧
      ∀ x ∈ fx, (∀ data, x ≠ .tunWrite data) ∧ ∀ pkt addr port, x = .sendto pkt addr port →
        c.state = .established ∧ ∃ ack, lastOpenack tr = some ack ∧
          Wire.token pkt = Wire.token ack ∧ Wire.sessionId pkt = Wire.sessionId ack := by
  unfold cleanup
  split_ifs with hs
  swap
  · exact ⟨[], rfl, by simp⟩
  rw [sendClose_eq]
  refine ⟨_, rfl, fun x hx => ?_⟩
  obtain ⟨ack, hack, htok, hid⟩ := h.session hs
  rcases List.mem_append.mp hx with hx | hx
  · have hcar := (emits_closeEffects cfg c x hx).carries
    unfold closeEffects at hx
    split_ifs at hx
    · simp at hx
    · rw [List.mem_singleton.mp hx, sendToServer] at hcar ⊢
      refine ⟨by simp, fun pkt addr port hpkt => ?_⟩
      rw [hpkt] at hcar
      have htyp : Wire.typ pkt = pktClose := by
        cases hpkt
        rfl
      obtain ⟨-, h1, h2⟩ := hcar (by rw [htyp]; decide)
      exact ⟨hs, ack, hack, h1.trans htok, h2.trans hid⟩
  · obtain hnil | ⟨args, -, hone⟩ := runScript_cases cfg env cfg.downScript .down c
    · simp [hnil] at hx
    · rw [hone] at hx
      rw [List.mem_singleton.mp hx]
      simp

/-- **The client state machine.** Every run of the client, from `main`'s initial
    state and over every sequence of events, is lawful. -/
theorem client_run_lawful {cfg₀ cfg : Config} (hcfg : cfg₀.Admitted) {ienv : InitEnv}
    {c₀ : IwanClient} {fx₀ : List Effect}
    (hinit : mainInit cfg₀ ienv = some (some (cfg, c₀, fx₀)))
    {tr : List StepRecord} {c : IwanClient} (hrun : Trace (Step cfg) c₀ tr c) :
    Lawful cfg fx₀ tr c := by
  obtain ⟨hadm, hinv₀⟩ := inv_init hcfg hinit
  have hpres : ∀ tr s e os s', Trace (Step cfg) c₀ tr s → Inv cfg fx₀ tr s → Step cfg s e os s' →
      Inv cfg fx₀ (tr ++ [⟨s, e, os, s'⟩]) s' :=
    fun tr s e os s' _ h hs => (inv_step hadm h hs).1
  have hinv : Inv cfg fx₀ tr c := hrun.invariant hinv₀ hpres
  -- properties of the single steps, from the invariant before each of them
  have hmoves : ∀ tr₁ r tr₂, tr = tr₁ ++ r :: tr₂ →
      Inv cfg fx₀ tr₁ r.pre ∧ Move cfg r.pre r.ev r.outs r.post :=
    hrun.forall_split (Q := fun tr₁ r => Inv cfg fx₀ tr₁ r.pre ∧ Move cfg r.pre r.ev r.outs r.post)
      hinv₀ hpres fun tr s e os s' h hs => ⟨h, (inv_step hadm h hs).2⟩
  refine ⟨?_, hinv.idle, ?_, ?_, cleanup_spec hinv, ?_, ?_, hinv.ready, ?_⟩
  · intro r hr hpre hpost
    obtain ⟨tr₁, tr₂, rfl⟩ := List.append_of_mem hr
    obtain ⟨hi, hm⟩ := hmoves tr₁ r tr₂ rfl
    exact hm.entered hi hpre hpost
  · intro r hr data hmem
    obtain ⟨tr₁, tr₂, rfl⟩ := List.append_of_mem hr
    exact ((hmoves tr₁ r tr₂ rfl).2.emits hadm _ hmem).carries
  · intro tr₁ r tr₂ heq pkt addr port hmem htyp
    obtain ⟨hi, hm⟩ := hmoves tr₁ r tr₂ heq
    obtain ⟨hs, h1, h2⟩ := (hm.emits hadm _ hmem).carries htyp
    obtain ⟨ack, hack, htok, hid⟩ := hi.session hs
    exact ⟨hs, ack, hack, h1.trans htok, h2.trans hid⟩
  · exact fun hs => hinv.domain.mpr (hinv.dns hs)
  · intro tr₁ r tr₂ heq pkt addr port hmem htyp
    obtain ⟨hi, hm⟩ := hmoves tr₁ r tr₂ heq
    obtain ⟨hs, hnr, -⟩ := hm.open_sent hmem htyp
    refine ⟨hi.resolved ?_, hnr⟩
    rcases hs with hs | hs <;> simp [hs]
  · intro e
    obtain ⟨c', fx, heq, -⟩ := step_move hadm hinv.slots e
    exact ⟨c', fx, heq⟩

/-- A run of the README's configuration: the first tick. -/
theorem readme_run_lawful : ∃ cfg c₀ fx₀ c fx,
    mainInit readmeConfig ⟨4, none, 3⟩ = some (some (cfg, c₀, fx₀)) ∧
    Trace (Step cfg) c₀ [⟨c₀, .tick (calmEnv 100), fx, c⟩] c ∧
    Lawful cfg fx₀ [⟨c₀, .tick (calmEnv 100), fx, c⟩] c := by
  obtain ⟨mode, dk, ek, c₁, ok, -, -, hinit⟩ :=
    mainInit_eq readmeConfig_admitted ⟨4, none, 3⟩ (by decide) (by decide)
  obtain ⟨c, fx, hstep⟩ := (client_run_lawful readmeConfig_admitted hinit .nil).progress
    (.tick (calmEnv 100))
  exact ⟨_, _, _, c, fx, hinit, Trace.nil.snoc hstep,
    client_run_lawful readmeConfig_admitted hinit (Trace.nil.snoc hstep)⟩

/-- With a numeric server the client is in AUTH_SENT after its first tick. -/
theorem run_authSent {cfg₀ : Config} (h : cfg₀.Admitted) (hnum : ¬ IsDomain cfg₀) :
    ∃ cfg c₀ fx₀ tr c, mainInit cfg₀ ⟨4, none, 3⟩ = some (some (cfg, c₀, fx₀)) ∧
      Trace (Step cfg) c₀ tr c ∧ c.state = .authSent ∧ 0 ≤ c.udpFd := by
  obtain ⟨cfg, c₀, fx₀, hinit, hadm, hst, hfd⟩ :=
    mainInit_numeric h hnum ⟨4, none, 3⟩ (by decide) (by decide)
  have hfd₀ : 0 ≤ c₀.udpFd := by rw [hfd]; decide
  exact ⟨cfg, c₀, fx₀, _, _, hinit,
    Trace.nil.snoc (step_open (calmEnv 100) hadm hst hfd₀ (by decide)), rfl, hfd₀⟩

/-- An OPENACK that is accepted begins a session if the TUN can be set up. -/
theorem step_openack (cfg : Config) {c : IwanClient} (env : Env) {pkt : Bytes}
    (hs : c.state = .authSent) (hfd : 0 ≤ c.udpFd) (htyp : Wire.typ pkt = pktOpenack)
    (hacc : Acceptable c pkt) (hlen : pkt.length ≤ 2048)
    (hset : 0 ≤ env.tunSetIp ∧ 0 ≤ env.tunSetMtu) :
    ∃ p, p = params { c with rxPkts := c.rxPkts + 1 } (Wire.items (pkt.drop 24)) ∧
      Step cfg c (.datagram env c.serverAddr c.serverPort pkt)
        ([.tunSetIp p.peerIp 0xffffff00, .tunSetMtu (effMtu cfg p)] ++
          runScript cfg env cfg.upScript .up (beginSession env pkt p))
        { beginSession env pkt p with lastRecvTime := env.secsAfter } := by
  have hr : dispatch cfg env { c with rxPkts := c.rxPkts + 1 } pkt (Wire.typ pkt) =
      some (establish cfg env (params { c with rxPkts := c.rxPkts + 1 } (Wire.items (pkt.drop 24)))
        (Wire.token pkt) (Wire.sessionId pkt)) := by
    rw [htyp, dispatch, if_neg (by decide), if_pos rfl]
    exact handleOpenack_accepted cfg env hs hacc
  rw [establish, if_neg (by omega), if_neg (by omega)] at hr
  have h24 := hacc.1.1
  exact ⟨_, rfl, step_datagram hfd (by omega) hlen hr⟩

/-- The README's client reaches ESTABLISHED: it sends an OPEN and receives an
    OPENACK with the peer IP 10.0.0.2. -/
theorem readme_established : ∃ cfg c₀ fx₀ tr c,
    mainInit readmeConfig ⟨4, none, 3⟩ = some (some (cfg, c₀, fx₀)) ∧ Trace (Step cfg) c₀ tr c ∧
    c.state = .established ∧ ∀ i : Fin 10, c.frags[i].inUse = false := by
  obtain ⟨cfg, c₀, fx₀, tr, c, hinit, hrun, hs, hfd⟩ :=
    run_authSent readmeConfig_admitted (by decide +kernel)
  obtain ⟨hadm, hinv₀⟩ := inv_init readmeConfig_admitted hinit
  have hinv := hrun.invariant hinv₀ fun tr s e os s' _ h hs => (inv_step hadm h hs).1
  have hip : written tlvIp (Wire.items (ipOpenack.drop 24)) = some 0x0a000002 := by
    rw [ipOpenack, Wire.drop_signedHeader, Wire.items_encode (by decide)]
    decide
  have hlen : ipOpenack.length = 30 := by
    rw [ipOpenack, List.length_append, Wire.length_signedHeader]
    rfl
  obtain ⟨p, rfl, hstep⟩ := step_openack cfg (calmEnv 100) hs hfd
    (show Wire.typ ipOpenack = pktOpenack from rfl)
    ⟨Wire.signed_signedHeader _ _ _ _ _, by rw [hip]; simp⟩ (by omega) (tunSet_calmEnv 100)
  exact ⟨cfg, c₀, fx₀, _, _, hinit, hrun.snoc hstep, rfl, (hinv.idle (.inr (.inr hs))).2.2.2⟩

end Iwand.Client
