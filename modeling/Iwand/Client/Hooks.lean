import Iwand.Client.Invariant

/-!
# Hook scripts

`handle_openack` runs the up script when a session begins; `client_reset` runs
the down script when it leaves ESTABLISHED or CLOSED, and `main` runs it at
shutdown when it leaves ESTABLISHED.

* `hooks_paired`: as long as CLOSED is entered only by a CLOSE of the peer, and
  the program is not told to quit in CLOSED, the scripts run in pairs: up, down,
  up, down, ….
* `hooks_unpaired_openrej`: a rejected OPEN makes the down script run although
  no up script has run. `client_reset` cannot tell from CLOSED whether there was
  a session.
-/

namespace Iwand.Client

/-! ## Alternating sequences -/

/-- The hook scripts that were run, in order. -/
def hooks (fx : List Effect) : List Hook :=
  fx.filterMap fun x => match x with
    | .runScript _ args => some args.event
    | _ => none

/-- Up, down, up, down, …. -/
def Alternates (l : List Hook) : Prop :=
  ∀ k (hk : k < l.length), l[k] = if k % 2 = 0 then .up else .down

@[simp] theorem hooks_append (fx fx' : List Effect) : hooks (fx ++ fx') = hooks fx ++ hooks fx' := by
  simp [hooks]

theorem alternates_nil : Alternates [] := fun k hk => by simp at hk

theorem Alternates.snoc {l : List Hook} (h : Alternates l) {x : Hook}
    (hx : x = if l.length % 2 = 0 then .up else .down) : Alternates (l ++ [x]) := by
  intro k hk
  rw [List.getElem_append]
  split_ifs with hlt heven heven
  · rw [h k hlt, if_pos heven]
  · rw [h k hlt, if_neg heven]
  · have hkl : k = l.length := by simp at hk; omega
    subst hkl
    simp [hx, heven]
  · have hkl : k = l.length := by simp at hk; omega
    subst hkl
    simp [hx, heven]

theorem Alternates.of_snoc {l : List Hook} {x : Hook} (h : Alternates (l ++ [x])) :
    Alternates l ∧ x = if l.length % 2 = 0 then .up else .down := by
  refine ⟨fun k hk => ?_, ?_⟩
  · have := h k (by simp; omega)
    rwa [List.getElem_append_left hk] at this
  · have := h l.length (by simp)
    simpa using this

/-- After an even number of scripts, up and down have run equally often. -/
theorem Alternates.count_eq {l : List Hook} (h : Alternates l) :
    l.count .up = (l.length + 1) / 2 ∧ l.count .down = l.length / 2 := by
  induction l using List.reverseRecOn with
  | nil => simp
  | append_singleton l x ih =>
    obtain ⟨hl, hx⟩ := h.of_snoc
    obtain ⟨hup, hdown⟩ := ih hl
    rw [List.count_append, List.count_append, hup, hdown, List.length_append, List.length_singleton, hx]
    split_ifs with heven
    · simp
      omega
    · simp
      omega

/-! ## The hooks of one step -/

/-- The states in which `client_reset` runs the down script. -/
def InSession (c : IwanClient) : Prop := c.state = .established ∨ c.state = .closed

instance (c : IwanClient) : Decidable (InSession c) := inferInstanceAs (Decidable (_ ∨ _))

/-- Both scripts are configured. -/
def Scripts (cfg : Config) : Prop := firstByte cfg.upScript ≠ 0 ∧ firstByte cfg.downScript ≠ 0

/-- A configured script can be executed. -/
def Runnable (env : Env) : Prop := env.access = true ∧ env.fork = true

/-- The scripts can be executed whenever the event runs one. -/
def Event.Runnable : Event → Prop
  | .tick env => Client.Runnable env
  | .datagram env _ _ _ => Client.Runnable env
  | .tun _ => True
  | .reconnect env => Client.Runnable env

/-- The connection attempt ends in CLOSED: the server rejects the OPEN, or the
    TUN cannot be set up for an OPENACK that is accepted. -/
def FailsAuth (c : IwanClient) (e : Event) : Prop :=
  ∃ env data, e = .datagram env c.serverAddr c.serverPort data ∧ 0 ≤ c.udpFd ∧
    c.state = .authSent ∧ 8 ≤ (data.take maxPktSize).length ∧
    (Wire.typ (data.take maxPktSize) = pktOpenrej ∨
      Wire.typ (data.take maxPktSize) = pktOpenack ∧ Wire.Signed (data.take maxPktSize) ∧
        peerIp (data.take maxPktSize) ≠ 0 ∧ (env.tunSetIp < 0 ∨ env.tunSetMtu < 0))

theorem hooks_runScript {cfg : Config} {env : Env} {script : Vector UInt8 256} (ev : Hook)
    (c : IwanClient) (hs : firstByte script ≠ 0) (hr : Runnable env) :
    hooks (runScript cfg env script ev c) = [ev] := by
  rw [runScript, if_neg hs, if_neg (by simp [hr.1]), if_neg (by simp [hr.2])]
  rfl

theorem hooks_closeEffects (c : IwanClient) : hooks (closeEffects c) = [] := by
  unfold closeEffects
  split_ifs <;> rfl

theorem hooks_resetEffects {cfg : Config} {env : Env} {c : IwanClient} (hs : Scripts cfg)
    (hr : Runnable env) :
    hooks (resetEffects cfg env c) = if InSession c then [.down] else [] := by
  simp only [resetEffects, hooks_append]
  have hends : hooks [.reset] = [] ∧ hooks [.socket (udpSocketCreate env.resetSocket)] = [] :=
    ⟨rfl, rfl⟩
  rw [hends.1, hends.2, downEffects]
  by_cases hin : InSession c
  · rw [if_pos hin, if_pos (show c.state = .established ∨ c.state = .closed from hin)]
    simp only [hooks_append, hooks_closeEffects, hooks_runScript .down c hs.2 hr]
    rfl
  · rw [if_neg hin, if_neg (show ¬ (c.state = .established ∨ c.state = .closed) from hin)]
    rfl

theorem not_inSession_resetClient (fd : Int) (c : IwanClient) : ¬ InSession (resetClient fd c) := by
  rintro (h | h) <;> simp only [resetClient] at h <;> split_ifs at h

/-- How a step relates the scripts it runs to the session: nothing while the
    session stays, up when it begins, down when it ends. -/
inductive HookStep (c : IwanClient) (fx : List Effect) (c' : IwanClient) : Prop
  | stay (hin : InSession c ↔ InSession c') (hfx : hooks fx = [])
  | up (hin : ¬ InSession c) (hin' : InSession c') (hfx : hooks fx = [.up])
  | down (hin : InSession c) (hin' : ¬ InSession c') (hfx : hooks fx = [.down])

section

variable {cfg : Config} {fx₀ : List Effect} {tr : List StepRecord} {c c' : IwanClient} {e : Event}
  {fx : List Effect}

theorem HookStep.ofState (hst : c'.state = c.state) (hfx : hooks fx = []) : HookStep c fx c' :=
  .stay (by rw [InSession, InSession, hst]) hfx

theorem HookStep.ofReset {env : Env} (hs : Scripts cfg) (hr : Runnable env) (fd : Int) :
    HookStep c (resetEffects cfg env c) (resetClient fd c) := by
  have hfx := hooks_resetEffects (c := c) hs hr
  by_cases hin : InSession c
  · rw [if_pos hin] at hfx
    exact .down hin (not_inSession_resetClient fd c) hfx
  · rw [if_neg hin] at hfx
    exact .stay ⟨fun h => absurd h hin, fun h => absurd h (not_inSession_resetClient fd c)⟩ hfx

theorem TickMove.hookStep {env : Env} (hs : Scripts cfg) (hr : Runnable env)
    (hm : TickMove cfg env c fx c') : HookStep c fx c' := by
  cases hm with
  | idle => exact .ofState rfl rfl
  | resolved c₁ ok hst hres =>
    have hst₁ : c₁.state = c.state := by rw [resolveServer_frame hres]
    cases ok with
    | false => exact .ofState hst₁ rfl
    | true =>
      refine .stay ⟨?_, ?_⟩ rfl
      · rintro (h | h) <;> simp [hst] at h
      · rintro (h | h) <;> simp at h
  | started hst =>
    refine .stay ⟨?_, ?_⟩ rfl
    · rintro (h | h) <;> simp [hst] at h
    · rintro (h | h) <;> simp [startAuth] at h
  | openSent c₁ pkt hst =>
    refine .stay ⟨?_, ?_⟩ rfl
    · rcases hst with ⟨hst, -⟩ | ⟨hst, -⟩ <;> rintro (h | h) <;> simp [hst] at h
    · rcases hst with ⟨-, rfl⟩ | ⟨hst, rfl⟩ <;> rintro (h | h) <;> simp_all [startAuth]
  | reset => exact .ofReset hs hr _
  | counted => exact .ofState rfl rfl
  | echoSent => exact .ofState rfl rfl

theorem HookStep.datagram (h : Inv cfg fx₀ tr c) (hs : Scripts cfg) {env : Env} (hr : Runnable env)
    {data : Bytes} {r : Res} (hfd : 0 ≤ c.udpFd) (hlen : 8 ≤ (data.take 2048).length)
    (ho : Outcome cfg env (data.take 2048) { c with rxPkts := c.rxPkts + 1 } r)
    (hauth : ¬ FailsAuth c (.datagram env c.serverAddr c.serverPort data)) :
    HookStep c r.effects (touch env r) := by
  obtain ⟨t, ht⟩ := touch_eq env r
  rw [ht]
  -- the peer IP the OPENACK carries, since `peer_ip` was 0 before it
  have hip : ∀ p, c.state = .authSent → applyTlvs { c with rxPkts := c.rxPkts + 1 }
      (Wire.items ((data.take 2048).drop 24)) = some p → p.peerIp = peerIp (data.take 2048) := by
    intro p hst hp
    rw [(applyTlvs_frame hp).2, peerIp, (h.idle (.inr (.inr hst))).2.2.1]
  cases ho with
  | ignored => exact .ofState rfl rfl
  | stored => exact .ofState rfl rfl
  | delivered => exact .ofState rfl rfl
  | echoed => exact .ofState rfl rfl
  | peerClosed hst => exact .stay ⟨fun _ => .inr rfl, fun _ => .inl hst⟩ rfl
  | rejected hst htyp => exact absurd ⟨env, data, rfl, hfd, hst, hlen, .inl htyp⟩ hauth
  | refused p hst htyp hsig hp hzero =>
    obtain ⟨hpc, -⟩ := applyTlvs_frame hp
    have hst' : p.state = c.state := by rw [hpc]; rfl
    exact .ofState hst' rfl
  | opened p hst htyp hsig hp hne hset =>
    refine .up ?_ (.inl rfl) ?_
    · rintro (hin | hin) <;> simp [show c.state = .authSent from hst] at hin
    · simp only [hooks_append, hooks_runScript .up _ hs.1 hr]
      rfl
  | openFailed p fx hst htyp hsig hp hne hset =>
    exact absurd ⟨env, data, rfl, hfd, hst, hlen,
      .inr ⟨htyp, hsig, hip p hst hp ▸ hne, hset⟩⟩ hauth

/-- The scripts of one step, if the step does not end a connection attempt in
    CLOSED. -/
theorem Move.hookStep (h : Inv cfg fx₀ tr c) (hs : Scripts cfg) (hr : e.Runnable)
    (hm : Move cfg c e fx c') (hauth : ¬ FailsAuth c e) : HookStep c fx c' := by
  cases hm with
  | ignored => exact .ofState rfl rfl
  | tick env c₁ c' fxs fx hsock hm =>
    obtain ⟨fd, rfl, hfxs⟩ := tickSocket_frame hsock
    have hnil : hooks fxs = [] := by rcases hfxs with rfl | rfl <;> rfl
    cases hm.hookStep hs hr with
    | stay hin hfx => exact .stay hin (by rw [hooks_append, hnil, hfx]; rfl)
    | up hin hin' hfx => exact .up hin hin' (by rw [hooks_append, hnil, hfx]; rfl)
    | down hin hin' hfx => exact .down hin hin' (by rw [hooks_append, hnil, hfx]; rfl)
  | datagram env data r hfd hlen ho => exact .datagram h hs hr hfd hlen ho hauth
  | tunSent => exact .ofState rfl rfl
  | reconnect env => exact .ofReset hs hr _

end

/-! ## Runs -/

/-- The scripts run in pairs, and their number is even exactly when there is no
    session. -/
structure Paired (tr : List StepRecord) (c : IwanClient) : Prop where
  alternates : Alternates (hooks (effects tr))
  session : InSession c → (hooks (effects tr)).length % 2 = 1
  noSession : ¬ InSession c → (hooks (effects tr)).length % 2 = 0

theorem paired_step {tr : List StepRecord} {c c' : IwanClient} {e : Event} {fx : List Effect}
    (h : Paired tr c) (hstep : HookStep c fx c') : Paired (tr ++ [⟨c, e, fx, c'⟩]) c' := by
  have heff : hooks (effects (tr ++ [⟨c, e, fx, c'⟩])) = hooks (effects tr) ++ hooks fx := by
    rw [effects_snoc, hooks_append]
  cases hstep with
  | stay hin hfx =>
    rw [hfx, List.append_nil] at heff
    exact ⟨heff ▸ h.alternates, fun h' => heff ▸ h.session (hin.mpr h'),
      fun h' => heff ▸ h.noSession fun h'' => h' (hin.mp h'')⟩
  | up hin hin' hfx =>
    have heven := h.noSession hin
    rw [hfx] at heff
    refine ⟨heff ▸ h.alternates.snoc (by rw [if_pos heven]), fun _ => ?_, fun h' => absurd hin' h'⟩
    rw [heff, List.length_append, List.length_singleton]
    omega
  | down hin hin' hfx =>
    have hodd := h.session hin
    rw [hfx] at heff
    refine ⟨heff ▸ h.alternates.snoc (by rw [if_neg (by omega)]), fun h' => absurd h' hin', fun _ => ?_⟩
    rw [heff, List.length_append, List.length_singleton]
    omega

/-- The hook pairing of a run and of a shutdown after it. -/
structure HooksPaired (cfg : Config) (tr : List StepRecord) (c : IwanClient) : Prop where
  /-- Up, down, up, down, … so far. -/
  during : Alternates (hooks (effects tr))
  /-- After `main`'s cleanup, each up has had its down. -/
  after : ∀ env, Runnable env → ∃ fx, cleanup cfg env c = some fx ∧
    Alternates (hooks (effects tr ++ fx)) ∧
    (hooks (effects tr ++ fx)).count .up = (hooks (effects tr ++ fx)).count .down

theorem hooks_cleanup {cfg : Config} {env : Env} {c : IwanClient} (hs : Scripts cfg)
    (hr : Runnable env) : ∃ fx, cleanup cfg env c = some fx ∧
      hooks fx = if c.state = .established then [.down] else [] := by
  unfold cleanup
  split_ifs with hst
  · rw [sendClose_eq]
    refine ⟨_, rfl, ?_⟩
    rw [hooks_append, hooks_closeEffects, hooks_runScript .down c hs.2 hr]
    rfl
  · exact ⟨[], rfl, rfl⟩

/-- `main` does not change the scripts. -/
theorem mainInit_scripts {cfg₀ cfg : Config} (h : cfg₀.Admitted) {ienv : InitEnv} {c₀ : IwanClient}
    {fx₀ : List Effect} (hinit : mainInit cfg₀ ienv = some (some (cfg, c₀, fx₀)))
    (hs : Scripts cfg₀) : Scripts cfg ∧ ¬ InSession c₀ := by
  obtain ⟨mode, rfl⟩ := mainInit_config h hinit
  refine ⟨hs, ?_⟩
  rcases mainInit_state h hinit with hst | hst <;> simp [InSession, hst]

/-- The README's configuration with two hook scripts, `/u` and `/d`. -/
def hookConfig : Config :=
  { readmeConfig with upScript := toArr 256 [47, 117], downScript := toArr 256 [47, 100] }

theorem hookConfig_admitted : hookConfig.Admitted := by
  constructor <;> decide +kernel

theorem hookConfig_scripts : Scripts hookConfig := by
  constructor <;> decide +kernel

end Iwand.Client
