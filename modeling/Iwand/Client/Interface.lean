import Iwand.Common.Syscall
import Iwand.Client.Invariant

/-!
# The client and its interface

`tun.h` has an implementation for each operating system. `Tun` is what the client
relies on, with the proof that the implementation provides it; the run of the client
and the kernel together then keeps the interface in step with the session.

* `Touches`, `step_touches`: the calls of `tun.h` in one event of the client.
* `Host.Step`: the client together with its process.
* `interface_follows_session`: the interface over whole runs.
-/

namespace Iwand.Client

open Syscall

/-! ## `tun.h` -/

/-- What can be seen of an interface: its addresses with their netmasks, whether it is
    up, and its MTU. -/
structure View where
  addrs : Set (UInt32 × UInt32)
  up : Bool
  mtu : Int

/-- All addresses of the interface are `ip`. -/
def View.Only (v : View) (ip : UInt32) : Prop := ∀ a ∈ v.addrs, a.1 = ip

/-- An implementation of `tun.h` (lines 12–15) for one interface, over a device.
    `granting` is the device when it refuses nothing that it can do, and `frame` says
    that everything but the interface is as it was. -/
structure Tun (Req Resp D : Type) where
  device : Device Req Resp D
  granting : Device Req Resp D
  view : D → View
  frame : D → D → Prop
  setIp (ip mask : UInt32) : Program (FdCall Req) (FdAns Req Resp) Int
  setMtu (mtu : UInt16) : Program (FdCall Req) (FdAns Req Resp) Int
  clearIp : Program (FdCall Req) (FdAns Req Resp) Unit
  frame_refl : ∀ d, frame d d
  frame_trans : ∀ {d d' d''}, frame d d' → frame d' d'' → frame d d''
  setIp_spec : ∀ s ip mask, ip ≠ 0 → wp device.kernel (setIp ip mask) (fun r s' =>
    (s'.fds = s.fds ∧ frame s.dev s'.dev) ∧
      (0 ≤ r → (ip, mask) ∈ (view s'.dev).addrs ∧ (view s'.dev).up = true) ∧
      ∀ a ∈ (view s'.dev).addrs, a ∈ (view s.dev).addrs ∨ a.1 = ip) s
  setMtu_spec : ∀ s mtu, wp device.kernel (setMtu mtu) (fun r s' =>
    (s'.fds = s.fds ∧ frame s.dev s'.dev) ∧ (0 ≤ r → (view s'.dev).mtu = mtu.toNat) ∧
      (view s'.dev).up = (view s.dev).up ∧ (view s'.dev).addrs ⊆ (view s.dev).addrs ∧
      (68 ≤ mtu → (view s'.dev).addrs = (view s.dev).addrs)) s
  clearIp_spec : ∀ s, wp device.kernel clearIp (fun _ s' =>
    s'.fds = s.fds ∧ frame s.dev s'.dev) s
  clearIp_granting : ∀ s ip, (view s.dev).Only ip → wp granting.kernel clearIp (fun _ s' =>
    (view s'.dev).addrs = ∅ ∧ (view s'.dev).up = false) s

/-! ## The calls of one event -/

/-- The effect is a call of `tun.h`. -/
def Effect.onTun : Effect → Bool
  | .tunSetIp .. | .tunSetMtu _ | .tunClearIp => true
  | _ => false

/-- The results of the system calls of an event. -/
def Event.env? : Event → Option Env
  | .tick env | .datagram env .. | .reconnect env => some env
  | .tun _ => none

/-- States without a session: the interface is not in use. -/
def State.unused (s : State) : Prop := s ≠ .established ∧ s ≠ .closed

/-- What an event means for the interface. -/
inductive Touches (cfg : Config) (e : Event) (c c' : IwanClient) : List Effect → Prop
  /-- No call. -/
  | none (hest : c'.state = .established →
        c.state = .established ∧ c'.peerIp = c.peerIp ∧ c'.serverMtu = c.serverMtu)
      (hunused : c'.state.unused → c.state.unused) : Touches cfg e c c' []
  /-- A reset clears the interface. -/
  | cleared (hunused : c'.state.unused) : Touches cfg e c c' [.tunClearIp]
  /-- A session begins. -/
  | set (env : Env) (henv : e.env? = some env) (hset : 0 ≤ env.tunSetIp ∧ 0 ≤ env.tunSetMtu)
      (hs : c.state.unused) (hs' : c'.state = .established) (hip : c'.peerIp ≠ 0) :
      Touches cfg e c c' [.tunSetIp c'.peerIp 0xffffff00, .tunSetMtu (effMtu cfg c')]
  /-- A session could not begin. -/
  | failed (ip : UInt32) (mtu : UInt16) (fx : List Effect) (hs : c.state.unused)
      (hs' : c'.state = .closed) (hip : ip ≠ 0)
      (hfx : fx <+: [.tunSetIp ip 0xffffff00, .tunSetMtu mtu]) : Touches cfg e c c' fx

section

variable {cfg : Config} {env : Env} {e : Event} {c c' : IwanClient} {fx : List Effect}

@[simp] theorem onTun_runScript (env : Env) (script : Vector UInt8 256) (hook : Hook)
    (c : IwanClient) : (runScript cfg env script hook c).filter Effect.onTun = [] := by
  obtain h | ⟨args, -, h⟩ := runScript_cases cfg env script hook c
  · rw [h]
    rfl
  · rw [h]
    rfl

@[simp] theorem onTun_closeEffects (c : IwanClient) :
    (closeEffects c).filter Effect.onTun = [] := by
  unfold closeEffects
  split_ifs <;> rfl

/-- A reset. -/
theorem touches_reset (cfg : Config) (env : Env) (e : Event) (c : IwanClient) (fd : Int) :
    Touches cfg e c (resetClient fd c) ((resetEffects cfg env c).filter Effect.onTun) := by
  have hunused : (resetClient fd c).state.unused := by
    rcases resetClient_state fd c with h | h <;> simp [State.unused, h]
  have hfx : (resetEffects cfg env c).filter Effect.onTun =
      (downEffects cfg env c).filter Effect.onTun := by
    unfold resetEffects
    rw [List.filter_append, List.filter_append]
    exact List.append_nil _
  rw [hfx]
  unfold downEffects
  split_ifs with hs
  · rw [List.filter_append, List.filter_append, onTun_closeEffects, onTun_runScript]
    exact .cleared hunused
  · exact .none (fun h => absurd h hunused.1)
      fun _ => ⟨fun h => hs (.inl h), fun h => hs (.inr h)⟩

theorem touches_tick {c₁ : IwanClient} (hstate : c₁.state = c.state)
    (hpeer : c₁.peerIp = c.peerIp) (hmtu : c₁.serverMtu = c.serverMtu)
    (hm : TickMove cfg env c₁ fx c') :
    Touches cfg (.tick env) c c' (fx.filter Effect.onTun) := by
  have hsame : ∀ {d : IwanClient}, d.state = c₁.state → d.peerIp = c₁.peerIp →
      d.serverMtu = c₁.serverMtu → Touches cfg (.tick env) c d [] := by
    intro d h1 h2 h3
    refine .none (fun h => ⟨?_, h2.trans hpeer, h3.trans hmtu⟩) fun h => ?_
    · rw [← hstate, ← h1]
      exact h
    · rw [← hstate, ← h1]
      exact h
  have hearly : ∀ {d : IwanClient}, d.state ≠ .established → c₁.state.unused →
      Touches cfg (.tick env) c d [] := fun h hun =>
    .none (fun h' => absurd h' h) fun _ => hstate ▸ hun
  cases hm with
  | idle => exact hsame rfl rfl rfl
  | resolved c₂ ok hs hr =>
    have hstate₂ : c₂.state = .dnsNeeded := by
      rw [resolveServer_frame hr]
      exact hs
    refine hearly ?_ (by simp [State.unused, hs])
    cases ok <;> simp [hstate₂]
  | started hs => exact hearly (by simp [startAuth]) (by simp [State.unused, hs])
  | openSent c₂ pkt hs =>
    refine hearly ?_ ?_
    · rcases hs with ⟨-, rfl⟩ | ⟨hs, rfl⟩
      · simp [startAuth]
      · simp [hs]
    · rcases hs with ⟨hs, -⟩ | ⟨hs, -⟩ <;> simp [State.unused, hs]
  | reset =>
    have h := touches_reset cfg env (.tick env) c₁ (udpSocketCreate env.resetSocket)
    generalize (resetEffects cfg env c₁).filter Effect.onTun = fx at h
    cases h with
    | none hest hunused =>
      exact .none (fun h => absurd h (resetClient_state_ne _ _).2) fun h => hstate ▸ hunused h
    | cleared hunused => exact .cleared hunused
    | set _ _ _ _ hs' => exact absurd hs' (resetClient_state_ne _ _).2
    | failed _ _ _ _ hs' =>
      rcases resetClient_state (udpSocketCreate env.resetSocket) c₁ with h | h <;>
        · rw [h] at hs'
          cases hs'
  | counted => exact hsame rfl rfl rfl
  | echoSent => exact hsame rfl rfl rfl

theorem touches_datagram {addr : Vector UInt8 4} {port : UInt16} {data pkt : Bytes} {r : Res}
    (ho : Outcome cfg env pkt { c with rxPkts := c.rxPkts + 1 } r) :
    Touches cfg (.datagram env addr port data) c (touch env r)
      (r.effects.filter Effect.onTun) := by
  have htouch : (touch env r).state = r.client.state ∧ (touch env r).peerIp = r.client.peerIp ∧
      (touch env r).serverMtu = r.client.serverMtu := by
    unfold touch
    split_ifs <;> exact ⟨rfl, rfl, rfl⟩
  obtain ⟨hstate, hpeer, hmtu⟩ := htouch
  generalize touch env r = d at hstate hpeer hmtu
  have hauth : ∀ {s : State}, s = .authSent → s.unused := by
    rintro s rfl
    simp [State.unused]
  cases ho with
  | ignored =>
    exact .none (fun h => ⟨hstate ▸ h, hpeer, hmtu⟩) fun h => hstate ▸ h
  | stored =>
    exact .none (fun h => ⟨hstate ▸ h, hpeer, hmtu⟩) fun h => hstate ▸ h
  | delivered =>
    exact .none (fun h => ⟨hstate ▸ h, hpeer, hmtu⟩) fun h => hstate ▸ h
  | echoed =>
    exact .none (fun h => ⟨hstate ▸ h, hpeer, hmtu⟩) fun h => hstate ▸ h
  | peerClosed =>
    exact .none (fun h => absurd (hstate.symm.trans h) (by simp)) fun h => absurd hstate h.2
  | rejected =>
    exact .none (fun h => absurd (hstate.symm.trans h) (by simp)) fun h => absurd hstate h.2
  | refused p hs _ _ hp =>
    have hp' : p.state = .authSent := by
      rw [(applyTlvs_frame hp).1]
      exact hs
    exact .none (fun h => absurd (hp'.symm.trans (hstate.symm.trans h)) (by simp))
      fun _ => hauth hs
  | opened p hs _ _ _ hip hset =>
    have heff : effMtu cfg d = effMtu cfg p := by
      unfold effMtu
      rw [hmtu]
      rfl
    have hp : d.peerIp = p.peerIp := hpeer
    show Touches _ _ _ _ (List.filter _ ([_, _] ++ _))
    rw [List.filter_append, onTun_runScript, ← heff, ← hp]
    exact .set env rfl hset (hauth hs) hstate (by rwa [hp])
  | openFailed p fx hs _ _ _ hip _ hfx =>
    refine .failed p.peerIp (effMtu cfg p) _ (hauth hs) hstate hip ?_
    exact hfx.filter Effect.onTun

/-- **One event and the interface.** -/
theorem step_touches (hcfg : cfg.Admitted) (hok : SlotsOk c.frags) (hs : Step cfg c e fx c') :
    Touches cfg e c c' (fx.filter Effect.onTun) := by
  obtain ⟨-, hm⟩ := hs.move hcfg hok
  cases hm with
  | ignored => exact .none (fun h => ⟨h, rfl, rfl⟩) fun h => h
  | tick env c₁ c' fxs fx hsock hm =>
    obtain ⟨fd, hc₁, hfxs⟩ := tickSocket_frame hsock
    have hfilter : (fxs ++ fx).filter Effect.onTun = fx.filter Effect.onTun := by
      rw [List.filter_append]
      rcases hfxs with rfl | rfl <;> rfl
    rw [hfilter]
    exact touches_tick (by rw [hc₁]) (by rw [hc₁]) (by rw [hc₁]) hm
  | datagram env data r hfd hlen ho => exact touches_datagram ho
  | tunSent => exact .none (fun h => ⟨h, rfl, rfl⟩) fun h => h
  | reconnect env => exact touches_reset cfg env _ c _

end

/-! ## The client and its process -/

section

variable {Req Resp D : Type}

/-- The calls of `tun.h` run one after the other, with the results in `env`. -/
inductive Plays (T : Tun Req Resp D) (env : Env) : List Effect → Process D → Process D → Prop
  | nil (s : Process D) : Plays T env [] s s
  | setIp {ip mask : UInt32} {fx : List Effect} {s s' s'' : Process D}
      (h : Exec T.device.kernel (T.setIp ip mask) s env.tunSetIp s') (hfx : Plays T env fx s' s'') :
      Plays T env (.tunSetIp ip mask :: fx) s s''
  | setMtu {mtu : UInt16} {fx : List Effect} {s s' s'' : Process D}
      (h : Exec T.device.kernel (T.setMtu mtu) s env.tunSetMtu s') (hfx : Plays T env fx s' s'') :
      Plays T env (.tunSetMtu mtu :: fx) s s''
  | clearIp {fx : List Effect} {s s' s'' : Process D}
      (h : Exec T.device.kernel T.clearIp s () s') (hfx : Plays T env fx s' s'') :
      Plays T env (.tunClearIp :: fx) s s''

/-- The client and its process. -/
structure Host (D : Type) where
  client : IwanClient
  process : Process D

/-- One event: the client handles it, and the calls of `tun.h` run. -/
def Host.Step (cfg : Config) (T : Tun Req Resp D) (h : Host D) (e : Event) (fx : List Effect)
    (h' : Host D) : Prop :=
  Client.Step cfg h.client e fx h'.client ∧ ∃ env, (∀ env' ∈ e.env?, env' = env) ∧
    Plays T env (fx.filter Effect.onTun) h.process h'.process

/-- A step of the client and its process. -/
abbrev HostRecord (D : Type) := Record (Host D) Event Effect

/-- If the step clears the interface then nothing is refused. -/
def Granted (T : Tun Req Resp D) (r : HostRecord D) : Prop :=
  .tunClearIp ∈ r.outs → Exec T.granting.kernel T.clearIp r.pre.process () r.post.process

variable {cfg₀ cfg : Config} {T : Tun Req Resp D} {env : Env} {e : Event} {c c' : IwanClient}
  {fx : List Effect} {s s' s₀ : Process D}

/-- The client's part of a run is a run of the client. -/
theorem host_projection {h₀ h : Host D} {tr : List (HostRecord D)}
    (hrun : Trace (Host.Step cfg T) h₀ tr h) :
    ∃ ctr, Trace (Client.Step cfg) h₀.client ctr h.client := by
  refine hrun.invariant (P := fun _ h => ∃ ctr, Trace (Client.Step cfg) h₀.client ctr h.client)
    ⟨[], .nil⟩ ?_
  rintro tr h e fx h' - ⟨ctr, hctr⟩ ⟨hs, -⟩
  exact ⟨_, hctr.snoc hs⟩

/-- In the states `I` each call of `tun.h` can succeed, with nothing refused, and ends
    in `I` again. -/
structure Tun.Runs (T : Tun Req Resp D) (I : Process D → Prop) : Prop where
  setIp : ∀ {s}, I s → ∀ ip mask, ∃ s', Exec T.device.kernel (T.setIp ip mask) s 0 s' ∧ I s'
  setMtu : ∀ {s}, I s → ∀ mtu, ∃ s', Exec T.device.kernel (T.setMtu mtu) s 0 s' ∧ I s'
  clearIp : ∀ {s}, I s → ∃ s', Exec T.granting.kernel T.clearIp s () s' ∧
    Exec T.device.kernel T.clearIp s () s' ∧ I s'

variable {I : Process D → Prop}

/-- The calls of one event can succeed. -/
theorem touches_plays (hI : T.Runs I) (hs : I s) (hset : env.tunSetIp = 0 ∧ env.tunSetMtu = 0)
    (ht : Touches cfg e c c' fx) : ∃ s', Plays T env fx s s' ∧ I s' ∧
      (.tunClearIp ∈ fx → Exec T.granting.kernel T.clearIp s () s') := by
  have hboth : ∀ ip mask mtu, ∀ fx, fx <+: [.tunSetIp ip mask, .tunSetMtu mtu] →
      ∃ s', Plays T env fx s s' ∧ I s' ∧
        (.tunClearIp ∈ fx → Exec T.granting.kernel T.clearIp s () s') := by
    intro ip mask mtu fx hfx
    obtain ⟨s₁, h₁, hs₁⟩ := hI.setIp hs ip mask
    obtain ⟨s₂, h₂, hs₂⟩ := hI.setMtu hs₁ mtu
    have hno : .tunClearIp ∈ fx → Exec T.granting.kernel T.clearIp s () s₁ :=
      fun h => absurd (hfx.subset h) (by simp)
    have hno' : .tunClearIp ∈ fx → Exec T.granting.kernel T.clearIp s () s₂ :=
      fun h => absurd (hfx.subset h) (by simp)
    rw [← hset.1] at h₁
    rw [← hset.2] at h₂
    rcases List.prefix_cons_iff.mp hfx with rfl | ⟨fx₁, rfl, hfx₁⟩
    · exact ⟨s, .nil s, hs, fun h => nomatch h⟩
    rcases List.prefix_cons_iff.mp hfx₁ with rfl | ⟨fx₂, rfl, hfx₂⟩
    · exact ⟨s₁, .setIp h₁ (.nil s₁), hs₁, hno⟩
    rw [List.prefix_nil.mp hfx₂] at hno' ⊢
    exact ⟨s₂, .setIp h₁ (.setMtu h₂ (.nil s₂)), hs₂, hno'⟩
  cases ht with
  | none => exact ⟨s, .nil s, hs, fun h => nomatch h⟩
  | cleared =>
    obtain ⟨s', hgranted, hexec, hs'⟩ := hI.clearIp hs
    exact ⟨s', .clearIp hexec (.nil s'), hs', fun _ => hgranted⟩
  | set => exact hboth _ _ _ _ (List.prefix_refl _)
  | failed _ _ _ _ _ _ hfx => exact hboth _ _ _ _ hfx

/-- A run of the client in which `tun_set_ip` and `tun_set_mtu` return 0 is a run of the
    client with its process. -/
theorem host_lift (hcfg : cfg₀.Admitted) {ienv : InitEnv} {c₀ : IwanClient}
    {fx₀ : List Effect} (hinit : mainInit cfg₀ ienv = some (some (cfg, c₀, fx₀)))
    (hI : T.Runs I) (hs₀ : I s₀) {ctr : List (Record IwanClient Event Effect)}
    (hrun : Trace (Client.Step cfg) c₀ ctr c)
    (hcalm : ∀ r ∈ ctr, ∀ env ∈ r.ev.env?, env.tunSetIp = 0 ∧ env.tunSetMtu = 0) :
    ∃ tr s, Trace (Host.Step cfg T) ⟨c₀, s₀⟩ tr ⟨c, s⟩ ∧ I s ∧ ∀ r ∈ tr, Granted T r := by
  obtain ⟨hadm, -⟩ := inv_init hcfg hinit
  refine hrun.invariant (P := fun ctr c =>
    (∀ r ∈ ctr, ∀ env ∈ r.ev.env?, env.tunSetIp = 0 ∧ env.tunSetMtu = 0) →
    ∃ tr s, Trace (Host.Step cfg T) ⟨c₀, s₀⟩ tr ⟨c, s⟩ ∧ I s ∧ ∀ r ∈ tr, Granted T r)
    (fun _ => ⟨[], s₀, .nil, hs₀, by simp⟩) ?_ hcalm
  rintro ctr c e fx c' hpre ih hs hcalm
  obtain ⟨tr, s, htr, hIs, hgranted⟩ := ih fun r hr => hcalm r (List.mem_append_left _ hr)
  have hok : SlotsOk c.frags := (inv_run hcfg hinit hpre).slots
  obtain ⟨env, henv, hset⟩ : ∃ env : Env, (∀ env' ∈ e.env?, env' = env) ∧
      env.tunSetIp = 0 ∧ env.tunSetMtu = 0 := by
    cases hev : e.env? with
    | none => exact ⟨calmEnv 0, by simp, rfl, rfl⟩
    | some env =>
      exact ⟨env, by simp, hcalm _ (List.mem_append_right _ List.mem_cons_self) env (by simp [hev])⟩
  obtain ⟨s', hplays, hIs', hclear⟩ := touches_plays hI hIs hset (step_touches hadm hok hs)
  refine ⟨_, s', htr.snoc ⟨hs, env, henv, hplays⟩, hIs', fun r hr => ?_⟩
  rcases List.mem_append.mp hr with hr | hr
  · exact hgranted r hr
  · obtain rfl := List.mem_singleton.mp hr
    exact fun hmem => hclear (List.mem_filter.mpr ⟨hmem, rfl⟩)

/-- What every call of `tun.h` keeps: the open descriptors, and all but the
    interface. -/
def Framed (T : Tun Req Resp D) (s s' : Process D) : Prop :=
  s'.fds = s.fds ∧ T.frame s.dev s'.dev

theorem Framed.refl (T : Tun Req Resp D) (s : Process D) : Framed T s s :=
  ⟨rfl, T.frame_refl _⟩

theorem Framed.trans {s'' : Process D} (h : Framed T s s') (h' : Framed T s' s'') :
    Framed T s s'' :=
  ⟨h'.1.trans h.1, T.frame_trans h.2 h'.2⟩

/-- `tun_set_ip` and what comes after it. -/
theorem plays_setIp {ip mask : UInt32} (hip : ip ≠ 0)
    (h : Plays T env (.tunSetIp ip mask :: fx) s s') :
    ∃ s₁, Plays T env fx s₁ s' ∧ Framed T s s₁ ∧
      (0 ≤ env.tunSetIp → (ip, mask) ∈ (T.view s₁.dev).addrs ∧ (T.view s₁.dev).up = true) ∧
      ∀ a ∈ (T.view s₁.dev).addrs, a ∈ (T.view s.dev).addrs ∨ a.1 = ip := by
  cases h with
  | setIp h hfx =>
    have hspec := wp_sound (T.setIp_spec s ip mask hip) h
    exact ⟨_, hfx, hspec⟩

/-- `tun_set_mtu` as the last call. -/
theorem plays_setMtu {mtu : UInt16} (h : Plays T env [.tunSetMtu mtu] s s') :
    Framed T s s' ∧ (0 ≤ env.tunSetMtu → (T.view s'.dev).mtu = mtu.toNat) ∧
      (T.view s'.dev).up = (T.view s.dev).up ∧ (T.view s'.dev).addrs ⊆ (T.view s.dev).addrs ∧
      (68 ≤ mtu → (T.view s'.dev).addrs = (T.view s.dev).addrs) := by
  cases h with
  | setMtu h hfx =>
    have hspec := wp_sound (T.setMtu_spec s mtu) h
    cases hfx with
    | nil => exact hspec

theorem plays_nil (h : Plays T env [] s s') : s' = s := by
  cases h with
  | nil => rfl

/-- The first calls of those that begin a session: the only new address is the new
    one. -/
theorem plays_prefix {ip mask : UInt32} {mtu : UInt16} (hip : ip ≠ 0)
    (hfx : fx <+: [.tunSetIp ip mask, .tunSetMtu mtu]) (h : Plays T env fx s s') :
    Framed T s s' ∧
      ∀ a ∈ (T.view s'.dev).addrs, a ∈ (T.view s.dev).addrs ∨ a.1 = ip := by
  rcases List.prefix_cons_iff.mp hfx with rfl | ⟨fx₁, rfl, hfx₁⟩
  · rw [plays_nil h]
    exact ⟨Framed.refl T s, fun a ha => .inl ha⟩
  obtain ⟨s₁, h₁, hframe, -, haddrs⟩ := plays_setIp hip h
  rcases List.prefix_cons_iff.mp hfx₁ with rfl | ⟨fx₂, rfl, hfx₂⟩
  · rw [plays_nil h₁]
    exact ⟨hframe, haddrs⟩
  rw [List.prefix_nil.mp hfx₂] at h₁
  obtain ⟨hframe', -, -, hsub, -⟩ := plays_setMtu h₁
  exact ⟨hframe.trans hframe', fun a ha => haddrs a (hsub ha)⟩

/-- The interface of a client in each of its states. -/
structure InStep (cfg : Config) (T : Tun Req Resp D) (s₀ : Process D) (h : Host D) : Prop where
  framed : Framed T s₀ h.process
  up : h.client.state = .established → (T.view h.process.dev).up = true
  mtu : h.client.state = .established →
    (T.view h.process.dev).mtu = (effMtu cfg h.client).toNat
  address : h.client.state = .established → 68 ≤ effMtu cfg h.client →
    (h.client.peerIp, 0xffffff00) ∈ (T.view h.process.dev).addrs

/-- The interface when nothing was refused: no address but that of the session, and
    none outside of one. -/
structure Tidy (T : Tun Req Resp D) (h : Host D) : Prop where
  only : ∃ ip, (T.view h.process.dev).Only ip
  session : h.client.state = .established → (T.view h.process.dev).Only h.client.peerIp
  unused : h.client.state.unused →
    (T.view h.process.dev).addrs = ∅ ∧ (T.view h.process.dev).up = false

variable {h h' : Host D}

/-- One step keeps the interface in step. -/
theorem inStep_step (hcfg : cfg.Admitted) (hok : SlotsOk h.client.frags)
    (hin : InStep cfg T s₀ h) (hs : Host.Step cfg T h e fx h') : InStep cfg T s₀ h' := by
  obtain ⟨hstep, env, henv, hplays⟩ := hs
  have htouch := step_touches hcfg hok hstep
  generalize fx.filter Effect.onTun = calls at htouch hplays
  cases htouch with
  | none hest =>
    have hsame := plays_nil hplays
    refine ⟨by rw [hsame]; exact hin.framed, fun hs' => ?_, fun hs' => ?_, fun hs' h68 => ?_⟩
    · rw [hsame]
      exact hin.up (hest hs').1
    · obtain ⟨hs, -, hmtu⟩ := hest hs'
      rw [hsame, hin.mtu hs, effMtu, effMtu, hmtu]
    · obtain ⟨hs, hpeer, hmtu⟩ := hest hs'
      rw [hsame, hpeer]
      rw [effMtu, hmtu] at h68
      exact hin.address hs h68
  | cleared hunused =>
    cases hplays with
    | clearIp h₁ hrest =>
      obtain ⟨hfds, hrest'⟩ := wp_sound (T.clearIp_spec _) h₁
      rw [← plays_nil hrest] at hfds hrest'
      exact ⟨hin.framed.trans ⟨hfds, hrest'⟩, fun hs' => absurd hs' hunused.1,
        fun hs' => absurd hs' hunused.1, fun hs' => absurd hs' hunused.1⟩
  | set env' henv' hset _ hs' hip =>
    obtain rfl := henv env' henv'
    obtain ⟨s₁, h₁, hframe₁, hok₁, -⟩ := plays_setIp hip hplays
    obtain ⟨hframe, hmtu, hup, -, haddrs⟩ := plays_setMtu h₁
    obtain ⟨hmem, hup₁⟩ := hok₁ hset.1
    refine ⟨hin.framed.trans (hframe₁.trans hframe), fun _ => hup.trans hup₁,
      fun _ => hmtu hset.2, fun _ h68 => ?_⟩
    rw [haddrs h68]
    exact hmem
  | failed ip mtu _ _ hs' hip hfx =>
    obtain ⟨hframe, -⟩ := plays_prefix hip hfx hplays
    have hclosed : h'.client.state ≠ .established := by simp [hs']
    exact ⟨hin.framed.trans hframe, fun hs' => absurd hs' hclosed,
      fun hs' => absurd hs' hclosed, fun hs' => absurd hs' hclosed⟩

/-- One step leaves the interface tidy, if the step does not fail to clear it. -/
theorem tidy_step (hcfg : cfg.Admitted) (hok : SlotsOk h.client.frags) (ht : Tidy T h)
    (hs : Host.Step cfg T h e fx h') (hgranted : Granted T ⟨h, e, fx, h'⟩) : Tidy T h' := by
  obtain ⟨hstep, env, -, hplays⟩ := hs
  have htouch := step_touches hcfg hok hstep
  have hclear : .tunClearIp ∈ fx.filter Effect.onTun → .tunClearIp ∈ fx :=
    fun hmem => List.mem_of_mem_filter hmem
  generalize fx.filter Effect.onTun = calls at htouch hplays hclear
  -- the first address after an empty interface is the only one
  have honly : ∀ ip, h.client.state.unused →
      (∀ a ∈ (T.view h'.process.dev).addrs, a ∈ (T.view h.process.dev).addrs ∨ a.1 = ip) →
      (T.view h'.process.dev).Only ip := by
    intro ip hunused haddrs a ha
    rcases haddrs a ha with ha | ha
    · rw [(ht.unused hunused).1] at ha
      cases ha
    · exact ha
  cases htouch with
  | none hest hunused =>
    have hsame := plays_nil hplays
    refine ⟨by rw [hsame]; exact ht.only, fun hs' => ?_, fun hs' => ?_⟩
    · obtain ⟨hs, hpeer, -⟩ := hest hs'
      rw [hsame, hpeer]
      exact ht.session hs
    · rw [hsame]
      exact ht.unused (hunused hs')
  | cleared hunused =>
    obtain ⟨ip, hip⟩ := ht.only
    obtain ⟨haddrs, hup⟩ :=
      wp_sound (T.clearIp_granting _ ip hip) (hgranted (hclear List.mem_cons_self))
    have hnone : (T.view h'.process.dev).addrs = ∅ := haddrs
    exact ⟨⟨ip, fun a ha => by rw [hnone] at ha; cases ha⟩, fun hs' => absurd hs' hunused.1,
      fun _ => ⟨hnone, hup⟩⟩
  | set env' _ _ hunused hs' hip =>
    obtain ⟨-, haddrs⟩ := plays_prefix hip (List.prefix_refl _) hplays
    have hpeer := honly _ hunused haddrs
    exact ⟨⟨_, hpeer⟩, fun _ => hpeer, fun hs => absurd hs' hs.1⟩
  | failed ip mtu _ hunused hs' hip hfx =>
    obtain ⟨-, haddrs⟩ := plays_prefix hip hfx hplays
    exact ⟨⟨ip, honly ip hunused haddrs⟩, fun hs => absurd (hs'.symm.trans hs) (by simp),
      fun hs => absurd hs' hs.2⟩

/-- **The interface follows the session.** In every run of the client and its
    process, whatever system calls fail: no descriptor is leaked or lost; and in
    ESTABLISHED the interface is up, with the MTU of the session and, unless this
    MTU is too small for IPv4, with the peer IP of the session and its netmask. If
    moreover nothing is refused while the interface is cleared, then it has no other
    address in ESTABLISHED, and no address before ESTABLISHED, where it is down. -/
theorem interface_follows_session (hcfg : cfg₀.Admitted) {ienv : InitEnv} {c₀ : IwanClient}
    {fx₀ : List Effect} (hinit : mainInit cfg₀ ienv = some (some (cfg, c₀, fx₀)))
    (hfresh : (T.view s₀.dev).addrs = ∅ ∧ (T.view s₀.dev).up = false)
    {tr : List (HostRecord D)} (hrun : Trace (Host.Step cfg T) ⟨c₀, s₀⟩ tr h) :
    InStep cfg T s₀ h ∧ ((∀ r ∈ tr, Granted T r) → Tidy T h) := by
  obtain ⟨hadm, -⟩ := inv_init hcfg hinit
  have hnot : c₀.state ≠ .established := by
    rcases mainInit_state hcfg hinit with h | h <;> simp [h]
  refine hrun.invariant (P := fun tr h => InStep cfg T s₀ h ∧ ((∀ r ∈ tr, Granted T r) → Tidy T h))
    ⟨⟨Framed.refl T s₀, fun h => absurd h hnot, fun h => absurd h hnot,
      fun h => absurd h hnot⟩, fun _ =>
      ⟨⟨0, fun a ha => ?_⟩, fun h => absurd h hnot, fun _ => hfresh⟩⟩ ?_
  · have hnone : (T.view s₀.dev).addrs = ∅ := hfresh.1
    rw [hnone] at ha
    cases ha
  · rintro tr h e fx h' hpre ⟨hin, htidy⟩ hs
    obtain ⟨ctr, hctr⟩ := host_projection hpre
    have hok : SlotsOk h.client.frags := (inv_run hcfg hinit hctr).slots
    refine ⟨inStep_step hadm hok hin hs, fun hall => ?_⟩
    refine tidy_step hadm hok (htidy fun r hr => hall r (List.mem_append_left _ hr)) hs ?_
    exact hall _ (List.mem_append_right _ List.mem_cons_self)

end

/-- The process after the start: no descriptor but the TUN's and the socket's. -/
def startProcess {D : Type} (d : D) : Process D where
  fds fd := if fd = 3 then some .socket else if fd = 4 then some .file else none
  dev := d
  logged := []

theorem startProcess_finite {D : Type} (d : D) : (startProcess d).Finite := by
  refine (Set.toFinite {3, 4}).subset fun fd hfd => ?_
  by_contra hnot
  simp only [Set.mem_insert_iff, Set.mem_singleton_iff, not_or] at hnot
  exact hfd (by simp [startProcess, hnot])

/-- The README's client reaches ESTABLISHED with calm system calls. -/
theorem readme_session : ∃ cfg c₀ fx₀ tr c,
    mainInit readmeConfig ⟨4, none, 3⟩ = some (some (cfg, c₀, fx₀)) ∧ Trace (Step cfg) c₀ tr c ∧
    c.state = .established ∧ ∀ r ∈ tr, ∀ env ∈ r.ev.env?, env.tunSetIp = 0 ∧ env.tunSetMtu = 0 := by
  obtain ⟨cfg, c₀, fx₀, hinit, hadm, hst, hfd⟩ :=
    mainInit_numeric readmeConfig_admitted (by decide +kernel) ⟨4, none, 3⟩ (by decide) (by decide)
  have hfd₀ : 0 ≤ c₀.udpFd := by rw [hfd]; decide
  have hopen := step_open (calmEnv 100) hadm hst hfd₀ (by decide)
  have hip : written tlvIp (Wire.items (ipOpenack.drop 24)) = some 0x0a000002 := by
    rw [ipOpenack, Wire.drop_signedHeader, Wire.items_encode (by decide)]
    decide
  have hlen : ipOpenack.length = 30 := by
    rw [ipOpenack, List.length_append, Wire.length_signedHeader]
    rfl
  obtain ⟨p, rfl, hstep⟩ := step_openack cfg
    (c := { startAuth cfg (calmEnv 100) c₀ with lastOpenTime := (calmEnv 100).secs })
    (calmEnv 100) rfl hfd₀ (show Wire.typ ipOpenack = pktOpenack from rfl)
    ⟨Wire.signed_signedHeader _ _ _ _ _, by rw [hip]; simp⟩ (by omega) (tunSet_calmEnv 100)
  refine ⟨cfg, c₀, fx₀, _, _, hinit, (Trace.nil.snoc hopen).snoc hstep, rfl, fun r hr env henv => ?_⟩
  simp only [List.nil_append, List.cons_append, List.mem_cons, List.not_mem_nil, or_false] at hr
  rcases hr with rfl | rfl <;>
    · obtain rfl := Option.some.inj henv
      exact ⟨rfl, rfl⟩

end Iwand.Client
