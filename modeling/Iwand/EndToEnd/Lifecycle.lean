import Iwand.Client.Recovery
import Iwand.EndToEnd.Handshake

/-!
# Reconnecting and shutting down

From every state that the client, the server and the network can reach, whatever was
lost, delayed or sent by others, the client can get an agreed session again without
help: ticks, deliveries and losses are enough. When it shuts down, its last datagram
removes its session from the table.

* `client_projection`, `server_projection`: the parties of a run of the whole make
  runs of their own.
* `reconnects`: the way to an agreed session.
* `shutdown_closes`: what is left of the client after its shutdown.
-/

namespace Iwand.EndToEnd

open Server
open Client (IwanClient)

section

variable {R : Type} {cfg₀ cfg : Client.Config} {ienv : Client.InitEnv} {c₀ : IwanClient}
  {fx₀ : List Client.Effect} {config : Server.Config} {device : Bool}
  {openDevice : Except String Unit} {net : Net R} {home : Set R} {s₀ : Server R} {remote : R}
  {tr : List (Sys.StepRecord R)} {σ σ₀ σ' : Sys R}

/-! ## The parties -/

/-- The client's part of a run is a run of the client. -/
theorem client_projection (h : Trace (Sys.Step cfg net home) σ₀ tr σ) :
    ∃ ctr, Trace (Client.Step cfg) σ₀.client ctr σ.client := by
  refine h.invariant (P := fun _ σ => ∃ ctr, Trace (Client.Step cfg) σ₀.client ctr σ.client)
    ⟨[], .nil⟩ ?_
  rintro tr σ e outs σ' - ⟨ctr, hrun⟩ hs
  cases hs with
  | client _ hstep => exact ⟨_, hrun.snoc hstep⟩
  | clientRecv _ hstep => exact ⟨_, hrun.snoc hstep⟩
  | serverRecv => exact ⟨ctr, hrun⟩
  | other => exact ⟨ctr, hrun⟩
  | exitPacket => exact ⟨ctr, hrun⟩
  | loseUp => exact ⟨ctr, hrun⟩
  | loseDown => exact ⟨ctr, hrun⟩

/-- The server's part of a run is a run of the server. -/
theorem server_projection (h : Trace (Sys.Step cfg net home) σ₀ tr σ) :
    ∃ str, Trace (Server.Step net) σ₀.server str σ.server := by
  refine h.invariant (P := fun _ σ => ∃ str, Trace (Server.Step net) σ₀.server str σ.server)
    ⟨[], .nil⟩ ?_
  rintro tr σ e outs σ' - ⟨str, hrun⟩ hs
  cases hs with
  | client => exact ⟨str, hrun⟩
  | clientRecv => exact ⟨str, hrun⟩
  | serverRecv _ hstep => exact ⟨_, hrun.snoc hstep⟩
  | other _ _ hstep => exact ⟨_, hrun.snoc hstep⟩
  | exitPacket hstep => exact ⟨_, hrun.snoc hstep⟩
  | loseUp => exact ⟨str, hrun⟩
  | loseDown => exact ⟨str, hrun⟩

/-- What holds in every state that the whole reaches. -/
theorem agreed_run (hcfg : cfg₀.Admitted)
    (hinit : Client.mainInit cfg₀ ienv = some (some (cfg, c₀, fx₀)))
    (h0 : newServer net config device openDevice = .ok s₀) (hremote : remote ∈ home)
    (hrun : Trace (Sys.Step cfg net home) ⟨c₀, remote, s₀, [], []⟩ tr σ) :
    cfg.Admitted ∧ Agreed cfg net home tr σ := by
  obtain ⟨hadm, hinv₀⟩ := Client.inv_init hcfg hinit
  obtain ⟨hsinv, -, hlive⟩ := inv_newServer h0
  have hnew : c₀.state ≠ .established := by
    rcases Client.mainInit_state hcfg hinit with h | h <;> simp [h]
  have hstart : Agreed cfg net home [] (⟨c₀, remote, s₀, [], []⟩ : Sys R) := by
    refine ⟨hsinv, hinv₀.slots, hremote, fun h => absurd h hnew, by simp, by simp,
      fun h => absurd h hnew, ⟨?_, ?_⟩⟩
    · rintro k name ⟨x, hx, -⟩
      rw [show s₀.live = ∅ from hlive] at hx
      exact absurd hx (Set.notMem_empty x)
    · rintro k ⟨tr₁, r, tr₂, heq, -⟩
      simp at heq
  exact ⟨hadm, hrun.invariant hstart fun tr σ e outs σ' _ h hs => agreed_step hadm h hs⟩

/-! ## Losses and ticks -/

/-- What happens without anybody's help: ticks, deliveries and losses. -/
def Sys.Event.ordinary : Sys.Event R → Bool
  | .client (.tick _) | .clientRecv .. | .serverRecv _ | .lose => true
  | .client _ | .other .. | .exitPacket .. => false

/-- The whole can go from `σ` to `σ'` by ordinary events. -/
def Goes (cfg : Client.Config) (net : Net R) (home : Set R) (σ σ' : Sys R) : Prop :=
  ∃ tr, Trace (Sys.Step cfg net home) σ tr σ' ∧ ∀ r ∈ tr, r.ev.ordinary = true

theorem Goes.refl (σ : Sys R) : Goes cfg net home σ σ := ⟨[], .nil, by simp⟩

theorem Goes.step {σ₁ σ₂ : Sys R} {e : Sys.Event R} {outs : List (Out R)}
    (h : Goes cfg net home σ σ₁) (hs : Sys.Step cfg net home σ₁ e outs σ₂)
    (he : e.ordinary = true) : Goes cfg net home σ σ₂ := by
  obtain ⟨tr, hrun, hev⟩ := h
  refine ⟨_, hrun.snoc hs, fun r hr => ?_⟩
  rcases List.mem_append.mp hr with hr | hr
  · exact hev r hr
  · rw [List.mem_singleton.mp hr]
    exact he

theorem Goes.trans {σ₁ σ₂ : Sys R} (h : Goes cfg net home σ σ₁) (h' : Goes cfg net home σ₁ σ₂) :
    Goes cfg net home σ σ₂ := by
  obtain ⟨tr, hrun, hev⟩ := h
  obtain ⟨tr', hrun', hev'⟩ := h'
  exact ⟨tr ++ tr', hrun.append hrun', fun r hr =>
    (List.mem_append.mp hr).elim (hev r) (hev' r)⟩

/-- Every datagram to the client can be lost. -/
theorem lose_down (cfg : Client.Config) (net : Net R) (home : Set R) (σ : Sys R) :
    Goes cfg net home σ { σ with down := [] } := by
  generalize hdown : σ.down = down
  induction down generalizing σ with
  | nil =>
    rw [← hdown]
    exact .refl σ
  | cons q down ih =>
    have hlose : Sys.Step cfg net home σ .lose [] { σ with down := [] ++ down } :=
      .loseDown hdown
    exact ((Goes.refl σ).step hlose rfl).trans (ih { σ with down := down } rfl)

/-- Every datagram to the server can be lost. -/
theorem lose_up (cfg : Client.Config) (net : Net R) (home : Set R) (σ : Sys R) :
    Goes cfg net home σ { σ with up := [] } := by
  generalize hup : σ.up = up
  induction up generalizing σ with
  | nil =>
    rw [← hup]
    exact .refl σ
  | cons q up ih =>
    have hlose : Sys.Step cfg net home σ .lose [] { σ with up := [] ++ up } :=
      .loseUp hup
    exact ((Goes.refl σ).step hlose rfl).trans (ih { σ with up := up } rfl)

/-- Whatever the effects are, the network can take what they send. -/
theorem sends_exists {r : R} (hr : r ∈ home) (fx : List Client.Effect) :
    ∃ pkts, Sends home r fx r pkts := by
  induction fx with
  | nil => exact ⟨[], .nil r⟩
  | cons x fx ih =>
    obtain ⟨pkts, hsends⟩ := ih
    cases x with
    | sendto pkt addr port => exact ⟨_, .sendto pkt addr port hsends⟩
    | socket fd => exact ⟨_, .socket fd hr hsends⟩
    | tunWrite data => exact ⟨_, .other _ (by simp) (by simp) hsends⟩
    | tunSetIp ip mask => exact ⟨_, .other _ (by simp) (by simp) hsends⟩
    | tunSetMtu mtu => exact ⟨_, .other _ (by simp) (by simp) hsends⟩
    | tunClearIp => exact ⟨_, .other _ (by simp) (by simp) hsends⟩
    | runScript script args => exact ⟨_, .other _ (by simp) (by simp) hsends⟩
    | resolved ok => exact ⟨_, .other _ (by simp) (by simp) hsends⟩
    | reset => exact ⟨_, .other _ (by simp) (by simp) hsends⟩

/-- A tick of the client, after which everything in flight is lost. -/
theorem tick_lost (hremote : σ.remote ∈ home) {env : Client.Env} {fx : List Client.Effect}
    {c' : IwanClient} (hs : Client.Step cfg σ.client (.tick env) fx c') :
    Goes cfg net home σ { σ with client := c', up := [], down := [] } := by
  obtain ⟨pkts, hsends⟩ := sends_exists hremote fx
  have hstep : Sys.Step cfg net home σ (.client (.tick env)) []
      { σ with client := c', remote := σ.remote, up := σ.up ++ pkts } :=
    .client (by simp) hs hsends
  exact (((Goes.refl σ).step hstep rfl).trans (lose_down cfg net home _)).trans
    (lose_up cfg net home _)

/-- **Back to the start.** Ticks alone take the client to IP_READY. -/
theorem goes_ready (hcfg : cfg.Admitted) (hremote : σ.remote ∈ home)
    (hok : Client.SlotsOk σ.client.frags) (hready : σ.client.state ≠ .notReady) :
    ∃ c', Goes cfg net home σ { σ with client := c', up := [], down := [] } ∧
      c'.state = .ipReady := by
  generalize hrank : σ.client.state.rank = n
  induction n using Nat.strong_induction_on generalizing σ with
  | _ n ih =>
    by_cases hst : σ.client.state = .ipReady
    · exact ⟨σ.client, (lose_down cfg net home σ).trans (lose_up cfg net home _), hst⟩
    -- a tick with a socket and a resolver, after the timeout of a session
    obtain ⟨now, hto⟩ : ∃ now, now - σ.client.lastRecvTime > Client.dataTimeout :=
      ⟨σ.client.lastRecvTime + 16, by rw [add_sub_cancel_left]; decide⟩
    obtain ⟨c₁, fx, hs, hok₁, -⟩ := Client.step_move hcfg hok (.tick (Client.dnsEnv now))
    rcases Client.tick_lowers hcfg hready (.inr (show (0 : Int) ≤ 3 by decide))
      (by simp [Client.dnsEnv]) (fun h => absurd h hst) (fun _ => hto) hs with
      ⟨hip, -⟩ | ⟨hlower, hidle⟩
    · exact absurd hip hst
    · obtain ⟨c', hgoes, hip⟩ := @ih c₁.state.rank (hrank ▸ hlower)
        { σ with client := c₁, up := [], down := [] } hremote hok₁
        (by rcases hidle with h | h <;> simp [h]) rfl
      exact ⟨c', (tick_lost hremote hs).trans hgoes, hip⟩

/-! ## Reconnecting -/

/-- A tick in IP_READY sends the OPEN, from an open socket. -/
theorem tick_open (hcfg : cfg.Admitted) {c : IwanClient} (hst : c.state = .ipReady) {r : R}
    (hr : r ∈ home) :
    ∃ fx c', Client.Step cfg c (.tick (Client.dnsEnv 100)) fx c' ∧
      Sends home r fx r [(r, Client.openPkt cfg)] ∧ c'.state = .authSent ∧ 0 ≤ c'.udpFd := by
  have hsock : 0 ≤ c.udpFd ∨ 0 ≤ (Client.dnsEnv 100).tickSocket := .inr (by decide)
  obtain ⟨d, fxs, hfd, hstate, -, hfxs, hstep⟩ := Client.step_tick_socket cfg hsock
  have hopen := Client.step_open (Client.dnsEnv 100) hcfg (hstate.trans hst) hfd
    (show (2 : UInt32) ≤ 100 by decide)
  refine ⟨fxs ++ [Client.sendToServer (Client.startAuth cfg (Client.dnsEnv 100) d)
      (Client.openPkt cfg)],
    { Client.startAuth cfg (Client.dnsEnv 100) d with lastOpenTime := (Client.dnsEnv 100).secs },
    ?_, ?_, rfl, hfd⟩
  · unfold Client.Step
    rw [hstep, hopen]
    rfl
  · rcases hfxs with rfl | ⟨fd, rfl⟩
    · exact .sendto _ _ _ (.nil r)
    · exact .socket fd hr (.sendto _ _ _ (.nil r))

/-- A client in IP_READY gets a session if nothing is lost. -/
theorem goes_established (hcfg : cfg.Admitted) {s : Server R} (hinv : Server.Inv net s)
    {user : ConfiguredUser} (huser : s.config.users.lookup cfg.user = some user)
    (hpass : padded cfg.pass = padded user.password) {r : R} (hr : r ∈ home) {c : IwanClient}
    (hst : c.state = .ipReady) :
    ∃ σ', Goes cfg net home ⟨c, r, s, [], []⟩ σ' ∧ σ'.client.state = .established ∧
      (σ'.server.sessions.lookup (σ'.key net)).isSome = true := by
  obtain ⟨fx, c₁, hopen, hsends, hauth, hfd⟩ := tick_open hcfg hst hr
  obtain ⟨s', mtu, a, ds, enc, hne, hserver, hinv', -, ⟨x, hx, hkey⟩, -⟩ :=
    step_openPkt_ack hcfg hinv huser hpass (newSessionIDs_calmEnv 0) r
  obtain ⟨fx', c₂, hrecv, hquiet, hest, htok, hid⟩ := step_openAck home cfg hauth hfd 101 r
    hne (Vector.replicate 2 0) (Vector.replicate 4 0) mtu ds enc
  have h₁ : Sys.Step cfg net home ⟨c, r, s, [], []⟩ (.client (.tick (Client.dnsEnv 100))) []
      ⟨c₁, r, s, [(r, Client.openPkt cfg)], []⟩ := .client (by simp) hopen hsends
  have h₂ : Sys.Step cfg net home ⟨c₁, r, s, [(r, Client.openPkt cfg)], []⟩
      (.serverRecv (calmEnv 0)) _ _ := .serverRecv rfl hserver
  have hgoes := (((Goes.refl _).step h₁ rfl).step h₂ rfl).step (.clientRecv rfl hrecv hquiet) rfl
  refine ⟨_, hgoes, hest, ?_⟩
  refine (owns_iff hinv'.linked _).mp ⟨_, x, hx, ?_, rfl⟩
  rw [hkey, Sys.key, htok, hid]

/-- Without a `sendto` nothing leaves the socket. -/
theorem Sends.eq_nil {r r' : R} {fx : List Client.Effect} {pkts : List (R × Bytes)}
    (h : Sends home r fx r' pkts) (hno : ∀ pkt addr port, .sendto pkt addr port ∉ fx) : pkts = [] := by
  refine List.eq_nil_iff_forall_not_mem.mpr fun q hq => ?_
  obtain ⟨addr, port, hmem⟩ := h.mem_effects q hq
  exact hno _ _ _ hmem

/-- A CLOSE is not answered. -/
theorem close_silent {s s' : Server R} {env : Server.Env} {r : R} {pkt : Bytes} {outs : List (Out R)}
    (h : Server.Inv net s) (htyp : Wire.typ pkt = packetClose)
    (hs : Server.Step net s (.packet env r pkt) outs s') : outs = [] := by
  obtain ⟨-, err, ho⟩ := hs.packet_outcome h
  cases ho with
  | ignored => rfl
  | noIds => rfl
  | closed => rfl
  | dropped => rfl
  | rejected htyp' =>
    rw [htyp] at htyp'
    cases htyp'
  | opened request user token sessionID _ _ hparse =>
    have htyp' : Wire.typ pkt = packetOpen := (parseOpenPacket_ok hparse).2.1
    rw [htyp] at htyp'
    cases htyp'
  | echoed _ _ _ _ htyp' =>
    rw [htyp] at htyp'
    cases htyp'
  | relayed _ _ _ hx =>
    have htyp' := hx.typ
    rw [htyp] at htyp'
    split_ifs at htyp' <;> cases htyp'
  | exited _ _ hx =>
    have htyp' := hx.typ
    rw [htyp] at htyp'
    split_ifs at htyp' <;> cases htyp'
  | bounced _ _ hx =>
    have htyp' := hx.typ
    rw [htyp] at htyp'
    split_ifs at htyp' <;> cases htyp'

/-- The server handles a signed CLOSE. -/
theorem close_owns {s s' : Server R} {env : Server.Env} {r : R} {pkt : Bytes} {outs : List (Out R)}
    (h : Server.Inv net s) (htyp : Wire.typ pkt = packetClose) (hsig : Wire.Signed pkt)
    (hs : Server.Step net s (.packet env r pkt) outs s') (k : SessionKey) (name : Bytes) :
    Owns s' k name ↔ Owns s k name ∧ k ≠ packetKey net r pkt := by
  cases packet_change h hs with
  | opened request ack hparse =>
    have htyp' : Wire.typ pkt = packetOpen := (parseOpenPacket_ok hparse).2.1
    rw [htyp] at htyp'
    cases htyp'
  | closed _ _ _ howns => exact howns k name
  | kept _ hclose howns =>
    rw [howns k name]
    refine ⟨fun hk => ⟨hk, fun heq => ?_⟩, And.left⟩
    subst heq
    exact hclose htyp hsig name hk

/-- The CLOSE that the client sends at its shutdown. -/
def Sys.lastClose (σ : Sys R) : Bytes :=
  Wire.signedHeader Client.pktClose 0 σ.client.sessionToken σ.client.sessionId

theorem lastClose_spec (net : Net R) (σ : Sys R) :
    Wire.typ σ.lastClose = packetClose ∧ Wire.Signed σ.lastClose ∧
      packetKey net σ.remote σ.lastClose = σ.key net := by
  have heq : σ.lastClose = σ.lastClose ++ [] := (List.append_nil _).symm
  rw [heq]
  unfold Sys.lastClose
  refine ⟨rfl, Wire.signed_signedHeader _ _ _ _ _, ?_⟩
  rw [packetKey, Wire.signedHeader_token, Wire.signedHeader_sessionId]
  rfl

/-- What leaves the socket of an established client at its shutdown. -/
theorem cleanup_sends (hest : σ.client.state = .established) (hfd : 0 ≤ σ.client.udpFd)
    (down : Client.Env) :
    ∃ fx, Client.cleanup cfg down σ.client = some fx ∧
      ∀ r' pkts, Sends home σ.remote fx r' pkts → pkts = [(σ.remote, σ.lastClose)] := by
  have hclose : Client.sendClose σ.client =
      some [Client.sendToServer σ.client σ.lastClose] := by
    rw [Client.sendClose_eq, Client.closeEffects, if_neg (by simp [hest]; omega)]
    rfl
  refine ⟨[Client.sendToServer σ.client σ.lastClose] ++
    Client.runScript cfg down cfg.downScript .down σ.client, ?_, ?_⟩
  · rw [Client.cleanup, if_pos hest, hclose]
    rfl
  · intro r' pkts hsends
    cases hsends with
    | sendto pkt addr port hrest =>
      rw [hrest.eq_nil fun pkt addr port => ?_]
      obtain hnil | ⟨args, -, hone⟩ :=
        Client.runScript_cases cfg down cfg.downScript .down σ.client
      · simp [hnil]
      · simp [hone]
    | other _ hno => exact absurd rfl (hno _ _ _)

/-- **Shutting down.** In every state that the whole reaches, an established client
    that shuts down sends one datagram, the CLOSE of its session. Whenever the
    server handles it, it removes exactly this session and answers nothing; if the
    session is the last one that the server opened for the client, no session of
    its user is left. -/
theorem shutdown_closes (hcfg : cfg₀.Admitted)
    (hinit : Client.mainInit cfg₀ ienv = some (some (cfg, c₀, fx₀)))
    (h0 : newServer net config device openDevice = .ok s₀) (hremote : remote ∈ home)
    (hrun : Trace (Sys.Step cfg net home) ⟨c₀, remote, s₀, [], []⟩ tr σ)
    (hest : σ.client.state = .established) (down : Client.Env) :
    (∃ fx, Client.cleanup cfg down σ.client = some fx ∧
      ∀ r' pkts, Sends home σ.remote fx r' pkts → pkts = [(σ.remote, σ.lastClose)]) ∧
    (∀ s env outs s', Server.Inv net s →
      Server.Step net s (.packet env σ.remote σ.lastClose) outs s' → outs = [] ∧
        ∀ k name, Owns s' k name ↔ Owns s k name ∧ k ≠ σ.key net) ∧
    ∀ env outs s', Server.Step net σ.server (.packet env σ.remote σ.lastClose) outs s' →
      Current net tr (σ.key net) → ∀ k, ¬ Owns s' k cfg.user := by
  obtain ⟨-, hagreed⟩ := agreed_run hcfg hinit h0 hremote hrun
  obtain ⟨htyp, hsig, hkey⟩ := lastClose_spec net σ
  have hremoves : ∀ s env outs s', Server.Inv net s →
      Server.Step net s (.packet env σ.remote σ.lastClose) outs s' → outs = [] ∧
        ∀ k name, Owns s' k name ↔ Owns s k name ∧ k ≠ σ.key net := by
    intro s env outs s' hinv hs
    refine ⟨close_silent hinv htyp hs, fun k name => ?_⟩
    rw [close_owns hinv htyp hsig hs, hkey]
  refine ⟨cleanup_sends hest (hagreed.socket hest) down, hremoves, ?_⟩
  intro env outs s' hs hcur k hk
  obtain ⟨hk, hne⟩ := ((hremoves σ.server env outs s' hagreed.inv hs).2 k cfg.user).mp hk
  -- the user has one session
  obtain ⟨x, hx, rfl, hxname⟩ := hk
  obtain ⟨y, hy, hykey, hyname⟩ := (hagreed.ledger.current _ hcur).1
  have hsame := hagreed.inv.oneUser x hx y hy (hxname.trans hyname.symm)
  exact hne (hsame ▸ hykey)

end

/-- `alice` shuts down in the session of her first OPEN. -/
theorem alice_shuts_down : ∃ cfg c₀ fx₀ s₀ tr σ,
    Client.mainInit (aliceConfig alice.password) ⟨4, none, 3⟩ = some (some (cfg, c₀, fx₀)) ∧
      newServer exampleNet (exampleConfig false) false (.ok ()) = .ok s₀ ∧
      Trace (Sys.Step cfg exampleNet {alice.address}) ⟨c₀, alice.address, s₀, [], []⟩ tr σ ∧
      Current exampleNet tr (σ.key exampleNet) ∧
      ∃ s', Server.Step exampleNet σ.server (.packet (calmEnv 5) σ.remote σ.lastClose) [] s' ∧
        ∀ k, ¬ Owns s' k cfg.user := by
  obtain ⟨cfg, c₀, fx₀, hinit, hcfg, hadm, huser, hpass, hst, -⟩ := alice_starts
  obtain ⟨s₀, h0, hinv, -⟩ := example_newServer false
  obtain ⟨halice, hpass'⟩ := alice_known huser hpass h0
  have hhome : alice.address ∈ ({alice.address} : Set Bytes) := Set.mem_singleton _
  obtain ⟨σ, ⟨tr, hrun, -⟩, hest, hlive⟩ := goes_established hadm hinv halice hpass' hhome hst
  obtain ⟨-, hagreed⟩ := agreed_run hcfg hinit h0 hhome hrun
  obtain ⟨name, howns⟩ := (owns_iff hagreed.inv.linked _).mpr hlive
  have hcur : Current exampleNet tr (σ.key exampleNet) :=
    (hagreed.ledger.owned _ _ howns (.inr ⟨σ.remote, hagreed.remote, rfl⟩)).2.2
  obtain ⟨r, hr, -⟩ := step_total hagreed.inv (.packet (calmEnv 5) σ.remote σ.lastClose)
  have hs : Server.Step exampleNet σ.server (.packet (calmEnv 5) σ.remote σ.lastClose)
      r.outs r.server := ⟨r.err, hr⟩
  obtain ⟨-, hcloses, hlast⟩ := shutdown_closes hcfg hinit h0 hhome hrun hest (Client.calmEnv 5)
  have hsilent : r.outs = [] := (hcloses _ _ _ _ hagreed.inv hs).1
  exact ⟨cfg, c₀, fx₀, s₀, tr, σ, hinit, h0, hrun, hcur, r.server, hsilent ▸ hs,
    hlast _ _ _ hs hcur⟩

end Iwand.EndToEnd
