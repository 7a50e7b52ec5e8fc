import Iwand.EndToEnd.OpenAck
import Iwand.Server.Isolation

/-!
# The handshake over a network

One client, one server and the datagrams between them, in one queue for each
direction. A datagram may be delayed or lost. The server may hear other parties,
which use neither an address of the client nor its user name. A new socket may
have another address.

A repeated OPEN makes the server replace the session it has just opened, while
the client keeps the session of the first OPENACK that reaches it.

* `packet_change`: what one packet does to the sessions, as keys and user names.
* `handshake_agreement`: an established client has a session that the server
  opened for it, and this session is live exactly as long as the server has
  opened no other one for the client and handled no CLOSE of it.
-/

namespace Iwand.EndToEnd

open Server
open Client (IwanClient)

/-! ## Sessions as keys and user names -/

section

variable {R : Type} {net : Net R} {env : Server.Env} {s s' : Server R} {remote : R} {pkt : Bytes}
  {outs : List (Out R)}

/-- There is a live session of the user under the key. -/
def Owns (s : Server R) (k : SessionKey) (name : Bytes) : Prop :=
  ∃ x ∈ s.live, x.key = k ∧ x.user.username = name

/-- What the datagram `pkt` from `remote` does to the sessions. -/
inductive Change (net : Net R) (s s' : Server R) (remote : R) (pkt : Bytes) (outs : List (Out R)) : Prop
  /-- An OPEN replaces the sessions of its remote and of its user by one, and is
      answered with the OPENACK for it. -/
  | opened (request : OpenRequest) (ack : Bytes) (hparse : parseOpenPacket pkt = .ok request)
      (houts : outs = [.udp ack remote]) (htyp : Wire.typ ack = packetOpenAck)
      (howns : ∀ k name, Owns s' k name ↔ k = packetKey net remote ack ∧ name = request.username ∨
        Owns s k name ∧ k.remote ≠ net.remoteString remote ∧ name ≠ request.username)
  /-- A CLOSE removes the session whose key it bears. -/
  | closed (htyp : Wire.typ pkt = packetClose) (hsig : Wire.Signed pkt) (houts : outs = [])
      (howns : ∀ k name, Owns s' k name ↔ Owns s k name ∧ k ≠ packetKey net remote pkt)
  /-- Anything else leaves the sessions alone. -/
  | kept (hacks : ∀ ack dest, .udp ack dest ∈ outs → Wire.typ ack ≠ packetOpenAck)
      (hclose : Wire.typ pkt = packetClose → Wire.Signed pkt →
        ∀ name, ¬ Owns s (packetKey net remote pkt) name)
      (howns : ∀ k name, Owns s' k name ↔ Owns s k name)

theorem owns_renewed {key k : SessionKey} {now : ℕ} {name : Bytes} (h : Renewed net s key now s') :
    Owns s' k name ↔ Owns s k name := by
  constructor
  · rintro ⟨y, hy, hk, hname⟩
    obtain ⟨z, hz, rfl⟩ := (h.live y).mp hy
    exact ⟨z, hz, by simpa using hk, by simpa using hname⟩
  · rintro ⟨z, hz, hk, hname⟩
    exact ⟨_, (h.live _).mpr ⟨z, hz, rfl⟩, by simpa using hk, by simpa using hname⟩

theorem typ_dataFor (y : Session R) (payload : Bytes) :
    Wire.typ (dataFor y payload) ≠ packetOpenAck := by
  rcases isData_dataFor y payload with h | h <;> rw [h] <;> decide

/-- **One packet.** -/
theorem packet_change (h : Server.Inv net s)
    (hs : Server.Step net s (.packet env remote pkt) outs s') :
    Change net s s' remote pkt outs := by
  by_cases hclose : Wire.typ pkt = packetClose ∧ Wire.Signed pkt ∧
      ∃ name, Owns s (packetKey net remote pkt) name
  · obtain ⟨htyp, hsig, -, x, hx, hkey, -⟩ := hclose
    obtain ⟨s₁, hs₁, -, hlive⟩ := handlePacket_removes env h hx hkey htyp hsig
    obtain ⟨err, hs⟩ := hs
    cases hs₁.symm.trans hs
    refine .closed htyp hsig rfl fun k name => ?_
    simp only [Owns, hlive, hkey]
    constructor
    · rintro ⟨y, ⟨hy, hne⟩, rfl, rfl⟩
      exact ⟨⟨y, hy, rfl, rfl⟩, hne⟩
    · rintro ⟨⟨y, hy, rfl, rfl⟩, hne⟩
      exact ⟨y, ⟨hy, hne⟩, rfl, rfl⟩
  have hno : Wire.typ pkt = packetClose → Wire.Signed pkt →
      ∀ name, ¬ Owns s (packetKey net remote pkt) name :=
    fun htyp hsig name howns => hclose ⟨htyp, hsig, name, howns⟩
  obtain ⟨-, err, ho⟩ := hs.packet_outcome h
  cases ho with
  | ignored => exact .kept (by simp) hno fun _ _ => Iff.rfl
  | rejected =>
    refine .kept (fun ack dest hmem => ?_) hno fun _ _ => Iff.rfl
    cases List.mem_singleton.mp hmem
    decide
  | noIds => exact .kept (by simp) hno fun _ _ => Iff.rfl
  | opened request user token sessionID _ ack hparse huser hpass hids hack hconfig hlive =>
    obtain ⟨htyp, htok, hid⟩ := ack_header h.config huser hack
    have hname : user.username = request.username := h.config.username _ _ huser
    refine .opened request ack hparse rfl htyp fun k name => ?_
    simp only [Owns, hlive, packetKey, htok, hid, Replaced, not_or, hname]
    constructor
    · rintro ⟨y, rfl | ⟨hy, hrem, hne⟩, rfl, rfl⟩
      · exact .inl ⟨rfl, hname⟩
      · exact .inr ⟨⟨y, hy, rfl, rfl⟩, hrem, hne⟩
    · rintro (⟨rfl, rfl⟩ | ⟨⟨y, hy, rfl, rfl⟩, hrem, hne⟩)
      · exact ⟨_, .inl rfl, rfl, hname⟩
      · exact ⟨y, .inr ⟨hy, hrem, hne⟩, rfl, rfl⟩
  | closed x _ hx hkey htyp hsig => exact absurd ⟨x, hx, hkey, rfl⟩ (hno htyp hsig _)
  | echoed x _ hx hkey htyp hsig hren =>
    refine .kept (fun ack dest hmem => ?_) hno fun _ _ => owns_renewed hren
    cases List.mem_singleton.mp hmem
    rw [Wire.signedHeader_typ]
    decide
  | dropped x _ hx hkey htyp hren => exact .kept (by simp) hno fun _ _ => owns_renewed hren
  | relayed x y _ hx hren =>
    refine .kept (fun ack dest hmem => ?_) hno fun _ _ => owns_renewed hren
    cases List.mem_singleton.mp hmem
    exact typ_dataFor y _
  | exited x _ hx hren => exact .kept (by simp) hno fun _ _ => owns_renewed hren
  | bounced x _ hx hren =>
    refine .kept (fun ack dest hmem => ?_) hno fun _ _ => owns_renewed hren
    cases List.mem_singleton.mp hmem
    exact typ_dataFor x _

/-- A packet from the exit device opens and closes nothing. -/
theorem exit_change {data : Bytes} (h : Server.Inv net s)
    (hs : Server.Step net s (.exitPacket env data) outs s') :
    s' = s ∧ ∀ ack dest, .udp ack dest ∈ outs → Wire.typ ack ≠ packetOpenAck := by
  obtain ⟨-, err, ho⟩ := hs.exit_outcome h
  cases ho with
  | ignored => exact ⟨rfl, by simp⟩
  | demuxed y =>
    refine ⟨rfl, fun ack dest hmem => ?_⟩
    cases List.mem_singleton.mp hmem
    exact typ_dataFor y _

end

/-! ## The network -/

/-- A client, a server and the datagrams in flight, oldest first: to the server
    with the address they come from, from the server with the address they go
    to. -/
structure Sys (R : Type) where
  client : IwanClient
  /-- The address of the client's socket. -/
  remote : R
  server : Server R
  up : List (R × Bytes)
  down : List (R × Bytes)

/-- What the network and the parties can do. -/
inductive Sys.Event (R : Type) where
  /-- A tick, bytes from the TUN or SIGUSR1. -/
  | client (e : Client.Event)
  /-- The oldest datagram to the client arrives. -/
  | clientRecv (env : Client.Env) (addr : Vector UInt8 4) (port : UInt16)
  /-- The oldest datagram to the server arrives. -/
  | serverRecv (env : Server.Env)
  /-- A datagram of another party. -/
  | other (env : Server.Env) (remote : R) (data : Bytes)
  /-- A packet from the exit device. -/
  | exitPacket (env : Server.Env) (data : Bytes)
  /-- A datagram does not arrive, or goes to another party. -/
  | lose

/-- What leaves the client's socket when the effects happen one after the other,
    and the address of the socket at the end: a new socket has any of the addresses
    `home`. -/
inductive Sends {R : Type} (home : Set R) : R → List Client.Effect → R → List (R × Bytes) → Prop
  | nil (r : R) : Sends home r [] r []
  | sendto {r r' : R} {fx : List Client.Effect} {pkts : List (R × Bytes)} (pkt : Bytes)
      (addr : Vector UInt8 4) (port : UInt16) :
      Sends home r fx r' pkts → Sends home r (.sendto pkt addr port :: fx) r' ((r, pkt) :: pkts)
  | socket {r r₁ r' : R} {fx : List Client.Effect} {pkts : List (R × Bytes)} (fd : Int) :
      r₁ ∈ home → Sends home r₁ fx r' pkts → Sends home r (.socket fd :: fx) r' pkts
  | other {r r' : R} {fx : List Client.Effect} {pkts : List (R × Bytes)} (x : Client.Effect) :
      (∀ pkt addr port, x ≠ .sendto pkt addr port) → (∀ fd, x ≠ .socket fd) →
      Sends home r fx r' pkts → Sends home r (x :: fx) r' pkts

/-- The datagrams among what the server writes. -/
def datagrams {R : Type} (outs : List (Out R)) : List (R × Bytes) :=
  outs.filterMap fun
    | .udp pkt remote => some (remote, pkt)
    | .exit _ => none

/-- One step of the whole. Its outputs are what the server writes. -/
inductive Sys.Step {R : Type} (cfg : Client.Config) (net : Net R) (home : Set R) :
    Sys R → Sys.Event R → List (Out R) → Sys R → Prop
  | client {σ : Sys R} {e : Client.Event} {fx : List Client.Effect} {c' : IwanClient} {r' : R}
      {pkts : List (R × Bytes)} (hlocal : ∀ env addr port data, e ≠ .datagram env addr port data)
      (hstep : Client.Step cfg σ.client e fx c') (hsends : Sends home σ.remote fx r' pkts) :
      Sys.Step cfg net home σ (.client e) []
        { σ with client := c', remote := r', up := σ.up ++ pkts }
  | clientRecv {σ : Sys R} {env : Client.Env} {addr : Vector UInt8 4} {port : UInt16} {pkt : Bytes}
      {rest : List (R × Bytes)} {fx : List Client.Effect} {c' : IwanClient} {r' : R}
      {pkts : List (R × Bytes)} (hdown : σ.down = (σ.remote, pkt) :: rest)
      (hstep : Client.Step cfg σ.client (.datagram env addr port pkt) fx c')
      (hsends : Sends home σ.remote fx r' pkts) :
      Sys.Step cfg net home σ (.clientRecv env addr port) []
        { σ with client := c', remote := r', up := σ.up ++ pkts, down := rest }
  | serverRecv {σ : Sys R} {env : Server.Env} {r : R} {pkt : Bytes} {rest : List (R × Bytes)}
      {outs : List (Out R)} {s' : Server R} (hup : σ.up = (r, pkt) :: rest)
      (hstep : Server.Step net σ.server (.packet env r pkt) outs s') :
      Sys.Step cfg net home σ (.serverRecv env) outs
        { σ with server := s', up := rest, down := σ.down ++ datagrams outs }
  | other {σ : Sys R} {env : Server.Env} {r : R} {pkt : Bytes} {outs : List (Out R)} {s' : Server R}
      (haddr : ∀ h ∈ home, net.remoteString r ≠ net.remoteString h)
      (hname : ∀ request, parseOpenPacket pkt = .ok request → request.username ≠ cfg.user)
      (hstep : Server.Step net σ.server (.packet env r pkt) outs s') :
      Sys.Step cfg net home σ (.other env r pkt) outs
        { σ with server := s', down := σ.down ++ datagrams outs }
  | exitPacket {σ : Sys R} {env : Server.Env} {data : Bytes} {outs : List (Out R)} {s' : Server R}
      (hstep : Server.Step net σ.server (.exitPacket env data) outs s') :
      Sys.Step cfg net home σ (.exitPacket env data) outs
        { σ with server := s', down := σ.down ++ datagrams outs }
  | loseUp {σ : Sys R} {q : R × Bytes} {before after : List (R × Bytes)}
      (hup : σ.up = before ++ q :: after) :
      Sys.Step cfg net home σ .lose [] { σ with up := before ++ after }
  | loseDown {σ : Sys R} {q : R × Bytes} {before after : List (R × Bytes)}
      (hdown : σ.down = before ++ q :: after) :
      Sys.Step cfg net home σ .lose [] { σ with down := before ++ after }

/-- One step of a run. -/
abbrev Sys.StepRecord (R : Type) := Record (Sys R) (Sys.Event R) (Out R)

/-! ## Histories -/

section

variable {R : Type}

/-- The keys of the sessions that the server opens for the client in the step: its
    OPENACKs in answer to a datagram of the client. -/
def opened (net : Net R) (r : Sys.StepRecord R) : List SessionKey :=
  match r.ev with
  | .serverRecv _ => (datagrams r.outs).filterMap fun q =>
      if Wire.typ q.2 = packetOpenAck then some (packetKey net q.1 q.2) else none
  | _ => []

/-- In the step the server handles a CLOSE of the client for the session. -/
def Closes (net : Net R) (k : SessionKey) (r : Sys.StepRecord R) : Prop :=
  ∃ env remote pkt rest, r.ev = .serverRecv env ∧ r.pre.up = (remote, pkt) :: rest ∧
    Wire.typ pkt = packetClose ∧ Wire.Signed pkt ∧ packetKey net remote pkt = k

/-- The server opened the session for the client. -/
def Opened (net : Net R) (tr : List (Sys.StepRecord R)) (k : SessionKey) : Prop :=
  ∃ r ∈ tr, k ∈ opened net r

/-- It is the last session that the server opened for the client, and the server
    has handled no CLOSE of it since. -/
def Current (net : Net R) (tr : List (Sys.StepRecord R)) (k : SessionKey) : Prop :=
  ∃ tr₁ r tr₂, tr = tr₁ ++ r :: tr₂ ∧ k ∈ opened net r ∧
    ∀ q ∈ tr₂, opened net q = [] ∧ ¬ Closes net k q

variable {net : Net R} {tr : List (Sys.StepRecord R)} {r : Sys.StepRecord R} {k : SessionKey}

theorem Opened.snoc (h : Opened net tr k) (r : Sys.StepRecord R) : Opened net (tr ++ [r]) k := by
  obtain ⟨q, hq, hk⟩ := h
  exact ⟨q, List.mem_append_left _ hq, hk⟩

theorem current_snoc : Current net (tr ++ [r]) k ↔
    k ∈ opened net r ∨ Current net tr k ∧ opened net r = [] ∧ ¬ Closes net k r := by
  constructor
  · rintro ⟨tr₁, q, tr₂, heq, hk, hafter⟩
    rcases snoc_eq_append_cons heq with ⟨-, -, rfl⟩ | ⟨tr₃, rfl, htr⟩
    · exact .inl hk
    · refine .inr ⟨⟨tr₁, q, tr₃, htr, hk, fun p hp => hafter p (by simp [hp])⟩, hafter r (by simp)⟩
  · rintro (hk | ⟨⟨tr₁, q, tr₂, rfl, hk, hafter⟩, hr⟩)
    · exact ⟨tr, r, [], rfl, hk, by simp⟩
    · refine ⟨tr₁, q, tr₂ ++ [r], by simp, hk, fun p hp => ?_⟩
      rcases List.mem_append.mp hp with hp | hp
      · exact hafter p hp
      · rwa [List.mem_singleton.mp hp]

/-- A step in which the server does not hear the client changes no history. -/
theorem current_silent (hev : ∀ env, r.ev ≠ .serverRecv env) :
    Current net (tr ++ [r]) k ↔ Current net tr k := by
  have hnil : opened net r = [] := by
    unfold opened
    split
    next env hr => exact absurd hr (hev env)
    next => rfl
  have hclose : ¬ Closes net k r := by
    rintro ⟨env, -, -, -, hr, -⟩
    exact hev env hr
  rw [current_snoc, hnil]
  simp [hclose]

end

/-! ## The client -/

section

variable {R : Type} {home : Set R} {r r' : R} {fx : List Client.Effect} {pkts : List (R × Bytes)}
  {cfg : Client.Config} {c c' : IwanClient} {e : Client.Event}

theorem Sends.mem_home (h : Sends home r fx r' pkts) (hr : r ∈ home) :
    r' ∈ home ∧ ∀ q ∈ pkts, q.1 ∈ home := by
  induction h with
  | nil => exact ⟨hr, by simp⟩
  | sendto pkt addr port _ ih =>
    obtain ⟨hr', hq⟩ := ih hr
    exact ⟨hr', by simpa [hr] using hq⟩
  | socket fd hr₁ _ ih => exact ih hr₁
  | other x _ _ _ ih => exact ih hr

theorem Sends.mem_effects (h : Sends home r fx r' pkts) :
    ∀ q ∈ pkts, ∃ addr port, .sendto q.2 addr port ∈ fx := by
  induction h with
  | nil => simp
  | sendto pkt addr port _ ih =>
    intro q hq
    rcases List.mem_cons.mp hq with rfl | hq
    · exact ⟨addr, port, by simp⟩
    · obtain ⟨a, p, hmem⟩ := ih q hq
      exact ⟨a, p, List.mem_cons_of_mem _ hmem⟩
  | socket fd _ _ ih =>
    intro q hq
    obtain ⟨a, p, hmem⟩ := ih q hq
    exact ⟨a, p, List.mem_cons_of_mem _ hmem⟩
  | other x _ _ _ ih =>
    intro q hq
    obtain ⟨a, p, hmem⟩ := ih q hq
    exact ⟨a, p, List.mem_cons_of_mem _ hmem⟩

/-- Without a new socket the address stays. -/
theorem Sends.remote_eq (h : Sends home r fx r' pkts) (hno : ∀ fd, .socket fd ∉ fx) : r' = r := by
  induction h with
  | nil => rfl
  | sendto pkt addr port _ ih => exact ih fun fd hmem => hno fd (List.mem_cons_of_mem _ hmem)
  | socket fd => exact absurd (List.mem_cons_self) (hno fd)
  | other x _ _ _ ih => exact ih fun fd hmem => hno fd (List.mem_cons_of_mem _ hmem)

/-- The only OPEN that the client sends is its own. -/
def FromClient (cfg : Client.Config) (pkt : Bytes) : Prop :=
  Wire.typ pkt = packetOpen → pkt = Client.openPkt cfg

theorem fromClient_emitted {pkt : Bytes} {addr : Vector UInt8 4} {port : UInt16}
    (h : Client.Emits cfg c (.sendto pkt addr port)) : FromClient cfg pkt := by
  cases h with
  | attempt => exact fun _ => rfl
  | session typ flag payload hs htyp =>
    intro hopen
    rw [Wire.header_typ] at hopen
    rcases htyp with rfl | rfl | rfl | rfl <;> exact absurd hopen (by decide)
  | other _ hsend => exact absurd rfl (hsend pkt addr port)

/-- What the client sends in a step. -/
theorem sends_fromClient (hcfg : cfg.Admitted) (hm : Client.Move cfg c e fx c')
    (hsends : Sends home r fx r' pkts) (hr : r ∈ home) :
    ∀ q ∈ pkts, q.1 ∈ home ∧ FromClient cfg q.2 := by
  intro q hq
  obtain ⟨addr, port, hmem⟩ := hsends.mem_effects q hq
  exact ⟨(hsends.mem_home hr).2 q hq, fromClient_emitted (hm.emits hcfg _ hmem)⟩

theorem socket_notMem_runScript (env : Client.Env) (script : Vector UInt8 256) (ev : Client.Hook)
    (c : IwanClient) (fd : Int) : .socket fd ∉ Client.runScript cfg env script ev c := by
  obtain hnil | ⟨args, -, hone⟩ := Client.runScript_cases cfg env script ev c
  · simp [hnil]
  · simp [hone]

/-- An established client keeps its socket and its session, or has just received
    the OPENACK with its session. -/
theorem established_step (hm : Client.Move cfg c e fx c')
    (hfd : c.state = .established → 0 ≤ c.udpFd) (hest : c'.state = .established) :
    0 ≤ c'.udpFd ∧ (∀ fd, .socket fd ∉ fx) ∧
      (c.state = .established ∧ c'.sessionToken = c.sessionToken ∧ c'.sessionId = c.sessionId ∨
        ∃ env addr port data, e = .datagram env addr port data ∧
          Wire.typ (data.take 2048) = packetOpenAck ∧
          c'.sessionToken = Wire.token (data.take 2048) ∧
          c'.sessionId = Wire.sessionId (data.take 2048)) := by
  by_cases hs : c.state = .established
  · obtain ⟨hsock, htok, hid, hno⟩ := hm.stays hs (hfd hs) hest
    exact ⟨hsock ▸ hfd hs, hno, .inl ⟨hs, htok, hid⟩⟩
  · -- the OPENACK has just arrived
    obtain ⟨-, hopen, env, data, p, rfl, htyp, -, rfl, -, rfl, rfl⟩ := hm.began hs hest
    refine ⟨hopen, fun fd hmem => ?_, .inr ⟨env, _, _, data, rfl, htyp, rfl, rfl⟩⟩
    rcases List.mem_append.mp hmem with hmem | hmem
    · simp at hmem
    · exact socket_notMem_runScript _ _ _ _ _ hmem

end

/-! ## The invariant -/

section

variable {R : Type} {cfg : Client.Config} {net : Net R} {home : Set R}
  {tr : List (Sys.StepRecord R)} {σ : Sys R}

/-- The key has an address of the client. -/
def AtHome (net : Net R) (home : Set R) (k : SessionKey) : Prop :=
  ∃ h ∈ home, k.remote = net.remoteString h

/-- The sessions with the client's name or address, against the history. -/
structure Ledger (cfg : Client.Config) (net : Net R) (home : Set R) (tr : List (Sys.StepRecord R))
    (s : Server R) : Prop where
  owned : ∀ k name, Owns s k name → name = cfg.user ∨ AtHome net home k →
    name = cfg.user ∧ AtHome net home k ∧ Current net tr k
  current : ∀ k, Current net tr k → Owns s k cfg.user ∧ AtHome net home k

/-- The key of the client's session, as the server reads it from its packets. -/
def Sys.key (net : Net R) (σ : Sys R) : SessionKey :=
  ⟨net.remoteString σ.remote, σ.client.sessionToken, σ.client.sessionId⟩

/-- What holds in every reachable state of the whole. -/
structure Agreed (cfg : Client.Config) (net : Net R) (home : Set R) (tr : List (Sys.StepRecord R))
    (σ : Sys R) : Prop where
  inv : Server.Inv net σ.server
  slots : Client.SlotsOk σ.client.frags
  remote : σ.remote ∈ home
  socket : σ.client.state = .established → 0 ≤ σ.client.udpFd
  up : ∀ q ∈ σ.up, q.1 ∈ home ∧ FromClient cfg q.2
  down : ∀ q ∈ σ.down, q.1 ∈ home → Wire.typ q.2 = packetOpenAck →
    Opened net tr (packetKey net q.1 q.2)
  session : σ.client.state = .established → Opened net tr (σ.key net)
  ledger : Ledger cfg net home tr σ.server

/-- The header survives the cut to the size of the buffer. -/
theorem packetKey_take (net : Net R) (remote : R) (pkt : Bytes) :
    packetKey net remote (pkt.take 2048) = packetKey net remote pkt ∧
      Wire.typ (pkt.take 2048) = Wire.typ pkt := by
  simp [packetKey, Wire.token, Wire.sessionId, Wire.typ, List.drop_take, List.take_take,
    List.getD_eq_getElem?_getD]

/-- Neither the sessions nor the history change. -/
theorem Ledger.keep {s s' : Server R} (h : Ledger cfg net home tr s) {tr' : List (Sys.StepRecord R)}
    (howns : ∀ k name, Owns s' k name ↔ Owns s k name)
    (hcur : ∀ k, Current net tr' k ↔ Current net tr k) : Ledger cfg net home tr' s' := by
  refine ⟨fun k name hk hours => ?_, fun k hk => ?_⟩
  · rw [hcur]
    exact h.owned k name ((howns k name).mp hk) hours
  · obtain ⟨hold, hat⟩ := h.current k ((hcur k).mp hk)
    exact ⟨(howns _ _).mpr hold, hat⟩

/-- A step in which the server does not act. -/
theorem Ledger.silent {s : Server R} (h : Ledger cfg net home tr s) {r : Sys.StepRecord R}
    (hev : ∀ env, r.ev ≠ .serverRecv env) : Ledger cfg net home (tr ++ [r]) s :=
  h.keep (fun _ _ => Iff.rfl) fun _ => current_silent hev

/-- A step of the client, in which it may have received a datagram for it. -/
theorem agreed_client (hcfg : cfg.Admitted) (h : Agreed cfg net home tr σ) {e : Client.Event}
    {fx : List Client.Effect} {c' : IwanClient} {r' : R} {pkts down : List (R × Bytes)}
    (hstep : Client.Step cfg σ.client e fx c') (hsends : Sends home σ.remote fx r' pkts)
    (hdown : ∀ q ∈ down, q ∈ σ.down)
    (hrecv : ∀ env addr port data, e = .datagram env addr port data → (σ.remote, data) ∈ σ.down)
    {r : Sys.StepRecord R} (hev : ∀ env, r.ev ≠ .serverRecv env) :
    Agreed cfg net home (tr ++ [r])
      { σ with client := c', remote := r', up := σ.up ++ pkts, down := down } := by
  obtain ⟨hok, hm⟩ := hstep.move hcfg h.slots
  refine ⟨h.inv, hok, (hsends.mem_home h.remote).1, fun hest => ?_, fun q hq => ?_, fun q hq hh htyp => ?_,
    fun hest => ?_, h.ledger.silent hev⟩
  · exact (established_step hm h.socket hest).1
  · rcases List.mem_append.mp hq with hq | hq
    · exact h.up q hq
    · exact sends_fromClient hcfg hm hsends h.remote q hq
  · exact (h.down q (hdown q hq) hh htyp).snoc r
  · obtain ⟨-, hno, hses⟩ := established_step hm h.socket hest
    have hr' := hsends.remote_eq hno
    rcases hses with ⟨hs, htok, hid⟩ | ⟨env, addr, port, data, rfl, htyp, htok, hid⟩
    · have hold := h.session hs
      rw [Sys.key, ← htok, ← hid, ← hr'] at hold
      exact hold.snoc r
    · -- the OPENACK that has just arrived
      obtain ⟨hkey, htyp'⟩ := packetKey_take net σ.remote data
      have hopen := h.down _ (hrecv _ _ _ _ rfl) h.remote (htyp'.symm.trans htyp)
      rw [← hkey, packetKey, ← htok, ← hid, ← hr'] at hopen
      exact hopen.snoc r

/-- The server hears the client. -/
theorem ledger_client (hcfg : cfg.Admitted) {s s' : Server R} (h : Ledger cfg net home tr s)
    {remote : R} (hhome : remote ∈ home) {pkt : Bytes} (hpkt : FromClient cfg pkt)
    {outs : List (Out R)} (hch : Change net s s' remote pkt outs) {r : Sys.StepRecord R}
    {env : Server.Env} {rest : List (R × Bytes)} (hev : r.ev = .serverRecv env)
    (hup : r.pre.up = (remote, pkt) :: rest) (houts : r.outs = outs) :
    Ledger cfg net home (tr ++ [r]) s' := by
  have hclose : ∀ k, Closes net k r ↔ Wire.typ pkt = packetClose ∧ Wire.Signed pkt ∧
      packetKey net remote pkt = k := by
    intro k
    constructor
    · rintro ⟨-, remote', pkt', rest', -, hup', hrest⟩
      cases hup.symm.trans hup'
      exact hrest
    · exact fun hrest => ⟨env, remote, pkt, rest, hev, hup, hrest⟩
  cases hch with
  | opened request ack hparse ho htyp howns =>
    -- it is the client's OPEN, and the new session is the only one of the client
    have hmine := hpkt (parseOpenPacket_ok hparse).2.1
    rw [hmine, parseOpenPacket_openPkt hcfg] at hparse
    cases hparse
    have hopen : opened net r = [packetKey net remote ack] := by
      simp [opened, hev, houts, ho, datagrams, htyp]
    have hcur : ∀ k, Current net (tr ++ [r]) k ↔ k = packetKey net remote ack := by
      intro k
      simp [current_snoc, hopen]
    refine ⟨fun k name hk hours => ?_, fun k hk => ?_⟩
    · rcases (howns k name).mp hk with ⟨rfl, rfl⟩ | ⟨hold, -, hne⟩
      · exact ⟨rfl, ⟨remote, hhome, rfl⟩, (hcur _).mpr rfl⟩
      · exact absurd (h.owned k name hold hours).1 hne
    · rw [(hcur k).mp hk]
      exact ⟨(howns _ _).mpr (.inl ⟨rfl, rfl⟩), remote, hhome, rfl⟩
  | closed htyp hsig ho howns =>
    have hopen : opened net r = [] := by
      simp [opened, hev, houts, ho, datagrams]
    have hcur : ∀ k, Current net (tr ++ [r]) k ↔ Current net tr k ∧ k ≠ packetKey net remote pkt := by
      intro k
      simp [current_snoc, hopen, hclose, htyp, hsig, eq_comm]
    refine ⟨fun k name hk hours => ?_, fun k hk => ?_⟩
    · obtain ⟨hold, hne⟩ := (howns k name).mp hk
      obtain ⟨hname, hat, hc⟩ := h.owned k name hold hours
      exact ⟨hname, hat, (hcur k).mpr ⟨hc, hne⟩⟩
    · obtain ⟨hc, hne⟩ := (hcur k).mp hk
      obtain ⟨hold, hat⟩ := h.current k hc
      exact ⟨(howns _ _).mpr ⟨hold, hne⟩, hat⟩
  | kept hacks hno howns =>
    have hopen : opened net r = [] := by
      simp only [opened, hev, houts, datagrams, List.filterMap_filterMap, List.filterMap_eq_nil_iff]
      intro x hx
      cases x with
      | exit => rfl
      | udp ack dest => simp [hacks ack dest hx]
    have hcur : ∀ k, Current net (tr ++ [r]) k ↔ Current net tr k := by
      intro k
      rw [current_snoc, hopen, hclose]
      constructor
      · rintro (hk | ⟨hk, -⟩)
        · cases hk
        · exact hk
      · refine fun hk => .inr ⟨hk, rfl, ?_⟩
        rintro ⟨htyp, hsig, rfl⟩
        exact hno htyp hsig _ (h.current _ hk).1
    exact h.keep howns hcur

/-- The server hears another party. -/
theorem ledger_other {s s' : Server R} (h : Ledger cfg net home tr s) {remote : R}
    (haddr : ∀ a ∈ home, net.remoteString remote ≠ net.remoteString a) {pkt : Bytes}
    (hname : ∀ request, parseOpenPacket pkt = .ok request → request.username ≠ cfg.user)
    {outs : List (Out R)} (hch : Change net s s' remote pkt outs) {r : Sys.StepRecord R}
    (hev : ∀ env, r.ev ≠ .serverRecv env) : Ledger cfg net home (tr ++ [r]) s' := by
  have haway : ∀ k, AtHome net home k → k.remote ≠ net.remoteString remote := by
    rintro k ⟨a, ha, hk⟩
    rw [hk]
    exact (haddr a ha).symm
  cases hch with
  | opened request ack hparse ho htyp howns =>
    refine ⟨fun k name hk hours => ?_, fun k hk => ?_⟩
    · rw [current_silent hev]
      rcases (howns k name).mp hk with ⟨rfl, rfl⟩ | ⟨hold, -, -⟩
      · rcases hours with hours | hours
        · exact absurd hours (hname request hparse)
        · exact absurd rfl (haway _ hours)
      · exact h.owned k name hold hours
    · rw [current_silent hev] at hk
      obtain ⟨hold, hat⟩ := h.current k hk
      exact ⟨(howns _ _).mpr (.inr ⟨hold, haway k hat, (hname request hparse).symm⟩), hat⟩
  | closed htyp hsig ho howns =>
    refine ⟨fun k name hk hours => ?_, fun k hk => ?_⟩
    · rw [current_silent hev]
      exact h.owned k name ((howns k name).mp hk).1 hours
    · rw [current_silent hev] at hk
      obtain ⟨hold, hat⟩ := h.current k hk
      refine ⟨(howns _ _).mpr ⟨hold, ?_⟩, hat⟩
      rintro rfl
      exact haway _ hat rfl
  | kept hacks hno howns => exact h.keep howns fun _ => current_silent hev

theorem mem_datagrams {outs : List (Out R)} {q : R × Bytes} :
    q ∈ datagrams outs ↔ .udp q.2 q.1 ∈ outs := by
  simp only [datagrams, List.mem_filterMap]
  constructor
  · rintro ⟨x, hx, hq⟩
    cases x with
    | exit => cases hq
    | udp pkt remote =>
      cases hq
      exact hx
  · exact fun hmem => ⟨_, hmem, rfl⟩

/-- A step of the server. -/
theorem agreed_server (h : Agreed cfg net home tr σ) {e : Server.Event R} {outs : List (Out R)}
    {s' : Server R} (hstep : Server.Step net σ.server e outs s') {up : List (R × Bytes)}
    (hup : ∀ q ∈ up, q ∈ σ.up) {r : Sys.StepRecord R} (hledger : Ledger cfg net home (tr ++ [r]) s')
    (hacks : ∀ ack dest, .udp ack dest ∈ outs → dest ∈ home → Wire.typ ack = packetOpenAck →
      packetKey net dest ack ∈ opened net r) :
    Agreed cfg net home (tr ++ [r])
      { σ with server := s', up := up, down := σ.down ++ datagrams outs } := by
  refine ⟨(Server.inv_step h.inv hstep).1, h.slots, h.remote, h.socket, fun q hq => h.up q (hup q hq),
    fun q hq hh htyp => ?_, fun hest => (h.session hest).snoc r, hledger⟩
  rcases List.mem_append.mp hq with hq | hq
  · exact (h.down q hq hh htyp).snoc r
  · exact ⟨r, by simp, hacks q.2 q.1 (mem_datagrams.mp hq) hh htyp⟩

/-- **One step of the whole.** -/
theorem agreed_step (hcfg : cfg.Admitted) (h : Agreed cfg net home tr σ) {e : Sys.Event R}
    {outs : List (Out R)} {σ' : Sys R} (hstep : Sys.Step cfg net home σ e outs σ') :
    Agreed cfg net home (tr ++ [⟨σ, e, outs, σ'⟩]) σ' := by
  cases hstep with
  | client hlocal hstep hsends =>
    exact agreed_client hcfg h hstep hsends (fun q hq => hq)
      (fun env addr port data he => absurd he (hlocal env addr port data)) (by simp)
  | clientRecv hdown hstep hsends =>
    refine agreed_client hcfg h hstep hsends (fun q hq => ?_) ?_ (by simp)
    · rw [hdown]
      exact List.mem_cons_of_mem _ hq
    · rintro env addr port data he
      cases he
      rw [hdown]
      exact List.mem_cons_self
  | @serverRecv env r pkt rest _ s' hup hs =>
    have hmem : (r, pkt) ∈ σ.up := by
      rw [hup]
      exact List.mem_cons_self
    obtain ⟨hhome, hpkt⟩ := h.up _ hmem
    refine agreed_server h hs (fun q hq => ?_)
      (ledger_client hcfg h.ledger hhome hpkt (packet_change h.inv hs) rfl hup rfl) ?_
    · rw [hup]
      exact List.mem_cons_of_mem _ hq
    · intro ack dest hack _ htyp
      exact List.mem_filterMap.mpr ⟨(dest, ack), mem_datagrams.mpr hack, if_pos htyp⟩
  | other haddr hname hs =>
    have hch := packet_change h.inv hs
    refine agreed_server h hs (fun q hq => hq) (ledger_other h.ledger haddr hname hch (by simp)) ?_
    intro ack dest hack hdest htyp
    -- no OPENACK for the client
    cases hch with
    | opened _ _ _ ho =>
      rw [ho] at hack
      cases List.mem_singleton.mp hack
      exact absurd rfl (haddr _ hdest)
    | closed _ _ ho =>
      rw [ho] at hack
      simp at hack
    | kept hno => exact absurd htyp (hno ack dest hack)
  | exitPacket hs =>
    obtain ⟨rfl, hno⟩ := exit_change h.inv hs
    exact agreed_server h hs (fun q hq => hq) (h.ledger.silent (by simp))
      fun ack dest hack _ htyp => absurd htyp (hno ack dest hack)
  | loseUp hup =>
    refine ⟨h.inv, h.slots, h.remote, h.socket, fun q hq => h.up q ?_,
      fun q hq hh htyp => (h.down q hq hh htyp).snoc _, fun hest => (h.session hest).snoc _,
      h.ledger.silent (by simp)⟩
    rw [hup]
    simp only [List.mem_append, List.mem_cons] at hq ⊢
    tauto
  | loseDown hdown =>
    refine ⟨h.inv, h.slots, h.remote, h.socket, h.up, fun q hq hh htyp => (h.down q ?_ hh htyp).snoc _,
      fun hest => (h.session hest).snoc _, h.ledger.silent (by simp)⟩
    rw [hdown]
    simp only [List.mem_append, List.mem_cons] at hq ⊢
    tauto

/-- The key of a live session. -/
theorem owns_iff {s : Server R} (hl : Linked s) (k : SessionKey) :
    (∃ name, Owns s k name) ↔ (s.sessions.lookup k).isSome = true := by
  rw [← not_iff_not, Bool.not_eq_true, Option.isSome_eq_false_iff, Option.isNone_iff_eq_none,
    hl.lookup_none_iff]
  constructor
  · exact fun h x hx hk => h ⟨_, x, hx, hk, rfl⟩
  · rintro h ⟨name, x, hx, hk, -⟩
    exact h x hx hk

variable {cfg₀ : Client.Config} {ienv : Client.InitEnv} {c₀ : IwanClient}
  {fx₀ : List Client.Effect} {config : Server.Config} {device : Bool}
  {openDevice : Except String Unit} {s₀ : Server R} {remote : R}

/-- **Handshake agreement.** In every run of the client, the server and the network:
    an established client has the session of an OPENACK with which the server
    answered it, and the table of the server has this session exactly if it is the
    last one that the server opened for the client and the server has handled no
    CLOSE of it since. -/
theorem handshake_agreement (hcfg : cfg₀.Admitted)
    (hinit : Client.mainInit cfg₀ ienv = some (some (cfg, c₀, fx₀)))
    (h0 : newServer net config device openDevice = .ok s₀) (hremote : remote ∈ home)
    (hrun : Trace (Sys.Step cfg net home) ⟨c₀, remote, s₀, [], []⟩ tr σ)
    (hest : σ.client.state = .established) :
    Opened net tr (σ.key net) ∧
      ((σ.server.sessions.lookup (σ.key net)).isSome = true ↔ Current net tr (σ.key net)) := by
  obtain ⟨hadm, hinv₀⟩ := Client.inv_init hcfg hinit
  obtain ⟨hsinv, -, hlive⟩ := inv_newServer h0
  have hstart : Agreed cfg net home [] (⟨c₀, remote, s₀, [], []⟩ : Sys R) := by
    have hnew : c₀.state ≠ .established := by
      rcases Client.mainInit_state hcfg hinit with h | h <;> simp [h]
    refine ⟨hsinv, hinv₀.slots, hremote, fun h => absurd h hnew, by simp, by simp,
      fun h => absurd h hnew, ⟨?_, ?_⟩⟩
    · rintro k name ⟨x, hx, -⟩
      rw [show s₀.live = ∅ from hlive] at hx
      exact absurd hx (Set.notMem_empty x)
    · rintro k ⟨tr₁, r, tr₂, heq, -⟩
      simp at heq
  have h : Agreed cfg net home tr σ :=
    hrun.invariant hstart fun tr σ e outs σ' _ h hs => agreed_step hadm h hs
  refine ⟨h.session hest, ?_⟩
  rw [← owns_iff h.inv.linked]
  constructor
  · rintro ⟨name, howns⟩
    exact (h.ledger.owned _ _ howns (.inr ⟨σ.remote, h.remote, rfl⟩)).2.2
  · exact fun hcur => ⟨cfg.user, (h.ledger.current _ hcur).1⟩

end

/-! ## Two runs -/

section

variable {R : Type} {home : Set R} {cfg : Client.Config} {c : IwanClient}

/-- Nothing leaves the socket. -/
theorem sends_nothing (r : R) {fx : List Client.Effect}
    (hsend : ∀ pkt addr port, .sendto pkt addr port ∉ fx) (hsock : ∀ fd, .socket fd ∉ fx) :
    Sends home r fx r [] := by
  induction fx with
  | nil => exact .nil r
  | cons x fx ih =>
    refine .other x ?_ ?_ (ih ?_ ?_)
    · rintro pkt addr port rfl
      exact hsend pkt addr port List.mem_cons_self
    · rintro fd rfl
      exact hsock fd List.mem_cons_self
    · exact fun pkt addr port hmem => hsend pkt addr port (List.mem_cons_of_mem _ hmem)
    · exact fun fd hmem => hsock fd (List.mem_cons_of_mem _ hmem)

theorem length_openAck_le (token : Vector UInt8 2) (sessionID : Vector UInt8 4) (mtu : UInt16)
    (address : Vector UInt8 4) (dns : List (Vector UInt8 4)) (encrypt : Bool) :
    8 ≤ (openAck token sessionID mtu address dns encrypt).length ∧
      (openAck token sessionID mtu address dns encrypt).length ≤ 2048 := by
  have hdns : (Wire.encode (dnsTlvs dns)).length ≤ 10 := by
    match dns with
    | [] => simp [dnsTlvs, Wire.encode]
    | [d0] => simp [dnsTlvs, Wire.encode, Wire.Tlv.encode]
    | d0 :: d1 :: _ => simp [dnsTlvs, Wire.encode, Wire.Tlv.encode]
  have hlen : (Wire.encode (ackTlvs mtu address dns encrypt)).length =
      13 + (Wire.encode (dnsTlvs dns)).length := by
    simp [ackTlvs, Wire.encode, Wire.Tlv.encode]
    omega
  rw [openAck, List.length_append, Wire.length_signedHeader, hlen]
  omega

/-- The OPENACK begins a session, and the client answers nothing. -/
theorem step_openAck (home : Set R) (cfg : Client.Config) (hs : c.state = .authSent) (hfd : 0 ≤ c.udpFd) (now : UInt32) (r : R)
    {address : Vector UInt8 4} (haddr : address ≠ Vector.replicate 4 0) (token : Vector UInt8 2)
    (sessionID : Vector UInt8 4) (mtu : UInt16) (dns : List (Vector UInt8 4)) (encrypt : Bool) :
    ∃ fx c', Client.Step cfg c (.datagram (Client.calmEnv now) c.serverAddr c.serverPort
        (openAck token sessionID mtu address dns encrypt)) fx c' ∧
      Sends home r fx r [] ∧ c'.state = .established ∧ c'.sessionToken = token ∧
      c'.sessionId = sessionID := by
  obtain ⟨h8, h2048⟩ := length_openAck_le token sessionID mtu address dns encrypt
  obtain ⟨res, hres, hacc, hclient, hfx⟩ := handleOpenack_openAck cfg
    (c := { c with rxPkts := c.rxPkts + 1 }) hs haddr
    (Client.tunSet_calmEnv now) token sessionID mtu dns encrypt
  refine ⟨_, _, Client.step_datagram hfd h8 h2048 hres, ?_, ?_⟩
  · refine sends_nothing r (fun pkt addr port => ?_) (fun fd => ?_) <;> rw [hfx]
    · obtain hnil | ⟨args, -, hone⟩ := Client.runScript_cases cfg (Client.calmEnv now) cfg.upScript .up
        res.client
      · simp [hnil]
      · simp [hone]
    · simp [socket_notMem_runScript]
  · rw [Client.touch, if_pos hacc, hclient]
    exact ⟨rfl, rfl, rfl⟩

/-- The server's answer to the OPEN, item by item. -/
theorem step_openPkt_ack {net : Net R} {env : Server.Env} {s : Server R}
    {user : ConfiguredUser} {token : Vector UInt8 2} {sessionID : Vector UInt8 4}
    (hcfg : cfg.Admitted) (h : Server.Inv net s)
    (huser : s.config.users.lookup cfg.user = some user) (hpass : padded cfg.pass = padded user.password)
    (hids : newSessionIDs env = .ok (token, sessionID)) (r : R) :
    ∃ s' mtu address dns encrypt, address ≠ Vector.replicate 4 0 ∧
      Server.Step net s (.packet env r (Client.openPkt cfg))
        [.udp (openAck token sessionID mtu address dns encrypt) r] s' ∧
      Server.Inv net s' ∧ s'.config = s.config ∧
      (∃ x ∈ s'.live, x.key = ⟨net.remoteString r, token, sessionID⟩) ∧
      ∀ y ∈ s'.live, y.key.remote = net.remoteString r →
        y.key = ⟨net.remoteString r, token, sessionID⟩ := by
  obtain ⟨s', ack, hstep, hack, hinv, hconfig, hlive⟩ := step_openPkt hcfg h huser hpass hids
    r
  obtain ⟨a, ha, hne⟩ := h.config.address4 _ _ huser
  obtain ⟨ds, hds, -⟩ := h.config.dns4
  rw [ha, hds, buildOpenAck_eq] at hack
  cases hack
  refine ⟨s', _, a, ds, _, hne, hstep, hinv, hconfig, ⟨_, (hlive _).mpr (.inl rfl), rfl⟩,
    fun y hy hrem => ?_⟩
  rcases (hlive y).mp hy with rfl | ⟨-, hold⟩
  · rfl
  · exact absurd (.inl hrem) hold

end

/-- The client of `alice` when its loop starts. -/
theorem alice_starts : ∃ cfg c₀ fx₀,
    Client.mainInit (aliceConfig alice.password) ⟨4, none, 3⟩ = some (some (cfg, c₀, fx₀)) ∧
      (aliceConfig alice.password).Admitted ∧ cfg.Admitted ∧ cfg.user = alice.username ∧
      cfg.pass = alice.password ∧ c₀.state = .ipReady ∧ 0 ≤ c₀.udpFd := by
  have hcfg : (aliceConfig alice.password).Admitted := by constructor <;> decide
  have huser : (aliceConfig alice.password).user = alice.username := by decide
  have hpass : (aliceConfig alice.password).pass = alice.password := by decide
  obtain ⟨cfg, c₀, fx₀, hinit, hadm, hst, hfd⟩ := Client.mainInit_numeric hcfg
    (by decide +kernel) ⟨4, none, 3⟩ (by decide) (by decide)
  obtain ⟨mode, rfl⟩ := Client.mainInit_config hcfg hinit
  refine ⟨_, c₀, fx₀, hinit, hcfg, hadm, huser, hpass, hst, ?_⟩
  rw [hfd]
  decide

/-- The user and the password of `alice` at the example server. -/
theorem alice_known {cfg : Client.Config} (huser : cfg.user = alice.username)
    (hpass : cfg.pass = alice.password) {s₀ : Server Bytes}
    (h0 : newServer exampleNet (exampleConfig false) false (.ok ()) = .ok s₀) :
    s₀.config.users.lookup cfg.user = some (alice.configured exampleNet) ∧
      padded cfg.pass = padded (alice.configured exampleNet).password := by
  rw [huser, hpass]
  exact ⟨(reachable_users h0 .nil _ _).mpr ⟨alice, by decide, rfl, rfl⟩, rfl⟩

/-- `alice` sends an OPEN, the server handles it, and the OPENACK arrives: her
    session is in the table. -/
theorem alice_agrees : ∃ (cfg : Client.Config) (c₀ : IwanClient) (fx₀ : List Client.Effect)
    (s₀ : Server Bytes) (tr : List (Sys.StepRecord Bytes)) (σ : Sys Bytes),
    Client.mainInit (aliceConfig alice.password) ⟨4, none, 3⟩ = some (some (cfg, c₀, fx₀)) ∧
      newServer exampleNet (exampleConfig false) false (.ok ()) = .ok s₀ ∧
      Trace (Sys.Step cfg exampleNet {alice.address}) ⟨c₀, alice.address, s₀, [], []⟩ tr σ ∧
      σ.client.state = .established ∧
      (σ.server.sessions.lookup (σ.key exampleNet)).isSome = true := by
  obtain ⟨cfg, c₀, fx₀, hinit, hcfg, hadm, huser, hpass, hst, hfd⟩ := alice_starts
  obtain ⟨s₀, h0, hinv, -⟩ := example_newServer false
  obtain ⟨halice, hpass'⟩ := alice_known huser hpass h0
  have hopen : Client.Step cfg c₀ (.tick (Client.calmEnv 100)) _ _ :=
    Client.step_open _ hadm hst hfd (by decide)
  obtain ⟨s₁, mtu, a, ds, enc, hne, hstep, -⟩ :=
    step_openPkt_ack hadm hinv halice hpass' (newSessionIDs_calmEnv 0) alice.address
  obtain ⟨fx, c₂, hrecv, hquiet, hest, htok, hid⟩ := step_openAck {alice.address} cfg
    (c := { Client.startAuth cfg (Client.calmEnv 100) c₀ with lastOpenTime := 100 }) rfl hfd 101
    alice.address hne (Vector.replicate 2 0) (Vector.replicate 4 0) mtu ds enc
  have hrun : Trace (Sys.Step cfg exampleNet {alice.address}) ⟨c₀, alice.address, s₀, [], []⟩ _ _ :=
    ((Trace.nil.snoc (.client (by simp) hopen (.sendto _ _ _ (.nil _)))).snoc
      (.serverRecv rfl hstep)).snoc (.clientRecv rfl hrecv hquiet)
  obtain ⟨-, hlive⟩ := handshake_agreement hcfg hinit h0 (Set.mem_singleton _) hrun hest
  refine ⟨cfg, c₀, fx₀, s₀, _, _, hinit, h0, hrun, hest, hlive.mpr ⟨[_], _, [_], rfl, ?_, ?_⟩⟩
  · -- the OPENACK of the second step
    refine List.mem_filterMap.mpr ⟨_, List.mem_singleton.mpr rfl, ?_⟩
    rw [openAck, Wire.signedHeader_typ, if_pos rfl, packetKey, Wire.signedHeader_token,
      Wire.signedHeader_sessionId, Sys.key, htok, hid]
  · intro q hq
    rw [List.mem_singleton.mp hq]
    refine ⟨rfl, ?_⟩
    rintro ⟨env, remote, pkt, rest, hev, -⟩
    cases hev

/-- An environment of the server with the token 1. -/
def secondEnv : Server.Env := { calmEnv 1 with randToken := .ok (Vector.replicate 2 1) }

/-- `alice` sends an OPEN at second 100 and another one at second 102. The server
    handles both before the answer to the first one reaches her: she is established
    in a session that the server has already replaced. -/
theorem repeated_open_disagrees : ∃ (cfg : Client.Config) (c₀ : IwanClient)
    (fx₀ : List Client.Effect) (s₀ : Server Bytes) (tr : List (Sys.StepRecord Bytes)) (σ : Sys Bytes),
    Client.mainInit (aliceConfig alice.password) ⟨4, none, 3⟩ = some (some (cfg, c₀, fx₀)) ∧
      newServer exampleNet (exampleConfig false) false (.ok ()) = .ok s₀ ∧
      Trace (Sys.Step cfg exampleNet {alice.address}) ⟨c₀, alice.address, s₀, [], []⟩ tr σ ∧
      (∃ addr port, tr.map (·.ev) = [.client (.tick (Client.calmEnv 100)),
        .client (.tick (Client.calmEnv 102)), .serverRecv (calmEnv 0), .serverRecv secondEnv,
        .clientRecv (Client.calmEnv 103) addr port]) ∧
      σ.client.state = .established ∧ σ.server.sessions.lookup (σ.key exampleNet) = none := by
  obtain ⟨cfg, c₀, fx₀, hinit, -, hadm, huser, hpass, hst, hfd⟩ := alice_starts
  obtain ⟨s₀, h0, hinv, -⟩ := example_newServer false
  obtain ⟨halice, hpass'⟩ := alice_known huser hpass h0
  -- both OPENs
  have hopen₁ : Client.Step cfg c₀ (.tick (Client.calmEnv 100)) _ _ :=
    Client.step_open _ hadm hst hfd (by decide)
  have hopen₂ : Client.Step cfg _ (.tick (Client.calmEnv 102)) _ _ :=
    Client.step_retry (c := { Client.startAuth cfg (Client.calmEnv 100) c₀ with lastOpenTime := 100 })
      hadm rfl hfd (show ¬ (102 : UInt32) - 100 > Client.authTimeout by decide)
      (show (102 : UInt32) - 100 ≥ Client.authRetryInterval by decide)
  -- both sessions
  obtain ⟨s₁, mtu₁, a₁, ds₁, enc₁, hne₁, hstep₁, hinv₁, hconfig₁, -⟩ :=
    step_openPkt_ack hadm hinv halice hpass' (newSessionIDs_calmEnv 0) alice.address
  rw [← hconfig₁] at halice
  obtain ⟨s₂, mtu₂, a₂, ds₂, enc₂, -, hstep₂, hinv₂, -, -, hlive₂⟩ :=
    step_openPkt_ack hadm hinv₁ halice hpass'
      (show newSessionIDs secondEnv = .ok (Vector.replicate 2 1, Vector.replicate 4 0) from rfl)
      alice.address
  -- the first OPENACK
  obtain ⟨fx, c₃, hrecv, hquiet, hest, htok, hid⟩ := step_openAck {alice.address} cfg
    (c := { Client.startAuth cfg (Client.calmEnv 100) c₀ with lastOpenTime := 102 }) rfl hfd 103
    alice.address hne₁ (Vector.replicate 2 0) (Vector.replicate 4 0) mtu₁ ds₁ enc₁
  have hrun : Trace (Sys.Step cfg exampleNet {alice.address}) ⟨c₀, alice.address, s₀, [], []⟩ _ _ :=
    ((((Trace.nil.snoc (.client (by simp) hopen₁ (.sendto _ _ _ (.nil _)))).snoc
      (.client (by simp) hopen₂ (.sendto _ _ _ (.nil _)))).snoc
      (.serverRecv rfl hstep₁)).snoc (.serverRecv rfl hstep₂)).snoc (.clientRecv rfl hrecv hquiet)
  refine ⟨cfg, c₀, fx₀, s₀, _, _, hinit, h0, hrun, ⟨_, _, rfl⟩, hest, ?_⟩
  rw [hinv₂.linked.lookup_none_iff]
  intro y hy hk
  have hsecond := hlive₂ y hy (by rw [hk]; rfl)
  have htok' : Vector.replicate 2 1 = c₃.sessionToken :=
    congrArg SessionKey.token (hsecond.symm.trans hk)
  rw [htok] at htok'
  exact absurd htok' (by decide)

end Iwand.EndToEnd
