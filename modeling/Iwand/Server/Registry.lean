import Iwand.Common.Refine
import Iwand.Server.Table

/-!
# The server as a registry

What the server is for, without its heap, its pointers, its two maps and the order
of their iteration: a registry has one lease for each session, and `serve` says what
each event does to it and what is put out. The server of the source refines `serve`:
in every run it puts out what `serve` puts out on the same events, and its two maps
are the two ways to look a lease up.

* `step_serve`: one call refines `serve`.
* `server_refines_registry`: whole runs do.
* `inputs_determine_outputs`: of the results of the runtime, only the random ids
  show.
-/

namespace Iwand.Server

open Go

/-! ## The registry -/

/-- A session as its user has it: without its times. -/
@[ext]
structure Lease (R : Type) where
  key : SessionKey
  user : ConfiguredUser
  remote : R
  encrypt : Bool
  mtu : UInt16

/-- The leases. -/
abbrev Registry (R : Type) := List (Lease R)

variable {R : Type}

namespace Registry

/-- The lease with a key. -/
def byKey (ρ : Registry R) (k : SessionKey) : Option (Lease R) := ρ.find? fun l => l.key = k

/-- The lease with an address. -/
def byAddr (ρ : Registry R) (a : Addr) : Option (Lease R) := ρ.find? fun l => l.user.address = a

/-- A new lease takes the place of the leases of its remote and of its user. -/
def grant (ρ : Registry R) (l : Lease R) : Registry R :=
  l :: ρ.filter fun m => m.key.remote ≠ l.key.remote ∧ m.user.username ≠ l.user.username

/-- Without the lease with a key. -/
def revoke (ρ : Registry R) (k : SessionKey) : Registry R := ρ.filter fun m => m.key ≠ k

end Registry

/-- The four bytes of an IPv4 address. -/
def Addr.bytes : Addr → Vector UInt8 4
  | .v4 a => a
  | _ => Vector.replicate 4 0

namespace Lease

/-- The lease that an OPEN from `remote` gets. -/
def ofOpen (net : Net R) (config : NormalizedConfig) (remote : R) (user : ConfiguredUser)
    (request : OpenRequest) (token : Vector UInt8 2) (sessionID : Vector UInt8 4) : Lease R where
  key := ⟨net.remoteString remote, token, sessionID⟩
  user := user
  remote := remote
  encrypt := request.encrypt && user.allowEncrypt
  mtu := if request.mtu < config.mtu then request.mtu else config.mtu

/-- The OPENACK. -/
def ack (config : NormalizedConfig) (l : Lease R) : Bytes :=
  openAck l.key.token l.key.sessionID l.mtu l.user.address.bytes (config.dns.map Addr.bytes)
    l.encrypt

/-- The ECHORESP to an ECHOREQ. -/
def echo (l : Lease R) (packet : Bytes) : Bytes :=
  Wire.signedHeader packetEchoResp 0 l.key.token l.key.sessionID ++ packet.drop 24

/-- The data packet that carries `payload` to the holder. -/
def data (l : Lease R) (payload : Bytes) : Bytes :=
  dataPacket l.key.token l.key.sessionID payload l.encrypt l.user.xorKey

/-- The type of the data packets of the lease. -/
def dataType (l : Lease R) : UInt8 := if l.encrypt then packetDataEnc else packetData

/-- What a data packet of the holder carries. -/
def payload (l : Lease R) (packet : Bytes) : Bytes :=
  if l.encrypt then xorData l.user.xorKey (packet.drop 8) else packet.drop 8

end Lease

/-- The user and the request of an OPEN with the right password. -/
def login (config : NormalizedConfig) (packet : Bytes) : Option (OpenRequest × ConfiguredUser) :=
  match parseOpenPacket packet with
  | .error _ => none
  | .ok request =>
    match config.users.lookup request.username with
    | none => none
    | some user =>
      if passwordMatches user.username user.password request.passwordBlock then some (request, user)
      else none

/-- Where the payload `p` of the holder of `l` goes. -/
def forward (config : NormalizedConfig) (ρ : Registry R) (l : Lease R) (p : Bytes) : List (Out R) :=
  if IPv4.WellFormed p then
    if config.exit.enabled = true ∧ config.exit.strictSource = true ∧
        IPv4.source p ≠ l.user.address then []
    else
      let q := if config.exit.enabled then p.take (IPv4.totalLength p) else p
      match ρ.byAddr (IPv4.destination p) with
      | some m => [.udp (m.data q) m.remote]
      | none => if config.exit.enabled then [.exit q] else [.udp (l.data p) l.remote]
  else if config.exit.enabled then [] else [.udp (l.data p) l.remote]

/-- An OPEN. -/
def serveOpen (net : Net R) (config : NormalizedConfig) (ρ : Registry R) (env : Env) (remote : R)
    (packet : Bytes) : Registry R × List (Out R) :=
  match login config packet, newSessionIDs env with
  | none, _ => (ρ, [.udp openReject remote])
  | some _, .error _ => (ρ, [])
  | some (request, user), .ok (token, sessionID) =>
    let l := Lease.ofOpen net config remote user request token sessionID
    (ρ.grant l, [.udp (l.ack config) remote])

/-- An ECHOREQ under the key `k`. -/
def serveEchoReq (ρ : Registry R) (k : SessionKey) (packet : Bytes) : List (Out R) :=
  if Wire.Signed packet then ((ρ.byKey k).map fun l => .udp (l.echo packet) l.remote).toList
  else []

/-- A CLOSE under the key `k`. -/
def serveClose (ρ : Registry R) (k : SessionKey) (packet : Bytes) : Registry R :=
  if Wire.Signed packet then ρ.revoke k else ρ

/-- A data packet under the key `k`. -/
def serveData (config : NormalizedConfig) (ρ : Registry R) (k : SessionKey) (packet : Bytes) :
    List (Out R) :=
  if packet.length ≤ 8 then []
  else
    match ρ.byKey k with
    | none => []
    | some l => if Wire.typ packet = l.dataType then forward config ρ l (l.payload packet) else []

/-- A packet from the exit device. -/
def serveExit (config : NormalizedConfig) (ρ : Registry R) (p : Bytes) : List (Out R) :=
  if config.exit.enabled = true ∧ IPv4.WellFormed p then
    ((ρ.byAddr (IPv4.destination p)).map fun m =>
      .udp (m.data (p.take (IPv4.totalLength p))) m.remote).toList
  else []

/-- A datagram. -/
def servePacket (net : Net R) (config : NormalizedConfig) (ρ : Registry R) (env : Env) (remote : R)
    (packet : Bytes) : Registry R × List (Out R) :=
  if packet.length < 8 then (ρ, [])
  else if Wire.typ packet = packetOpen then serveOpen net config ρ env remote packet
  else if Wire.typ packet = packetEchoReq then
    (ρ, serveEchoReq ρ (packetKey net remote packet) packet)
  else if Wire.typ packet = packetClose then
    (serveClose ρ (packetKey net remote packet) packet, [])
  else if Wire.typ packet = packetData ∨ Wire.typ packet = packetDataEnc then
    (ρ, serveData config ρ (packetKey net remote packet) packet)
  else (ρ, [])

/-- One event: the registry after it, and what is put out. -/
def serve (net : Net R) (config : NormalizedConfig) (ρ : Registry R) :
    Event R → Registry R × List (Out R)
  | .packet env remote packet => servePacket net config ρ env remote packet
  | .exitPacket _ payload => (ρ, serveExit config ρ payload)

/-! ## The abstraction -/

/-- What the user of a session has of it. -/
def Session.lease (x : Session R) : Lease R := ⟨x.key, x.user, x.remote, x.encrypt, x.mtu⟩

/-- The registry `ρ` has the live sessions of `s`. -/
def Holds (s : Server R) (ρ : Registry R) : Prop := ∀ l, l ∈ ρ ↔ ∃ x ∈ s.live, x.lease = l

/-- The server `s` is at registry `ρ`. -/
structure Refines (net : Net R) (config : NormalizedConfig) (s : Server R) (ρ : Registry R) :
    Prop where
  inv : Inv net s
  config : s.config = config
  holds : Holds s ρ

section

variable {net : Net R} {config : NormalizedConfig} {env : Env} {s s' : Server R} {ρ : Registry R}
  {remote : R} {packet p : Bytes} {x y : Session R} {l : Lease R}

@[simp] theorem lease_renew (key : SessionKey) (now : ℕ) (x : Session R) :
    (renew key now x).lease = x.lease := by
  simp [Session.lease]

theorem Holds.mem (h : Holds s ρ) (hx : x ∈ s.live) : x.lease ∈ ρ := (h _).mpr ⟨x, hx, rfl⟩

theorem Refines.key_inj (h : Refines net config s ρ) : Set.InjOn Lease.key {l | l ∈ ρ} := by
  intro l hl m hm hk
  obtain ⟨x, hx, rfl⟩ := (h.holds l).mp hl
  obtain ⟨y, hy, rfl⟩ := (h.holds m).mp hm
  rw [h.inv.eq_of_key hx hy hk]

theorem Refines.address_inj (h : Refines net config s ρ) :
    Set.InjOn (fun l : Lease R => l.user.address) {l | l ∈ ρ} := by
  intro l hl m hm ha
  obtain ⟨x, ⟨p, hx⟩, rfl⟩ := (h.holds l).mp hl
  obtain ⟨y, ⟨q, hy⟩, rfl⟩ := (h.holds m).mp hm
  rw [(h.inv.linked.of_address hx hy ha).2]

/-! ## Lookups -/

theorem Refines.byKey_live (h : Refines net config s ρ) (hx : x ∈ s.live) :
    ρ.byKey x.key = some x.lease :=
  (find?_eq_some_iff h.key_inj).mpr ⟨h.holds.mem hx, rfl⟩

theorem Refines.byKey_none (h : Refines net config s ρ) {k : SessionKey}
    (hnone : ∀ x ∈ s.live, x.key ≠ k) : ρ.byKey k = none := by
  refine find?_eq_none_iff.mpr fun l hl => ?_
  obtain ⟨x, hx, rfl⟩ := (h.holds l).mp hl
  exact hnone x hx

theorem Refines.byAddr_live (h : Refines net config s ρ) (hx : x ∈ s.live) :
    ρ.byAddr x.user.address = some x.lease :=
  (find?_eq_some_iff h.address_inj).mpr ⟨h.holds.mem hx, rfl⟩

theorem Refines.byAddr_none (h : Refines net config s ρ) {a : Addr}
    (hnone : ∀ x ∈ s.live, x.user.address ≠ a) : ρ.byAddr a = none := by
  refine find?_eq_none_iff.mpr fun l hl => ?_
  obtain ⟨x, hx, rfl⟩ := (h.holds l).mp hl
  exact hnone x hx

/-- `s.sessions[k]` is the lease with the key. -/
theorem Refines.session? (h : Refines net config s ρ) (k : SessionKey) :
    (s.session? k).map Session.lease = ρ.byKey k := by
  cases hk : s.session? k with
  | some x =>
    obtain ⟨hx, rfl⟩ := h.inv.linked.session?_iff.mp hk
    rw [h.byKey_live hx]
    rfl
  | none =>
    rw [h.byKey_none fun x hx hxk => ?_]
    · rfl
    · rw [h.inv.linked.session?_iff.mpr ⟨hx, hxk⟩] at hk
      cases hk

/-- `s.byAddress[a]` is the lease with the address. -/
theorem Refines.route? (h : Refines net config s ρ) (a : Addr) :
    (s.route? a).map Session.lease = ρ.byAddr a := by
  cases ha : s.route? a with
  | some x =>
    obtain ⟨hx, rfl⟩ := h.inv.linked.route?_iff.mp ha
    rw [h.byAddr_live hx]
    rfl
  | none =>
    rw [h.byAddr_none fun x hx hxa => ?_]
    · rfl
    · rw [h.inv.linked.route?_iff.mpr ⟨hx, hxa⟩] at ha
      cases ha

/-! ## Changes -/

/-- The times of a session do not show. -/
theorem Refines.renewed (h : Refines net config s ρ) {key : SessionKey} {now : ℕ}
    (hren : Renewed net s key now s') : Refines net config s' ρ := by
  refine ⟨hren.inv, hren.config.trans h.config, fun l => ?_⟩
  rw [h.holds l]
  constructor
  · rintro ⟨x, hx, rfl⟩
    exact ⟨renew key now x, (hren.live _).mpr ⟨x, hx, rfl⟩, lease_renew key now x⟩
  · rintro ⟨y, hy, rfl⟩
    obtain ⟨x, hx, rfl⟩ := (hren.live y).mp hy
    exact ⟨x, hx, (lease_renew key now x).symm⟩

theorem Holds.grant (h : Holds s ρ) {next : Session R}
    (hlive : ∀ y, y ∈ s'.live ↔
      y = next ∨ y ∈ s.live ∧ ¬ Replaced next.key.remote next.user.username y) :
    Holds s' (ρ.grant next.lease) := by
  intro l
  rw [Registry.grant, List.mem_cons, List.mem_filter, h l]
  constructor
  · rintro (rfl | ⟨⟨x, hx, rfl⟩, hkeep⟩)
    · exact ⟨next, (hlive next).mpr (.inl rfl), rfl⟩
    · refine ⟨x, (hlive x).mpr (.inr ⟨hx, ?_⟩), rfl⟩
      rintro (hr | hr)
      · exact (of_decide_eq_true hkeep).1 hr
      · exact (of_decide_eq_true hkeep).2 hr
  · rintro ⟨x, hx, rfl⟩
    rcases (hlive x).mp hx with rfl | ⟨hx, hkeep⟩
    · exact .inl rfl
    · exact .inr ⟨⟨x, hx, rfl⟩, decide_eq_true ⟨fun hr => hkeep (.inl hr), fun hr => hkeep (.inr hr)⟩⟩

theorem Holds.revoke (h : Holds s ρ) {k : SessionKey}
    (hlive : ∀ y, y ∈ s'.live ↔ y ∈ s.live ∧ y.key ≠ k) : Holds s' (ρ.revoke k) := by
  intro l
  rw [Registry.revoke, List.mem_filter, h l]
  constructor
  · rintro ⟨⟨x, hx, rfl⟩, hkeep⟩
    exact ⟨x, (hlive x).mpr ⟨hx, of_decide_eq_true hkeep⟩, rfl⟩
  · rintro ⟨x, hx, rfl⟩
    obtain ⟨hx, hkeep⟩ := (hlive x).mp hx
    exact ⟨⟨x, hx, rfl⟩, decide_eq_true hkeep⟩

/-- Nothing to revoke. -/
theorem Refines.revoke_none (h : Refines net config s ρ) {k : SessionKey}
    (hnone : ∀ x ∈ s.live, x.key ≠ k) : ρ.revoke k = ρ := by
  refine List.filter_eq_self.mpr fun l hl => ?_
  obtain ⟨x, hx, rfl⟩ := (h.holds l).mp hl
  exact decide_eq_true (hnone x hx)

/-! ## OPEN -/

theorem login_iff {request : OpenRequest} {user : ConfiguredUser} :
    login config packet = some (request, user) ↔ parseOpenPacket packet = .ok request ∧
      config.users.lookup request.username = some user ∧
      passwordMatches user.username user.password request.passwordBlock = true := by
  unfold login
  cases hparse : parseOpenPacket packet with
  | error e => simp
  | ok q =>
    cases huser : config.users.lookup q.username with
    | none =>
      simp only [huser, Except.ok.injEq]
      refine ⟨fun h => absurd h (by simp), ?_⟩
      rintro ⟨rfl, hu, -⟩
      rw [huser] at hu
      cases hu
    | some u =>
      simp only [huser, Except.ok.injEq]
      constructor
      · intro h
        split_ifs at h with hpass
        cases h
        exact ⟨rfl, huser, hpass⟩
      · rintro ⟨rfl, hu, hpass⟩
        rw [huser] at hu
        cases hu
        rw [if_pos hpass]

/-- The OPENACK of a session. -/
theorem buildOpenAck_lease (h : Inv net s) (hx : SessionOk net s.config x) {ack : Bytes}
    (hack : buildOpenAck x.key.token x.key.sessionID x.mtu x.user.address s.config.dns x.encrypt =
      .ok ack) : ack = x.lease.ack s.config := by
  obtain ⟨a, ha, -⟩ := h.config.address4 _ _ hx.user
  obtain ⟨ds, hds, -⟩ := h.config.dns4
  rw [ha, hds, buildOpenAck_eq] at hack
  have hdns : s.config.dns.map Addr.bytes = ds := by
    rw [hds, List.map_map]
    exact List.map_id ds
  rw [← Except.ok.inj hack, Lease.ack, hdns]
  unfold Session.lease
  rw [ha]
  rfl

/-- A step as the result of its handler. -/
theorem step_of_handle {e : Event R} {outs : List (Out R)} {r : Res R} (hs : Step net s e outs s')
    (hr : step net s e = .ok r) : r.server = s' ∧ r.outs = outs := by
  obtain ⟨err, hs⟩ := hs
  rw [hr, Except.ok.injEq] at hs
  rw [hs]
  exact ⟨rfl, rfl⟩

/-- What one call has to leave behind. -/
def Serves (net : Net R) (config : NormalizedConfig) (next : Registry R × List (Out R))
    (r : Go (Res R)) : Prop :=
  ∃ s' err, r = .ok ⟨s', next.2, err⟩ ∧ Refines net config s' next.1

theorem handleOpen_serves (h : Refines net config s ρ) (env : Env) (remote : R) (packet : Bytes) :
    Serves net config (serveOpen net config ρ env remote packet)
      (handleOpen net env s remote packet) := by
  obtain rfl := h.config
  unfold serveOpen
  cases hlogin : login s.config packet with
  | none =>
    refine ⟨s, _, handleOpen_reject fun request user hparse huser => ?_, h⟩
    rw [← Bool.not_eq_true]
    intro hpass
    rw [login_iff.mpr ⟨hparse, huser, hpass⟩] at hlogin
    cases hlogin
  | some q =>
    obtain ⟨request, user⟩ := q
    obtain ⟨hparse, huser, hpass⟩ := login_iff.mp hlogin
    rw [handleOpen_accept hparse huser hpass]
    cases hids : newSessionIDs env with
    | error msg => exact ⟨s, _, rfl, h⟩
    | ok ids =>
      obtain ⟨token, sessionID⟩ := ids
      have hok := nextSession_ok h.inv env remote hparse huser token sessionID
      obtain ⟨s', ack, heq, hack, hinv, hconfig, hlive⟩ := openSession_spec env h.inv hok
      rw [buildOpenAck_lease h.inv hok hack] at heq
      exact ⟨s', _, heq, hinv, hconfig, h.holds.grant hlive⟩

theorem handleEchoReq_serves (h : Refines net config s ρ) (env : Env) (remote : R)
    (h8 : 8 ≤ packet.length) :
    Serves net config (ρ, serveEchoReq ρ (packetKey net remote packet) packet)
      (handleEchoReq net env s remote packet) := by
  unfold serveEchoReq
  by_cases hsig : Wire.Signed packet
  swap
  · rw [if_neg hsig, handleEchoReq, verifyPacket_eq, bind_ok, decide_eq_false hsig, if_pos rfl]
    exact ⟨s, _, rfl, h⟩
  rw [if_pos hsig]
  by_cases hlive : ∃ x ∈ s.live, x.key = packetKey net remote packet
  · obtain ⟨x, hx, hkey⟩ := hlive
    obtain ⟨s', hren, heq⟩ := handleEchoReq_live h.inv env hx hkey hsig
    rw [heq, ← hkey, h.byKey_live hx]
    exact ⟨s', _, rfl, h.renewed hren⟩
  · have hnone : ∀ x ∈ s.live, x.key ≠ packetKey net remote packet :=
      fun x hx hk => hlive ⟨x, hx, hk⟩
    rw [handleEchoReq, verifyPacket_eq, bind_ok, decide_eq_true hsig, if_neg (by simp),
      sessionForPacket_none h.inv.linked env remote h8 hnone, h.byKey_none hnone]
    exact ⟨s, _, rfl, h⟩

theorem handleClose_serves (h : Refines net config s ρ) (remote : R) (h8 : 8 ≤ packet.length) :
    Serves net config (serveClose ρ (packetKey net remote packet) packet, [])
      (handleClose net s remote packet) := by
  unfold serveClose
  rw [handleClose, verifyPacket_eq, bind_ok]
  by_cases hsig : Wire.Signed packet
  swap
  · rw [if_neg hsig, decide_eq_false hsig, if_pos rfl]
    exact ⟨s, _, rfl, h⟩
  rw [if_pos hsig, decide_eq_true hsig, if_neg (by simp), keyFromPacket_eq remote h8, bind_ok]
  cases hlook : s.sessions.lookup (packetKey net remote packet) with
  | none =>
    rw [h.revoke_none ((h.inv.linked.lookup_none_iff _).mp hlook)]
    exact ⟨s, _, rfl, h⟩
  | some p =>
    obtain ⟨x, hx, hkey⟩ := h.inv.linked.at_of_lookup hlook
    obtain ⟨s', hs', hinv, hconfig, hlive⟩ := removeSessionLocked_live h.inv hx
    rw [hkey] at hlive
    simp only [hs', bind_ok]
    exact ⟨s', _, rfl, hinv, hconfig.trans h.config, h.holds.revoke hlive⟩

/-- Where a payload goes. -/
theorem routePayload_forward (h : Refines net config s ρ) (env : Env) (x : Session R) (p : Bytes) :
    ∃ err, routePayload env s (sessionToOutbound x) p =
      .ok ⟨s, forward config ρ x.lease p, err⟩ := by
  obtain rfl := h.config
  unfold forward
  by_cases hwf : IPv4.WellFormed p
  swap
  · rw [if_neg hwf, routePayload_malformed hwf]
    split_ifs
    · exact ⟨_, rfl⟩
    · exact ⟨_, rfl⟩
  rw [if_pos hwf]
  by_cases hsp : Spoofed s x p
  · rw [if_pos (show _ ∧ _ ∧ IPv4.source p ≠ x.lease.user.address from hsp),
      routePayload_spoofed hwf hsp]
    exact ⟨_, rfl⟩
  rw [if_neg (show ¬ (_ ∧ _ ∧ IPv4.source p ≠ x.lease.user.address) from hsp)]
  by_cases hdst : ∃ y ∈ s.live, IPv4.destination p = y.user.address
  · obtain ⟨y, hy, hd⟩ := hdst
    rw [routePayload_relay h.inv.linked hwf hsp hy hd, hd, h.byAddr_live hy]
    exact ⟨_, rfl⟩
  · have hnone : ∀ y ∈ s.live, y.user.address ≠ IPv4.destination p :=
      fun y hy hd => hdst ⟨y, hy, hd.symm⟩
    rw [routePayload_nobody h.inv hwf hsp hnone, h.byAddr_none hnone]
    by_cases hen : s.config.exit.enabled = true
    · simp only [if_pos hen]
      exact ⟨_, rfl⟩
    · simp only [if_neg hen]
      exact ⟨_, rfl⟩

theorem handleData_serves (h : Refines net config s ρ) (env : Env) (remote : R)
    (h8 : 8 ≤ packet.length) (htyp : Wire.typ packet = packetData ∨ Wire.typ packet = packetDataEnc) :
    Serves net config (ρ, serveData config ρ (packetKey net remote packet) packet)
      (handleData net env s remote packet) := by
  unfold serveData
  by_cases hlen : packet.length ≤ 8
  · rw [handleData, if_pos hlen]
    simp only [if_pos hlen]
    exact ⟨s, _, rfl, h⟩
  simp only [if_neg hlen]
  by_cases hlive : ∃ x ∈ s.live, x.key = packetKey net remote packet
  swap
  · have hnone : ∀ x ∈ s.live, x.key ≠ packetKey net remote packet :=
      fun x hx hk => hlive ⟨x, hx, hk⟩
    rw [handleData, if_neg hlen, sessionForPacket_none h.inv.linked env remote h8 hnone,
      h.byKey_none hnone]
    exact ⟨s, _, rfl, h⟩
  obtain ⟨x, hx, hkey⟩ := hlive
  rw [← hkey, h.byKey_live hx]
  by_cases hgate : Wire.typ packet = if x.encrypt then packetDataEnc else packetData
  · have hdata : DataOf net s remote packet x := ⟨hx, hkey, hgate⟩
    obtain ⟨s', hren, heq⟩ := handleData_eq h.inv env (by omega) hdata
    obtain ⟨err, hroute⟩ := routePayload_forward (h.renewed hren) env x (plaintext x packet)
    have hplain : x.lease.payload packet = plaintext x packet := by
      unfold Lease.payload plaintext Session.lease
      rw [hgate]
      cases x.encrypt <;> rfl
    simp only [if_pos (show Wire.typ packet = x.lease.dataType from hgate), hplain]
    exact ⟨s', err, heq.trans hroute, h.renewed hren⟩
  · obtain ⟨s', hren, heq⟩ := handleData_unfit h.inv env (by omega) hx hkey htyp hgate
    simp only [if_neg (show ¬ Wire.typ packet = x.lease.dataType from hgate)]
    exact ⟨s', _, heq, h.renewed hren⟩

theorem handlePacket_serves (h : Refines net config s ρ) (env : Env) (remote : R) (packet : Bytes) :
    Serves net config (servePacket net config ρ env remote packet)
      (handlePacket net env s remote packet) := by
  unfold servePacket
  by_cases h8 : packet.length < 8
  · rw [handlePacket, if_pos h8, if_pos h8]
    exact ⟨s, _, rfl, h⟩
  have h8' : 8 ≤ packet.length := by omega
  rw [if_neg h8]
  by_cases h1 : Wire.typ packet = packetOpen
  · rw [handlePacket_open h8' h1, if_pos h1]
    exact handleOpen_serves h env remote packet
  rw [if_neg h1]
  by_cases h2 : Wire.typ packet = packetEchoReq
  · rw [handlePacket_echoReq h8' h2, if_pos h2]
    exact handleEchoReq_serves h env remote h8'
  rw [if_neg h2]
  by_cases h3 : Wire.typ packet = packetClose
  · rw [handlePacket_close h8' h3, if_pos h3]
    exact handleClose_serves h remote h8'
  rw [if_neg h3]
  by_cases h4 : Wire.typ packet = packetData ∨ Wire.typ packet = packetDataEnc
  · rw [handlePacket_data h8' h4, if_pos h4]
    exact handleData_serves h env remote h8' h4
  · rw [handlePacket, if_neg (show ¬ packet.length < 8 from h8), typ_eq (by omega), bind_ok,
      if_neg h1, if_neg h2, if_neg h3, if_neg h4, if_neg h4]
    exact ⟨s, _, rfl, h⟩

/-- Without exit mode nothing is read from the device. -/
theorem exitPacket_serves (h : Refines net config s ρ) (env : Env) (payload : Bytes) :
    Serves net config (ρ, serveExit config ρ payload) (step net s (.exitPacket env payload)) := by
  obtain rfl := h.config
  unfold serveExit
  show Serves net s.config _ (if s.exit then handleExitPacket env s payload else return ⟨s, [], none⟩)
  rw [h.inv.exit]
  by_cases hen : s.config.exit.enabled = true
  swap
  · rw [if_neg hen, if_neg fun hc => hen hc.1]
    exact ⟨s, _, rfl, h⟩
  rw [if_pos hen]
  by_cases hwf : IPv4.WellFormed payload
  swap
  · obtain ⟨msg, hmsg⟩ := attempt_parse_error hwf
    rw [handleExitPacket, hmsg, if_neg fun hc => hwf hc.2]
    exact ⟨s, _, rfl, h⟩
  rw [if_pos ⟨hen, hwf⟩, handleExitPacket, attempt_parse_ok hwf]
  simp only [bind_ok]
  by_cases hdst : ∃ y ∈ s.live, IPv4.destination payload = y.user.address
  · obtain ⟨y, hy, hd⟩ := hdst
    rw [hd, outboundForAddress_live h.inv.linked hy, h.byAddr_live hy]
    simp only [bind_ok, sendData_eq]
    exact ⟨s, _, rfl, h⟩
  · have hnone : ∀ y ∈ s.live, y.user.address ≠ IPv4.destination payload :=
      fun y hy hd => hdst ⟨y, hy, hd.symm⟩
    rw [outboundForAddress_none h.inv.linked hnone, h.byAddr_none hnone]
    exact ⟨s, _, rfl, h⟩

/-- **One call.** -/
theorem step_serve (h : Refines net config s ρ) {e : Event R} {outs : List (Out R)}
    (hs : Step net s e outs s') :
    (serve net config ρ e).2 = outs ∧ Refines net config s' (serve net config ρ e).1 := by
  have hserves : Serves net config (serve net config ρ e) (step net s e) := by
    cases e with
    | packet env remote packet => exact handlePacket_serves h env remote packet
    | exitPacket env payload => exact exitPacket_serves h env payload
  obtain ⟨s₁, err, heq, href⟩ := hserves
  obtain ⟨rfl, rfl⟩ := step_of_handle hs heq
  exact ⟨rfl, href⟩

/-! ## Whole runs -/

/-- The new server has no session. -/
theorem refines_newServer {cfg : Config} {device : Bool} {openDevice : Except String Unit}
    {s₀ : Server R} (h0 : newServer net cfg device openDevice = .ok s₀) :
    Refines net s₀.config s₀ [] := by
  obtain ⟨hinv, -, hlive⟩ := inv_newServer h0
  refine ⟨hinv, rfl, fun l => ?_⟩
  rw [hlive]
  simp

/-- A run of the server and the run of the registry on its events. -/
theorem run_serve {cfg : Config} {device : Bool} {openDevice : Except String Unit} {s₀ : Server R}
    {tr : List (StepRecord R)} (h0 : newServer net cfg device openDevice = .ok s₀)
    (h : Trace (Step net) s₀ tr s) :
    (replay (serve net s₀.config) [] (tr.map Record.ev)).2 = tr.map Record.outs ∧
      Refines net s₀.config s (replay (serve net s₀.config) [] (tr.map Record.ev)).1 := by
  have hstep : ∀ s ρ e outs s', Refines net s₀.config s ρ → Step net s e outs s' →
      (serve net s₀.config ρ e).2 = outs ∧ Refines net s₀.config s' (serve net s₀.config ρ e).1 :=
    fun s ρ e outs s' href hs => step_serve href hs
  exact h.replay_eq (refines_newServer h0) hstep

/-- **The server refines the registry.** In every run, each event puts out what
    `serve` says on the events so far, and both maps are the lookups of the
    registry. -/
theorem server_refines_registry {cfg : Config} {device : Bool} {openDevice : Except String Unit}
    {s₀ : Server R} {tr : List (StepRecord R)}
    (h0 : newServer net cfg device openDevice = .ok s₀) (h : Trace (Step net) s₀ tr s) :
    tr.map Record.outs = (replay (serve net s₀.config) [] (tr.map Record.ev)).2 ∧
      (∀ k, (s.session? k).map Session.lease =
        (replay (serve net s₀.config) [] (tr.map Record.ev)).1.byKey k) ∧
      ∀ a, (s.route? a).map Session.lease =
        (replay (serve net s₀.config) [] (tr.map Record.ev)).1.byAddr a := by
  obtain ⟨houts, href⟩ := run_serve h0 h
  exact ⟨houts.symm, href.session?, href.route?⟩

/-- Two events that differ at most in the clock, in the outcome of writes and in the
    order of the iteration over the sessions. -/
inductive SameInput : Event R → Event R → Prop
  | packet {env env' : Env} (remote : R) (packet : Bytes)
      (hids : (newSessionIDs env).toOption = (newSessionIDs env').toOption) :
      SameInput (.packet env remote packet) (.packet env' remote packet)
  | exitPacket (env env' : Env) (payload : Bytes) :
      SameInput (.exitPacket env payload) (.exitPacket env' payload)

theorem serve_sameInput (net : Net R) (config : NormalizedConfig) (ρ : Registry R) {e e' : Event R}
    (h : SameInput e e') : serve net config ρ e = serve net config ρ e' := by
  cases h with
  | exitPacket => rfl
  | @packet env env' remote packet hids =>
    have hopen : serveOpen net config ρ env remote packet =
        serveOpen net config ρ env' remote packet := by
      unfold serveOpen
      cases h₁ : newSessionIDs env with
      | error msg =>
        cases h₂ : newSessionIDs env' with
        | error msg' => cases login config packet <;> rfl
        | ok ids =>
          rw [h₁, h₂] at hids
          cases hids
      | ok ids =>
        cases h₂ : newSessionIDs env' with
        | error msg =>
          rw [h₁, h₂] at hids
          cases hids
        | ok ids' =>
          rw [h₁, h₂] at hids
          cases hids
          rfl
    show servePacket net config ρ env remote packet = servePacket net config ρ env' remote packet
    unfold servePacket
    rw [hopen]

/-- **Only the inputs count.** Two runs on the same datagrams, exit packets and random
    ids put out the same and end with the same sessions, whatever the clock says,
    whether or not writes fail, and in whatever order the server visits its
    sessions. -/
theorem inputs_determine_outputs {cfg : Config} {device device' : Bool}
    {openDevice openDevice' : Except String Unit} {s₀ s₀' s' : Server R}
    {tr tr' : List (StepRecord R)} (h0 : newServer net cfg device openDevice = .ok s₀)
    (h0' : newServer net cfg device' openDevice' = .ok s₀') (h : Trace (Step net) s₀ tr s)
    (h' : Trace (Step net) s₀' tr' s')
    (hin : List.Forall₂ SameInput (tr.map Record.ev) (tr'.map Record.ev)) :
    tr.map Record.outs = tr'.map Record.outs ∧
      ∀ k, (s.session? k).map Session.lease = (s'.session? k).map Session.lease := by
  obtain ⟨houts, href⟩ := run_serve h0 h
  obtain ⟨houts', href'⟩ := run_serve h0' h'
  have hconfig : s₀.config = s₀'.config :=
    Except.ok.inj ((inv_newServer h0).2.1.symm.trans (inv_newServer h0').2.1)
  have hsim : ∀ ρ e e', SameInput e e' → serve net s₀.config ρ e = serve net s₀.config ρ e' :=
    fun ρ e e' he => serve_sameInput net s₀.config ρ he
  have hsame := replay_congr hsim hin []
  rw [← hconfig] at houts' href'
  refine ⟨?_, fun k => ?_⟩
  · rw [← houts, ← houts', hsame]
  · rw [href.session?, href'.session?, hsame]

end

/-- The OPEN of `alice` at the example server and at its registry. -/
theorem example_registry : ∃ s₀ s : Server Bytes, ∃ ack,
    newServer exampleNet (exampleConfig false) false (.ok ()) = .ok s₀ ∧
      Step exampleNet s₀ (.packet (calmEnv 0) alice.address aliceOpen) [.udp ack alice.address] s ∧
      (replay (serve exampleNet s₀.config) [] [.packet (calmEnv 0) alice.address aliceOpen]).2 =
        [[.udp ack alice.address]] ∧
      (replay (serve exampleNet s₀.config) []
        [.packet (calmEnv 0) alice.address aliceOpen]).1.byKey (aliceSession s₀ alice.address 0).key =
        some (aliceSession s₀ alice.address 0).lease := by
  obtain ⟨s₀, h0, hinv, -, -, -, halice⟩ := example_newServer false
  obtain ⟨s, ack, hs, -, hinv', -, hlive⟩ := alice_opens hinv halice alice.address 0
  obtain ⟨houts, hkeys, -⟩ := server_refines_registry h0 (Trace.nil.snoc hs)
  refine ⟨s₀, s, ack, h0, hs, houts.symm, ?_⟩
  have hsession : s.session? (aliceSession s₀ alice.address 0).key =
      some (aliceSession s₀ alice.address 0) :=
    hinv'.linked.session?_iff.mpr ⟨(hlive _).mpr (.inl rfl), rfl⟩
  have hkey := hkeys (aliceSession s₀ alice.address 0).key
  rw [hsession] at hkey
  exact hkey.symm

/-- The OPEN of `alice` at two servers with different clocks. -/
theorem example_same_inputs : ∃ s₀ s s' : Server Bytes, ∃ ack,
    newServer exampleNet (exampleConfig false) false (.ok ()) = .ok s₀ ∧
      Step exampleNet s₀ (.packet (calmEnv 0) alice.address aliceOpen) [.udp ack alice.address] s ∧
      Step exampleNet s₀ (.packet (calmEnv 7) alice.address aliceOpen) [.udp ack alice.address] s' ∧
      ∀ k, (s.session? k).map Session.lease = (s'.session? k).map Session.lease := by
  obtain ⟨s₀, h0, hinv, -, -, -, halice⟩ := example_newServer false
  obtain ⟨s, ack, hs, -⟩ := alice_opens hinv halice alice.address 0
  obtain ⟨s', ack', hs', -⟩ := alice_opens hinv halice alice.address 7
  obtain ⟨houts, hmap⟩ := inputs_determine_outputs h0 h0 (Trace.nil.snoc hs) (Trace.nil.snoc hs')
    (.cons (.packet alice.address aliceOpen rfl) .nil)
  have hack : ack = ack' := by
    simpa using houts
  exact ⟨s₀, s, s', ack, h0, hs, hack ▸ hs', hmap⟩

end Iwand.Server
