import Iwand.Server.Outcomes

/-!
# The session table over whole runs

Results about every state that the server can reach from a configuration that
`newServer` accepts, by any datagrams from any remotes and any packets from the
exit device, with any session ids drawn.

* `server_table_invariant`: the maps, the users and the parameters of the
  sessions.
* `server_never_panics`: no datagram and no exit packet leads to a panic.
* `only_control_packets_change_sessions`: what each packet does to the two maps.
-/

namespace Iwand.Server

open Go

variable {R : Type}

/-! ## Runs -/

section

variable {net : Net R} {env : Env} {s s₀ : Server R} {remote : R} {packet : Bytes} {r : Res R}

theorem Outcome.config (h : Outcome net env s remote packet r) : r.server.config = s.config := by
  cases h with
  | ignored => rfl
  | rejected => rfl
  | noIds => rfl
  | opened _ _ _ _ _ _ _ _ _ _ _ hconfig => exact hconfig
  | closed _ _ _ _ _ _ hconfig => exact hconfig
  | echoed _ _ _ _ _ _ hren => exact hren.config
  | dropped _ _ _ _ _ hren => exact hren.config
  | relayed _ _ _ _ hren => exact hren.config
  | exited _ _ _ hren => exact hren.config
  | bounced _ _ _ hren => exact hren.config

theorem ExitOutcome.server (h : ExitOutcome env s packet r) : r.server = s := by
  cases h with
  | ignored => rfl
  | demuxed => rfl

/-- The first state has no session. -/
theorem inv_newServer {config : Config} {device : Bool} {openDevice : Except String Unit}
    (h : newServer net config device openDevice = .ok s) :
    Inv net s ∧ normalized net config = .ok s.config ∧ s.live = ∅ := by
  obtain ⟨n, hn, h⟩ := bind_eq_ok h
  have hs : s = { config := n, exit := n.exit.enabled, heap := [], sessions := ∅, byAddress := ∅ } := by
    split_ifs at h
    · cases openDevice with
      | error msg => cases h
      | ok _ => cases h; rfl
    · cases h; rfl
  subst hs
  have hat : ∀ p x, ¬ ({ config := n, exit := n.exit.enabled, heap := [], sessions := ∅,
                         byAddress := ∅ } : Server R).At p x := by
    rintro p x ⟨hx, -⟩
    simp at hx
  refine ⟨⟨normalized_ok hn, rfl, ⟨?_, ?_⟩, ?_, ?_, ?_⟩, hn, ?_⟩
  · intro k p hk
    simp at hk
  · intro a p
    constructor
    · intro hp
      simp at hp
    · rintro ⟨x, hx, -⟩
      exact absurd hx (hat p x)
  · rintro x ⟨p, hx⟩
    exact absurd hx (hat p x)
  · rintro x ⟨p, hx⟩
    exact absurd hx (hat p x)
  · rintro x ⟨p, hx⟩
    exact absurd hx (hat p x)
  · rw [Set.eq_empty_iff_forall_notMem]
    rintro x ⟨p, hx⟩
    exact hat p x hx

/-- **Every event is handled**, without a panic, and keeps the invariant. -/
theorem step_total (h : Inv net s) (e : Event R) :
    ∃ r, step net s e = .ok r ∧ Inv net r.server ∧ r.server.config = s.config := by
  cases e with
  | packet env remote data =>
    obtain ⟨r, hr, hinv, ho⟩ := handlePacket_outcome h env remote data
    exact ⟨r, hr, hinv, ho.config⟩
  | exitPacket env data =>
    rw [step]
    split_ifs with hexit
    · obtain ⟨r, hr, hinv, ho⟩ := handleExitPacket_outcome h env data
      exact ⟨r, hr, hinv, by rw [ho.server]⟩
    · exact ⟨_, rfl, h, rfl⟩

theorem inv_step {s' : Server R} {e : Event R} {outs : List (Out R)} (h : Inv net s)
    (hs : Step net s e outs s') : Inv net s' ∧ s'.config = s.config := by
  obtain ⟨err, hs⟩ := hs
  obtain ⟨r, hr, hinv, hconfig⟩ := step_total h e
  rw [hs] at hr
  cases hr
  exact ⟨hinv, hconfig⟩

/-- One step of a run. -/
abbrev StepRecord (R : Type) := Record (Server R) (Event R) (Out R)

theorem reachable_inv {tr : List (StepRecord R)} (h0 : Inv net s₀)
    (h : Trace (Step net) s₀ tr s) : Inv net s ∧ s.config = s₀.config := by
  refine h.invariant_state (P := fun s => Inv net s ∧ s.config = s₀.config) ⟨h0, rfl⟩ ?_
  rintro s e outs s' ⟨hinv, hconfig⟩ hs
  obtain ⟨hinv', hconfig'⟩ := inv_step hinv hs
  exact ⟨hinv', hconfig'.trans hconfig⟩

/-! ## The session table in every reachable state -/

/-- `s.sessions[k]`, dereferenced. -/
def Server.session? (s : Server R) (k : SessionKey) : Option (Session R) :=
  (s.sessions.lookup k).bind fun p => s.heap[p]?

/-- The two maps and the configuration agree: each session is stored under its
    own key, there is one session for each user and for each remote, the address
    map holds exactly the stored sessions under their users' addresses, and each
    session was negotiated within the configuration. -/
structure TableInvariant (s : Server R) : Prop where
  stored : ∀ k p, s.sessions.lookup k = some p → ∃ x, s.heap[p]? = some x ∧ x.key = k
  one_user : ∀ k₁ k₂ x₁ x₂, s.session? k₁ = some x₁ → s.session? k₂ = some x₂ →
    x₁.user.username = x₂.user.username → k₁ = k₂
  one_remote : ∀ k₁ k₂ x₁ x₂, s.session? k₁ = some x₁ → s.session? k₂ = some x₂ →
    k₁.remote = k₂.remote → k₁ = k₂
  routed : ∀ a p, s.byAddress.lookup a = some p ↔
    ∃ k x, s.sessions.lookup k = some p ∧ s.heap[p]? = some x ∧ x.user.address = a
  user : ∀ k x, s.session? k = some x → s.config.users.lookup x.user.username = some x.user
  encrypt : ∀ k x, s.session? k = some x → x.encrypt = true → x.user.allowEncrypt = true
  mtu : ∀ k x, s.session? k = some x → minMTU ≤ x.mtu ∧ x.mtu ≤ s.config.mtu

/-- The sessions of the table are the live sessions, under their keys. -/
theorem Linked.session?_iff (hl : Linked s) {k : SessionKey} {x : Session R} :
    s.session? k = some x ↔ x ∈ s.live ∧ x.key = k := by
  rw [Server.session?, Option.bind_eq_some_iff]
  constructor
  · rintro ⟨p, hk, hx⟩
    obtain ⟨y, hy, rfl⟩ := hl.at_of_lookup hk
    rw [hy.1] at hx
    cases hx
    exact ⟨⟨p, hy⟩, rfl⟩
  · rintro ⟨⟨p, hx⟩, rfl⟩
    exact ⟨p, hx.2, hx.1⟩

theorem Inv.table (h : Inv net s) : TableInvariant s := by
  have hl := h.linked
  refine ⟨hl.stored, ?_, ?_, ?_, ?_, ?_, ?_⟩
  · intro k₁ k₂ x₁ x₂ h₁ h₂ hname
    obtain ⟨hx₁, rfl⟩ := hl.session?_iff.mp h₁
    obtain ⟨hx₂, rfl⟩ := hl.session?_iff.mp h₂
    rw [h.oneUser x₁ hx₁ x₂ hx₂ hname]
  · intro k₁ k₂ x₁ x₂ h₁ h₂ hrem
    obtain ⟨hx₁, rfl⟩ := hl.session?_iff.mp h₁
    obtain ⟨hx₂, rfl⟩ := hl.session?_iff.mp h₂
    rw [h.oneRemote x₁ hx₁ x₂ hx₂ hrem]
  · intro a p
    rw [hl.routed a p]
    constructor
    · rintro ⟨x, hx, ha⟩
      exact ⟨x.key, x, hx.2, hx.1, ha⟩
    · rintro ⟨k, x, hk, hx, ha⟩
      obtain ⟨y, hy, rfl⟩ := hl.at_of_lookup hk
      rw [hy.1] at hx
      cases hx
      exact ⟨x, hy, ha⟩
  · intro k x hx
    exact (h.session x (hl.session?_iff.mp hx).1).user
  · intro k x hx
    exact (h.session x (hl.session?_iff.mp hx).1).encrypt
  · intro k x hx
    have hok := h.session x (hl.session?_iff.mp hx).1
    exact ⟨hok.mtu_min, hok.mtu_max⟩

/-- **The session table.** In every state that the server reaches from a
    configuration that `newServer` accepts, by any datagrams and exit packets and
    with any random ids, the two maps are in step; and the next event, whatever it
    is, is handled. -/
theorem server_table_invariant {config : Config} {device : Bool}
    {openDevice : Except String Unit} {tr : List (StepRecord R)}
    (h0 : newServer net config device openDevice = .ok s₀) (h : Trace (Step net) s₀ tr s) :
    normalized net config = .ok s.config ∧ TableInvariant s ∧
      ∀ e, ∃ outs s', Step net s e outs s' := by
  obtain ⟨hinv₀, hn, -⟩ := inv_newServer h0
  obtain ⟨hinv, hconfig⟩ := reachable_inv hinv₀ h
  refine ⟨hconfig ▸ hn, hinv.table, fun e => ?_⟩
  obtain ⟨r, hr, -, -⟩ := step_total hinv e
  exact ⟨r.outs, r.server, r.err, hr⟩

end

/-! ## Panics -/

section

variable {net : Net R} {env : Env} {s s₀ : Server R} {remote : R} {packet : Bytes} {r : Res R}

/-- The errors of `newSessionIDs` have texts of their own. -/
theorem newSessionIDs_ne (h : newSessionIDs env = .error exitDeviceMissing) : False := by
  have htoken : ∀ msg, "generate token: " ++ msg ≠ exitDeviceMissing := by
    intro msg h
    have := congrArg (fun t => t.toList.head?) h
    simp [exitDeviceMissing] at this
  have hid : ∀ msg, "generate session id: " ++ msg ≠ exitDeviceMissing := by
    intro msg h
    have := congrArg (fun t => t.toList.head?) h
    simp [exitDeviceMissing] at this
  unfold newSessionIDs at h
  split at h
  · exact htoken _ (Except.error.inj h)
  · exact hid _ (Except.error.inj h)
  · cases h

/-- A call returns the error of the missing device only if a write does. -/
theorem Outcome.err (h : Outcome net env s remote packet r) (herr : r.err = some exitDeviceMissing) :
    env.writeErr = some exitDeviceMissing ∨ env.exitErr = some exitDeviceMissing := by
  cases h with
  | ignored => cases herr
  | rejected => exact .inl herr
  | noIds msg hids =>
    cases herr
    exact (newSessionIDs_ne hids).elim
  | opened => exact .inl herr
  | closed => cases herr
  | echoed => exact .inl herr
  | dropped => cases herr
  | relayed => exact .inl herr
  | exited => exact .inr herr
  | bounced => exact .inl herr

theorem ExitOutcome.err (h : ExitOutcome env s packet r) (herr : r.err = some exitDeviceMissing) :
    env.writeErr = some exitDeviceMissing := by
  cases h with
  | ignored => cases herr
  | demuxed => exact herr

/-- **No panic.** In every reachable state, every datagram and every packet from
    the exit device is handled to the end; the error for a missing device is
    returned only if the text comes from a failed write; and the TLV loop
    terminates on every input. -/
theorem server_never_panics {config : Config} {device : Bool} {openDevice : Except String Unit}
    {tr : List (StepRecord R)} (h0 : newServer net config device openDevice = .ok s₀)
    (h : Trace (Step net) s₀ tr s) :
    (∀ env remote packet, ∃ r, handlePacket net env s remote packet = .ok r ∧
      (r.err = some exitDeviceMissing →
        env.writeErr = some exitDeviceMissing ∨ env.exitErr = some exitDeviceMissing)) ∧
    (∀ env payload, ∃ r, handleExitPacket env s payload = .ok r ∧
      (r.err = some exitDeviceMissing → env.writeErr = some exitDeviceMissing)) ∧
    ∀ data, NoPanic (parseTLVs data) := by
  obtain ⟨hinv, -⟩ := reachable_inv (inv_newServer h0).1 h
  refine ⟨fun env remote packet => ?_, fun env payload => ?_, parseTLVs_noPanic⟩
  · obtain ⟨r, hr, -, ho⟩ := handlePacket_outcome hinv env remote packet
    exact ⟨r, hr, ho.err⟩
  · obtain ⟨r, hr, -, ho⟩ := handleExitPacket_outcome hinv env payload
    exact ⟨r, hr, ho.err⟩

/-! ## Changes of the table -/

/-- `s.byAddress[a]`, dereferenced. -/
def Server.route? (s : Server R) (a : Addr) : Option (Session R) :=
  (s.byAddress.lookup a).bind fun p => s.heap[p]?

theorem Linked.route?_iff (hl : Linked s) {a : Addr} {x : Session R} :
    s.route? a = some x ↔ x ∈ s.live ∧ x.user.address = a := by
  rw [Server.route?, Option.bind_eq_some_iff]
  constructor
  · rintro ⟨p, ha, hx⟩
    obtain ⟨y, hy, hya⟩ := (hl.routed a p).mp ha
    rw [hy.1] at hx
    cases hx
    exact ⟨⟨p, hy⟩, hya⟩
  · rintro ⟨⟨p, hx⟩, ha⟩
    exact ⟨p, (hl.routed a p).mpr ⟨x, hx, ha⟩, hx.1⟩

/-- The packet is an OPEN of a configured user with the right password, and there
    are random ids. -/
structure OpenAccepted (env : Env) (s : Server R) (packet : Bytes) (request : OpenRequest)
    (user : ConfiguredUser) (token : Vector UInt8 2) (sessionID : Vector UInt8 4) : Prop where
  parse : parseOpenPacket packet = .ok request
  lookup : s.config.users.lookup request.username = some user
  password : passwordMatches user.username user.password request.passwordBlock = true
  ids : newSessionIDs env = .ok (token, sessionID)

/-- The packet is a signed CLOSE of a session in the table. -/
def CloseAccepted (net : Net R) (s : Server R) (remote : R) (packet : Bytes) : Prop :=
  Wire.typ packet = packetClose ∧ Wire.Signed packet ∧
    (s.session? (packetKey net remote packet)).isSome

/-- Both maps, without the sessions that fail `keep`. -/
def Keeps (s s' : Server R) (keep : Session R → Bool) : Prop :=
  (∀ k, s'.session? k = (s.session? k).filter keep) ∧
    ∀ a, s'.route? a = (s.route? a).filter keep

/-- Both maps, without the sessions that fail `keep` and with `next`. -/
def Replaces (s s' : Server R) (keep : Session R → Bool) (next : Session R) : Prop :=
  (∀ k, s'.session? k = if k = next.key then some next else (s.session? k).filter keep) ∧
    ∀ a, s'.route? a = if a = next.user.address then some next else (s.route? a).filter keep

/-- The pointers in both maps are the same, and each session is the same up to
    the time at which the one under `key` was last seen. -/
def KeepsAll (s s' : Server R) (key : SessionKey) (now : ℕ) : Prop :=
  s'.sessions = s.sessions ∧ s'.byAddress = s.byAddress ∧
    ((∀ k, s'.session? k = s.session? k) ∨ ∀ k, s'.session? k = (s.session? k).map (renew key now))

variable {s' : Server R}

theorem keeps_of_live (hl : Linked s) (hl' : Linked s') {keep : Session R → Bool}
    (h : ∀ y, y ∈ s'.live ↔ y ∈ s.live ∧ keep y = true) : Keeps s s' keep := by
  constructor
  · intro k
    ext x
    rw [hl'.session?_iff, Option.filter_eq_some_iff, hl.session?_iff, h x, and_right_comm]
  · intro a
    ext x
    rw [hl'.route?_iff, Option.filter_eq_some_iff, hl.route?_iff, h x, and_right_comm]

theorem replaces_of_live (hl : Linked s) (hl' : Linked s') {keep : Session R → Bool}
    {next : Session R} (h : ∀ y, y ∈ s'.live ↔ y = next ∨ y ∈ s.live ∧ keep y = true) :
    Replaces s s' keep next := by
  have hnext : next ∈ s'.live := (h next).mpr (.inl rfl)
  constructor
  · intro k
    split_ifs with hk
    · exact hl'.session?_iff.mpr ⟨hnext, hk.symm⟩
    · ext x
      rw [hl'.session?_iff, Option.filter_eq_some_iff, hl.session?_iff, h x]
      constructor
      · rintro ⟨rfl | hx, hxk⟩
        · exact absurd hxk.symm hk
        · exact ⟨⟨hx.1, hxk⟩, hx.2⟩
      · rintro ⟨⟨hx, hxk⟩, hkeep⟩
        exact ⟨.inr ⟨hx, hkeep⟩, hxk⟩
  · intro a
    split_ifs with ha
    · exact hl'.route?_iff.mpr ⟨hnext, ha.symm⟩
    · ext x
      rw [hl'.route?_iff, Option.filter_eq_some_iff, hl.route?_iff, h x]
      constructor
      · rintro ⟨rfl | hx, hxa⟩
        · exact absurd hxa.symm ha
        · exact ⟨⟨hx.1, hxa⟩, hx.2⟩
      · rintro ⟨⟨hx, hxa⟩, hkeep⟩
        exact ⟨.inr ⟨hx, hkeep⟩, hxa⟩

theorem keepsAll_of_renewed (hl : Linked s) {key : SessionKey} {now : ℕ}
    (h : Renewed net s key now s') : KeepsAll s s' key now := by
  refine ⟨h.sessions, h.byAddress, .inr fun k => ?_⟩
  ext x
  rw [h.inv.linked.session?_iff, h.live x, Option.map_eq_some_iff]
  constructor
  · rintro ⟨⟨z, hz, rfl⟩, hk⟩
    exact ⟨z, hl.session?_iff.mpr ⟨hz, by simpa using hk⟩, rfl⟩
  · rintro ⟨z, hz, rfl⟩
    obtain ⟨hlive, hk⟩ := hl.session?_iff.mp hz
    exact ⟨⟨z, hlive, rfl⟩, by simpa using hk⟩

/-- The sessions that an OPEN from `remote` for `username` leaves alone. -/
def others (remote username : Bytes) (x : Session R) : Bool :=
  x.key.remote ≠ remote ∧ x.user.username ≠ username

theorem others_iff {remote username : Bytes} {x : Session R} :
    others remote username x = true ↔ ¬ Replaced remote username x := by
  simp [others, Replaced]

/-- An accepted OPEN. -/
theorem handlePacket_accept (h : Inv net s) {request : OpenRequest} {user : ConfiguredUser}
    {token : Vector UInt8 2} {sessionID : Vector UInt8 4}
    (ha : OpenAccepted env s packet request user token sessionID) :
    ∃ r, handlePacket net env s remote packet = .ok r ∧ Replaces s r.server
      (others (net.remoteString remote) user.username)
      (nextSession net env s remote request user token sessionID) := by
  obtain ⟨h24, htyp, -⟩ := parseOpenPacket_ok ha.parse
  obtain ⟨s', ack, heq, -, hinv, -, hlive⟩ := openSession_spec env h
    (nextSession_ok h env remote ha.parse ha.lookup token sessionID)
  refine ⟨⟨s', [.udp ack remote], env.writeErr⟩, ?_,
    replaces_of_live h.linked hinv.linked fun y => ?_⟩
  · rw [handlePacket_open (by omega) htyp, handleOpen_accept ha.parse ha.lookup ha.password, ha.ids]
    exact heq
  · rw [others_iff]
    exact hlive y

/-- A signed CLOSE of a live session removes it. -/
theorem handlePacket_removes (env : Env) (h : Inv net s) {x : Session R} (hx : x ∈ s.live)
    (hkey : x.key = packetKey net remote packet) (htyp : Wire.typ packet = packetClose)
    (hsig : Wire.Signed packet) :
    ∃ s', handlePacket net env s remote packet = .ok ⟨s', [], none⟩ ∧ Inv net s' ∧
      ∀ y, y ∈ s'.live ↔ y ∈ s.live ∧ y.key ≠ x.key := by
  have h24 := hsig.1
  obtain ⟨p, hx⟩ := hx
  obtain ⟨s', hs', hinv, -, hlive⟩ := removeSessionLocked_live h hx
  refine ⟨s', ?_, hinv, hlive⟩
  have hlook : s.sessions.lookup (packetKey net remote packet) = some p := by
    rw [← hkey]
    exact hx.2
  rw [handlePacket_close (by omega) htyp, handleClose, verifyPacket_eq, bind_ok,
    decide_eq_true hsig, if_neg (by simp), keyFromPacket_eq remote (by omega), bind_ok]
  simp only [hlook, hs', bind_ok]
  rfl

/-- An accepted CLOSE. -/
theorem handlePacket_closes (env : Env) (h : Inv net s) (ha : CloseAccepted net s remote packet) :
    ∃ r, handlePacket net env s remote packet = .ok r ∧
      Keeps s r.server fun x => x.key ≠ packetKey net remote packet := by
  obtain ⟨htyp, hsig, hsome⟩ := ha
  obtain ⟨x, hx⟩ := Option.isSome_iff_exists.mp hsome
  obtain ⟨hx, hkey⟩ := h.linked.session?_iff.mp hx
  obtain ⟨s', hs', hinv, hlive⟩ := handlePacket_removes env h hx hkey htyp hsig
  refine ⟨_, hs', keeps_of_live h.linked hinv.linked fun y => ?_⟩
  rw [hlive y, hkey]
  simp

/-- Every other packet. -/
theorem Outcome.keepsAll (hl : Linked s) (h : Outcome net env s remote packet r)
    (hopen : ∀ request user token sessionID,
      ¬ OpenAccepted env s packet request user token sessionID)
    (hclose : ¬ CloseAccepted net s remote packet) :
    KeepsAll s r.server (packetKey net remote packet) env.now := by
  have hsame : KeepsAll s s (packetKey net remote packet) env.now := ⟨rfl, rfl, .inl fun _ => rfl⟩
  cases h with
  | ignored => exact hsame
  | rejected => exact hsame
  | noIds => exact hsame
  | opened request user token sessionID _ _ hparse huser hpass hids =>
    exact absurd ⟨hparse, huser, hpass, hids⟩ (hopen request user token sessionID)
  | closed x _ hx hkey htyp hsig =>
    have hsome := hl.session?_iff.mpr ⟨hx, hkey⟩
    exact absurd ⟨htyp, hsig, by rw [hsome]; rfl⟩ hclose
  | echoed x s' hx hkey _ _ hren => exact keepsAll_of_renewed hl (hkey ▸ hren)
  | dropped x s' hx hkey _ hren => exact keepsAll_of_renewed hl (hkey ▸ hren)
  | relayed x y s' hx hren => exact keepsAll_of_renewed hl (hx.key ▸ hren)
  | exited x s' hx hren => exact keepsAll_of_renewed hl (hx.key ▸ hren)
  | bounced x s' hx hren => exact keepsAll_of_renewed hl (hx.key ▸ hren)

/-- **Only control packets change the sessions.** In every reachable state an
    accepted OPEN replaces exactly the sessions of its remote and of its user by
    one new session, an accepted CLOSE removes exactly its session, and every
    other packet leaves both maps as they are, up to the time at which the session
    whose key it bears was last seen. -/
theorem only_control_packets_change_sessions {config : Config} {device : Bool}
    {openDevice : Except String Unit} {tr : List (StepRecord R)}
    (h0 : newServer net config device openDevice = .ok s₀) (h : Trace (Step net) s₀ tr s)
    (env : Env) (remote : R) (packet : Bytes) :
    ∃ r, handlePacket net env s remote packet = .ok r ∧
      (∀ request user token sessionID, OpenAccepted env s packet request user token sessionID →
        Replaces s r.server (others (net.remoteString remote) user.username)
          (nextSession net env s remote request user token sessionID)) ∧
      (CloseAccepted net s remote packet →
        Keeps s r.server fun x => x.key ≠ packetKey net remote packet) ∧
      ((∀ request user token sessionID,
          ¬ OpenAccepted env s packet request user token sessionID) →
        ¬ CloseAccepted net s remote packet →
        KeepsAll s r.server (packetKey net remote packet) env.now) := by
  obtain ⟨hinv, -⟩ := reachable_inv (inv_newServer h0).1 h
  obtain ⟨r, hr, -, ho⟩ := handlePacket_outcome hinv env remote packet
  refine ⟨r, hr, fun request user token sessionID ha => ?_, fun ha => ?_, ho.keepsAll hinv.linked⟩
  · obtain ⟨r', hr', hrep⟩ := handlePacket_accept hinv ha
    rw [hr] at hr'
    cases hr'
    exact hrep
  · obtain ⟨r', hr', hkeep⟩ := handlePacket_closes env hinv ha
    rw [hr] at hr'
    cases hr'
    exact hkeep

end

/-! ## The example -/

/-- An environment with the ids 0 and no failures. -/
def calmEnv (now : ℕ) : Env where
  randToken := .ok (Vector.replicate 2 0)
  randSessionID := .ok (Vector.replicate 4 0)
  now := now
  writeErr := none
  exitErr := none
  order := ⟨id, fun l => .refl l⟩

theorem newSessionIDs_calmEnv (now : ℕ) :
    newSessionIDs (calmEnv now) = .ok (Vector.replicate 2 0, Vector.replicate 4 0) :=
  rfl

/-- What `alice` asks for in her OPEN. -/
def aliceRequest : OpenRequest :=
  ⟨alice.username, encryptedPassword alice.username alice.password, 1400, false⟩

/-- The OPEN of `alice`. -/
def aliceOpen : Bytes :=
  Wire.signedHeader packetOpen 0 (Vector.replicate 2 0) (Vector.replicate 4 0) ++
    Wire.encode ([⟨3, [((1400 : UInt16) >>> 8).toUInt8, (1400 : UInt16).toUInt8]⟩,
      ⟨1, alice.username⟩, ⟨2, aliceRequest.passwordBlock.toList⟩] ++ [])

theorem parseOpenPacket_aliceOpen : parseOpenPacket aliceOpen = .ok aliceRequest := by
  have h := parseOpenPacket_items 0 (Vector.replicate 2 0) (Vector.replicate 4 0) 1400 alice.username
    aliceRequest.passwordBlock [] (by decide) (by decide) (by decide) (by decide) (by simp) (by simp)
  rw [aliceOpen, h]
  rfl

/-- The example server before any event. -/
theorem example_newServer (exit : Bool) : ∃ s₀ : Server Bytes,
    newServer exampleNet (exampleConfig exit) false (.ok ()) = .ok s₀ ∧ Inv exampleNet s₀ ∧
      s₀.live = ∅ ∧ s₀.config.exit.enabled = exit ∧ s₀.config.exit.strictSource = true ∧
      s₀.config.users.lookup alice.username = some (alice.configured exampleNet) := by
  obtain ⟨n, hn, -, -, hexit, hstrict, hlook⟩ := normalized_valid (exampleConfig_valid exit)
  have hs₀ : newServer exampleNet (exampleConfig exit) false (.ok ()) =
      .ok { config := n, exit := n.exit.enabled, heap := [], sessions := ∅, byAddress := ∅ } := by
    rw [newServer, hn, bind_ok]
    split_ifs <;> rfl
  obtain ⟨hinv, -, hlive⟩ := inv_newServer hs₀
  exact ⟨_, hs₀, hinv, hlive, hexit, hstrict, (hlook alice.username).trans rfl⟩

/-- The session that `alice` gets. -/
def aliceSession (s : Server Bytes) (remote : Bytes) (now : ℕ) : Session Bytes :=
  nextSession exampleNet (calmEnv now) s remote aliceRequest (alice.configured exampleNet)
    (Vector.replicate 2 0) (Vector.replicate 4 0)

/-- Her OPEN is accepted from any remote. -/
theorem alice_opens {s : Server Bytes} (h : Inv exampleNet s)
    (halice : s.config.users.lookup alice.username = some (alice.configured exampleNet))
    (remote : Bytes) (now : ℕ) :
    ∃ s' ack, Step exampleNet s (.packet (calmEnv now) remote aliceOpen) [.udp ack remote] s' ∧
      buildOpenAck (Vector.replicate 2 0) (Vector.replicate 4 0) (aliceSession s remote now).mtu
        (alice.configured exampleNet).address s.config.dns (aliceSession s remote now).encrypt =
        .ok ack ∧
      Inv exampleNet s' ∧ s'.config = s.config ∧
      ∀ y, y ∈ s'.live ↔ y = aliceSession s remote now ∨
        y ∈ s.live ∧ ¬ Replaced remote alice.username y := by
  obtain ⟨s', ack, heq, hack, hinv, hconfig, hlive⟩ := openSession_spec (calmEnv now) h
    (nextSession_ok h (calmEnv now) remote parseOpenPacket_aliceOpen halice
      (Vector.replicate 2 0) (Vector.replicate 4 0))
  refine ⟨s', ack, ⟨none, ?_⟩, hack, hinv, hconfig, hlive⟩
  have hpass : passwordMatches (alice.configured exampleNet).username
      (alice.configured exampleNet).password aliceRequest.passwordBlock = true :=
    decide_eq_true rfl
  have h8 : 8 ≤ aliceOpen.length := by
    rw [aliceOpen, List.length_append, Wire.length_signedHeader]
    omega
  rw [step, handlePacket_open h8 rfl, handleOpen_accept parseOpenPacket_aliceOpen halice hpass]
  exact heq

/-- The table of the example server is in step after `alice` has opened a
    session. -/
theorem example_table_invariant : ∃ s₀ s : Server Bytes, ∃ ack,
    newServer exampleNet (exampleConfig false) false (.ok ()) = .ok s₀ ∧
      Step exampleNet s₀ (.packet (calmEnv 0) alice.address aliceOpen) [.udp ack alice.address] s ∧
      TableInvariant s := by
  obtain ⟨s₀, hs₀, hinv, -, -, -, halice⟩ := example_newServer false
  obtain ⟨s, ack, hstep, -⟩ := alice_opens hinv halice alice.address 0
  exact ⟨s₀, s, ack, hs₀, hstep, (server_table_invariant hs₀ (.snoc .nil hstep)).2.1⟩

/-- No packet makes the example server panic once `alice` has a session. -/
theorem example_never_panics : ∃ s₀ s : Server Bytes, ∃ ack,
    newServer exampleNet (exampleConfig true) false (.ok ()) = .ok s₀ ∧
      Step exampleNet s₀ (.packet (calmEnv 0) alice.address aliceOpen) [.udp ack alice.address] s ∧
      ∀ packet, ∃ r, handlePacket exampleNet (calmEnv 1) s alice.address packet = .ok r ∧
        r.err ≠ some exitDeviceMissing := by
  obtain ⟨s₀, hs₀, hinv, -, -, -, halice⟩ := example_newServer true
  obtain ⟨s, ack, hstep, -⟩ := alice_opens hinv halice alice.address 0
  refine ⟨s₀, s, ack, hs₀, hstep, fun packet => ?_⟩
  obtain ⟨r, hr, herr⟩ := (server_never_panics hs₀ (.snoc .nil hstep)).1 (calmEnv 1) alice.address packet
  exact ⟨r, hr, fun he => by rcases herr he with h | h <;> cases h⟩

/-- An OPEN of `alice` at the new example server puts her session, and no other,
    in the table. -/
theorem example_open_changes_sessions : ∃ s₀ : Server Bytes, ∃ r,
    newServer exampleNet (exampleConfig false) false (.ok ()) = .ok s₀ ∧
      handlePacket exampleNet (calmEnv 0) s₀ alice.address aliceOpen = .ok r ∧
      Replaces s₀ r.server (others alice.address alice.username)
        (aliceSession s₀ alice.address 0) := by
  obtain ⟨s₀, hs₀, -, -, -, -, halice⟩ := example_newServer false
  obtain ⟨r, hr, hopen, -⟩ := only_control_packets_change_sessions hs₀ .nil (calmEnv 0)
    alice.address aliceOpen
  exact ⟨s₀, r, hs₀, hr, hopen _ _ _ _ ⟨parseOpenPacket_aliceOpen, halice, decide_eq_true rfl, rfl⟩⟩

end Iwand.Server
