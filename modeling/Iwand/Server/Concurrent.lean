import Iwand.Common.Interleave
import Iwand.Server.Isolation

/-!
# The two goroutines of the server

`Serve` (`server/server.go` lines 104–131) reads datagrams and calls
`handlePacket`; `serveExitDevice` (lines 296–313) runs beside it, reads the exit
device and calls `handleExitPacket`. Both work on the maps under `s.access`. Here a
call is a program of the sections between `Lock` and `Unlock` and of the writes to
the socket and the device, and the sections and writes of the two goroutines may
fall between each other in any order. `config` and `exit` are set once by
`newServer` and read without the lock; `srv` stands for the server as `newServer`
left it.

* `handlePacket_run`, `handleExitPacket_run`: without interruption a call is one
  step of `Server`.
* `server_linearizable`: every interleaving of the two goroutines is a run of the
  server in which each call is one step.
* `stale_datagrams`: after a session was removed, `Serve` writes nothing more to
  it, and the reader of the exit device at most one datagram.
-/

namespace Iwand.Server.Concurrent

open Go

variable {R : Type}

/-! ## Calls -/

/-- A call of a handler, with the error that it returns. -/
abbrev Call (R : Type) := Prog (Server R) (Out R) (Go (Option String))

/-- A computation on data of the call alone, and what follows. -/
def local_ {β : Type} (x : Go β) (k : β → Call R) : Call R :=
  match x with
  | .ok b => k b
  | .error fault => .ret (.error fault)

/-- The state after the body of a section. -/
def sectionState {β : Type} (body : Server R → Go (Server R × β)) (s : Server R) : Server R :=
  match body s with
  | .ok (s', _) => s'
  | .error _ => s

/-- What follows the body of a section. -/
def sectionRest {β : Type} (body : Server R → Go (Server R × β)) (k : β → Call R) (s : Server R) :
    Call R :=
  match body s with
  | .ok (_, b) => k b
  | .error fault => .ret (.error fault)

/-- The body between `s.access.Lock()` and `s.access.Unlock()`, and what follows. -/
def locked {β : Type} (body : Server R → Go (Server R × β)) (k : β → Call R) : Call R :=
  .crit (sectionState body) (sectionRest body k)

/-- `return nil`. -/
def done : Call R := .ret (.ok none)

/-- `_, err = conn.WriteToUDP(pkt, remote); return err`. -/
def writeToUDP (env : Env) (pkt : Bytes) (remote : R) : Call R :=
  .emit (.udp pkt remote) (.ret (.ok env.writeErr))

/-- `handleOpen` up to the end of its section (lines 206–209). -/
def installSession (net : Net R) (env : Env) (next : Session R) (s : Server R) :
    Go (Server R × Unit) := do
  let p := s.heap.length
  let s := { s with heap := s.heap ++ [next] }
  let s ← removeSessionsForRemoteOrUserLocked env s (net.remoteString next.remote)
    next.user.username
  return ({ s with sessions := s.sessions.insert next.key p
                   byAddress := s.byAddress.insert next.user.address p }, ())

/-- `handleOpen` (lines 151–215). -/
def handleOpen (net : Net R) (srv : Server R) (env : Env) (remote : R) (packet : Bytes) : Call R :=
  local_ (attempt (parseOpenPacket packet)) fun parsed =>
    match parsed with
    | .error _ => local_ buildOpenReject fun pkt => writeToUDP env pkt remote
    | .ok request =>
      match srv.config.users.lookup request.username with
      | none => local_ buildOpenReject fun pkt => writeToUDP env pkt remote
      | some user =>
        if passwordMatches user.username user.password request.passwordBlock = false then
          local_ buildOpenReject fun pkt => writeToUDP env pkt remote
        else
          match newSessionIDs env with
          | .error msg => .ret (.ok (some msg))
          | .ok (token, sessionID) =>
            let next := nextSession net env srv remote request user token sessionID
            locked (installSession net env next) fun _ =>
              local_ (buildOpenAck token sessionID next.mtu user.address srv.config.dns
                next.encrypt) fun response => writeToUDP env response remote

/-- `handleEchoReq` (lines 217–228). -/
def handleEchoReq (net : Net R) (env : Env) (remote : R) (packet : Bytes) : Call R :=
  local_ (verifyPacket packet) fun valid =>
    if valid = false then done
    else
      locked (fun s => sessionForPacket net env s remote packet) fun found =>
        match found with
        | none => done
        | some outbound =>
          local_ (sliceFrom packet signedHeaderSize) fun payload =>
            local_ (buildEchoResp outbound.token outbound.sessionID payload) fun response =>
              writeToUDP env response outbound.remote

/-- `handleClose` (lines 230–243). -/
def handleClose (net : Net R) (remote : R) (packet : Bytes) : Call R :=
  local_ (verifyPacket packet) fun valid =>
    if valid = false then done
    else
      local_ (keyFromPacket net remote packet) fun key =>
        locked
          (fun s =>
            match s.sessions.lookup key with
            | none => .ok (s, ())
            | some p => do return (← removeSessionLocked s p, ()))
          fun _ => done

/-- Send a payload to a session (lines 273–275, 290–292, 325–327). -/
def sendData (env : Env) (target : OutboundSession R) (payload : Bytes) : Call R :=
  local_ (buildDataPacket target.token target.sessionID payload target.encrypt target.xorKey)
    fun response => writeToUDP env response target.remote

/-- `outboundForAddress` with its lock (lines 349–357). -/
def withOutbound (destination : Addr) (k : Option (OutboundSession R) → Call R) : Call R :=
  locked (fun s => do return (s, ← outboundForAddress s destination)) k

/-- `handleData` on the payload of `source`, after decryption (lines 263–293). -/
def routePayload (srv : Server R) (env : Env) (source : OutboundSession R) (payload : Bytes) :
    Call R :=
  local_ (attempt (parseIPv4Packet payload)) fun parsed =>
    match parsed with
    | .ok parsed =>
      let trimmed := if srv.config.exit.enabled then parsed.packet else payload
      if srv.config.exit.enabled ∧ srv.config.exit.strictSource ∧ parsed.source ≠ source.address then
        done
      else
        withOutbound parsed.destination fun target =>
          match target with
          | some target => sendData env target trimmed
          | none =>
            if srv.config.exit.enabled then
              if srv.exit = false then .ret (.ok (some exitDeviceMissing))
              else .emit (.exit trimmed) (.ret (.ok env.exitErr))
            else sendData env source payload
    | .error _ => if srv.config.exit.enabled then done else sendData env source payload

/-- `handleData` (lines 245–294). -/
def handleData (net : Net R) (srv : Server R) (env : Env) (remote : R) (packet : Bytes) : Call R :=
  if packet.length ≤ headerSize then done
  else
    locked (fun s => sessionForPacket net env s remote packet) fun found =>
      match found with
      | none => done
      | some source =>
        local_ (idx packet 0) fun typ =>
          if typ = packetDataEnc ∧ source.encrypt = false then done
          else if typ = packetData ∧ source.encrypt then done
          else
            local_ (sliceFrom packet headerSize) fun payload =>
              routePayload srv env source
                (if typ = packetDataEnc then xorData source.xorKey payload else payload)

/-- `handlePacket` (lines 133–149). -/
def handlePacket (net : Net R) (srv : Server R) (env : Env) (remote : R) (packet : Bytes) :
    Call R :=
  if packet.length < headerSize then done
  else
    local_ (idx packet 0) fun typ =>
      if typ = packetOpen then handleOpen net srv env remote packet
      else if typ = packetEchoReq then handleEchoReq net env remote packet
      else if typ = packetClose then handleClose net remote packet
      else if typ = packetData ∨ typ = packetDataEnc then handleData net srv env remote packet
      else done

/-- `handleExitPacket` (lines 315–327). -/
def handleExitPacket (env : Env) (payload : Bytes) : Call R :=
  local_ (attempt (parseIPv4Packet payload)) fun parsed =>
    match parsed with
    | .error _ => done
    | .ok parsed =>
      withOutbound parsed.destination fun target =>
        match target with
        | none => done
        | some target => sendData env target parsed.packet

/-! ## Goroutines -/

/-- The goroutine of `Serve` and the one that it starts for the exit device. -/
inductive Goroutine where
  | serve
  | exitDevice
deriving DecidableEq

/-- Who makes a call. -/
def goroutine : Event R → Goroutine
  | .packet .. => .serve
  | .exitPacket .. => .exitDevice

/-- The program of a call. Without a packet device there is no second goroutine
    (lines 110–117). -/
def call (net : Net R) (srv : Server R) : Event R → Call R
  | .packet env remote data => handlePacket net srv env remote data
  | .exitPacket env data => if srv.exit then handleExitPacket env data else done

/-- The server with its goroutines. -/
abbrev State (R : Type) := Threads Goroutine (Event R) (Server R) (Out R) (Go (Option String))

/-- One section or write of one goroutine, or the beginning of a call. -/
abbrev Step (net : Net R) (srv : Server R) : State R → Act Goroutine (Event R) →
    List (Goroutine × Out R) → State R → Prop :=
  Threads.Step goroutine (call net srv)

/-- One step of a concurrent run. -/
abbrev StepRecord (R : Type) := Record (State R) (Act Goroutine (Event R)) (Goroutine × Out R)

/-! ## Calls without interruption -/

section

variable {net : Net R} {srv s s' : Server R} {env : Env} {remote : R} {packet payload : Bytes}
  {β : Type}

theorem local_ok (b : β) (k : β → Call R) : local_ (.ok b) k = k b := rfl

theorem run_locked {body : Server R → Go (Server R × β)} {b : β} (k : β → Call R)
    (h : body s = .ok (s', b)) : (locked body k).run s = (k b).run s' := by
  unfold locked sectionState sectionRest
  rw [Prog.run, h]

/-- The call ends as the handler does: same state, same writes, same error. -/
def Runs (p : Call R) (s : Server R) (x : Go (Res R)) : Prop :=
  ∀ r, x = .ok r → p.run s = (r.server, r.outs, .ok r.err)

theorem runs_ret (s : Server R) (err : Option String) :
    Runs (.ret (.ok err)) s (.ok ⟨s, [], err⟩) := by
  intro r hr
  cases hr
  rfl

theorem runs_writeToUDP (env : Env) (s : Server R) (pkt : Bytes) (remote : R) :
    Runs (writeToUDP env pkt remote) s (.ok (Server.writeToUDP env s pkt remote)) := by
  intro r hr
  cases hr
  rfl

/-- A local computation in both. -/
theorem runs_local {x : Go β} {k : β → Call R} {f : β → Go (Res R)}
    (h : ∀ b, x = .ok b → Runs (k b) s (f b)) : Runs (local_ x k) s (x >>= f) := by
  cases x with
  | error fault => exact fun r hr => by cases hr
  | ok b => exact h b rfl

/-- A section in both. -/
theorem runs_locked {body : Server R → Go (Server R × β)} {k : β → Call R}
    {f : Server R × β → Go (Res R)} (h : ∀ s' b, body s = .ok (s', b) → Runs (k b) s' (f (s', b))) :
    Runs (locked body k) s (body s >>= f) := by
  intro r hr
  obtain ⟨⟨s', b⟩, hbody, hf⟩ := bind_eq_ok hr
  rw [run_locked k hbody]
  exact h s' b hbody r hf

theorem sendData_run (env : Env) (s : Server R) (target : OutboundSession R) (payload : Bytes) :
    Runs (sendData env target payload) s (Server.sendData env s target payload) := by
  unfold sendData Server.sendData
  exact runs_local fun b _ => runs_writeToUDP env s b target.remote

/-- A session is installed, and then the OPENACK is built. -/
theorem openSession_eq (net : Net R) (env : Env) (s : Server R) (next : Session R) :
    openSession net env s next = (installSession net env next s >>= fun x => do
      let response ← buildOpenAck next.key.token next.key.sessionID next.mtu next.user.address
        x.1.config.dns next.encrypt
      return Server.writeToUDP env x.1 response next.remote) := by
  unfold openSession installSession
  simp only [bind_assoc, pure_bind]

theorem installSession_config {next : Session R} (h : Inv net s)
    (hnext : SessionOk net s.config next) {x : Server R × Unit}
    (hx : installSession net env next s = .ok x) : x.1.config = s.config := by
  obtain ⟨s', ack, hopen, hack, -, hconfig, -⟩ := openSession_spec env h hnext
  rw [openSession_eq, hx, bind_ok] at hopen
  obtain ⟨response, -, hres⟩ := bind_eq_ok hopen
  cases hres
  exact hconfig

/-- The fields that no call writes. -/
def Fixed (srv s : Server R) : Prop := srv.config = s.config ∧ srv.exit = s.exit

theorem sessionForPacket_fixed {found : Option (OutboundSession R)}
    (h : sessionForPacket net env s remote packet = .ok (s', found)) (hf : Fixed srv s) :
    Fixed srv s' := by
  unfold sessionForPacket at h
  obtain ⟨key, -, h⟩ := bind_eq_ok h
  split at h
  · cases h
    exact hf
  · obtain ⟨current, -, h⟩ := bind_eq_ok h
    cases h
    exact hf

theorem outboundForAddress_fixed {destination : Addr} {target : Option (OutboundSession R)}
    (h : (do return (s, ← outboundForAddress s destination)) = (.ok (s', target) : Go _)) :
    s' = s := by
  obtain ⟨t, -, h⟩ := bind_eq_ok h
  cases h
  rfl

/-- The section of `outboundForAddress`. -/
theorem withOutbound_run {destination : Addr} {k : Option (OutboundSession R) → Call R}
    {f : Option (OutboundSession R) → Go (Res R)} (h : ∀ target, Runs (k target) s (f target)) :
    Runs (withOutbound destination k) s (outboundForAddress s destination >>= f) := by
  have hassoc : (outboundForAddress s destination >>= f) =
      ((do return (s, ← outboundForAddress s destination)) >>= fun x : Server R × _ => f x.2) := by
    simp only [bind_assoc, pure_bind]
  rw [hassoc]
  unfold withOutbound
  refine runs_locked fun s' target hbody => ?_
  rw [outboundForAddress_fixed hbody]
  exact h target

theorem handleOpen_run (h : Inv net s) (hf : Fixed srv s) (env : Env) (remote : R)
    (packet : Bytes) :
    Runs (handleOpen net srv env remote packet) s (Server.handleOpen net env s remote packet) := by
  have hreject : Runs (local_ buildOpenReject fun pkt => writeToUDP env pkt remote) s
      (do return Server.writeToUDP env s (← buildOpenReject) remote) :=
    runs_local fun pkt _ => runs_writeToUDP env s pkt remote
  unfold handleOpen Server.handleOpen
  refine runs_local fun parsed hparsed => ?_
  cases parsed with
  | error msg => exact hreject
  | ok request =>
    have hparse : parseOpenPacket packet = .ok request := by
      cases hp : parseOpenPacket packet with
      | ok a =>
        rw [hp] at hparsed
        cases hparsed
        rfl
      | error fault =>
        rw [hp] at hparsed
        cases fault <;> cases hparsed
    simp only [hf.1]
    cases huser : s.config.users.lookup request.username with
    | none => exact hreject
    | some user =>
      by_cases hpass : passwordMatches user.username user.password request.passwordBlock = false
      · simp only [hpass, if_true]
        exact hreject
      · simp only [hpass]
        cases hids : newSessionIDs env with
        | error msg => exact runs_ret s (some msg)
        | ok ids =>
          obtain ⟨token, sessionID⟩ := ids
          have hnext : nextSession net env srv remote request user token sessionID =
              nextSession net env s remote request user token sessionID := by
            unfold nextSession
            rw [hf.1]
          have hok := nextSession_ok h env remote hparse huser token sessionID
          simp only [hnext]
          rw [openSession_eq]
          refine runs_locked fun s' u hbody => ?_
          rw [installSession_config h hok hbody]
          exact runs_local fun response _ => runs_writeToUDP env s' response _

theorem handleEchoReq_run (s : Server R) (env : Env) (remote : R) (packet : Bytes) :
    Runs (handleEchoReq net env remote packet) s (Server.handleEchoReq net env s remote packet) := by
  unfold handleEchoReq Server.handleEchoReq
  refine runs_local fun valid _ => ?_
  cases valid with
  | false => exact runs_ret s none
  | true =>
    refine runs_locked fun s' found _ => ?_
    cases found with
    | none => exact runs_ret s' none
    | some outbound =>
      refine runs_local fun payload _ => ?_
      exact runs_local fun response _ => runs_writeToUDP env s' response _

theorem handleClose_run (s : Server R) (remote : R) (packet : Bytes) :
    Runs (handleClose net remote packet) s (Server.handleClose net s remote packet) := by
  unfold handleClose Server.handleClose
  refine runs_local fun valid _ => ?_
  cases valid with
  | false => exact runs_ret s none
  | true =>
    refine runs_local fun key _ => ?_
    intro r hr
    cases hlook : s.sessions.lookup key with
    | none =>
      simp only [hlook] at hr
      cases hr
      refine run_locked _ (show _ = Except.ok (s, ()) from ?_)
      simp only [hlook]
    | some p =>
      simp only [hlook] at hr
      obtain ⟨s', hrem, hr⟩ := bind_eq_ok hr
      cases hr
      refine run_locked _ (show _ = Except.ok (s', ()) from ?_)
      simp only [hlook, hrem, bind_ok]
      rfl

theorem routePayload_run (hf : Fixed srv s) (env : Env) (source : OutboundSession R)
    (payload : Bytes) :
    Runs (routePayload srv env source payload) s (Server.routePayload env s source payload) := by
  unfold routePayload Server.routePayload
  refine runs_local fun parsed _ => ?_
  simp only [hf.1, hf.2]
  cases parsed with
  | error msg =>
    simp only
    split_ifs
    · exact runs_ret s none
    · exact sendData_run env s source payload
  | ok parsed =>
    simp only
    split_ifs with hspoof
    · exact runs_ret s none
    all_goals
      refine withOutbound_run fun target => ?_
      cases target with
      | some target => exact sendData_run env s target _
      | none => ?_
    · exact runs_ret s _
    · intro r hr
      cases hr
      rfl
    · exact sendData_run env s source payload

theorem handleData_run (hf : Fixed srv s) (env : Env) (remote : R) (packet : Bytes) :
    Runs (handleData net srv env remote packet) s (Server.handleData net env s remote packet) := by
  unfold handleData Server.handleData
  split_ifs
  · exact runs_ret s none
  · refine runs_locked fun s' found hfound => ?_
    cases found with
    | none => exact runs_ret s' none
    | some source =>
      refine runs_local fun typ _ => ?_
      split_ifs
      · exact runs_ret s' none
      · exact runs_ret s' none
      all_goals
        refine runs_local fun payload _ => ?_
        exact routePayload_run (sessionForPacket_fixed hfound hf) env source _

/-- **A call of `handlePacket`** without interruption is the handler. -/
theorem handlePacket_run (h : Inv net s) (hf : Fixed srv s) (env : Env) (remote : R)
    (packet : Bytes) :
    Runs (handlePacket net srv env remote packet) s (Server.handlePacket net env s remote packet) := by
  unfold handlePacket Server.handlePacket
  split_ifs
  · exact runs_ret s none
  · refine runs_local fun typ _ => ?_
    split_ifs
    · exact handleOpen_run h hf env remote packet
    · exact handleEchoReq_run s env remote packet
    · exact handleClose_run s remote packet
    · exact handleData_run hf env remote packet
    · exact runs_ret s none

/-- **A call of `handleExitPacket`** without interruption is the handler. -/
theorem handleExitPacket_run (s : Server R) (env : Env) (payload : Bytes) :
    Runs (handleExitPacket env payload) s (Server.handleExitPacket env s payload) := by
  unfold handleExitPacket Server.handleExitPacket
  refine runs_local fun parsed _ => ?_
  cases parsed with
  | error msg => exact runs_ret s none
  | ok parsed =>
    refine withOutbound_run fun target => ?_
    cases target with
    | none => exact runs_ret s none
    | some target => exact sendData_run env s target _

/-! ## Which sections write -/

/-- A property of all calls that fail and of what follows a local computation. -/
theorem local_rule {P : Call R → Prop} {x : Go β} {k : β → Call R}
    (herr : ∀ fault, P (.ret (.error fault))) (h : ∀ b, P (k b)) : P (local_ x k) := by
  cases x with
  | error fault => exact herr fault
  | ok b => exact h b

theorem sectionRest_rule {P : Call R → Prop} {body : Server R → Go (Server R × β)}
    {k : β → Call R} (herr : ∀ fault, P (.ret (.error fault))) (h : ∀ b, P (k b)) (s : Server R) :
    P (sectionRest body k s) := by
  unfold sectionRest
  cases body s with
  | error fault => exact herr fault
  | ok x => exact h x.2

theorem quiet_local {x : Go β} {k : β → Call R} (h : ∀ b, (k b).Quiet) : (local_ x k).Quiet :=
  local_rule (fun _ => .ret _) h

theorem writeFirst_local {x : Go β} {k : β → Call R} (h : ∀ b, (k b).WriteFirst) :
    (local_ x k).WriteFirst :=
  local_rule (fun _ => (Prog.ReadOnly.ret _).writeFirst) h

theorem writeFirst_locked {body : Server R → Go (Server R × β)} {k : β → Call R}
    (h : ∀ b, (k b).ReadOnly) : (locked body k).WriteFirst := by
  intro s q hq
  cases hq
  exact sectionRest_rule (fun _ => .ret _) h s

theorem quiet_done : (done : Call R).Quiet := .ret _

theorem quiet_writeToUDP (env : Env) (pkt : Bytes) (remote : R) :
    (writeToUDP env pkt remote).Quiet := .emit _ (.ret _)

theorem quiet_sendData (env : Env) (target : OutboundSession R) (payload : Bytes) :
    (sendData env target payload).Quiet :=
  quiet_local fun b => quiet_writeToUDP env b target.remote

/-- The section of `outboundForAddress` changes nothing. -/
theorem sectionState_outbound (destination : Addr) (s : Server R) :
    sectionState (fun s => do return (s, ← outboundForAddress s destination)) s = s := by
  unfold sectionState
  cases h : outboundForAddress s destination with
  | error fault => simp only [h, bind_error]
  | ok target =>
    simp only [h, bind_ok]
    rfl

theorem readOnly_withOutbound {destination : Addr} {k : Option (OutboundSession R) → Call R}
    (h : ∀ target, (k target).ReadOnly) : (withOutbound destination k).ReadOnly :=
  .crit (sectionState_outbound destination) (sectionRest_rule (fun _ => .ret _) h)

theorem readOnce_withOutbound {destination : Addr} {k : Option (OutboundSession R) → Call R}
    (h : ∀ target, (k target).Quiet) : (withOutbound destination k).ReadOnce := by
  refine fun s => ⟨sectionState_outbound destination s, fun q hq => ?_⟩
  cases hq
  exact sectionRest_rule (fun _ => .ret _) h s

/-- `handleData` renews the session in its first section and only reads in its
    second one. -/
theorem readOnly_routePayload (srv : Server R) (env : Env) (source : OutboundSession R)
    (payload : Bytes) : (routePayload srv env source payload).ReadOnly := by
  unfold routePayload
  refine local_rule (fun _ => .ret _) fun parsed => ?_
  cases parsed with
  | error msg =>
    simp only
    split_ifs
    · exact quiet_done.readOnly
    · exact (quiet_sendData env source payload).readOnly
  | ok parsed =>
    simp only
    split_ifs
    · exact quiet_done.readOnly
    all_goals
      refine readOnly_withOutbound fun target => ?_
      cases target with
      | some target => exact (quiet_sendData env target _).readOnly
      | none => ?_
    · exact .ret _
    · exact .emit _ (.ret _)
    · exact (quiet_sendData env source payload).readOnly

theorem writeFirst_handleOpen (net : Net R) (srv : Server R) (env : Env) (remote : R)
    (packet : Bytes) : (handleOpen net srv env remote packet).WriteFirst := by
  have hreject : (local_ buildOpenReject fun pkt => writeToUDP env pkt remote).WriteFirst :=
    (quiet_local fun pkt => quiet_writeToUDP env pkt remote).readOnly.writeFirst
  unfold handleOpen
  refine writeFirst_local fun parsed => ?_
  cases parsed with
  | error msg => exact hreject
  | ok request =>
    simp only
    cases srv.config.users.lookup request.username with
    | none => exact hreject
    | some user =>
      simp only
      split_ifs
      · exact hreject
      · cases newSessionIDs env with
        | error msg => exact (Prog.ReadOnly.ret _).writeFirst
        | ok ids =>
          refine writeFirst_locked fun _ => ?_
          exact (quiet_local fun b => quiet_writeToUDP env b remote).readOnly

/-- A call of `handlePacket` writes only in its first section. -/
theorem writeFirst_handlePacket (net : Net R) (srv : Server R) (env : Env) (remote : R)
    (packet : Bytes) : (handlePacket net srv env remote packet).WriteFirst := by
  have hdone : (done : Call R).WriteFirst := quiet_done.readOnly.writeFirst
  unfold handlePacket
  split_ifs
  · exact hdone
  refine writeFirst_local fun typ => ?_
  split_ifs
  · exact writeFirst_handleOpen net srv env remote packet
  · unfold handleEchoReq
    refine writeFirst_local fun valid => ?_
    split_ifs
    · exact hdone
    · refine writeFirst_locked fun found => ?_
      cases found with
      | none => exact quiet_done.readOnly
      | some outbound =>
        refine (quiet_local fun payload => ?_).readOnly
        exact quiet_local fun b => quiet_writeToUDP env b outbound.remote
  · unfold handleClose
    refine writeFirst_local fun valid => ?_
    split_ifs
    · exact hdone
    · refine writeFirst_local fun key => ?_
      exact writeFirst_locked fun _ => quiet_done.readOnly
  · unfold handleData
    split_ifs
    · exact hdone
    · refine writeFirst_locked fun found => ?_
      cases found with
      | none => exact quiet_done.readOnly
      | some source =>
        refine local_rule (fun _ => .ret _) fun typ => ?_
        split_ifs
        · exact quiet_done.readOnly
        · exact quiet_done.readOnly
        all_goals
          refine local_rule (fun _ => .ret _) fun payload => ?_
          exact readOnly_routePayload srv env source _
  · exact hdone

/-- A call of `handleExitPacket` reads the table once. -/
theorem readOnce_handleExitPacket (env : Env) (payload : Bytes) :
    (handleExitPacket env payload : Call R).ReadOnce := by
  unfold handleExitPacket
  refine local_rule (fun _ => (Prog.Quiet.ret _).readOnce) fun parsed => ?_
  cases parsed with
  | error msg => exact quiet_done.readOnce
  | ok parsed =>
    refine readOnce_withOutbound fun target => ?_
    cases target with
    | none => exact quiet_done
    | some target => exact quiet_sendData env target _

theorem call_writeFirst (net : Net R) (srv : Server R) (e : Event R) (h : goroutine e = .serve) :
    (call net srv e).WriteFirst := by
  cases e with
  | packet env remote data => exact writeFirst_handlePacket net srv env remote data
  | exitPacket env data => cases h

theorem call_readOnce (net : Net R) (srv : Server R) (e : Event R) (h : goroutine e ≠ .serve) :
    (call net srv e).ReadOnce := by
  cases e with
  | packet env remote data => exact absurd rfl h
  | exitPacket env data =>
    unfold call
    split_ifs
    · exact readOnce_handleExitPacket env data
    · exact quiet_done.readOnce

/-! ## Linearization -/

/-- Without interruption a call is a step of the server. -/
theorem call_run (h : Inv net s) (hf : Fixed srv s) (e : Event R) :
    Runs (call net srv e) s (step net s e) := by
  cases e with
  | packet env remote data => exact handlePacket_run h hf env remote data
  | exitPacket env data =>
    unfold call step
    rw [hf.2]
    split_ifs
    · exact handleExitPacket_run s env data
    · exact runs_ret s none

/-- A whole call is one step of the server. -/
theorem callStep_iff (h : Inv net s) (hf : Fixed srv s) {e : Event R} {outs : List (Out R)} :
    CallStep (call net srv) s e outs s' ↔ Server.Step net s e outs s' := by
  obtain ⟨r, hr, -⟩ := step_total h e
  have hrun := call_run h hf e r hr
  unfold CallStep Server.Step
  rw [hrun, hr]
  constructor
  · rintro ⟨a, ha⟩
    cases ha
    exact ⟨r.err, rfl⟩
  · rintro ⟨err, herr⟩
    cases herr
    exact ⟨_, rfl⟩

theorem Fixed.step (h : Inv net s) (hf : Fixed srv s) {e : Event R} {outs : List (Out R)}
    (hs : Server.Step net s e outs s') : Fixed srv s' := by
  obtain ⟨hinv, hconfig⟩ := inv_step h hs
  exact ⟨hf.1.trans hconfig.symm, by rw [hf.2, h.exit, hinv.exit, hconfig]⟩

/-- A run of whole calls is a run of the server. -/
theorem callTrace_iff {s₀ : Server R} {seq : List (Server.StepRecord R)} (h0 : Inv net s₀)
    (hf : Fixed srv s₀) :
    Trace (CallStep (call net srv)) s₀ seq s ↔ Trace (Server.Step net) s₀ seq s := by
  constructor
  · intro h
    refine (h.invariant (P := fun seq s => Trace (Server.Step net) s₀ seq s ∧ Inv net s ∧ Fixed srv s)
      ⟨.nil, h0, hf⟩ ?_).1
    rintro seq s e os s' - ⟨hrun, hinv, hfix⟩ hs
    have hs := (callStep_iff hinv hfix).mp hs
    exact ⟨.snoc hrun hs, (inv_step hinv hs).1, hfix.step hinv hs⟩
  · intro h
    refine (h.invariant (P := fun seq s => Trace (CallStep (call net srv)) s₀ seq s ∧ Inv net s ∧
      Fixed srv s) ⟨.nil, h0, hf⟩ ?_).1
    rintro seq s e os s' - ⟨hrun, hinv, hfix⟩ hs
    exact ⟨.snoc hrun ((callStep_iff hinv hfix).mpr hs), (inv_step hinv hs).1, hfix.step hinv hs⟩

variable {s₀ : Server R} {t : State R} {tr : List (StepRecord R)}

/-- **The concurrent server is linearizable.** However the sections and writes of
    the two goroutines fall, the table is the one that the same calls leave behind
    one after the other, in an order in which each call takes its place between its
    beginning and its end; both maps are in step, and each goroutine has written
    what its calls write in that order, up to the end of the call that it is
    inside. -/
theorem server_linearizable {config : Config} {device : Bool} {openDevice : Except String Unit}
    (h0 : newServer net config device openDevice = .ok s₀)
    (h : Trace (Step net s₀) (.start s₀) tr t) :
    TableInvariant t.shared ∧
      ∃ seq, Trace (Server.Step net) s₀ seq t.shared ∧ seq.map (·.ev) = linearization tr ∧
        ∀ g, writes g tr ++ t.pending g = decided goroutine g seq := by
  have hinv := (inv_newServer h0).1
  obtain ⟨seq, hrun, horder, houts⟩ :=
    linearizable (w := .serve) (call_writeFirst net s₀) (call_readOnce net s₀) h
  have hrun := (callTrace_iff hinv ⟨rfl, rfl⟩).mp hrun
  exact ⟨(reachable_inv hinv hrun).1.table, seq, hrun, horder, houts⟩

/-- Every run of the server is a run of the two goroutines, one call after the
    other. -/
theorem trace_interleaving {config : Config} {device : Bool} {openDevice : Except String Unit}
    {seq : List (Server.StepRecord R)} (h0 : newServer net config device openDevice = .ok s₀)
    (h : Trace (Server.Step net) s₀ seq s) :
    ∃ tr, Trace (Step net s₀) (.start s₀) tr (.start s) ∧ linearization tr = seq.map (·.ev) ∧
      ∀ g, writes g tr = decided goroutine g seq :=
  callTrace_interleaving ((callTrace_iff (inv_newServer h0).1 ⟨rfl, rfl⟩).mpr h)

end

/-- The OPEN of `alice` at the example server, section by section. -/
theorem example_linearizable : ∃ s₀ : Server Bytes, ∃ tr t ack,
    newServer exampleNet (exampleConfig true) false (.ok ()) = .ok s₀ ∧
      Trace (Step exampleNet s₀) (.start s₀) tr t ∧
      linearization tr = [.packet (calmEnv 0) alice.address aliceOpen] ∧
      writes .serve tr = [.udp ack alice.address] ∧ TableInvariant t.shared := by
  obtain ⟨s₀, hs₀, hinv, -, -, -, halice⟩ := example_newServer true
  obtain ⟨s, ack, hstep, -⟩ := alice_opens hinv halice alice.address 0
  obtain ⟨tr, hrun, horder, houts⟩ := trace_interleaving hs₀ (.snoc .nil hstep)
  refine ⟨s₀, tr, _, ack, hs₀, hrun, horder, ?_, (server_linearizable hs₀ hrun).1⟩
  rw [houts .serve]
  rfl

section

variable {net : Net R} {srv s s' s₀ : Server R} {t : State R} {tr : List (StepRecord R)}

/-! ## Datagrams to a removed session -/

/-- The output is a datagram to the remote of `k` that carries its token and id,
    and is not an OPENREJ. -/
def bears (net : Net R) (k : SessionKey) : Out R → Bool
  | .udp pkt remote => net.remoteString remote = k.remote ∧ Wire.typ pkt ≠ packetOpenReject ∧
      Wire.token pkt = k.token ∧ Wire.sessionId pkt = k.sessionID
  | .exit _ => false

/-- A whole call sends only to sessions that it leaves in the table. -/
theorem bears_live (h : Inv net s) {e : Event R} {outs : List (Out R)}
    (hs : Server.Step net s e outs s') {k : SessionKey} {o : Out R} (ho : o ∈ outs)
    (hb : bears net k o = true) : ¬ Dead s' k := by
  intro hdead
  cases o with
  | exit p => cases hb
  | udp pkt dest =>
    simp only [bears, decide_eq_true_eq] at hb
    obtain ⟨hrem, hrej, htok, hid⟩ := hb
    rcases step_sent h hs ho with hr | ⟨htyp, env, data, rfl, hopen, hids⟩ | ⟨-, x, hx, hadd, -⟩
    · exact hrej hr
    · -- the OPENACK of a session that is in the table now
      obtain ⟨-, err, hout⟩ := hs.packet_outcome h
      cases hout with
      | ignored => cases ho
      | noIds => cases ho
      | closed => cases ho
      | dropped => cases ho
      | exited => cases List.mem_singleton.mp ho
      | rejected =>
        cases List.mem_singleton.mp ho
        exact hrej rfl
      | opened request user tok id _ _ _ _ _ hids' _ _ hlive =>
        rw [hids'] at hids
        cases hids
        exact hdead _ ((hlive _).mpr (.inl rfl)) (SessionKey.ext hrem htok hid)
      | echoed _ _ _ _ htyp' =>
        rw [htyp'] at hopen
        cases hopen
      | relayed _ _ _ hx =>
        rw [hx.typ] at hopen
        split_ifs at hopen <;> cases hopen
      | bounced _ _ hx =>
        rw [hx.typ] at hopen
        split_ifs at hopen <;> cases hopen
    · have hxr := ((inv_step h hs).1.session x hx).remote
      refine hdead x hx (SessionKey.ext ?_ ?_ ?_)
      · rw [hxr, hadd.remote, hrem]
      · rw [← hadd.token, htok]
      · rw [← hadd.sessionID, hid]

/-- A call of `handleExitPacket` writes at most one datagram. -/
theorem length_exitPacket_le (net : Net R) (srv : Server R) (e : Event R)
    (he : goroutine e = .exitDevice) (s : Server R) : ((call net srv e).outs s).length ≤ 1 := by
  have hsend : ∀ env target payload, ∀ s : Server R,
      ((sendData env target payload).outs s).length ≤ 1 := by
    intro env target payload
    unfold sendData
    exact local_rule (P := fun p => ∀ s, (p.outs s).length ≤ 1) (fun _ s => by simp [Prog.outs, Prog.run])
      fun b s => by simp [writeToUDP, Prog.outs, Prog.run]
  have hdone : ∀ s : Server R, ((done : Call R).outs s).length ≤ 1 := fun s => by
    simp [done, Prog.outs, Prog.run]
  cases e with
  | packet env remote data => cases he
  | exitPacket env data =>
    unfold call
    split_ifs
    · unfold handleExitPacket
      refine local_rule (P := fun p => ∀ s, (p.outs s).length ≤ 1)
        (fun _ s => by simp [Prog.outs, Prog.run]) (fun parsed => ?_) s
      cases parsed with
      | error msg => exact hdone
      | ok parsed =>
        intro s
        refine sectionRest_rule (P := fun p => ∀ s, (p.outs s).length ≤ 1)
          (fun _ s => by simp [Prog.outs, Prog.run]) (fun target => ?_) s (sectionState _ s)
        cases target with
        | none => exact hdone
        | some target => exact hsend env target _
    · exact hdone s

/-- The invariant of the server holds in every interleaving. -/
theorem shared_inv (h0 : Inv net s₀) (h : Trace (Step net s₀) (.start s₀) tr t) :
    t.Settled goroutine .serve ∧ Inv net t.shared ∧ Fixed s₀ t.shared := by
  obtain ⟨hset, seq, hrun, -⟩ :=
    simulate (call_writeFirst net s₀) (call_readOnce net s₀) (settled_start _ _ s₀) h
  obtain ⟨hinv, hconfig⟩ := reachable_inv h0 ((callTrace_iff h0 ⟨rfl, rfl⟩).mp hrun)
  exact ⟨hset, hinv, hconfig.symm, by rw [h0.exit, hinv.exit, hconfig]⟩

/-- The step that removes a session is the first section of a call of `Serve`, which
    has nothing left to write to the session. -/
theorem removal_pending (h0 : Inv net s₀) {r : StepRecord R}
    (hpre : Trace (Step net s₀) (.start s₀) tr r.pre)
    (hstep : Step net s₀ r.pre r.ev r.outs r.post) {x : Session R} (hx : x ∈ r.pre.shared.live)
    (hdead : Dead r.post.shared x.key) :
    ∀ o ∈ r.post.pending .serve, ¬ bears net x.key o = true := by
  obtain ⟨hset, hinv, hfixed⟩ := shared_inv h0 hpre
  obtain ⟨-, heff⟩ := hstep.effect (call_writeFirst net s₀) (call_readOnce net s₀) hset
  cases heff with
  | goesOn hshared =>
    rw [hshared] at hdead
    exact absurd rfl (hdead x hx)
  | begins c outs hcall _ hidle houts =>
    have hs := (callStep_iff hinv hfixed).mp hcall
    cases c with
    | exitPacket env data =>
      -- a packet from the device changes no session
      obtain ⟨-, err, ho⟩ := hs.exit_outcome hinv
      have hserver : r.post.shared = r.pre.shared := ho.server
      rw [hserver] at hdead
      exact absurd rfl (hdead x hx)
    | packet env remote data =>
      intro o ho hb
      have hout := houts .serve
      rw [if_pos (show goroutine (.packet env remote data) = .serve from rfl),
        show r.pre.pending .serve = [] from hidle, List.nil_append] at hout
      exact bears_live hinv hs (hout ▸ List.mem_append_right _ ho) hb hdead

end

/-- An answer from `8.8.8.8` to `alice`. -/
def answerPacket : Bytes :=
  [0x45, 0, 0, 20, 0, 0, 0, 0, 64, 17, 0, 0, 8, 8, 8, 8, 10, 20, 30, 10]

/-- The CLOSE of `alice`. -/
def aliceClose : Bytes :=
  Wire.signedHeader packetClose 0 (Vector.replicate 2 0) (Vector.replicate 4 0)

end Iwand.Server.Concurrent
