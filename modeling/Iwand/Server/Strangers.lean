import Iwand.Server.Registry

/-!
# What strangers can do

A stranger is a remote that never sends an OPEN with a right password. In a run of
the server strangers change nothing, learn nothing and reach nobody: the run is the
same without them. What anybody can do is to make the server send: it never sends
more than three times the bytes that it gets.

* `servePacket_stranger`, `serve_answer`: one event of the registry.
* `strangers_powerless`: runs with strangers.
* `amplification_bound`: the bytes that a run puts out.
-/

namespace Iwand.Server

open Go

variable {R : Type}

/-! ## Strangers -/

/-- The event is not a datagram of a stranger. -/
def Event.known (net : Net R) (stranger : Bytes → Bool) : Event R → Bool
  | .packet _ remote _ => !stranger (net.remoteString remote)
  | .exitPacket .. => true

/-- The event is not an OPEN of a stranger with a right password. -/
def NoLogin (net : Net R) (config : NormalizedConfig) (stranger : Bytes → Bool) (e : Event R) :
    Prop :=
  ∀ env remote packet, e = .packet env remote packet →
    stranger (net.remoteString remote) = true → login config packet = none

/-- No lease of a stranger, and each lease under the remote of its holder. -/
def Clean (net : Net R) (stranger : Bytes → Bool) (ρ : Registry R) : Prop :=
  ∀ l ∈ ρ, stranger l.key.remote = false ∧ l.key.remote = net.remoteString l.remote

section

variable {net : Net R} {config : NormalizedConfig} {stranger : Bytes → Bool} {ρ : Registry R}
  {remote : R} {packet : Bytes} {e : Event R}

/-- A stranger changes nothing and gets at most an OPENREJ. -/
theorem servePacket_stranger (hclean : Clean net stranger ρ)
    (hstr : stranger (net.remoteString remote) = true) (hlogin : login config packet = none)
    (env : Env) : (servePacket net config ρ env remote packet).1 = ρ ∧
      ((servePacket net config ρ env remote packet).2 = [] ∨
        (servePacket net config ρ env remote packet).2 = [.udp openReject remote]) := by
  have hother : ∀ l ∈ ρ, l.key ≠ packetKey net remote packet := by
    intro l hl hk
    obtain ⟨hfalse, -⟩ := hclean l hl
    rw [hk] at hfalse
    exact absurd hstr (by rw [show stranger (net.remoteString remote) = false from hfalse]; decide)
  have hnone : ρ.byKey (packetKey net remote packet) = none := find?_eq_none_iff.mpr hother
  have hclose : serveClose ρ (packetKey net remote packet) packet = ρ := by
    unfold serveClose
    split_ifs
    · exact List.filter_eq_self.mpr fun l hl => decide_eq_true (hother l hl)
    · rfl
  have hopen : serveOpen net config ρ env remote packet = (ρ, [.udp openReject remote]) := by
    unfold serveOpen
    rw [hlogin]
  have hecho : serveEchoReq ρ (packetKey net remote packet) packet = [] := by
    unfold serveEchoReq
    rw [hnone]
    split_ifs <;> rfl
  have hdata : serveData config ρ (packetKey net remote packet) packet = [] := by
    unfold serveData
    rw [hnone]
    split_ifs <;> rfl
  unfold servePacket
  rw [hopen, hecho, hclose, hdata]
  split_ifs <;> simp

/-- Strangers get no lease. -/
theorem serve_clean (hclean : Clean net stranger ρ) (hno : NoLogin net config stranger e) :
    Clean net stranger (serve net config ρ e).1 := by
  cases e with
  | exitPacket env payload => exact hclean
  | packet env remote packet =>
    show Clean net stranger (servePacket net config ρ env remote packet).1
    cases hstr : stranger (net.remoteString remote) with
    | true =>
      rw [(servePacket_stranger hclean hstr (hno env remote packet rfl hstr) env).1]
      exact hclean
    | false =>
      have hclose : Clean net stranger (serveClose ρ (packetKey net remote packet) packet) := by
        unfold serveClose
        split_ifs
        · exact fun l hl => hclean l (List.mem_of_mem_filter hl)
        · exact hclean
      have hopen : Clean net stranger (serveOpen net config ρ env remote packet).1 := by
        unfold serveOpen
        split
        · exact hclean
        · exact hclean
        · intro l hl
          rcases List.mem_cons.mp hl with rfl | hl
          · exact ⟨hstr, rfl⟩
          · exact hclean l (List.mem_of_mem_filter hl)
      unfold servePacket
      split_ifs
      · exact hclean
      · exact hopen
      · exact hclean
      · exact hclose
      · exact hclean
      · exact hclean

end

/-! ## Answers -/

/-- The bytes that an event brings in. -/
def Event.size : Event R → ℕ
  | .packet _ _ data => data.length
  | .exitPacket _ data => data.length

/-- The bytes that are put out. -/
def Out.size : Out R → ℕ
  | .udp pkt _ => pkt.length
  | .exit pkt => pkt.length

/-- What an event of `n` bytes can put out: at most one datagram or packet, of at
    most `3 * n` bytes, and to the holder of a lease unless it is an OPENREJ. -/
inductive Answer (ρ : Registry R) (n : ℕ) : List (Out R) → Prop
  | nothing : Answer ρ n []
  | rejected (remote : R) (h8 : 8 ≤ n) : Answer ρ n [.udp openReject remote]
  | holder (l : Lease R) (pkt : Bytes) (hl : l ∈ ρ) (hlen : pkt.length ≤ 3 * n) :
      Answer ρ n [.udp pkt l.remote]
  | exit (pkt : Bytes) (hlen : pkt.length ≤ n) : Answer ρ n [.exit pkt]

section

variable {net : Net R} {config : NormalizedConfig} {ρ : Registry R} {l : Lease R} {k : SessionKey}
  {packet p : Bytes} {n : ℕ} {outs : List (Out R)}

@[simp] theorem length_openReject : openReject.length = 24 := Wire.length_signedHeader _ _ _ _

theorem length_ack (config : NormalizedConfig) (l : Lease R) : (l.ack config).length ≤ 47 := by
  have hdns : ∀ dns, (Wire.encode (dnsTlvs dns)).length ≤ 10 := by
    intro dns
    match dns with
    | [] => simp [dnsTlvs, Wire.encode]
    | [d0] => simp [dnsTlvs, Wire.encode, Wire.Tlv.encode]
    | d0 :: d1 :: _ => simp [dnsTlvs, Wire.encode, Wire.Tlv.encode]
  have hlen : ∀ mtu address dns encrypt, (Wire.encode (ackTlvs mtu address dns encrypt)).length =
      13 + (Wire.encode (dnsTlvs dns)).length := by
    intro mtu address dns encrypt
    simp [ackTlvs, Wire.encode, Wire.Tlv.encode]
    omega
  have h := hdns (config.dns.map Addr.bytes)
  rw [Lease.ack, openAck, List.length_append, Wire.length_signedHeader, hlen]
  omega

@[simp] theorem length_data (l : Lease R) (p : Bytes) : (l.data p).length = 8 + p.length := by
  unfold Lease.data dataPacket
  rw [List.length_append]
  cases l.encrypt <;> simp [xorData]

@[simp] theorem length_payload (l : Lease R) (packet : Bytes) :
    (l.payload packet).length = packet.length - 8 := by
  unfold Lease.payload
  cases l.encrypt <;> simp [xorData]

theorem byKey_mem (h : ρ.byKey k = some l) : l ∈ ρ := List.mem_of_find?_eq_some h

theorem byAddr_mem {a : Addr} (h : ρ.byAddr a = some l) : l ∈ ρ := List.mem_of_find?_eq_some h

theorem forward_answer (hl : l ∈ ρ) (hn : p.length + 8 ≤ n) :
    Answer ρ n (forward config ρ l p) := by
  have hback : Answer ρ n [.udp (l.data p) l.remote] := by
    refine .holder l _ hl ?_
    rw [length_data]
    omega
  unfold forward
  by_cases hwf : IPv4.WellFormed p
  swap
  · rw [if_neg hwf]
    split_ifs
    · exact .nothing
    · exact hback
  rw [if_pos hwf]
  by_cases hsp : config.exit.enabled = true ∧ config.exit.strictSource = true ∧
      IPv4.source p ≠ l.user.address
  · rw [if_pos hsp]
    exact .nothing
  rw [if_neg hsp]
  have hq : (if config.exit.enabled then p.take (IPv4.totalLength p) else p).length ≤ p.length := by
    split_ifs
    · exact List.length_take_le' _ _
    · exact le_rfl
  cases hdst : ρ.byAddr (IPv4.destination p) with
  | some m =>
    refine .holder m _ (byAddr_mem hdst) ?_
    rw [length_data]
    omega
  | none =>
    by_cases hen : config.exit.enabled = true
    · simp only [if_pos hen] at hq ⊢
      exact .exit _ (by omega)
    · simp only [if_neg hen]
      exact hback

/-- **The answer to one event.** -/
theorem serve_answer (net : Net R) (config : NormalizedConfig) (ρ : Registry R) (e : Event R) :
    Answer (serve net config ρ e).1 e.size (serve net config ρ e).2 := by
  cases e with
  | exitPacket env payload =>
    show Answer ρ payload.length (serveExit config ρ payload)
    unfold serveExit
    split_ifs with h
    swap
    · exact .nothing
    cases hdst : ρ.byAddr (IPv4.destination payload) with
    | none => exact .nothing
    | some m =>
      have htwenty := h.2.twenty
      refine .holder m _ (byAddr_mem hdst) ?_
      rw [length_data, List.length_take]
      omega
  | packet env remote packet =>
    show Answer (servePacket net config ρ env remote packet).1 packet.length
      (servePacket net config ρ env remote packet).2
    unfold servePacket
    split_ifs with h8 hopen hecho hclose hdata
    · exact .nothing
    · unfold serveOpen
      split
      · exact .rejected remote (by omega)
      · exact .nothing
      · rename_i request user token sessionID hlogin hids
        have hparse := (login_iff.mp hlogin).1
        have h24 := (parseOpenPacket_ok hparse).1
        have hack := length_ack config (Lease.ofOpen net config remote user request token sessionID)
        exact .holder _ _ List.mem_cons_self (by omega)
    · unfold serveEchoReq
      split_ifs with hsig
      swap
      · exact .nothing
      cases hk : ρ.byKey (packetKey net remote packet) with
      | none => exact .nothing
      | some l =>
        have h24 := hsig.1
        refine .holder l _ (byKey_mem hk) ?_
        rw [Lease.echo, List.length_append, Wire.length_signedHeader, List.length_drop]
        omega
    · exact .nothing
    · unfold serveData
      split_ifs with hlen
      · exact .nothing
      cases hk : ρ.byKey (packetKey net remote packet) with
      | none => exact .nothing
      | some l =>
        simp only
        split_ifs
        · refine forward_answer (byKey_mem hk) ?_
          rw [length_payload]
          omega
        · exact .nothing
    · exact .nothing

theorem Answer.size_le (h : Answer ρ n outs) : (outs.map Out.size).sum ≤ 3 * n := by
  cases h with
  | nothing => simp
  | rejected remote h8 =>
    simp only [List.map_cons, List.map_nil, List.sum_cons, List.sum_nil, Out.size, length_openReject]
    omega
  | holder l pkt hl hlen => simpa [Out.size] using hlen
  | exit pkt hlen =>
    simp only [List.map_cons, List.map_nil, List.sum_cons, List.sum_nil, Out.size]
    omega

theorem Answer.length_le (h : Answer ρ n outs) : outs.length ≤ 1 := by
  cases h <;> simp

theorem Answer.dest (h : Answer ρ n outs) {pkt : Bytes} {dest : R} (hmem : .udp pkt dest ∈ outs) :
    pkt = openReject ∨ ∃ l ∈ ρ, l.remote = dest := by
  cases h with
  | nothing => simp at hmem
  | rejected remote =>
    cases List.mem_singleton.mp hmem
    exact .inl rfl
  | holder l pkt hl =>
    cases List.mem_singleton.mp hmem
    exact .inr ⟨l, hl, rfl⟩
  | exit pkt =>
    cases List.mem_singleton.mp hmem

/-! ## Runs -/

variable {cfg : Config} {device : Bool} {openDevice : Except String Unit} {s₀ s : Server R}
  {tr : List (StepRecord R)} {stranger : Bytes → Bool}

/-- What a step of a run with strangers puts out. -/
structure OnlyRejects (net : Net R) (stranger : Bytes → Bool) (r : StepRecord R) : Prop where
  own : ∀ env remote packet, r.ev = .packet env remote packet →
    stranger (net.remoteString remote) = true → r.outs = [] ∨ r.outs = [.udp openReject remote]
  others : ∀ pkt dest, .udp pkt dest ∈ r.outs → stranger (net.remoteString dest) = true →
    pkt = openReject

theorem serve_onlyRejects {ρ : Registry R} {r : StepRecord R} (hclean : Clean net stranger ρ)
    (hno : NoLogin net config stranger r.ev) (houts : (serve net config ρ r.ev).2 = r.outs) :
    OnlyRejects net stranger r := by
  have hclean' : Clean net stranger (serve net config ρ r.ev).1 := serve_clean hclean hno
  refine ⟨fun env remote packet hev hstr => ?_, fun pkt dest hmem hstr => ?_⟩
  · rw [hev] at houts hno
    rw [← houts]
    exact (servePacket_stranger hclean hstr (hno env remote packet rfl hstr) env).2
  · rw [← houts] at hmem
    rcases (serve_answer net config ρ r.ev).dest hmem with h | ⟨l, hl, rfl⟩
    · exact h
    · -- holders are no strangers
      obtain ⟨hfalse, hremote⟩ := hclean' l hl
      rw [hremote, hstr] at hfalse
      cases hfalse

/-- The registry of a run with strangers has none of them. -/
theorem run_onlyRejects (h0 : newServer net cfg device openDevice = .ok s₀)
    (h : Trace (Step net) s₀ tr s) (hno : ∀ r ∈ tr, NoLogin net s₀.config stranger r.ev) :
    ∀ r ∈ tr, OnlyRejects net stranger r := by
  have hinv : (∀ r ∈ tr, NoLogin net s₀.config stranger r.ev) →
      ∃ ρ, Refines net s₀.config s ρ ∧ Clean net stranger ρ ∧ ∀ r ∈ tr, OnlyRejects net stranger r := by
    refine h.invariant (P := fun tr s => (∀ r ∈ tr, NoLogin net s₀.config stranger r.ev) →
      ∃ ρ, Refines net s₀.config s ρ ∧ Clean net stranger ρ ∧ ∀ r ∈ tr, OnlyRejects net stranger r)
      (fun _ => ⟨[], refines_newServer h0, by simp [Clean], by simp⟩) ?_
    intro tr s e outs s' _ ih hs hno
    obtain ⟨ρ, href, hclean, hall⟩ := ih fun r hr => hno r (List.mem_append_left _ hr)
    have hlast := hno ⟨s, e, outs, s'⟩ (by simp)
    obtain ⟨houts, href'⟩ := step_serve href hs
    refine ⟨_, href', serve_clean hclean hlast, fun r hr => ?_⟩
    rcases List.mem_append.mp hr with hr | hr
    · exact hall r hr
    · rw [List.mem_singleton.mp hr]
      exact serve_onlyRejects hclean hlast houts
  obtain ⟨-, -, -, hall⟩ := hinv hno
  exact hall

/-- **Strangers are powerless.** In every run in which no stranger sends an OPEN with
    a right password: a datagram of a stranger is answered by an OPENREJ or not at
    all; nothing but OPENREJs goes to strangers; and without the datagrams of
    strangers the server puts out the same on all the others, and ends with the same
    sessions. -/
theorem strangers_powerless (h0 : newServer net cfg device openDevice = .ok s₀)
    (h : Trace (Step net) s₀ tr s) (hno : ∀ r ∈ tr, NoLogin net s₀.config stranger r.ev) :
    (∀ r ∈ tr, OnlyRejects net stranger r) ∧
      ∃ tr' s', Trace (Step net) s₀ tr' s' ∧
        tr'.map Record.ev = (tr.map Record.ev).filter (Event.known net stranger) ∧
        tr'.map Record.outs = (tr.filter fun r => r.ev.known net stranger).map Record.outs ∧
        ∀ k, (s'.session? k).map Session.lease = (s.session? k).map Session.lease := by
  refine ⟨run_onlyRejects h0 h hno, ?_⟩
  have hnext : ∀ s e, Inv net s → ∃ outs s', Step net s e outs s' ∧ Inv net s' := by
    intro s e hinv
    obtain ⟨r, hr, hinv', -⟩ := step_total hinv e
    exact ⟨r.outs, r.server, ⟨r.err, hr⟩, hinv'⟩
  obtain ⟨tr', s', hrun', hev, -⟩ := Trace.exists_run hnext (inv_newServer h0).1
    ((tr.map Record.ev).filter (Event.known net stranger))
  obtain ⟨houts, href⟩ := run_serve h0 h
  obtain ⟨houts', href'⟩ := run_serve h0 hrun'
  have hevents : ∀ e ∈ tr.map Record.ev, NoLogin net s₀.config stranger e := by
    intro e he
    obtain ⟨r, hr, rfl⟩ := List.mem_map.mp he
    exact hno r hr
  have hskip : ∀ ρ, ∀ e ∈ tr.map Record.ev, Clean net stranger ρ →
      e.known net stranger = false → (serve net s₀.config ρ e).1 = ρ := by
    intro ρ e he hclean hknown
    cases e with
    | exitPacket env payload => cases hknown
    | packet env remote packet =>
      have hstr : stranger (net.remoteString remote) = true := by
        simpa [Event.known] using hknown
      exact (servePacket_stranger hclean hstr (hevents _ he env remote packet rfl hstr) env).1
  have hsame := replay_filter (f := serve net s₀.config) (I := Clean net stranger)
    (fun ρ e he hclean => serve_clean hclean (hevents e he)) hskip
    (show Clean net stranger [] by simp [Clean])
  rw [← hev] at hsame
  rw [hsame] at houts' href'
  refine ⟨tr', s', hrun', hev, ?_, fun k => ?_⟩
  · rw [← houts', houts]
    exact zip_filter_map _ tr
  · rw [href'.session?, href.session?]

/-- **The server amplifies by three at most.** In every run the server puts out at
    most one datagram or packet for each event, and at most three times the bytes
    that the events bring in. -/
theorem amplification_bound (h0 : newServer net cfg device openDevice = .ok s₀)
    (h : Trace (Step net) s₀ tr s) :
    (∀ r ∈ tr, r.outs.length ≤ 1) ∧
      ((tr.flatMap Record.outs).map Out.size).sum ≤ 3 * (tr.map fun r => r.ev.size).sum := by
  obtain ⟨ρ, -, hres⟩ : ∃ ρ, Refines net s₀.config s ρ ∧ (∀ r ∈ tr, r.outs.length ≤ 1) ∧
      ((tr.flatMap Record.outs).map Out.size).sum ≤ 3 * (tr.map fun r => r.ev.size).sum := by
    refine h.invariant (P := fun tr s => ∃ ρ, Refines net s₀.config s ρ ∧
      (∀ r ∈ tr, r.outs.length ≤ 1) ∧
      ((tr.flatMap Record.outs).map Out.size).sum ≤ 3 * (tr.map fun r => r.ev.size).sum)
      ⟨[], refines_newServer h0, by simp, by simp⟩ ?_
    rintro tr s e outs s' - ⟨ρ, href, hone, hsum⟩ hs
    obtain ⟨houts, href'⟩ := step_serve href hs
    have hanswer := serve_answer net s₀.config ρ e
    rw [houts] at hanswer
    refine ⟨_, href', fun r hr => ?_, ?_⟩
    · rcases List.mem_append.mp hr with hr | hr
      · exact hone r hr
      · rw [List.mem_singleton.mp hr]
        exact hanswer.length_le
    · have hlast := hanswer.size_le
      simp only [List.flatMap_append, List.map_append, List.sum_append, List.flatMap_singleton,
        List.map_singleton, List.sum_singleton]
      omega
  exact hres

end

/-- Eight bytes are no login, but they get an OPENREJ of three times the size. -/
theorem servePacket_short (net : Net R) (config : NormalizedConfig) {packet : Bytes}
    (h8 : 8 ≤ packet.length) (h24 : packet.length < 24) (htyp : Wire.typ packet = packetOpen)
    (ρ : Registry R) (env : Env) (remote : R) : login config packet = none ∧
      servePacket net config ρ env remote packet = (ρ, [.udp openReject remote]) := by
  have hlogin : login config packet = none := by
    cases h : login config packet with
    | none => rfl
    | some q =>
      have h24' := (parseOpenPacket_ok (login_iff.mp h).1).1
      omega
  refine ⟨hlogin, ?_⟩
  unfold servePacket serveOpen
  rw [if_neg (by omega), if_pos htyp, hlogin]

/-- The header of an OPEN without a session. -/
def shortOpen : Bytes := [packetOpen, 0, 0, 0, 0, 0, 0, 0]

/-- The example server after `alice` has opened a session and a stranger has sent an
    OPEN without a signature. -/
theorem example_strangers : ∃ s₀ s s' : Server Bytes, ∃ ack outs,
    newServer exampleNet (exampleConfig false) false (.ok ()) = .ok s₀ ∧
      Step exampleNet s₀ (.packet (calmEnv 0) alice.address aliceOpen) [.udp ack alice.address] s ∧
      Step exampleNet s (.packet (calmEnv 1) [] shortOpen) outs s' ∧
      (outs = [] ∨ outs = [.udp openReject []]) := by
  obtain ⟨s₀, h0, hinv, -, -, -, halice⟩ := example_newServer false
  obtain ⟨s, ack, hs, -, hinv', -⟩ := alice_opens hinv halice alice.address 0
  obtain ⟨r, hr, -⟩ := step_total hinv' (.packet (calmEnv 1) [] shortOpen)
  have hs' : Step exampleNet s (.packet (calmEnv 1) [] shortOpen) r.outs r.server := ⟨r.err, hr⟩
  refine ⟨s₀, s, r.server, ack, r.outs, h0, hs, hs', ?_⟩
  have hno : ∀ q ∈ [⟨s₀, .packet (calmEnv 0) alice.address aliceOpen, [.udp ack alice.address], s⟩,
      ⟨s, .packet (calmEnv 1) [] shortOpen, r.outs, r.server⟩],
      NoLogin exampleNet s₀.config (fun a => a = []) (Record.ev q) := by
    intro q hq env remote packet hev hstr
    rcases List.mem_cons.mp hq with rfl | hq
    · cases hev
      exact absurd hstr (by decide)
    · rw [List.mem_singleton.mp hq] at hev
      cases hev
      exact (servePacket_short exampleNet s₀.config (by decide) (by decide) rfl [] (calmEnv 1) []).1
  obtain ⟨hguard, -⟩ := strangers_powerless h0 ((Trace.nil.snoc hs).snoc hs') hno
  exact (hguard ⟨s, .packet (calmEnv 1) [] shortOpen, r.outs, r.server⟩ (by simp)).own (calmEnv 1) []
    shortOpen rfl rfl

/-- A stranger gets 24 bytes for 8. -/
theorem example_amplification : ∃ s₀ s : Server Bytes, ∃ outs,
    newServer exampleNet (exampleConfig false) false (.ok ()) = .ok s₀ ∧
      Step exampleNet s₀ (.packet (calmEnv 0) [] shortOpen) outs s ∧
      (outs.map Out.size).sum ≤ 3 * shortOpen.length ∧ outs = [.udp openReject []] := by
  obtain ⟨s₀, h0, hinv, -⟩ := example_newServer false
  obtain ⟨r, hr, -⟩ := step_total hinv (.packet (calmEnv 0) [] shortOpen)
  have hs : Step exampleNet s₀ (.packet (calmEnv 0) [] shortOpen) r.outs r.server := ⟨r.err, hr⟩
  obtain ⟨-, hsum⟩ := amplification_bound h0 (Trace.nil.snoc hs)
  obtain ⟨hserve, -⟩ := step_serve (refines_newServer h0) hs
  have hshort := (servePacket_short exampleNet s₀.config (show 8 ≤ shortOpen.length by decide)
    (by decide) rfl [] (calmEnv 0) []).2
  refine ⟨s₀, r.server, r.outs, h0, hs, by simpa [Event.size] using hsum, ?_⟩
  rw [← hserve]
  exact congrArg Prod.snd hshort

end Iwand.Server
