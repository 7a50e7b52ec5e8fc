import Iwand.Client.Packets

/-!
# Packet handlers of the client

Model of `handle_openack` … `handle_tun_recv` (lines 1031–1466). A handler takes
the client and the received bytes (`pktlen` is their number) and returns the
new client, the effects in order and its result; it is `none` only if the code
would access memory outside an object.

The TLV loop runs with fuel. `openackTlvs_eq` shows that the fuel suffices and
that the loop visits exactly the items of the packet format.
-/

namespace Iwand.Client

/-- What a handler leaves behind and returns (`1` is `true`). -/
structure Res where
  client : IwanClient
  effects : List Effect
  accepted : Bool

/-! ## `handle_openack` -/

/-- The `switch` of the TLV loop (lines 1053–1086). -/
def applyTlv (c : IwanClient) (typ : UInt8) (val : Bytes) : Option IwanClient :=
  match typ with
  | 3 => if 2 ≤ val.length then do
      let mtu ← (return be16 (← rd val 0) (← rd val 1))
      return { c with serverMtu := mtu }
    else some c
  | 4 => if 4 ≤ val.length then do
      let ip ← (return be32 (← rd val 0) (← rd val 1) (← rd val 2) (← rd val 3))
      return { c with peerIp := ip }
    else some c
  | 5 => if 4 ≤ val.length then do
      let ip ← (return be32 (← rd val 0) (← rd val 1) (← rd val 2) (← rd val 3))
      return { c with dns0 := ip }
    else some c
  | 6 => if 8 ≤ val.length then do
      let ip0 ← (return be32 (← rd val 0) (← rd val 1) (← rd val 2) (← rd val 3))
      let ip1 ← (return be32 (← rd val 4) (← rd val 5) (← rd val 6) (← rd val 7))
      return { c with dns0 := ip0, dns1 := ip1 }
    else if 4 ≤ val.length then do
      let ip0 ← (return be32 (← rd val 0) (← rd val 1) (← rd val 2) (← rd val 3))
      return { c with dns0 := ip0 }
    else some c
  | 7 => if 1 ≤ val.length then return { c with peerDupPkt := ← rd val 0 } else some c
  | 8 => if 1 ≤ val.length then return { c with encrypt := ← rd val 0 } else some c
  | _ => some c

/-- The TLV loop at `p = pkt + off` (lines 1045–1090). -/
def openackTlvs (pkt : Bytes) : ℕ → ℕ → ℕ → IwanClient → Option IwanClient
  | 0, _, _, _ => none
  | fuel + 1, off, remain, c =>
    if remain < 2 then some c
    else do
      let typ ← rd pkt off
      let tlen ← rd pkt (off + 1)
      if tlen.toNat < 2 ∨ tlen.toNat > remain then some c
      else do
        let val ← rdN pkt (off + 2) (tlen.toNat - 2)
        let c ← applyTlv c typ val
        openackTlvs pkt fuel (off + tlen.toNat) (remain - tlen.toNat) c

/-- `applyTlv` over a list of items. -/
def applyTlvs (c : IwanClient) (ts : List Wire.Tlv) : Option IwanClient :=
  ts.foldlM (fun c t => applyTlv c t.typ t.value) c

section

variable {σ : Type} (visit : σ → UInt8 → Bytes → Option σ)

/-- The loop with its `switch` as a parameter. -/
def tlvLoop (pkt : Bytes) : ℕ → ℕ → ℕ → σ → Option σ
  | 0, _, _, _ => none
  | fuel + 1, off, remain, s =>
    if remain < 2 then some s
    else do
      let typ ← rd pkt off
      let tlen ← rd pkt (off + 1)
      if tlen.toNat < 2 ∨ tlen.toNat > remain then some s
      else do
        let val ← rdN pkt (off + 2) (tlen.toNat - 2)
        let s ← visit s typ val
        tlvLoop pkt fuel (off + tlen.toNat) (remain - tlen.toNat) s

/-- Whatever the `switch` does, it is done to the items in order, and the loop
    terminates within its fuel. -/
theorem tlvLoop_eq (pkt : Bytes) : ∀ fuel off remain s, off + remain = pkt.length → remain < fuel →
    tlvLoop visit pkt fuel off remain s =
      (Wire.items (pkt.drop off)).foldlM (fun s t => visit s t.typ t.value) s := by
  intro fuel
  induction fuel with
  | zero => intro off remain s _ hf; omega
  | succ fuel ih =>
    intro off remain s hoff hf
    have hlen : (pkt.drop off).length = remain := by simp; omega
    rw [tlvLoop]
    split_ifs with hshort
    · rw [Wire.items_short (by omega)]
      rfl
    · have h0 : off < pkt.length := by omega
      have h1 : off + 1 < pkt.length := by omega
      have hdrop : pkt.drop off = pkt[off] :: pkt[off + 1] :: pkt.drop (off + 2) := by
        rw [List.drop_eq_getElem_cons h0, List.drop_eq_getElem_cons h1]
      rw [rd_eq h0, rd_eq h1]
      simp only [Option.bind_eq_bind, Option.bind_some, hdrop]
      split_ifs with hstop
      · rw [Wire.items_stop (by simp; omega)]
        rfl
      · -- a complete item: the value is the slice behind the two bytes
        rw [Wire.items_cons (by omega) (by simp; omega), rdN_eq (by omega), List.drop_drop]
        simp only [Option.bind_some, List.foldlM_cons, Option.bind_eq_bind]
        congr 1
        funext s'
        rw [ih _ _ s' (by omega) (by omega)]
        rw [show off + 2 + (pkt[off + 1].toNat - 2) = off + pkt[off + 1].toNat by omega]

end

theorem openackTlvs_eq_tlvLoop (pkt : Bytes) : ∀ fuel off remain c,
    openackTlvs pkt fuel off remain c = tlvLoop applyTlv pkt fuel off remain c := by
  intro fuel
  induction fuel with
  | zero => intro off remain c; rfl
  | succ fuel ih =>
    intro off remain c
    rw [openackTlvs, tlvLoop]
    simp only [ih]

/-- **The loop visits the items behind the signature**, and it terminates within
    its fuel. -/
theorem openackTlvs_eq (pkt : Bytes) (fuel off remain : ℕ) (c : IwanClient)
    (hoff : off + remain = pkt.length) (hf : remain < fuel) :
    openackTlvs pkt fuel off remain c = applyTlvs c (Wire.items (pkt.drop off)) := by
  rw [openackTlvs_eq_tlvLoop, tlvLoop_eq applyTlv pkt fuel off remain c hoff hf]
  rfl

/-- The MTU that `handle_openack` programs (lines 1106–1108). -/
def effMtu (cfg : Config) (c : IwanClient) : UInt16 :=
  if 68 ≤ c.serverMtu ∧ c.serverMtu < cfg.mtu then c.serverMtu else cfg.mtu

/-- The transition to ESTABLISHED (lines 1098–1129). -/
def establish (cfg : Config) (env : Env) (c : IwanClient) (token : Vector UInt8 2)
    (id : Vector UInt8 4) : Res :=
  let c := { c with state := .established
                    sessionToken := token
                    sessionId := id
                    lastRecvTime := env.secs
                    echoCounter := 0 }
  let setIp := Effect.tunSetIp c.peerIp 0xffffff00
  let setMtu := Effect.tunSetMtu (effMtu cfg c)
  if env.tunSetIp < 0 then ⟨{ c with state := .closed }, [setIp], false⟩
  else if env.tunSetMtu < 0 then ⟨{ c with state := .closed }, [setIp, setMtu], false⟩
  else ⟨c, [setIp, setMtu] ++ runScript cfg env cfg.upScript .up c, true⟩

/-- `handle_openack` (lines 1031–1130). -/
def handleOpenack (cfg : Config) (env : Env) (c : IwanClient) (pkt : Bytes) : Option Res :=
  if c.state ≠ .authSent then some ⟨c, [], false⟩
  else do
    let valid ← pktVerify pkt
    if valid = false then return ⟨c, [], false⟩
    else
      let remain := pkt.length - 24
      let c ← openackTlvs pkt (remain + 1) 24 remain c
      if c.peerIp = 0 then return ⟨c, [], false⟩
      else
        let token ← rdN pkt 2 2
        let id ← rdN pkt 4 4
        return establish cfg env c (toArr 2 token) (toArr 4 id)

/-- `handle_openack` on a signed packet in AUTH_SENT. -/
theorem handleOpenack_eq {cfg : Config} {env : Env} {c p : IwanClient} {pkt : Bytes}
    (hs : c.state = .authSent) (hsig : Wire.Signed pkt)
    (hp : applyTlvs c (Wire.items (pkt.drop 24)) = some p) :
    handleOpenack cfg env c pkt = some (if p.peerIp = 0 then ⟨p, [], false⟩
      else establish cfg env p (Wire.token pkt) (Wire.sessionId pkt)) := by
  have hlen := hsig.1
  rw [handleOpenack, if_neg (by simp [hs]), pktVerify_eq, decide_eq_true hsig]
  simp only [Option.bind_eq_bind, Option.bind_some, Bool.true_eq_false, if_false]
  rw [openackTlvs_eq pkt _ _ _ c (by omega) (by omega), hp]
  simp only [Option.bind_some]
  split_ifs with hip
  · rfl
  · rw [rdN_eq (by omega), rdN_eq (by omega)]
    rfl

/-! ## `handle_ipfrag` -/

/-- The fields of the `iwan_ethpkt` header (lines 1150–1162). -/
structure EthPkt where
  id : Vector UInt8 4
  eop : Bool
  fragoff : ℕ
  fraglen : ℕ

/-- Parse `ethpkt[8:16]`. -/
def parseEthPkt (pkt : Bytes) : Option EthPkt := do
  let id ← rdN pkt (hdrSize + 8) 4
  let b0 ← rd pkt (hdrSize + 12)
  let b1 ← rd pkt (hdrSize + 13)
  let b2 ← rd pkt (hdrSize + 14)
  let b3 ← rd pkt (hdrSize + 15)
  let bf := be32 b3 b2 b1 b0
  return { id := toArr 4 id
           eop := bf &&& 0x1 ≠ 0
           fragoff := ((bf >>> 2) &&& 0x1fff).toNat
           fraglen := ((bf >>> 15) &&& 0x7ff).toNat }

/-- The bytes in the first `len` bytes of a slot's buffer. -/
def slotData (slot : FragSlot) : Option Bytes := rdN slot.buf.toList 0 slot.len.toNat

/-- A fragment that is not the last: new data first, then the accumulated
    bytes, in `g_frag_content` (lines 1186–1195). `none` inside: too long. -/
def fragPrepend (slot : FragSlot) (data : Bytes) : Option (Option (ℕ × Bytes)) :=
  let totalLen := slot.len.toNat + data.length
  if totalLen > fragContentSize then some none
  else do
    let content ← wrN (List.replicate fragContentSize 0) 0 data
    let content ← wrN content data.length (← slotData slot)
    return some (totalLen, content)

/-- The last fragment, placed at `fragoff` over the accumulated bytes (lines
    1197–1209). -/
def fragPlace (slot : FragSlot) (fragoff : ℕ) (data : Bytes) : Option (Option (ℕ × Bytes)) :=
  let totalLen := max (fragoff + data.length) slot.len.toNat
  if totalLen > fragContentSize then some none
  else do
    let content ← wrN (List.replicate fragContentSize 0) 0 (← slotData slot)
    let content ← wrN content fragoff data
    return some (totalLen, content)

/-- Free slot `i`. -/
def freeSlot (c : IwanClient) (i : Fin 10) : IwanClient :=
  { c with frags := c.frags.set i { c.frags[i] with inUse := false } }

/-- What the search loop does with the slot `i` that carries the fragment's id
    and has not expired (lines 1181–1231); the result is `found`. -/
def fragExtend (c : IwanClient) (i : Fin 10) (now : UInt32) (eth : EthPkt) (data : Bytes) :
    Option Res :=
  let slot := c.frags[i]
  if eth.eop then do
    match ← fragPlace slot eth.fragoff data with
    | none => return ⟨freeSlot c i, [], false⟩
    | some (totalLen, content) =>
      let content ← rdN content 0 totalLen
      let content := if c.encrypt ≠ 0 then xorEncrypt c.xorKey content else content
      return ⟨freeSlot { c with tunTx := c.tunTx + 1 } i, [.tunWrite content], true⟩
  else do
    match ← fragPrepend slot data with
    | none => return ⟨freeSlot c i, [], false⟩
    | some (totalLen, content) =>
      if totalLen ≤ fragBufSize then
        let content ← rdN content 0 totalLen
        let buf ← wrN slot.buf.toList 0 content
        let slot := { slot with buf := toArr 2048 buf, len := UInt16.ofNat totalLen, timestamp := now }
        return ⟨{ c with frags := c.frags.set i slot }, [], true⟩
      else return ⟨freeSlot c i, [], false⟩

/-- The first slot that is empty or expired, initialised with the fragment
    (lines 1235–1252). -/
def fragAllocate (c : IwanClient) (now : UInt32) (eth : EthPkt) (data : Bytes) : Option Res :=
  match (List.finRange 10).find? fun i =>
      !c.frags[i].inUse || decide (now - c.frags[i].timestamp ≥ fragTimeout) with
  | none => some ⟨c, [], false⟩
  | some i => do
    let buf ← if data.length ≤ fragBufSize then wrN c.frags[i].buf.toList 0 data
      else some c.frags[i].buf.toList
    let slot : FragSlot :=
      { buf := toArr 2048 buf
        timestamp := now
        id := eth.id
        off := UInt16.ofNat eth.fragoff
        len := UInt16.ofNat eth.fraglen
        inUse := true }
    return ⟨{ c with frags := c.frags.set i slot }, [], true⟩

/-- `handle_ipfrag` (lines 1142–1253). -/
def handleIpfrag (env : Env) (c : IwanClient) (pkt : Bytes) : Option Res :=
  if c.state ≠ .established then some ⟨c, [], false⟩
  else if pkt.length < hdrSize + ethpktSize then some ⟨c, [], false⟩
  else do
    let eth ← parseEthPkt pkt
    if pkt.length ≠ eth.fraglen + hdrSize + ethpktSize then return ⟨c, [], false⟩
    else if eth.fraglen = 0 then return ⟨c, [], false⟩
    else
      let data ← rdN pkt (hdrSize + ethpktSize) eth.fraglen
      match (List.finRange 10).find? fun i => c.frags[i].inUse && c.frags[i].id == eth.id with
      | none => fragAllocate c env.secs eth data
      | some i =>
        if env.secs - c.frags[i].timestamp ≥ fragTimeout then
          fragAllocate (freeSlot c i) env.secs eth data
        else fragExtend c i env.secs eth data

/-! ## The other handlers -/

/-- `handle_data` (lines 1259–1280). -/
def handleData (env : Env) (c : IwanClient) (pkt : Bytes) : Option Res :=
  if c.state ≠ .established then some ⟨c, [], false⟩
  else if pkt.length ≤ hdrSize then some ⟨c, [], false⟩
  else
    let payloadLen := pkt.length - hdrSize
    if payloadLen > maxPktSize then some ⟨c, [], false⟩
    else do
      let decrypted ← emit maxPktSize [] (← rdN pkt hdrSize payloadLen)
      let decrypted := if (← rd pkt 0) = pktDataEnc then xorEncrypt c.xorKey decrypted else decrypted
      let c := if env.tunWrite > 0 then { c with tunTx := c.tunTx + 1 } else c
      return ⟨c, [.tunWrite decrypted], true⟩

/-- `handle_data` in ESTABLISHED on a packet with a payload. -/
theorem handleData_eq {env : Env} {c : IwanClient} {pkt : Bytes} (hs : c.state = .established)
    (h8 : 8 < pkt.length) (hlen : pkt.length ≤ 2048) :
    handleData env c pkt =
      some ⟨if env.tunWrite > 0 then { c with tunTx := c.tunTx + 1 } else c,
        [.tunWrite (if Wire.typ pkt = pktDataEnc then xorEncrypt c.xorKey (pkt.drop 8)
          else pkt.drop 8)], true⟩ := by
  have hdrop : (pkt.drop 8).take (pkt.length - 8) = pkt.drop 8 :=
    List.take_of_length_le (by simp)
  have htyp : rd pkt 0 = some (Wire.typ pkt) := by
    rw [rd_eq (by omega), Wire.typ, List.getD_eq_getElem]
  rw [handleData, if_neg (by simp [hs]), if_neg (show ¬ pkt.length ≤ 8 by omega)]
  simp only [hdrSize, maxPktSize]
  rw [if_neg (show ¬ pkt.length - 8 > 2048 by omega), rdN_eq (by omega), htyp, hdrop]
  simp only [Option.bind_eq_bind, Option.bind_some]
  rw [emit_eq (by simp; omega)]
  rfl

/-- `handle_echo_resp` (lines 1282–1298). -/
def handleEchoResp (env : Env) (c : IwanClient) (pkt : Bytes) : Option Res :=
  if c.state ≠ .established then some ⟨c, [], false⟩
  else do
    let valid ← pktVerify pkt
    if valid = false then return ⟨c, [], false⟩
    else if pkt.length < hdrSize + signSize + 8 then return ⟨c, [], true⟩
    else
      let sent ← rdN pkt (hdrSize + signSize) 8
      let sentTime := sent.foldr (fun b (acc : UInt64) => (acc <<< 8) ||| b.toUInt64) 0
      let delay := (env.usecs - sentTime).toUInt32
      return ⟨{ c with curDelay := delay
                       maxDelay := if delay > c.maxDelay then delay else c.maxDelay
                       minDelay := if delay < c.minDelay then delay else c.minDelay }, [], true⟩

/-- `handle_close` (lines 1300–1308). -/
def handleClose (c : IwanClient) (pkt : Bytes) : Option Res :=
  if c.state ≠ .established then some ⟨c, [], false⟩
  else do
    let valid ← pktVerify pkt
    if valid = false then return ⟨c, [], false⟩
    else return ⟨{ c with state := .closed }, [], true⟩

/-- `handle_openrej` (lines 1310–1315). -/
def handleOpenrej (c : IwanClient) : Res :=
  if c.state ≠ .authSent then ⟨c, [], false⟩ else ⟨{ c with state := .closed }, [], false⟩

/-- The inner packet of a SEGRT after the optional AES layer: `none` inside when
    the packet is dropped (lines 1353–1368). -/
def segrtInner (cfg : Config) (c : IwanClient) (inner : Bytes) (srhdr2 : UInt8) :
    Option (Option Bytes) := do
  let decryptBuf ← emit maxPktSize [] inner
  if cfg.srCount > 0 ∧ cfg.srEncryptMode > 0 then
    let encryptAlgo := srhdr2 &&& 0x7
    if encryptAlgo = cfg.srEncryptMode then
      match ← srDecrypt c decryptBuf inner.length srhdr2 with
      | none => return none
      | some decryptBuf =>
        let padlen := ((srhdr2 >>> 3) &&& 0x1f).toNat
        if padlen > 0 ∧ padlen < inner.length then
          return some (← rdN decryptBuf 0 (inner.length - padlen))
        else return some decryptBuf
    else if encryptAlgo ≠ 0 then return none
    else return some decryptBuf
  else return some decryptBuf

/-- The dispatch on the decrypted inner packet (lines 1370–1389). -/
def segrtDispatch (env : Env) (c : IwanClient) (buf : Bytes) : Option Res := do
  let typ ← rd buf 0
  if typ = pktIpfragSr then handleIpfrag env c buf
  else if typ ≠ pktData ∧ typ ≠ pktDataEnc then return ⟨c, [], false⟩
  else if buf.length ≤ hdrSize then return ⟨c, [], false⟩
  else
    let data ← rdN buf hdrSize (buf.length - hdrSize)
    let data := if typ = pktDataEnc then xorEncrypt c.xorKey data else data
    return ⟨{ c with tunTx := c.tunTx + 1 }, [.tunWrite data], true⟩

/-- `handle_segrt` (lines 1329–1390). -/
def handleSegrt (cfg : Config) (env : Env) (c : IwanClient) (pkt : Bytes) : Option Res :=
  if c.state ≠ .established then some ⟨c, [], false⟩
  else if pkt.length < hdrSize + 4 then some ⟨c, [], false⟩
  else do
    let linkcnt ← rd pkt (hdrSize + 1)
    let srHdrLen := linkcnt.toNat * 4 + 4
    if pkt.length < hdrSize + srHdrLen then return ⟨c, [], false⟩
    else
      let innerLen := pkt.length - hdrSize - srHdrLen
      if innerLen = 0 then return ⟨c, [], false⟩
      else if innerLen > maxPktSize then return ⟨c, [], false⟩
      else
        let inner ← rdN pkt (hdrSize + srHdrLen) innerLen
        let srhdr2 ← rd pkt (hdrSize + 2)
        match ← segrtInner cfg c inner srhdr2 with
        | none => return ⟨c, [], false⟩
        | some buf => segrtDispatch env c buf

/-! ## Dispatch -/

/-- The `switch` of `handle_recv`, with the DATA branch in front of it. -/
def dispatch (cfg : Config) (env : Env) (c : IwanClient) (pkt : Bytes) (pktType : UInt8) :
    Option Res :=
  if pktType = pktData ∨ pktType = pktDataEnc then handleData env c pkt
  else if pktType = pktOpenack then handleOpenack cfg env c pkt
  else if pktType = pktOpenrej then some (handleOpenrej c)
  else if pktType = pktEchoresp then handleEchoResp env c pkt
  else if pktType = pktClose then handleClose c pkt
  else if pktType = pktIpfrag then handleIpfrag env c pkt
  else if pktType = pktSegrt then handleSegrt cfg env c pkt
  else some ⟨c, [], false⟩

/-- `handle_recv` (lines 1392–1436). -/
def handleRecv (cfg : Config) (env : Env) (c : IwanClient) (pkt : Bytes) :
    Option (IwanClient × List Effect) :=
  if pkt.length < hdrSize then some (c, [])
  else do
    let pktType ← rd pkt 0
    let r ← dispatch cfg env { c with rxPkts := c.rxPkts + 1 } pkt pktType
    if r.accepted then return ({ r.client with lastRecvTime := env.secsAfter }, r.effects)
    else return (r.client, r.effects)

/-- `handle_tun_recv` (lines 1442–1466); `data` is what `read` put at
    `buf + HDR_SIZE`. -/
def handleTunRecv (c : IwanClient) (data : Bytes) : Option (IwanClient × List Effect) :=
  if data = [] then some (c, [])
  else if c.state ≠ .established then some (c, [])
  else do
    let hdr := if c.encrypt ≠ 0 then [pktDataEnc, c.encrypt] else [pktData, 0]
    let payload := if c.encrypt ≠ 0 then xorEncrypt c.xorKey data else data
    let buf ← emit maxPktSize [] (hdr ++ c.sessionToken.toList ++ c.sessionId.toList)
    let buf ← emit maxPktSize buf payload
    return ({ c with tunRx := c.tunRx + 1, txPkts := c.txPkts + 1 }, [sendToServer c buf])

end Iwand.Client
