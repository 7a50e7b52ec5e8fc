import Iwand.Server.Ip
import Iwand.Common.Wire
import Iwand.Crypto.AES

/-!
# Server packets

Model of `server/protocol.go`. `crypto/md5` is `MD5.md5` and `crypto/aes` with a
16-byte key is `AES.cipher`; `aes.NewCipher` fails only for other key lengths,
so `encryptedPassword` has no error.

The loop of `parseTLVs` runs with fuel; `parseTLVs_encode` and
`parseTLVs_noPanic` show that the fuel suffices.

* `verifyPacket_eq`: verification follows the packet format.
* `buildOpenReject_eq`, `buildOpenAck_eq`, `buildEchoResp_eq`,
  `buildDataPacket_eq`: the packets that the server sends.
* `parseTLVs_encode`, `parseTLVs_ok_iff`: decoding undoes encoding, and accepts
  nothing else.
* `parseOpenPacket_eq`: an OPEN is its signature, its items and the checks on
  what they say.
-/

namespace Iwand.Server

open Go

/-! ## Constants -/

abbrev packetOpenReject : UInt8 := 0x11
abbrev packetOpenAck : UInt8 := 0x12
abbrev packetOpen : UInt8 := 0x13
abbrev packetData : UInt8 := 0x14
abbrev packetEchoReq : UInt8 := 0x15
abbrev packetEchoResp : UInt8 := 0x16
abbrev packetClose : UInt8 := 0x17
abbrev packetDataEnc : UInt8 := 0x18

@[simp] abbrev headerSize : ℕ := 8
@[simp] abbrev signedHeaderSize : ℕ := 24

abbrev defaultMTU : UInt16 := 1400
abbrev minMTU : UInt16 := 46
abbrev maxMTU : UInt16 := 1600

/-! ## Signatures -/

/-- `signPacket` (lines 41–46). -/
def signPacket (packet : Bytes) : Go Bytes := do
  let hdr ← slice packet 0 headerSize
  copyInto packet headerSize signedHeaderSize (MD5.md5 (hdr ++ [0x6d, 0x77])).toList

/-- `verifyPacket` (lines 48–56). -/
def verifyPacket (packet : Bytes) : Go Bool :=
  if packet.length < signedHeaderSize then .ok false
  else do
    let hdr ← slice packet 0 headerSize
    return (← slice packet headerSize signedHeaderSize) == (MD5.md5 (hdr ++ [0x6d, 0x77])).toList

/-! ## Type-length-value items -/

/-- `appendTLV` (lines 58–61). -/
def appendTLV (packet : Bytes) (tlvType : UInt8) (value : Bytes) : Bytes :=
  packet ++ [tlvType, UInt8.ofNat (value.length + 2)] ++ value

/-- The loop of `parseTLVs` (lines 65–78). -/
def parseTLVsLoop : ℕ → Bytes → List Wire.Tlv → Go (List Wire.Tlv)
  | 0, _, _ => .error (.panic .diverged)
  | fuel + 1, data, tlvs =>
    if 0 < data.length then
      if data.length < 2 then fail "truncated TLV header"
      else do
        let tlvLength := (← idx data 1).toNat
        if tlvLength < 2 ∨ tlvLength > data.length then
          fail ("invalid TLV length " ++ toString tlvLength)
        else
          let item : Wire.Tlv := ⟨← idx data 0, ← slice data 2 tlvLength⟩
          parseTLVsLoop fuel (← sliceFrom data tlvLength) (tlvs ++ [item])
    else .ok tlvs

/-- `parseTLVs` (lines 63–80). -/
def parseTLVs (data : Bytes) : Go (List Wire.Tlv) := parseTLVsLoop (data.length + 1) data []

/-! ## OPEN -/

/-- `openRequest`. -/
structure OpenRequest where
  username : Bytes
  passwordBlock : Vector UInt8 16
  mtu : UInt16
  encrypt : Bool
deriving DecidableEq

/-- The `switch` of `parseOpenPacket` on one item, with `hasPassword` (lines
    101–121). -/
def openItem (st : OpenRequest × Bool) (item : Wire.Tlv) : Go (OpenRequest × Bool) :=
  let (request, hasPassword) := st
  match item.typ with
  | 1 => .ok ({ request with username := item.value }, hasPassword)
  | 2 =>
    if item.value.length ≠ 16 then
      fail ("invalid password TLV length " ++ toString item.value.length)
    else .ok ({ request with passwordBlock := toArr 16 item.value }, true)
  | 3 =>
    if item.value.length < 2 then
      fail ("invalid MTU TLV length " ++ toString item.value.length)
    else do
      let v ← slice item.value 0 2
      return ({ request with mtu := be16 (← idx v 0) (← idx v 1) }, hasPassword)
  | 8 =>
    if item.value.length > 0 then
      return ({ request with encrypt := (← idx item.value 0) ≠ 0 }, hasPassword)
    else .ok (request, hasPassword)
  | _ => .ok (request, hasPassword)

/-- The checks behind the loop (lines 122–131). -/
def openChecks (request : OpenRequest) (hasPassword : Bool) : Go OpenRequest :=
  if request.username = [] then fail "missing username TLV"
  else if hasPassword = false then fail "missing password TLV"
  else if request.mtu < minMTU ∨ request.mtu > maxMTU then
    fail ("invalid client MTU " ++ toString request.mtu.toNat)
  else .ok request

/-- `parseOpenPacket` (lines 82–132). -/
def parseOpenPacket (packet : Bytes) : Go OpenRequest :=
  if packet.length < signedHeaderSize then fail "short OPEN packet"
  else do
    if (← idx packet 0) ≠ packetOpen then fail "not an OPEN packet"
    else if (← verifyPacket packet) = false then fail "invalid OPEN signature"
    else
      let request : OpenRequest :=
        { username := []
          passwordBlock := Vector.replicate 16 0
          mtu := defaultMTU
          encrypt := (← idx packet 1) ≠ 0 }
      let tlvs ← parseTLVs (← sliceFrom packet signedHeaderSize)
      let (request, hasPassword) ← tlvs.foldlM openItem (request, false)
      openChecks request hasPassword

/-! ## Passwords and keys -/

/-- `encryptedPassword` (lines 134–145). -/
def encryptedPassword (username password : Bytes) : Vector UInt8 16 :=
  AES.cipher (MD5.md5 ([0x6d, 0x77] ++ username)) (toArr 16 password)

/-- `passwordMatches` (lines 147–153). -/
def passwordMatches (username password : Bytes) (block : Vector UInt8 16) : Bool :=
  block = encryptedPassword username password

/-- `deriveXORKey` (lines 155–160). -/
def deriveXORKey (username password : Bytes) : Vector UInt8 8 :=
  toArr 8 ((MD5.md5 (username ++ password)).toList.take 8)

/-- `xorData` (lines 162–166). -/
def xorData (key : Vector UInt8 8) (data : Bytes) : Bytes := xorCycle key data

/-! ## Packet builders -/

/-- `buildOpenReject` (lines 168–173). -/
def buildOpenReject : Go Bytes := do
  let packet := List.replicate signedHeaderSize 0
  let packet ← put packet 0 packetOpenReject
  signPacket packet

/-- `packet[0]`, `packet[1]` and the session fields (lines 177–182, 208–210,
    218–226); a flag of 0 stands for no write to the zeroed `packet[1]`. -/
def putHeader (packet : Bytes) (typ flag : UInt8) (token : Vector UInt8 2)
    (sessionID : Vector UInt8 4) : Go Bytes := do
  let packet ← put packet 0 typ
  let packet ← put packet 1 flag
  let packet ← copyInto packet 2 4 token.toList
  copyInto packet 4 8 sessionID.toList

/-- The DNS item of an OPENACK (lines 187–197). -/
def appendDNS (packet : Bytes) (dns : List Addr) : Go Bytes :=
  match dns with
  | [] => .ok packet
  | [d0] => return appendTLV packet 5 (← d0.as4).toList
  | d0 :: d1 :: _ => return appendTLV packet 6 ((← d0.as4).toList ++ (← d1.as4).toList)

/-- `buildOpenAck` (lines 175–204). -/
def buildOpenAck (token : Vector UInt8 2) (sessionID : Vector UInt8 4) (mtu : UInt16)
    (address : Addr) (dns : List Addr) (encrypt : Bool) : Go Bytes := do
  let packet := List.replicate signedHeaderSize 0
  let packet ← putHeader packet packetOpenAck (if encrypt then 1 else 0) token sessionID
  let packet ← signPacket packet
  let packet := appendTLV packet 3 [(mtu >>> 8).toUInt8, mtu.toUInt8]
  let packet := appendTLV packet 4 (← address.as4).toList
  let packet ← appendDNS packet dns
  return appendTLV packet 8 [if encrypt then 1 else 0]

/-- `buildEchoResp` (lines 206–214). -/
def buildEchoResp (token : Vector UInt8 2) (sessionID : Vector UInt8 4) (payload : Bytes) :
    Go Bytes := do
  let packet := List.replicate (signedHeaderSize + payload.length) 0
  let packet ← putHeader packet packetEchoResp 0 token sessionID
  let packet ← signPacket packet
  copyInto packet signedHeaderSize packet.length payload

/-- `buildDataPacket` (lines 216–231). -/
def buildDataPacket (token : Vector UInt8 2) (sessionID : Vector UInt8 4) (payload : Bytes)
    (encrypt : Bool) (key : Vector UInt8 8) : Go Bytes := do
  let packet := List.replicate (headerSize + payload.length) 0
  let packet ← putHeader packet (if encrypt then packetDataEnc else packetData)
    (if encrypt then 1 else 0) token sessionID
  let packet ← copyInto packet headerSize packet.length payload
  if encrypt then
    let body ← sliceFrom packet headerSize
    copyInto packet headerSize packet.length (xorData key body)
  else return packet

/-! ## Packets sent -/

theorem verifyPacket_eq (packet : Bytes) :
    verifyPacket packet = .ok (decide (Wire.Signed packet)) := by
  unfold verifyPacket
  by_cases hlen : packet.length < signedHeaderSize
  · have hshort : ¬ Wire.Signed packet := fun h => Nat.not_lt.mpr h.1 hlen
    rw [if_pos hlen, decide_eq_false hshort]
  · have h24 : 24 ≤ packet.length := Nat.le_of_not_lt hlen
    rw [if_neg hlen, slice_eq (by omega) (by simp; omega), slice_eq (by decide) h24]
    simp only [bind_ok, List.drop_zero, List.drop_take]
    have hiff : Wire.Signed packet ↔
        (packet.drop 8).take 16 = (MD5.md5 (packet.take 8 ++ [0x6d, 0x77])).toList :=
      ⟨fun h => h.2, fun h => ⟨h24, h⟩⟩
    rw [decide_eq_decide.mpr hiff, ← beq_eq_decide]
    rfl

section

variable (typ flag : UInt8) (tok : Vector UInt8 2) (id : Vector UInt8 4)

theorem putHeader_eq (rest : Bytes) :
    putHeader (List.replicate headerSize 0 ++ rest) typ flag tok id =
      .ok (Wire.header typ flag tok id ++ rest) := by
  have hset : ((List.replicate headerSize 0 ++ rest).set 0 typ).set 1 flag =
      [typ, flag] ++ ([0, 0] ++ ([0, 0, 0, 0] ++ rest)) := rfl
  have htok : ([typ, flag] ++ ([0, 0] ++ ([0, 0, 0, 0] ++ rest))).take 2 ++ tok.toList ++
      ([typ, flag] ++ ([0, 0] ++ ([0, 0, 0, 0] ++ rest))).drop 4 =
      ([typ, flag] ++ tok.toList) ++ ([0, 0, 0, 0] ++ rest) := rfl
  rw [putHeader, put_eq (by simp), bind_ok, put_eq (by simp), bind_ok, hset,
    copyInto_eq (by omega) (by simp) (by simp), bind_ok, htok,
    copyInto_eq (by omega) (by simp; omega) (by simp), List.take_left' (by simp),
    ← List.append_assoc _ [0, 0, 0, 0] rest, List.drop_left' (by simp)]
  rfl

/-- A signature in the 16 zero bytes behind the header. -/
theorem signPacket_eq (rest : Bytes) :
    signPacket (Wire.header typ flag tok id ++ (List.replicate 16 0 ++ rest)) =
      .ok (Wire.signedHeader typ flag tok id ++ rest) := by
  have hhdr : (Wire.header typ flag tok id ++ (List.replicate 16 0 ++ rest)).take 8 =
      Wire.header typ flag tok id := List.take_left' (by simp)
  have hrest : (Wire.header typ flag tok id ++ (List.replicate 16 0 ++ rest)).drop 24 = rest := by
    rw [← List.append_assoc, List.drop_left' (by simp)]
  rw [signPacket, slice_eq (by omega) (by simp), bind_ok, List.drop_zero, hhdr,
    copyInto_eq (by decide) (by simp; omega) (by simp), hhdr, hrest]
  rfl

end

/-- The OPENREJ. -/
def openReject : Bytes :=
  Wire.signedHeader packetOpenReject 0 (Vector.replicate 2 0) (Vector.replicate 4 0)

theorem buildOpenReject_eq : buildOpenReject = .ok openReject := by
  rw [buildOpenReject, put_eq (by simp), bind_ok]
  have h := signPacket_eq packetOpenReject 0 (Vector.replicate 2 0) (Vector.replicate 4 0) []
  simp only [List.append_nil] at h
  rw [openReject, ← h]
  rfl

section

variable (tok : Vector UInt8 2) (id : Vector UInt8 4)

/-- The ECHORESP. -/
theorem buildEchoResp_eq (payload : Bytes) :
    buildEchoResp tok id payload = .ok (Wire.signedHeader packetEchoResp 0 tok id ++ payload) := by
  have hzero : List.replicate (signedHeaderSize + payload.length) (0 : UInt8) =
      List.replicate headerSize 0 ++ (List.replicate 16 0 ++ List.replicate payload.length 0) := by
    rw [List.replicate_append_replicate, List.replicate_append_replicate]
    congr 1
    simp only [signedHeaderSize, headerSize]
    omega
  rw [buildEchoResp, hzero, putHeader_eq, bind_ok, signPacket_eq, bind_ok,
    copyInto_eq (by simp) le_rfl (by simp), List.take_left' (by simp), List.drop_length,
    List.append_nil]

/-- The bytes of a DATA or DATA_ENC packet. -/
def dataPacket (payload : Bytes) (encrypt : Bool) (key : Vector UInt8 8) : Bytes :=
  Wire.header (if encrypt then packetDataEnc else packetData) (if encrypt then 1 else 0) tok id ++
    if encrypt then xorData key payload else payload

theorem buildDataPacket_eq (payload : Bytes) (encrypt : Bool) (key : Vector UInt8 8) :
    buildDataPacket tok id payload encrypt key = .ok (dataPacket tok id payload encrypt key) := by
  have hzero : List.replicate (headerSize + payload.length) (0 : UInt8) =
      List.replicate headerSize 0 ++ List.replicate payload.length 0 :=
    List.replicate_append_replicate.symm
  rw [buildDataPacket, hzero, putHeader_eq, bind_ok, copyInto_eq (by simp) le_rfl (by simp),
    bind_ok, List.take_left' (by simp), List.drop_length, List.append_nil]
  cases encrypt with
  | false => rfl
  | true =>
    simp only [if_true]
    rw [sliceFrom_eq (by simp), bind_ok, List.drop_left' (by simp),
      copyInto_eq (by simp) le_rfl (by simp [xorData]), List.take_left' (by simp),
      List.drop_length, List.append_nil]
    rfl

end

/-- The items that carry the DNS servers. -/
def dnsTlvs : List (Vector UInt8 4) → List Wire.Tlv
  | [] => []
  | [d0] => [⟨5, d0.toList⟩]
  | d0 :: d1 :: _ => [⟨6, d0.toList ++ d1.toList⟩]

/-- The items of an OPENACK. -/
def ackTlvs (mtu : UInt16) (address : Vector UInt8 4) (dns : List (Vector UInt8 4))
    (encrypt : Bool) : List Wire.Tlv :=
  [⟨3, [(mtu >>> 8).toUInt8, mtu.toUInt8]⟩, ⟨4, address.toList⟩] ++ dnsTlvs dns ++
    [⟨8, [if encrypt then 1 else 0]⟩]

/-- The OPENACK. -/
def openAck (tok : Vector UInt8 2) (id : Vector UInt8 4) (mtu : UInt16) (address : Vector UInt8 4)
    (dns : List (Vector UInt8 4)) (encrypt : Bool) : Bytes :=
  Wire.signedHeader packetOpenAck (if encrypt then 1 else 0) tok id ++
    Wire.encode (ackTlvs mtu address dns encrypt)

theorem appendDNS_eq (packet : Bytes) (dns : List (Vector UInt8 4)) :
    appendDNS packet (dns.map .v4) = .ok (packet ++ Wire.encode (dnsTlvs dns)) := by
  match dns with
  | [] => simp [appendDNS, dnsTlvs, Wire.encode]
  | [d0] =>
    simp only [List.map_cons, List.map_nil, appendDNS, Addr.as4, bind_ok, dnsTlvs, appendTLV]
    simp [Wire.encode, Wire.Tlv.encode, pure, Except.pure]
  | d0 :: d1 :: _ =>
    simp only [List.map_cons, appendDNS, Addr.as4, bind_ok, dnsTlvs, appendTLV]
    simp [Wire.encode, Wire.Tlv.encode, pure, Except.pure]

theorem buildOpenAck_eq (tok : Vector UInt8 2) (id : Vector UInt8 4) (mtu : UInt16)
    (address : Vector UInt8 4) (dns : List (Vector UInt8 4)) (encrypt : Bool) :
    buildOpenAck tok id mtu (.v4 address) (dns.map .v4) encrypt =
      .ok (openAck tok id mtu address dns encrypt) := by
  have hsign := signPacket_eq packetOpenAck (if encrypt then 1 else 0) tok id []
  simp only [List.append_nil] at hsign
  rw [buildOpenAck, show List.replicate signedHeaderSize (0 : UInt8) =
    List.replicate headerSize 0 ++ List.replicate 16 0 from rfl, putHeader_eq, bind_ok, hsign]
  simp only [bind_ok, Addr.as4, appendDNS_eq, appendTLV, openAck, ackTlvs]
  simp [Wire.encode, Wire.Tlv.encode, pure, Except.pure]

/-! ## Packets received -/

/-- What the loop makes of the bytes behind the complete items. -/
def tailCheck (rest : Bytes) (tlvs : List Wire.Tlv) : Go (List Wire.Tlv) :=
  if rest = [] then .ok tlvs
  else if rest.length < 2 then fail "truncated TLV header"
  else fail ("invalid TLV length " ++ toString (rest.getD 1 0).toNat)

/-- The loop collects the complete items and then looks at what is left. -/
theorem parseTLVsLoop_eq : ∀ fuel data tlvs, data.length < fuel →
    parseTLVsLoop fuel data tlvs = tailCheck (Wire.leftover data) (tlvs ++ Wire.items data) := by
  intro fuel
  induction fuel with
  | zero => intro data tlvs hf; omega
  | succ fuel ih =>
    intro data tlvs hf
    rw [parseTLVsLoop]
    rcases Wire.items_cases data with hnil | ⟨t, rest, hv, rfl, hcons⟩
    · have hleft : Wire.leftover data = data := by
        rw [Wire.leftover, hnil]
        rfl
      rw [hleft, hnil, List.append_nil, tailCheck]
      rcases data with _ | ⟨a, _ | ⟨b, rest⟩⟩
      · rfl
      · rfl
      · -- two bytes that do not begin a complete item
        have hbad : ¬ (2 ≤ b.toNat ∧ b.toNat ≤ rest.length + 2) := by
          intro h
          rw [Wire.items_cons h.1 h.2] at hnil
          simp at hnil
        rw [if_pos (by simp), if_neg (by simp), idx_eq (by simp), bind_ok, if_pos (by simp; omega)]
        simp
    · have hbyte : (UInt8.ofNat (t.value.length + 2)).toNat = t.value.length + 2 := by
        rw [UInt8.toNat_ofNat', Nat.mod_eq_of_lt (by omega)]
      have hleft : Wire.leftover (t.encode ++ rest) = Wire.leftover rest := by
        have h := @Wire.leftover_encode_append [t] (by simpa using hv) rest
        rwa [Wire.encode, List.flatMap_singleton] at h
      have hdata : t.encode ++ rest =
          t.typ :: UInt8.ofNat (t.value.length + 2) :: (t.value ++ rest) := rfl
      rw [hleft, hcons]
      rw [hdata] at hf ⊢
      rw [if_pos (by simp), if_neg (by simp), idx_eq (by simp), bind_ok]
      simp only [List.getElem_cons_succ, List.getElem_cons_zero, hbyte]
      rw [if_neg (by simp), idx_eq (by simp), bind_ok, slice_eq (by omega) (by simp), bind_ok,
        sliceFrom_eq (by simp), bind_ok]
      -- the value is what lies between the two length bytes and the next item
      have hval : ((t.typ :: UInt8.ofNat (t.value.length + 2) :: (t.value ++ rest)).take
          (t.value.length + 2)).drop 2 = t.value := by simp
      have hrest : (t.typ :: UInt8.ofNat (t.value.length + 2) :: (t.value ++ rest)).drop
          (t.value.length + 2) = rest := by simp
      rw [hval, hrest, ih _ _ (by simp at hf; omega), List.append_assoc]
      rfl

theorem parseTLVs_eq (data : Bytes) :
    parseTLVs data = tailCheck (Wire.leftover data) (Wire.items data) := by
  rw [parseTLVs, parseTLVsLoop_eq _ _ _ (by omega), List.nil_append]

theorem tailCheck_eq_ok {rest : Bytes} {tlvs ts : List Wire.Tlv} :
    tailCheck rest tlvs = .ok ts ↔ rest = [] ∧ tlvs = ts := by
  unfold tailCheck
  split_ifs with h1 h2
  · simp [h1]
  · simp [h1, fail]
  · simp [h1, fail]

/-- **Parsing undoes encoding, and accepts nothing else.** -/
theorem parseTLVs_ok_iff (data : Bytes) (ts : List Wire.Tlv) :
    parseTLVs data = .ok ts ↔ data = Wire.encode ts ∧ ∀ t ∈ ts, t.value.length ≤ 253 := by
  rw [parseTLVs_eq, tailCheck_eq_ok]
  constructor
  · rintro ⟨hleft, rfl⟩
    have hdata := Wire.encode_items_append_leftover data
    rw [hleft, List.append_nil] at hdata
    exact ⟨hdata.symm, (Wire.encode_items data).1⟩
  · rintro ⟨rfl, hts⟩
    rw [Wire.leftover, Wire.items_encode hts, List.drop_length]
    exact ⟨rfl, rfl⟩

/-- **Decoding undoes encoding.** -/
theorem parseTLVs_encode {ts : List Wire.Tlv} (h : ∀ t ∈ ts, t.value.length ≤ 253) :
    parseTLVs (Wire.encode ts) = .ok ts :=
  (parseTLVs_ok_iff _ _).mpr ⟨rfl, h⟩

theorem parseTLVs_noPanic (data : Bytes) : NoPanic (parseTLVs data) := by
  rw [parseTLVs_eq, tailCheck]
  split_ifs
  · exact .ok _
  · exact .fail _
  · exact .fail _

theorem openItem_noPanic (st : OpenRequest × Bool) (item : Wire.Tlv) :
    NoPanic (openItem st item) := by
  obtain ⟨request, hasPassword⟩ := st
  simp only [openItem]
  split
  · exact .ok _
  · split_ifs
    · exact .fail _
    · exact .ok _
  · by_cases h : item.value.length < 2
    · rw [if_pos h]
      exact .fail _
    · rw [if_neg h, slice_eq (by omega) (by omega), bind_ok, idx_eq (by simp; omega), bind_ok,
        idx_eq (by simp; omega)]
      exact .ok _
  · by_cases h : item.value.length > 0
    · rw [if_pos h, idx_eq h]
      exact .ok _
    · rw [if_neg h]
      exact .ok _
  · exact .ok _

theorem openItems_noPanic (items : List Wire.Tlv) :
    ∀ st, NoPanic (items.foldlM openItem st) := by
  induction items with
  | nil => exact fun st => .ok _
  | cons t ts ih => exact fun st => (openItem_noPanic st t).bind fun st' _ => ih st'

/-- `parseOpenPacket` on a packet with a header and a signature. -/
theorem parseOpenPacket_eq {packet : Bytes} (h24 : 24 ≤ packet.length) :
    parseOpenPacket packet =
      if packet.getD 0 0 ≠ packetOpen then fail "not an OPEN packet"
      else if Wire.Signed packet then (do
        let tlvs ← parseTLVs (packet.drop 24)
        let st ← tlvs.foldlM openItem
          (⟨[], Vector.replicate 16 0, defaultMTU, packet.getD 1 0 ≠ 0⟩, false)
        openChecks st.1 st.2)
      else fail "invalid OPEN signature" := by
  rw [parseOpenPacket, if_neg (by simpa using h24), idx_eq (by omega), bind_ok, verifyPacket_eq,
    bind_ok, idx_eq (by omega), bind_ok, sliceFrom_eq (by simpa using h24), bind_ok,
    ← getD_of_lt (by omega), ← getD_of_lt (by omega)]
  by_cases hsig : Wire.Signed packet
  · simp only [hsig, decide_true, Bool.true_eq_false, if_false, if_true]
  · simp only [hsig, decide_false, if_true, if_false]

theorem parseOpenPacket_noPanic (packet : Bytes) : NoPanic (parseOpenPacket packet) := by
  by_cases h24 : packet.length < 24
  · rw [parseOpenPacket, if_pos h24]
    exact .fail _
  rw [parseOpenPacket_eq (by omega)]
  split_ifs
  · exact .fail _
  · refine (parseTLVs_noPanic _).bind fun tlvs _ => (openItems_noPanic tlvs _).bind fun st _ => ?_
    unfold openChecks
    split_ifs
    · exact .fail _
    · exact .fail _
    · exact .fail _
    · exact .ok _
  · exact .fail _

/-- What every accepted request satisfies. -/
theorem parseOpenPacket_ok {packet : Bytes} {request : OpenRequest}
    (h : parseOpenPacket packet = .ok request) :
    24 ≤ packet.length ∧ packet.getD 0 0 = packetOpen ∧ Wire.Signed packet ∧
      request.username ≠ [] ∧ minMTU ≤ request.mtu ∧ request.mtu ≤ maxMTU := by
  by_cases h24 : packet.length < 24
  · rw [parseOpenPacket, if_pos h24] at h
    cases h
  rw [parseOpenPacket_eq (by omega)] at h
  split_ifs at h with h1 h2
  · cases h
  · obtain ⟨tlvs, -, h⟩ := bind_eq_ok h
    obtain ⟨st, -, h⟩ := bind_eq_ok h
    unfold openChecks at h
    split_ifs at h with h3 h4 h5
    · cases h
    · cases h
    · cases h
    · cases h
      simp only [not_or, UInt16.not_lt, gt_iff_lt] at h5
      exact ⟨by omega, by simpa using h1, h2, h3, h5⟩
  · cases h

/-- The encryption flag after an item of a type other than 1, 2 and 3. -/
def encryptItem (encrypt : Bool) (item : Wire.Tlv) : Bool :=
  if item.typ = 8 then item.value.head?.elim encrypt (· ≠ 0) else encrypt

theorem openItem_other {request : OpenRequest} {hasPassword : Bool} {item : Wire.Tlv}
    (h1 : item.typ ≠ 1) (h2 : item.typ ≠ 2) (h3 : item.typ ≠ 3) :
    openItem (request, hasPassword) item =
      .ok ({ request with encrypt := encryptItem request.encrypt item }, hasPassword) := by
  simp only [openItem, encryptItem]
  split
  · exact absurd ‹item.typ = 1› h1
  · exact absurd ‹item.typ = 2› h2
  · exact absurd ‹item.typ = 3› h3
  · rw [if_pos ‹item.typ = 8›]
    match item.value with
    | [] => rfl
    | b :: bs => rfl
  · rw [if_neg ‹¬ item.typ = 8›]

theorem openItems_other {items : List Wire.Tlv}
    (h : ∀ t ∈ items, t.typ ≠ 1 ∧ t.typ ≠ 2 ∧ t.typ ≠ 3) (request : OpenRequest)
    (hasPassword : Bool) :
    items.foldlM openItem (request, hasPassword) =
      .ok ({ request with encrypt := items.foldl encryptItem request.encrypt }, hasPassword) := by
  induction items generalizing request with
  | nil => rfl
  | cons t ts ih =>
    obtain ⟨h1, h2, h3⟩ := h t (by simp)
    rw [List.foldlM_cons, openItem_other h1 h2 h3, bind_ok, ih fun u hu => h u (by simp [hu])]
    rfl

/-- A signed OPEN with well-formed items. -/
theorem parseOpenPacket_encode (flag : UInt8) (tok : Vector UInt8 2) (id : Vector UInt8 4)
    {ts : List Wire.Tlv} (h : ∀ t ∈ ts, t.value.length ≤ 253) :
    parseOpenPacket (Wire.signedHeader packetOpen flag tok id ++ Wire.encode ts) =
      ts.foldlM openItem (⟨[], Vector.replicate 16 0, defaultMTU, flag ≠ 0⟩, false) >>= fun st =>
        openChecks st.1 st.2 := by
  have htyp : ∀ body, (Wire.signedHeader packetOpen flag tok id ++ body).getD 0 0 = packetOpen :=
    fun _ => rfl
  have hflag : ∀ body, (Wire.signedHeader packetOpen flag tok id ++ body).getD 1 0 = flag :=
    fun _ => rfl
  rw [parseOpenPacket_eq (by simp), htyp, hflag, if_neg (by simp),
    if_pos (Wire.signed_signedHeader packetOpen flag tok id _), Wire.drop_signedHeader,
    parseTLVs_encode h, bind_ok]

/-- **An OPEN with the usual items** (MTU, user name, password block, then
    others) is accepted with what they say. -/
theorem parseOpenPacket_items (flag : UInt8) (tok : Vector UInt8 2) (id : Vector UInt8 4)
    (mtu : UInt16) (username : Bytes) (block : Vector UInt8 16) (rest : List Wire.Tlv)
    (hne : username ≠ []) (hlen : username.length ≤ 253) (hmin : minMTU ≤ mtu) (hmax : mtu ≤ maxMTU)
    (hrest : ∀ t ∈ rest, t.typ ≠ 1 ∧ t.typ ≠ 2 ∧ t.typ ≠ 3)
    (hrestlen : ∀ t ∈ rest, t.value.length ≤ 253) :
    parseOpenPacket (Wire.signedHeader packetOpen flag tok id ++
      Wire.encode ([⟨3, [(mtu >>> 8).toUInt8, mtu.toUInt8]⟩, ⟨1, username⟩, ⟨2, block.toList⟩] ++
        rest)) =
      .ok ⟨username, block, mtu, rest.foldl encryptItem (flag ≠ 0)⟩ := by
  have hvalues : ∀ t ∈ [⟨3, [(mtu >>> 8).toUInt8, mtu.toUInt8]⟩, ⟨1, username⟩,
      ⟨2, block.toList⟩] ++ rest, (t : Wire.Tlv).value.length ≤ 253 := by
    intro t ht
    simp only [List.cons_append, List.nil_append, List.mem_cons] at ht
    rcases ht with rfl | rfl | rfl | ht
    · simp
    · exact hlen
    · simp
    · exact hrestlen t ht
  rw [parseOpenPacket_encode flag tok id hvalues]
  -- the three items, then the others
  have hmtu : be16 (mtu >>> 8).toUInt8 mtu.toUInt8 = mtu := be16_bytes mtu
  have h3 : ∀ st : OpenRequest × Bool,
      openItem st ⟨3, [(mtu >>> 8).toUInt8, mtu.toUInt8]⟩ = .ok ({ st.1 with mtu := mtu }, st.2) := by
    intro st
    have hitem : openItem st ⟨3, [(mtu >>> 8).toUInt8, mtu.toUInt8]⟩ =
        .ok ({ st.1 with mtu := be16 (mtu >>> 8).toUInt8 mtu.toUInt8 }, st.2) := rfl
    rw [hitem, hmtu]
  have h2 : ∀ st : OpenRequest × Bool,
      openItem st ⟨2, block.toList⟩ = .ok ({ st.1 with passwordBlock := block }, true) := by
    intro st
    simp [openItem]
  rw [List.cons_append, List.foldlM_cons, h3, bind_ok, List.cons_append, List.foldlM_cons]
  simp only [openItem, bind_ok]
  rw [List.cons_append, List.foldlM_cons, h2, bind_ok, List.nil_append, openItems_other hrest,
    bind_ok, openChecks, if_neg hne, if_neg (by simp), if_neg]
  simp only [not_or, UInt16.not_lt, gt_iff_lt]
  exact ⟨hmin, hmax⟩

end Iwand.Server
