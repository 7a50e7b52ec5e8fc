import Iwand.Client.State
import Iwand.Client.Md5
import Iwand.Common.Wire

/-!
# Client packets and keys

Model of `pkt_sign`, `pkt_verify`, `derive_xor_key`, `sr_setup_keys`,
`sr_decrypt`, the packet builders, `send_close` and `run_script` (lines
741–1029). Stack arrays are filled with `emit`, so a builder returns `some`
only if every write fits its array and every byte it hashes, encrypts or sends
was written before.

* `pktSign_eq`, `pktVerify_eq`: signing and verification follow the packet
  format.
* `deriveXorKey_eq`: the data key is the first half of
  `MD5(username ++ password)`.
* `srSetupKeys_eq`: both segment-routing schedules expand the first 16 bytes of
  the password and the links.
* `buildOpenPkt_eq`: the OPEN of a configuration within its bounds is `openPkt`, a signed
  header followed by `openTlvs`.
* `sendClose_eq`, `buildEchoReq_eq`: the packets that carry the session.
-/

namespace Iwand.Client

/-! ## Signatures -/

/-- The digest of the header and `"mw"`, by two updates (lines 743–747 and
    756–761). -/
def pktDigest (hdr : Bytes) : Vector UInt8 16 :=
  let ctx := md5Init md5Stack
  let ctx := md5Update ctx hdr
  let ctx := md5Update ctx [0x6d, 0x77]
  md5Final ctx

/-- `pkt_sign` on the array of `cap` bytes whose header was just written (lines
    741–750). -/
def pktSign (cap : ℕ) (pkt : Bytes) : Option Bytes := do
  let hdr ← rdN pkt 0 hdrSize
  emit cap hdr (pktDigest hdr).toList

/-- `pkt_verify` (lines 753–764). -/
def pktVerify (pkt : Bytes) : Option Bool :=
  if pkt.length < hdrSize + signSize then some false
  else do
    let hdr ← rdN pkt 0 hdrSize
    let sig ← rdN pkt hdrSize signSize
    return (pktDigest hdr).toList == sig

theorem pktDigest_eq {hdr : Bytes} (h : hdr.length = 8) : pktDigest hdr = Wire.signature hdr := by
  have h1 := md5Update_absorbs (absorbed_init md5Stack) hdr (by omega)
  have h2 := md5Update_absorbs h1 [0x6d, 0x77] (by simp)
  exact md5Final_eq h2

theorem pktSign_eq {cap : ℕ} (typ flag : UInt8) (tok : Vector UInt8 2) (id : Vector UInt8 4)
    (h : 24 ≤ cap) :
    pktSign cap (Wire.header typ flag tok id) = some (Wire.signedHeader typ flag tok id) := by
  have hrd : rdN (Wire.header typ flag tok id) 0 hdrSize = some (Wire.header typ flag tok id) := by
    rw [rdN_eq (by simp), List.drop_zero, List.take_of_length_le (by simp)]
  rw [pktSign, hrd]
  simp only [Option.bind_eq_bind, Option.bind_some]
  rw [emit_eq (by simpa using h), pktDigest_eq (by simp)]
  rfl

theorem pktVerify_eq (pkt : Bytes) : pktVerify pkt = some (decide (Wire.Signed pkt)) := by
  unfold pktVerify
  split_ifs with hlen
  · have hshort : ¬ Wire.Signed pkt := fun h => Nat.not_lt.mpr h.1 hlen
    rw [decide_eq_false hshort]
  · have hlen' : 24 ≤ pkt.length := Nat.le_of_not_lt hlen
    have hhdr : (pkt.take 8).length = 8 := by simp; omega
    rw [rdN_eq (show 0 + 8 ≤ pkt.length by omega), rdN_eq (show 8 + 16 ≤ pkt.length by omega)]
    simp only [Option.bind_eq_bind, Option.bind_some, List.drop_zero, Option.pure_def,
      pktDigest_eq hhdr]
    have hiff : Wire.Signed pkt ↔ (Wire.signature (pkt.take 8)).toList = (pkt.drop 8).take 16 :=
      ⟨fun h => h.2.symm, fun h => ⟨hlen', h.symm⟩⟩
    rw [decide_eq_decide.mpr hiff, beq_eq_decide]

/-! ## Keys -/

/-- `derive_xor_key` (lines 770–778): `len` is what `snprintf` would have
    written, and `md5_hash` reads that many bytes of `buf[128]`. -/
def deriveXorKey (cfg : Config) : Option (Vector UInt8 8) := do
  let username ← cstr cfg.username
  let password ← cstr cfg.password
  let buf ← emit 127 [] (username ++ password)
  return toArr 8 ((md5Hash buf).toList.take 8)

/-- `sr_setup_keys` (lines 784–820): the decryption and encryption keys, and
    `g_cfg.sr_encrypt_mode`, which falls back from AES-256 to AES-128. -/
def srSetupKeys (cfg : Config) (c : IwanClient) : Option (Config × IwanClient) :=
  if cfg.srCount = 0 then some (cfg, c)
  else do
    let password ← cstr cfg.srPassword
    let keybuf ← emit 128 [] password
    let linkdata ← rdN (cfg.srLinks.toList.flatMap Vector.toList) 0 (cfg.srCount.toNat * 4)
    let keybuf ← emitIf (keybuf.length + linkdata.length ≤ 128) 128 keybuf linkdata
    let keybuf ← emit 128 keybuf (List.replicate (32 - keybuf.length) 0)
    let key ← rdN keybuf 0 16
    let cfg := if cfg.srEncryptMode = 2 then { cfg with srEncryptMode := 1 } else cfg
    return (cfg, { c with srDecryptKey := aesSetDecryptKey (toArr 16 key)
                          srEncryptKey := aesSetEncryptKey (toArr 16 key) })

/-- The body of the loop of `sr_decrypt` at `off = i * block_size` (lines
    832–836). -/
def srDecryptBlock (c : IwanClient) (blockSize : ℕ) (data : Bytes) (i : ℕ) : Option Bytes :=
  if blockSize = 16 then do
    let block ← rdN data (i * blockSize) 16
    wrN data (i * blockSize) (aesDecryptBlock c.srDecryptKey (toArr 16 block)).toList
  else some data

/-- `sr_decrypt` on the array `data` (lines 822–839): `none` inside for the
    result `-1`. -/
def srDecrypt (c : IwanClient) (data : Bytes) (len : ℕ) (srhdr2 : UInt8) : Option (Option Bytes) :=
  let blockSize := if srhdr2 &&& 0x7 = 1 then 16 else 32
  if len % blockSize ≠ 0 then some none
  else (List.range (len / blockSize)).foldlM (srDecryptBlock c blockSize) data |>.map some

/-- `xor_encrypt` (lines 423–427). -/
def xorEncrypt (key : Vector UInt8 8) (data : Bytes) : Bytes := xorCycle key data

/-! ## Packet builders -/

/-- `build_open_pkt` (lines 846–913). -/
def buildOpenPkt (cfg : Config) : Option Bytes := do
  let p ← emit maxPktSize [] [pktOpen, cfg.encrypt, 0, 0, 0, 0, 0, 0]
  let tlv ← pktSign maxPktSize p
  let tlv ← emit maxPktSize tlv
    [3, 4, ((cfg.mtu >>> 8) &&& 0xff).toUInt8, (cfg.mtu &&& 0xff).toUInt8]
  let username ← cstr cfg.username
  let tlv ← emit maxPktSize tlv ([1, UInt8.ofNat (username.length + 2)] ++ username)
  let keybuf ← emit 34 [0x6d, 0x77] username
  let aeskey := aesSetEncryptKey (md5Hash keybuf)
  let password ← cstr cfg.password
  let passBlock := toArr 16 (password.take 16)
  let tlv ← emit maxPktSize tlv ([2, 0x12] ++ (aesEncryptBlock aeskey passBlock).toList)
  let tlv ← emitIf (cfg.encrypt ≠ 0) maxPktSize tlv [8, 3, cfg.encrypt]
  let val : UInt32 := cfg.pipeid.toUInt32 ||| (cfg.pipeidx.toUInt32 <<< 15)
  emitIf (cfg.pipeid ≠ 0 ∨ cfg.pipeidx ≠ 0) maxPktSize tlv
    [0x0a, 4, ((val >>> 8) &&& 0xff).toUInt8, (val &&& 0xff).toUInt8]

/-- The bytes of a 32-bit or 64-bit integer in memory, low-order byte first. -/
def hostBytes (n x : ℕ) : Bytes := (List.range n).map fun i => UInt8.ofNat (x >>> (8 * i))

/-- `build_echo_req` (lines 919–950). -/
def buildEchoReq (usecs : UInt64) (c : IwanClient) : Option Bytes := do
  let buf ← emit maxPktSize [] ([pktEchoreq, 0] ++ c.sessionToken.toList ++ c.sessionId.toList)
  let p ← pktSign maxPktSize buf
  let p ← emit maxPktSize p (hostBytes 8 usecs.toNat)
  let p ← emit maxPktSize p (hostBytes 4 c.curDelay.toNat)
  let p ← emit maxPktSize p (hostBytes 4 c.minDelay.toNat)
  let p ← emit maxPktSize p (hostBytes 4 c.maxDelay.toNat)
  let p ← emit maxPktSize p [0, 0, 0, 0]
  -- "TDR\0"
  let p ← emit maxPktSize p [0x54, 0x44, 0x52, 0]
  -- htonl(rt_magic)
  let p ← emit maxPktSize p (hostBytes 4 c.rtMagic.toNat).reverse
  emit maxPktSize p [0, 0, 0, 0]

/-- `send_to_server` (lines 956–968). -/
def sendToServer (c : IwanClient) (pkt : Bytes) : Effect := .sendto pkt c.serverAddr c.serverPort

/-- `send_close` (lines 971–984). -/
def sendClose (c : IwanClient) : Option (List Effect) :=
  if c.state ≠ .established ∨ c.udpFd < 0 then some []
  else do
    let buf ← emit 24 [] ([pktClose, 0] ++ c.sessionToken.toList ++ c.sessionId.toList)
    let buf ← pktSign 24 buf
    return [sendToServer c buf]

/-! ## Hook scripts -/

/-- `"%u.%u.%u.%u"` of the four bytes of an address, most significant first. -/
def ipStr (ip : UInt32) : String :=
  toString ((ip >>> 24) &&& 0xff).toNat ++ "." ++ toString ((ip >>> 16) &&& 0xff).toNat ++ "." ++
    toString ((ip >>> 8) &&& 0xff).toNat ++ "." ++ toString (ip &&& 0xff).toNat

/-- `run_script` (lines 990–1029). -/
def runScript (cfg : Config) (env : Env) (script : Vector UInt8 256) (event : Hook)
    (c : IwanClient) : List Effect :=
  if firstByte script = 0 then []
  else if env.access = false then []
  else if env.fork = false then []
  else
    let mtu := if c.serverMtu > 0 then c.serverMtu else cfg.mtu
    [.runScript script
      { event := event
        tunName := cfg.tunName
        ip := ipStr c.peerIp
        mtu := toString mtu.toNat
        dns0 := ipStr c.dns0
        dns1 := ipStr c.dns1 }]

/-- A hook script is run, with its event, or not. -/
theorem runScript_cases (cfg : Config) (env : Env) (script : Vector UInt8 256) (event : Hook)
    (c : IwanClient) :
    runScript cfg env script event c = [] ∨
      ∃ args, args.event = event ∧
        runScript cfg env script event c = [.runScript script args] := by
  unfold runScript
  by_cases h1 : firstByte script = 0
  · exact .inl (if_pos h1)
  by_cases h2 : env.access = false
  · exact .inl (by rw [if_neg h1, if_pos h2])
  by_cases h3 : env.fork = false
  · exact .inl (by rw [if_neg h1, if_neg h2, if_pos h3])
  · rw [if_neg h1, if_neg h2, if_neg h3]
    exact .inr ⟨_, rfl, rfl⟩

/-! ## Specifications -/

/-- `g_cfg.username` as a string. -/
def Config.user (cfg : Config) : Bytes := cfg.username.toList.takeWhile (· ≠ 0)

/-- `g_cfg.password` as a string. -/
def Config.pass (cfg : Config) : Bytes := cfg.password.toList.takeWhile (· ≠ 0)

section

variable {cfg : Config}

theorem Config.Bounded.user (h : cfg.Bounded) :
    cstr cfg.username = some cfg.user ∧ cfg.user.length < 32 :=
  h.username.cstr_eq

theorem Config.Bounded.pass (h : cfg.Bounded) :
    cstr cfg.password = some cfg.pass ∧ cfg.pass.length < 32 :=
  h.password.cstr_eq

theorem Config.Admitted.user_ne_nil (h : cfg.Admitted) : cfg.user ≠ [] := by
  have hv := h.valid
  simp only [cfgValid, decide_eq_true_eq] at hv
  exact takeWhile_ne_nil hv.2.2.1

theorem Config.Admitted.mtu_range (h : cfg.Admitted) :
    46 ≤ cfg.mtu.toNat ∧ cfg.mtu.toNat ≤ 1600 := by
  have hv := h.valid
  simp only [cfgValid, decide_eq_true_eq, not_or, UInt16.not_lt, gt_iff_lt] at hv
  exact ⟨hv.2.2.2.2.1.1, hv.2.2.2.2.1.2⟩

end

/-- The data key of a user. -/
def dataKey (username password : Bytes) : Vector UInt8 8 :=
  toArr 8 ((MD5.md5 (username ++ password)).toList.take 8)

theorem deriveXorKey_eq {cfg : Config} (h : cfg.Bounded) :
    deriveXorKey cfg = some (dataKey cfg.user cfg.pass) := by
  obtain ⟨hu, hul⟩ := h.user
  obtain ⟨hp, hpl⟩ := h.pass
  rw [deriveXorKey, hu, hp]
  simp only [Option.bind_eq_bind, Option.bind_some]
  rw [emit_eq (by simp; omega)]
  simp only [Option.bind_some, List.nil_append, Option.pure_def]
  rw [md5Hash_eq _ (by simp; omega), dataKey]

/-- The segment-routing key: the first 16 bytes of the password and the links in
    use, zero-padded. -/
def srKey (cfg : Config) : Vector UInt8 16 :=
  toArr 16 ((cfg.srPassword.toList.takeWhile (· ≠ 0) ++
    (cfg.srLinks.toList.flatMap Vector.toList).take (cfg.srCount.toNat * 4)).take 16)

/-- What `sr_setup_keys` does to `g_cfg`. -/
def srFallback (cfg : Config) : Config :=
  if cfg.srEncryptMode = 2 then { cfg with srEncryptMode := 1 } else cfg

theorem length_srLinks (cfg : Config) : (cfg.srLinks.toList.flatMap Vector.toList).length = 24 := by
  rw [List.length_flatMap, List.map_congr_left (g := fun _ => 4) (fun v _ => by simp)]
  simp

/-- Both key schedules are those of `srKey`, whatever the mode. -/
theorem srSetupKeys_eq {cfg : Config} (h : cfg.Bounded) (hcnt : cfg.srCount ≠ 0) (c : IwanClient) :
    srSetupKeys cfg c = some (srFallback cfg,
      { c with srDecryptKey := aesSetDecryptKey (srKey cfg)
               srEncryptKey := aesSetEncryptKey (srKey cfg) }) := by
  obtain ⟨hpw, hpwl⟩ := h.srPassword.cstr_eq
  have hcnt6 : cfg.srCount.toNat ≤ 6 := h.srCount
  have hlinks := length_srLinks cfg
  rw [srSetupKeys, if_neg hcnt, hpw, srKey, srFallback]
  generalize cfg.srPassword.toList.takeWhile (· ≠ 0) = pw at *
  simp only [Option.bind_eq_bind, Option.bind_some]
  rw [emit_eq (by simp; omega), rdN_eq (by omega)]
  simp only [Option.bind_some, List.nil_append, List.drop_zero]
  have hld : ((cfg.srLinks.toList.flatMap Vector.toList).take (cfg.srCount.toNat * 4)).length ≤ 24 := by
    rw [List.length_take]; omega
  generalize (cfg.srLinks.toList.flatMap Vector.toList).take (cfg.srCount.toNat * 4) = ld at *
  rw [emitIf_eq (by omega), if_pos (by omega)]
  simp only [Option.bind_some]
  rw [emit_eq (by simp; omega)]
  simp only [Option.bind_some]
  rw [rdN_eq (by simp; omega)]
  simp only [Option.bind_some, List.drop_zero, Option.pure_def, toArr_take_pad]

/-- The password block: zero-padded or cut to 16 bytes, encrypted under
    `MD5("mw" ++ username)`. -/
def passwordBlock (username password : Bytes) : Vector UInt8 16 :=
  AES.cipher (MD5.md5 (Wire.magic ++ username)) (toArr 16 (password.take 16))

/-- The items of the OPEN. -/
def openTlvs (cfg : Config) : List Wire.Tlv :=
  let val : UInt32 := cfg.pipeid.toUInt32 ||| (cfg.pipeidx.toUInt32 <<< 15)
  [⟨3, [(cfg.mtu >>> 8).toUInt8, cfg.mtu.toUInt8]⟩, ⟨1, cfg.user⟩,
    ⟨2, (passwordBlock cfg.user cfg.pass).toList⟩] ++
  (if cfg.encrypt ≠ 0 then [⟨8, [cfg.encrypt]⟩] else []) ++
  (if cfg.pipeid ≠ 0 ∨ cfg.pipeidx ≠ 0 then [⟨0x0a, [(val >>> 8).toUInt8, val.toUInt8]⟩] else [])

theorem toUInt8_and_ff16 (x : UInt16) : (x &&& 0xff).toUInt8 = x.toUInt8 := by
  apply UInt8.toNat_inj.mp
  rw [UInt16.toNat_toUInt8, UInt16.toNat_toUInt8, UInt16.toNat_and,
    show (0xff : UInt16).toNat = 2 ^ 8 - 1 from rfl, Nat.and_two_pow_sub_one_eq_mod, Nat.mod_mod]

/-- A write into the packet buffer. -/
theorem emit_pkt {buf src : Bytes} (h : buf.length + src.length ≤ 2048) :
    emit maxPktSize buf src = some (buf ++ src) :=
  emit_eq h

theorem emitIf_pkt {p : Prop} [Decidable p] {buf src : Bytes}
    (h : buf.length + src.length ≤ 2048) :
    emitIf p maxPktSize buf src = some (buf ++ if p then src else []) :=
  emitIf_eq h

/-- The OPEN: a signed header with an all-zero session, followed by the encoded
    items. -/
def openPkt (cfg : Config) : Bytes :=
  Wire.signedHeader pktOpen cfg.encrypt (Vector.replicate 2 0) (Vector.replicate 4 0) ++
    Wire.encode (openTlvs cfg)

/-- **The OPEN packet.** -/
theorem buildOpenPkt_eq {cfg : Config} (h : cfg.Bounded) :
    buildOpenPkt cfg = some (openPkt cfg) := by
  obtain ⟨hu, hul⟩ := h.user
  obtain ⟨hp, hpl⟩ := h.pass
  have hhdr : ([pktOpen, cfg.encrypt, 0, 0, 0, 0, 0, 0] : Bytes) =
      Wire.header pktOpen cfg.encrypt (Vector.replicate 2 0) (Vector.replicate 4 0) := rfl
  have hkey : md5Hash ([0x6d, 0x77] ++ cfg.user) = MD5.md5 (Wire.magic ++ cfg.user) :=
    md5Hash_eq _ (by simp; omega)
  rw [buildOpenPkt, emit_pkt (by simp)]
  simp only [Option.bind_eq_bind, Option.bind_some, List.nil_append, hhdr,
    pktSign_eq pktOpen cfg.encrypt _ _ (show 24 ≤ maxPktSize by decide), hu, hp]
  rw [emit_pkt (by simp), Option.bind_some, emit_pkt (by simp; omega), Option.bind_some,
    emit_eq (by simp; omega), Option.bind_some, hkey, aesEncryptBlock_eq,
    emit_pkt (by simp; omega), Option.bind_some, emitIf_pkt (by simp; omega), Option.bind_some,
    emitIf_pkt (by split_ifs <;> simp <;> omega)]
  simp only [toUInt8_and_ff, toUInt8_and_ff16, openPkt, openTlvs]
  -- the two optional items
  split_ifs <;> simp [Wire.encode, Wire.Tlv.encode, passwordBlock]

/-- Every length byte of the OPEN is exact. -/
theorem length_openTlvs {cfg : Config} (h : cfg.Bounded) :
    ∀ t ∈ openTlvs cfg, t.value.length ≤ 253 := by
  have hul := h.user.2
  intro t ht
  simp only [openTlvs, List.mem_append, List.mem_cons, List.not_mem_nil, or_false] at ht
  rcases ht with ((rfl | rfl | rfl) | ht) | ht
  · simp
  · simp; omega
  · simp
  · split_ifs at ht <;> simp_all
  · split_ifs at ht <;> simp_all

/-- The items of the packet. -/
theorem items_openPkt {cfg : Config} (h : cfg.Bounded) :
    Wire.items ((openPkt cfg).drop 24) = openTlvs cfg := by
  rw [openPkt, Wire.drop_signedHeader, Wire.items_encode (length_openTlvs h)]

/-- The CLOSE that `send_close` sends, if any. -/
def closeEffects (c : IwanClient) : List Effect :=
  if c.state ≠ .established ∨ c.udpFd < 0 then []
  else [sendToServer c (Wire.signedHeader pktClose 0 c.sessionToken c.sessionId)]

theorem sendClose_eq (c : IwanClient) : sendClose c = some (closeEffects c) := by
  unfold sendClose closeEffects
  split_ifs with h
  · rfl
  · rw [emit_eq (by simp)]
    simp only [Option.bind_eq_bind, Option.bind_some, List.nil_append]
    rw [show [pktClose, 0] ++ c.sessionToken.toList ++ c.sessionId.toList =
      Wire.header pktClose 0 c.sessionToken c.sessionId from rfl, pktSign_eq _ _ _ _ le_rfl]
    rfl

/-- The 36 bytes behind the signature of an ECHOREQ. -/
def echoPayload (usecs : UInt64) (c : IwanClient) : Bytes :=
  hostBytes 8 usecs.toNat ++ hostBytes 4 c.curDelay.toNat ++ hostBytes 4 c.minDelay.toNat ++
    hostBytes 4 c.maxDelay.toNat ++ [0, 0, 0, 0] ++ [0x54, 0x44, 0x52, 0] ++
    (hostBytes 4 c.rtMagic.toNat).reverse ++ [0, 0, 0, 0]

theorem buildEchoReq_eq (usecs : UInt64) (c : IwanClient) :
    buildEchoReq usecs c = some (Wire.signedHeader pktEchoreq 0 c.sessionToken c.sessionId ++
      echoPayload usecs c) := by
  have hl : ∀ n x, (hostBytes n x).length = n := fun n x => by simp [hostBytes]
  rw [buildEchoReq, emit_pkt (by simp)]
  simp only [Option.bind_eq_bind, Option.bind_some, List.nil_append]
  rw [show [pktEchoreq, 0] ++ c.sessionToken.toList ++ c.sessionId.toList =
    Wire.header pktEchoreq 0 c.sessionToken c.sessionId from rfl,
    pktSign_eq _ _ _ _ (by decide)]
  simp only [Option.bind_some]
  repeat rw [emit_pkt (by simp [hl]), Option.bind_some]
  rw [emit_pkt (by simp [hl])]
  simp only [echoPayload, List.append_assoc]

end Iwand.Client
