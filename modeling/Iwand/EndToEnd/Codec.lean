import Iwand.Client.Recv
import Iwand.EndToEnd.Open

/-!
# What both implementations compute

The two programs have no code in common: the client carries its own MD5, AES and
item loop, the server uses Go's packages and a strict parser. Here the two are
held against one definition of each.

* `md5_any_chunking`: the digest, however the message is split, and signatures.
* `aes_password_block`: the block cipher, and the password block.
* `tlv_codec`: items are encoded and parsed without loss, and the client's loop
  visits exactly the items of the longest well-formed prefix.
-/

namespace Iwand.EndToEnd

open Server

/-! ## Digests -/

/-- The context after a list of updates. -/
theorem foldl_absorbs (chunks : List Bytes) : ∀ {ctx : Client.Md5Ctx} {m : Bytes},
    Client.Absorbed ctx m → (∀ s ∈ chunks, s.length < 2 ^ 32 - 64) →
    Client.Absorbed (chunks.foldl Client.md5Update ctx) (m ++ chunks.flatten) := by
  induction chunks with
  | nil =>
    intro ctx m h _
    simpa using h
  | cons s chunks ih =>
    intro ctx m h hlen
    have hs := Client.md5Update_absorbs h s (hlen s (by simp))
    have hrest := ih hs fun s' hs' => hlen s' (by simp [hs'])
    rwa [List.append_assoc, ← List.flatten_cons] at hrest

/-- **MD5 under any chunking.** The digest of a list of updates is the MD5 of their
    concatenation, `md5_hash` is MD5, and the signatures that `pkt_sign` writes,
    `pkt_verify` accepts and `verifyPacket` checks are the MD5 of the header
    followed by `"mw"`. -/
theorem md5_any_chunking :
    (∀ (ctx : Client.Md5Ctx) (chunks : List Bytes), (∀ s ∈ chunks, s.length < 2 ^ 32 - 64) →
      Client.md5Final (chunks.foldl Client.md5Update (Client.md5Init ctx)) = MD5.md5 chunks.flatten) ∧
    (∀ m : Bytes, m.length < 2 ^ 32 - 64 → Client.md5Hash m = MD5.md5 m) ∧
    (∀ pkt, Client.pktVerify pkt = some (decide (24 ≤ pkt.length ∧
      (pkt.drop 8).take 16 = (MD5.md5 (pkt.take 8 ++ [0x6d, 0x77])).toList))) ∧
    (∀ (cap : ℕ) (hdr : Bytes), hdr.length = 8 → 24 ≤ cap →
      Client.pktSign cap hdr = some (hdr ++ (MD5.md5 (hdr ++ [0x6d, 0x77])).toList)) ∧
    (∀ pkt, verifyPacket pkt = .ok (decide (24 ≤ pkt.length ∧
      (pkt.drop 8).take 16 = (MD5.md5 (pkt.take 8 ++ [0x6d, 0x77])).toList))) := by
  refine ⟨?_, Client.md5Hash_eq, Client.pktVerify_eq, ?_, verifyPacket_eq⟩
  · intro ctx chunks hlen
    apply Client.md5Final_eq
    simpa using foldl_absorbs chunks (Client.absorbed_init ctx) hlen
  · intro cap hdr hhdr hcap
    have hrd : rdN hdr 0 Client.hdrSize = some hdr := by
      rw [rdN_eq (by simp [hhdr]), List.drop_zero, List.take_of_length_le (by simp [hhdr])]
    rw [Client.pktSign, hrd]
    simp only [Option.bind_eq_bind, Option.bind_some]
    rw [emit_eq (by simp; omega), Client.pktDigest_eq hhdr]
    rfl

/-- `"abc"` in one piece and in two. -/
theorem md5_any_chunking_abc :
    Client.md5Final ([[0x61], [0x62, 0x63]].foldl Client.md5Update (Client.md5Init Client.md5Stack)) =
      MD5.md5 [0x61, 0x62, 0x63] ∧
    Client.md5Hash [0x61, 0x62, 0x63] = MD5.md5 [0x61, 0x62, 0x63] ∧
    Client.pktSign 24 (List.replicate 8 0) =
      some (List.replicate 8 0 ++ (MD5.md5 (List.replicate 8 0 ++ [0x6d, 0x77])).toList) :=
  ⟨md5_any_chunking.1 Client.md5Stack [[0x61], [0x62, 0x63]] (by simp),
    md5_any_chunking.2.1 [0x61, 0x62, 0x63] (by simp),
    md5_any_chunking.2.2.2.1 24 (List.replicate 8 0) (by simp) le_rfl⟩

/-! ## Password blocks -/

/-- **The client's AES-128** is the cipher of the standard, so that the one
    password block in an OPEN is the block that the server recomputes. -/
theorem aes_password_block :
    (∀ key block, Client.aesEncryptBlock (Client.aesSetEncryptKey key) block = AES.cipher key block) ∧
    ∀ cfg : Client.Config, cfg.Admitted → ∃ pkt, Client.buildOpenPkt cfg = some pkt ∧
      (Wire.items (pkt.drop 24)).filter (·.typ = 2) =
        [⟨2, (encryptedPassword cfg.user cfg.pass).toList⟩] := by
  refine ⟨Client.aesEncryptBlock_eq, ?_⟩
  intro cfg h
  refine ⟨_, Client.buildOpenPkt_eq h.bounded, ?_⟩
  rw [Client.items_openPkt h.bounded, Client.openTlvs, passwordBlock_eq]
  split_ifs <;> simp

/-- The password block of the README's configuration. -/
theorem aes_password_block_readme : ∃ pkt, Client.buildOpenPkt Client.readmeConfig = some pkt ∧
    (Wire.items (pkt.drop 24)).filter (·.typ = 2) =
      [⟨2, (encryptedPassword Client.readmeConfig.user Client.readmeConfig.pass).toList⟩] :=
  aes_password_block.2 Client.readmeConfig Client.readmeConfig_admitted

/-! ## Items -/

/-- A `switch` that only records the items it is given. -/
def record (log : List Wire.Tlv) (typ : UInt8) (val : Bytes) : Option (List Wire.Tlv) :=
  some (log ++ [⟨typ, val⟩])

theorem foldlM_record (ts : List Wire.Tlv) : ∀ log,
    ts.foldlM (fun log t => record log t.typ t.value) log = some (log ++ ts) := by
  induction ts with
  | nil =>
    intro log
    simp
  | cons t ts ih =>
    intro log
    rw [List.foldlM_cons, record, Option.bind_eq_bind, Option.bind_some, ih]
    simp

theorem foldl_appendTLV (ts : List Wire.Tlv) : ∀ packet : Bytes,
    ts.foldl (fun packet t => appendTLV packet t.typ t.value) packet = packet ++ Wire.encode ts := by
  induction ts with
  | nil =>
    intro packet
    simp [Wire.encode]
  | cons t ts ih =>
    intro packet
    rw [List.foldl_cons, ih, appendTLV]
    simp [Wire.encode, Wire.Tlv.encode]

/-- **The item codec.** Parsing undoes encoding and encoding undoes parsing; and
    the loop of `handle_openack`, on any bytes behind any header, visits exactly the
    items of the longest prefix that is a concatenation of complete items, which
    are those of `parseTLVs` whenever it succeeds. -/
theorem tlv_codec :
    (∀ ts : List Wire.Tlv, (∀ t ∈ ts, t.value.length ≤ 253) →
      parseTLVs (ts.foldl (fun packet t => appendTLV packet t.typ t.value) []) = .ok ts) ∧
    (∀ data ts, parseTLVs data = .ok ts →
      ts.foldl (fun packet t => appendTLV packet t.typ t.value) [] = data) ∧
    ∀ hdr data : Bytes, ∃ ts : List Wire.Tlv,
      (∀ t ∈ ts, t.value.length ≤ 253) ∧ Wire.encode ts <+: data ∧
      (∀ us : List Wire.Tlv, (∀ t ∈ us, t.value.length ≤ 253) → Wire.encode us <+: data → us <+: ts) ∧
      (∀ {σ : Type} (visit : σ → UInt8 → Bytes → Option σ) (s : σ),
        Client.tlvLoop visit (hdr ++ data) (data.length + 1) hdr.length data.length s =
          ts.foldlM (fun s t => visit s t.typ t.value) s) ∧
      Client.tlvLoop record (hdr ++ data) (data.length + 1) hdr.length data.length [] = some ts ∧
      (∀ c, Client.openackTlvs (hdr ++ data) (data.length + 1) hdr.length data.length c =
        ts.foldlM (fun c t => Client.applyTlv c t.typ t.value) c) ∧
      ∀ us, parseTLVs data = .ok us → us = ts := by
  refine ⟨?_, ?_, ?_⟩
  · intro ts h
    rw [foldl_appendTLV, List.nil_append]
    exact parseTLVs_encode h
  · intro data ts h
    rw [foldl_appendTLV, List.nil_append]
    exact ((parseTLVs_ok_iff data ts).mp h).1.symm
  · intro hdr data
    have hdrop : (hdr ++ data).drop hdr.length = data := List.drop_left' rfl
    have hloop : ∀ {σ : Type} (visit : σ → UInt8 → Bytes → Option σ) (s : σ),
        Client.tlvLoop visit (hdr ++ data) (data.length + 1) hdr.length data.length s =
          (Wire.items data).foldlM (fun s t => visit s t.typ t.value) s := by
      intro σ visit s
      rw [Client.tlvLoop_eq visit _ _ _ _ s (by simp) (by omega), hdrop]
    obtain ⟨hvalues, hprefix⟩ := Wire.encode_items data
    refine ⟨Wire.items data, hvalues, hprefix, fun us h => Wire.prefix_items h, hloop, ?_, ?_, ?_⟩
    · rw [hloop, foldlM_record, List.nil_append]
    · intro c
      rw [Client.openackTlvs_eq_tlvLoop, hloop]
    · intro us hus
      obtain ⟨rfl, hvals⟩ := (parseTLVs_ok_iff data us).mp hus
      exact (Wire.items_encode hvals).symm

/-- Two items and a stray byte behind them. -/
theorem tlv_codec_two :
    parseTLVs ([⟨3, [5, 120]⟩, ⟨8, [1]⟩].foldl (fun packet (t : Wire.Tlv) =>
      appendTLV packet t.typ t.value) []) = .ok [⟨3, [5, 120]⟩, ⟨8, [1]⟩] ∧
    ∃ ts, Client.tlvLoop record ([0] ++ [3, 4, 5, 120, 8, 3, 1, 9]) 9 1 8 [] = some ts :=
  ⟨tlv_codec.1 [⟨3, [5, 120]⟩, ⟨8, [1]⟩] (by simp), by
    obtain ⟨ts, -, -, -, -, h, -⟩ := tlv_codec.2.2 [0] [3, 4, 5, 120, 8, 3, 1, 9]
    exact ⟨ts, h⟩⟩

end Iwand.EndToEnd
