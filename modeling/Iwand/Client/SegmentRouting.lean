import Iwand.Client.Decrypt
import Iwand.Client.Invariant

/-!
# Segment routing

A SEGRT carries an inner packet behind a second header and a list of links,
optionally under an AES layer of its own. `handle_segrt` repeats the data path
of `handle_data` behind it.

* `segrtInner_plain`, `segrtInner_decrypted`, `segrtInner_dropped`: what the AES
  layer makes of a payload.
* `segrt_transparent`: a wrapped packet has the effect of the packet itself.
* `segrt_guarded_iff`: a payload that is marked as encrypted is never dispatched
  as it is, exactly in the configurations with links and an encryption mode.
* `run_srSetup`: the keys stay as `sr_setup_keys` left them.
-/

namespace Iwand.Client

/-! ## Keys over runs -/

/-- `sr_setup_keys` changes the configuration only by its fallback. -/
theorem SrSetup.config {cfg₀ cfg : Config} {c : IwanClient} (h : SrSetup cfg₀ cfg c) :
    cfg = if cfg₀.srCount = 0 then cfg₀ else srFallback cfg₀ := by
  obtain ⟨c₀, c₁, hsetup, -, -⟩ := h
  unfold srSetupKeys at hsetup
  by_cases h0 : cfg₀.srCount = 0
  · rw [if_pos h0] at hsetup ⊢
    exact (Prod.mk.inj (Option.some.inj hsetup)).1.symm
  rw [if_neg h0] at hsetup ⊢
  simp only [Option.bind_eq_bind, Option.bind_eq_some_iff, Option.pure_def] at hsetup
  obtain ⟨_, _, _, _, _, _, _, _, _, _, key, _, hfin⟩ := hsetup
  exact (Prod.mk.inj (Option.some.inj hfin)).1.symm

section

variable {cfg : Config} {c c' : IwanClient}

/-- The client keeps its segment-routing keys. -/
def SameKeys (c c' : IwanClient) : Prop :=
  c'.srDecryptKey = c.srDecryptKey ∧ c'.srEncryptKey = c.srEncryptKey

theorem Outcome.sameKeys {env : Env} {pkt : Bytes} {r : Res} (ho : Outcome cfg env pkt c r) :
    SameKeys c r.client := by
  cases ho with
  | refused p hs htyp hsig hp hip =>
    rw [(applyTlvs_frame hp).1]
    exact ⟨rfl, rfl⟩
  | opened p hs htyp hsig hp hip hset =>
    rw [(applyTlvs_frame hp).1]
    exact ⟨rfl, rfl⟩
  | openFailed p fx hs htyp hsig hp hip hset hfx =>
    rw [(applyTlvs_frame hp).1]
    exact ⟨rfl, rfl⟩
  | _ => exact ⟨rfl, rfl⟩

theorem TickMove.sameKeys {env : Env} {fx : List Effect} (hm : TickMove cfg env c fx c') :
    SameKeys c c' := by
  cases hm with
  | resolved c₁ ok hs hr =>
    have hframe := resolveServer_frame hr
    rw [hframe]
    cases ok <;> exact ⟨rfl, rfl⟩
  | openSent c₁ pkt hs hpkt htime =>
    rcases hs with ⟨-, rfl⟩ | ⟨-, rfl⟩ <;> exact ⟨rfl, rfl⟩
  | _ => exact ⟨rfl, rfl⟩

theorem Move.sameKeys {e : Event} {fx : List Effect} (hm : Move cfg c e fx c') : SameKeys c c' := by
  cases hm with
  | tick env c₁ _ fx₀ fx hsock hm =>
    have h₁ : SameKeys c c₁ := by
      unfold tickSocket at hsock
      split_ifs at hsock <;> cases hsock <;> exact ⟨rfl, rfl⟩
    have h₂ := hm.sameKeys
    exact ⟨h₂.1.trans h₁.1, h₂.2.trans h₁.2⟩
  | datagram env data r hfd hlen ho =>
    have h := ho.sameKeys
    unfold touch
    split_ifs
    · exact h
    · exact h
  | _ => exact ⟨rfl, rfl⟩

end

theorem mainInit_srSetup {cfg₀ cfg : Config} {ienv : InitEnv} {c₀ : IwanClient} {fx₀ : List Effect}
    (hinit : mainInit cfg₀ ienv = some (some (cfg, c₀, fx₀))) : SrSetup cfg₀ cfg c₀ := by
  unfold mainInit at hinit
  by_cases hvalid : cfgValid cfg₀ = false
  · rw [if_pos hvalid] at hinit
    simp at hinit
  by_cases htun : ienv.tunOpen < 0
  · rw [if_neg hvalid, if_pos htun] at hinit
    simp at hinit
  rw [if_neg hvalid, if_neg htun] at hinit
  simp only [Option.bind_eq_bind, Option.bind_eq_some_iff, Option.pure_def] at hinit
  obtain ⟨key, _, ⟨cfg₁, c₁⟩, hsetup, ⟨c₂, ok⟩, hres, hfin⟩ := hinit
  have hkeys : SameKeys c₁ c₂ := by
    rw [resolveServer_frame hres]
    exact ⟨rfl, rfl⟩
  by_cases hfd : udpSocketCreate ienv.socket < 0
  · rw [if_pos hfd] at hfin
    simp at hfin
  rw [if_neg hfd] at hfin
  obtain ⟨rfl, hc⟩ := Prod.mk.inj (Option.some.inj (Option.some.inj hfin))
  refine ⟨_, c₁, hsetup, ?_, ?_⟩
  · rw [← (Prod.mk.inj hc).1]
    exact hkeys.1
  · rw [← (Prod.mk.inj hc).1]
    exact hkeys.2

/-- **The keys over a run** are those of `sr_setup_keys`. -/
theorem run_srSetup {cfg₀ cfg : Config} (hcfg : cfg₀.Admitted) {ienv : InitEnv} {c₀ : IwanClient}
    {fx₀ : List Effect} (hinit : mainInit cfg₀ ienv = some (some (cfg, c₀, fx₀)))
    {tr : List StepRecord} {c : IwanClient} (hrun : Trace (Step cfg) c₀ tr c) :
    SrSetup cfg₀ cfg c := by
  obtain ⟨hadm, hinv₀⟩ := inv_init hcfg hinit
  have hpair : Inv cfg fx₀ tr c ∧ SrSetup cfg₀ cfg c := by
    apply hrun.invariant (P := fun tr c => Inv cfg fx₀ tr c ∧ SrSetup cfg₀ cfg c)
      ⟨hinv₀, mainInit_srSetup hinit⟩
    rintro tr s e os s' - ⟨hinv, c₁, c₂, hsetup, hd, he⟩ hs
    obtain ⟨hinv', hm⟩ := inv_step hadm hinv hs
    have hkeys := hm.sameKeys
    exact ⟨hinv', c₁, c₂, hsetup, hkeys.1.trans hd, hkeys.2.trans he⟩
  exact hpair.2

/-! ## The AES layer -/

section

variable {cfg : Config} {c : IwanClient} {payload : Bytes} {algo : UInt8}

theorem segrtInner_emit (hlen : payload.length ≤ 2048) : emit maxPktSize [] payload = some payload := by
  rw [emit_eq (by simpa using hlen), List.nil_append]

/-- Without links or mode, the algorithm is not looked at. -/
theorem segrtInner_disabled (hlen : payload.length ≤ 2048)
    (h : ¬ (cfg.srCount > 0 ∧ cfg.srEncryptMode > 0)) :
    segrtInner cfg c payload algo = some (some payload) := by
  rw [segrtInner, segrtInner_emit hlen]
  simp only [Option.bind_eq_bind, Option.bind_some]
  rw [if_neg h]
  rfl

/-- A payload marked as plain is left alone in every configuration. -/
theorem segrtInner_plain (hlen : payload.length ≤ 2048) (halgo : algo &&& 0x7 = 0) :
    segrtInner cfg c payload algo = some (some payload) := by
  by_cases h : cfg.srCount > 0 ∧ cfg.srEncryptMode > 0
  swap
  · exact segrtInner_disabled hlen h
  have hmode : (0 : UInt8) ≠ cfg.srEncryptMode := by
    intro h0
    rw [← h0] at h
    exact absurd h.2 (by decide)
  rw [segrtInner, segrtInner_emit hlen]
  simp only [Option.bind_eq_bind, Option.bind_some, halgo]
  rw [if_pos h, if_neg hmode]
  rfl

/-- Whole blocks under algorithm 1 are decrypted, and the padding is removed. -/
theorem segrtInner_decrypted (hlen : payload.length ≤ 2048) (hcnt : cfg.srCount > 0)
    (hmode : cfg.srEncryptMode = 1) (halgo : algo &&& 0x7 = 1) (hblocks : 16 ∣ payload.length) :
    let padlen := ((algo >>> 3) &&& 0x1f).toNat
    segrtInner cfg c payload algo =
      some (some ((AES.blockwise (aesDecryptBlock c.srDecryptKey) payload).take
        (if padlen < payload.length then payload.length - padlen else payload.length))) := by
  intro padlen
  have hout := AES.length_blockwise (aesDecryptBlock c.srDecryptKey) hblocks
  have hif : cfg.srCount > 0 ∧ cfg.srEncryptMode > 0 := ⟨hcnt, by rw [hmode]; decide⟩
  rw [segrtInner, segrtInner_emit hlen]
  simp only [Option.bind_eq_bind, Option.bind_some]
  rw [if_pos hif, if_pos (by rw [halgo, hmode]), srDecrypt_eq c hblocks halgo]
  simp only [Option.bind_some, Option.pure_def]
  split_ifs with h1 h2
  · rw [rdN_eq (by omega)]
    rfl
  · omega
  · -- `padlen = 0`
    rw [show payload.length - padlen = payload.length by omega, List.take_of_length_le hout.le]
  · rw [List.take_of_length_le hout.le]

/-- Every other marked payload is dropped. -/
theorem segrtInner_dropped (hlen : payload.length ≤ 2048) (hcnt : cfg.srCount > 0)
    (hmode : cfg.srEncryptMode = 1) (halgo : algo &&& 0x7 ≠ 0)
    (h : ¬ (algo &&& 0x7 = 1 ∧ 16 ∣ payload.length)) : segrtInner cfg c payload algo = some none := by
  have hif : cfg.srCount > 0 ∧ cfg.srEncryptMode > 0 := ⟨hcnt, by rw [hmode]; decide⟩
  rw [segrtInner, segrtInner_emit hlen]
  simp only [Option.bind_eq_bind, Option.bind_some]
  rw [if_pos hif, hmode]
  by_cases h1 : algo &&& 0x7 = 1
  · rw [if_pos h1, srDecrypt_partial c (fun hb => h ⟨h1, hb⟩) h1]
    rfl
  · rw [if_neg h1, if_pos halgo]
    rfl

end

/-! ## Wrapped packets -/

/-- A SEGRT with the payload `payload`. The bytes 1 to 7 of the iwan header, the
    next hop and the flags are not looked at. -/
def segrtPkt (hdr : Vector UInt8 7) (nextid algo flags : UInt8) (links : List (Vector UInt8 4))
    (payload : Bytes) : Bytes :=
  [pktSegrt] ++ hdr.toList ++ [nextid, UInt8.ofNat links.length, algo, flags] ++
    links.flatMap Vector.toList ++ payload

/-- The handler of an inner packet that arrives without segment routing. -/
def handlePlain (env : Env) (c : IwanClient) (pkt : Bytes) : Option Res :=
  if Wire.typ pkt = pktIpfragSr then handleIpfrag env c pkt else handleData env c pkt

section

variable (hdr : Vector UInt8 7) (nextid algo flags : UInt8) (links : List (Vector UInt8 4))
  (payload : Bytes)

theorem length_links : (links.flatMap Vector.toList).length = 4 * links.length := by
  rw [List.length_flatMap, List.map_congr_left (g := fun _ => 4) (fun v _ => by simp)]
  simp [Nat.mul_comm]

theorem length_segrtPkt :
    (segrtPkt hdr nextid algo flags links payload).length = 12 + 4 * links.length + payload.length := by
  simp only [segrtPkt, List.length_append, length_links, Vector.length_toList, List.length_cons,
    List.length_nil]

/-- The headers of a wrapped packet. -/
theorem segrtPkt_eq : segrtPkt hdr nextid algo flags links payload =
    ([pktSegrt] ++ hdr.toList) ++ ([nextid, UInt8.ofNat links.length, algo, flags] ++
      links.flatMap Vector.toList ++ payload) := by
  simp only [segrtPkt, List.append_assoc]

theorem segrtAlgo_segrtPkt : segrtAlgo (segrtPkt hdr nextid algo flags links payload) = algo := by
  rw [segrtAlgo, segrtPkt_eq, List.getD_append_right _ _ _ _ (by simp)]
  simp

theorem segrtPayload_segrtPkt (hlinks : links.length ≤ 255) :
    segrtPayload (segrtPkt hdr nextid algo flags links payload) = payload := by
  have hcnt : (segrtPkt hdr nextid algo flags links payload).getD 9 0 = UInt8.ofNat links.length := by
    rw [segrtPkt_eq, List.getD_append_right _ _ _ _ (by simp)]
    simp
  rw [segrtPayload, hcnt, UInt8.toNat_ofNat', Nat.mod_eq_of_lt (by omega), segrtPkt,
    List.drop_left' (by simp; omega)]

end

/-- Behind the AES layer, the dispatch does what the plain handlers do. -/
theorem segrtDispatch_eq {env : Env} {c : IwanClient} {q : Bytes} (hst : c.state = .established)
    (htun : 0 < env.tunWrite) (hlen : q.length ≤ 2048)
    (htyp : Wire.typ q = pktData ∨ Wire.typ q = pktDataEnc ∨ Wire.typ q = pktIpfragSr) :
    segrtDispatch env c q = handlePlain env c q := by
  have hpos : 0 < q.length := by
    rcases q with _ | ⟨b, q⟩
    · revert htyp
      decide
    · simp
  have hrd : rd q 0 = some (Wire.typ q) := by
    rw [rd_eq hpos, Wire.typ, List.getD_eq_getElem]
  rw [segrtDispatch, handlePlain, hrd]
  simp only [Option.bind_eq_bind, Option.bind_some, hdrSize]
  by_cases hfrag : Wire.typ q = pktIpfragSr
  · rw [if_pos hfrag, if_pos hfrag]
  rw [if_neg hfrag, if_neg hfrag, if_neg (by tauto)]
  by_cases h8 : q.length ≤ 8
  · rw [if_pos h8, handleData, if_neg (by simp [hst]), if_pos h8]
    rfl
  · rw [if_neg h8, handleData_eq hst (by omega) hlen, if_pos htun, rdN_eq (by omega),
      List.take_of_length_le (by simp)]
    rfl

/-- The algorithm and the padding in byte 2 of the segment-routing header. -/
theorem padlen_bits {n : ℕ} (h : n ≤ 31) :
    ((UInt8.ofNat n <<< 3) ||| 1) &&& 0x7 = 1 ∧
      ((((UInt8.ofNat n <<< 3) ||| 1) >>> 3) &&& 0x1f).toNat = n := by
  have hall : ∀ i : Fin 32, ((UInt8.ofNat i.val <<< 3) ||| 1) &&& 0x7 = 1 ∧
      ((((UInt8.ofNat i.val <<< 3) ||| 1) >>> 3) &&& 0x1f).toNat = i.val := by decide
  exact hall ⟨n, by omega⟩

/-- **Segment-routing transparency.** A DATA, DATA_ENC or IPFRAG_SR packet behind
    a segment-routing header has the effect it has without it, whatever the
    links and the unread bytes are: unencrypted in every configuration, and
    encrypted block by block, with up to 31 bytes of padding, where links and
    AES-128 are configured. -/
theorem segrt_transparent {cfg : Config} {env : Env} {c : IwanClient} (hkeys : SrKeys cfg c)
    (hst : c.state = .established) (htun : 0 < env.tunWrite) {q : Bytes}
    (htyp : Wire.typ q = pktData ∨ Wire.typ q = pktDataEnc ∨ Wire.typ q = pktIpfragSr)
    (hdr : Vector UInt8 7) (nextid flags : UInt8) {links : List (Vector UInt8 4)}
    (hlinks : links.length ≤ 255) :
    (∀ algo : UInt8, algo &&& 0x7 = 0 →
      (segrtPkt hdr nextid algo flags links q).length ≤ 2048 →
      handleSegrt cfg env c (segrtPkt hdr nextid algo flags links q) = handlePlain env c q) ∧
    (0 < cfg.srCount → cfg.srEncryptMode = 1 → ∀ pad : Bytes, pad.length ≤ 31 →
      16 ∣ (q ++ pad).length →
      let pkt := segrtPkt hdr nextid (UInt8.ofNat pad.length <<< 3 ||| 1) flags links
        (AES.blockwise (aesEncryptBlock c.srEncryptKey) (q ++ pad))
      pkt.length ≤ 2048 → handleSegrt cfg env c pkt = handlePlain env c q) := by
  have hq : q ≠ [] := by
    rintro rfl
    revert htyp
    decide
  have hpos := List.length_pos_of_ne_nil hq
  refine ⟨?_, ?_⟩
  · intro algo halgo hlen
    have hlq : q.length ≤ 2048 := by
      rw [length_segrtPkt] at hlen
      omega
    have hpay := segrtPayload_segrtPkt hdr nextid algo flags links q hlinks
    rw [handleSegrt_inner cfg env hst hlen (by rwa [hpay]), hpay, segrtAlgo_segrtPkt,
      segrtInner_plain hlq halgo]
    exact segrtDispatch_eq hst htun hlq htyp
  · intro hcnt hmode pad hpad hblocks pkt hlen
    obtain ⟨halgo, hpadlen⟩ := padlen_bits hpad
    have hcnt0 : cfg.srCount ≠ 0 := by
      intro h0
      rw [h0] at hcnt
      exact absurd hcnt (by decide)
    have hdec := hkeys.decrypt_encrypt hcnt0 hblocks
    have hl := AES.length_blockwise (aesEncryptBlock c.srEncryptKey) hblocks
    have hpay := segrtPayload_segrtPkt hdr nextid (UInt8.ofNat pad.length <<< 3 ||| 1) flags links
      (AES.blockwise (aesEncryptBlock c.srEncryptKey) (q ++ pad)) hlinks
    have hlq : (q ++ pad).length ≤ 2048 := by
      rw [length_segrtPkt, hl] at hlen
      omega
    have hne : segrtPayload pkt ≠ [] := by
      rw [hpay, ← List.length_pos_iff, hl, List.length_append]
      omega
    rw [handleSegrt_inner cfg env hst hlen hne, hpay, segrtAlgo_segrtPkt,
      segrtInner_decrypted (by rwa [hl]) hcnt hmode halgo (by rwa [hl]), hdec, hpadlen, hl,
      List.length_append, if_pos (by omega), Nat.add_sub_cancel, List.take_left' rfl]
    exact segrtDispatch_eq hst htun (by simp at hlq; omega) htyp

/-- A one-byte DATA through `srConfig`, plain and padded to one encrypted block. -/
theorem segrt_transparent_srConfig :
    handleSegrt srConfig (calmEnv 1) srClient
        (segrtPkt (Vector.replicate 7 0) 0 0 0 [] [pktData, 0, 0, 0, 0, 0, 0, 0, 0x45]) =
      handlePlain (calmEnv 1) srClient [pktData, 0, 0, 0, 0, 0, 0, 0, 0x45] ∧
    handleSegrt srConfig (calmEnv 1) srClient
        (segrtPkt (Vector.replicate 7 0) 0 (UInt8.ofNat 7 <<< 3 ||| 1) 0 []
          (AES.blockwise (aesEncryptBlock srClient.srEncryptKey)
            ([pktData, 0, 0, 0, 0, 0, 0, 0, 0x45] ++ List.replicate 7 0))) =
      handlePlain (calmEnv 1) srClient [pktData, 0, 0, 0, 0, 0, 0, 0, 0x45] := by
  have h := @segrt_transparent srConfig (calmEnv 1) srClient ⟨srConfig, srSetup_srClient⟩ rfl (by decide)
    [pktData, 0, 0, 0, 0, 0, 0, 0, 0x45] (.inl rfl) (Vector.replicate 7 0) 0 0 [] (by decide)
  refine ⟨h.1 0 (by decide) (by rw [length_segrtPkt]; decide), ?_⟩
  exact h.2 (by decide) (by decide) (List.replicate 7 0) (by decide) (by decide)
    (by rw [length_segrtPkt, AES.length_blockwise _ (by decide)]; decide)

/-! ## Encrypted payloads -/

/-- An encrypted payload is not forwarded as it is: the packet is dropped without a
    write or a change to the fragments, or what is dispatched are bytes of the
    decryption of the whole payload. -/
def Guarded (cfg : Config) (env : Env) (c : IwanClient) (pkt : Bytes) : Prop :=
  (∃ r, handleSegrt cfg env c pkt = some r ∧ (∀ data, .tunWrite data ∉ r.effects) ∧
    r.client.frags = c.frags) ∨
  ∃ buf, 16 ∣ (segrtPayload pkt).length ∧
    buf <+: AES.blockwise (aesDecryptBlock c.srDecryptKey) (segrtPayload pkt) ∧
    handleSegrt cfg env c pkt = segrtDispatch env c buf

section

variable {cfg : Config} {env : Env} {c : IwanClient} {pkt : Bytes}

theorem guarded_of_dropped (h : handleSegrt cfg env c pkt = some ⟨c, [], false⟩) :
    Guarded cfg env c pkt :=
  .inl ⟨_, h, by simp, rfl⟩

/-- With links and AES-128, every marked packet is guarded. -/
theorem guarded_of_enabled (hst : c.state = .established) (hlen : pkt.length ≤ 2048)
    (hcnt : cfg.srCount > 0) (hmode : cfg.srEncryptMode = 1) (halgo : segrtAlgo pkt &&& 0x7 ≠ 0) :
    Guarded cfg env c pkt := by
  by_cases hne : segrtPayload pkt = []
  · exact guarded_of_dropped (handleSegrt_empty cfg env c hne)
  have hle : (segrtPayload pkt).length ≤ 2048 := by
    rw [segrtPayload, List.length_drop]
    omega
  by_cases h : segrtAlgo pkt &&& 0x7 = 1 ∧ 16 ∣ (segrtPayload pkt).length
  · obtain ⟨n, hn⟩ : ∃ n, segrtInner cfg c (segrtPayload pkt) (segrtAlgo pkt) = some (some
        ((AES.blockwise (aesDecryptBlock c.srDecryptKey) (segrtPayload pkt)).take n)) :=
      ⟨_, segrtInner_decrypted hle hcnt hmode h.1 h.2⟩
    refine .inr ⟨_, h.2, List.take_prefix n _, ?_⟩
    rw [handleSegrt_inner cfg env hst hlen hne, hn]
    rfl
  · apply guarded_of_dropped
    rw [handleSegrt_inner cfg env hst hlen hne, segrtInner_dropped hle hcnt hmode halgo h]
    rfl

/-- Without links or mode, every payload is dispatched as it is. -/
theorem handleSegrt_disabled (hst : c.state = .established) (hlen : pkt.length ≤ 2048)
    (h : ¬ (cfg.srCount > 0 ∧ cfg.srEncryptMode > 0)) (hne : segrtPayload pkt ≠ []) :
    handleSegrt cfg env c pkt = segrtDispatch env c (segrtPayload pkt) := by
  have hle : (segrtPayload pkt).length ≤ 2048 := by
    rw [segrtPayload, List.length_drop]
    omega
  rw [handleSegrt_inner cfg env hst hlen hne, segrtInner_disabled hle h]
  rfl

end

/-- A SEGRT that is marked as encrypted with algorithm 1 around a DATA with one
    byte, which is no whole block. -/
def markedPkt : Bytes :=
  segrtPkt (Vector.replicate 7 0) 0 1 0 [] [pktData, 0, 0, 0, 0, 0, 0, 0, 0x45]

/-- Without links or mode, its byte is written to the TUN. -/
theorem handleSegrt_markedPkt {cfg : Config} (env : Env) {c : IwanClient} (hst : c.state = .established)
    (h : ¬ (cfg.srCount > 0 ∧ cfg.srEncryptMode > 0)) :
    handleSegrt cfg env c markedPkt = some ⟨{ c with tunTx := c.tunTx + 1 }, [.tunWrite [0x45]], true⟩ := by
  rw [handleSegrt_disabled hst (by decide) h (by decide)]
  rfl

theorem not_guarded_markedPkt {cfg : Config} (env : Env) {c : IwanClient} (hst : c.state = .established)
    (h : ¬ (cfg.srCount > 0 ∧ cfg.srEncryptMode > 0)) : ¬ Guarded cfg env c markedPkt := by
  rintro (⟨r, hr, hfx, -⟩ | ⟨buf, hblocks, -⟩)
  · rw [handleSegrt_markedPkt env hst h] at hr
    cases hr
    simp at hfx
  · revert hblocks
    decide

/-- `sr_setup_keys` turns the AES layer neither on nor off, and leaves AES-128 as
    its only mode. -/
theorem SrSetup.modes {cfg₀ cfg : Config} {c : IwanClient} (h : SrSetup cfg₀ cfg c)
    (hmode : cfg₀.srEncryptMode ≤ 2) :
    (¬ (0 < cfg₀.srCount ∧ 0 < cfg₀.srEncryptMode) →
      ¬ (cfg.srCount > 0 ∧ cfg.srEncryptMode > 0)) ∧
    (0 < cfg₀.srCount ∧ 0 < cfg₀.srEncryptMode → cfg.srCount > 0 ∧ cfg.srEncryptMode = 1) := by
  rw [h.config]
  by_cases hcnt : cfg₀.srCount = 0
  · rw [if_pos hcnt, hcnt]
    exact ⟨fun _ => by simp, fun hon => absurd hon.1 (by decide)⟩
  rw [if_neg hcnt, srFallback]
  split_ifs with h2
  · -- the fallback
    rw [h2]
    refine ⟨fun hoff hon => hoff ⟨hon.1, by decide⟩, fun hon => ⟨hon.1, rfl⟩⟩
  · refine ⟨id, fun hon => ⟨hon.1, ?_⟩⟩
    obtain ⟨-, hpos⟩ := hon
    rw [UInt8.le_iff_toNat_le] at hmode
    rw [UInt8.lt_iff_toNat_lt] at hpos
    rw [← UInt8.toNat_inj] at h2 ⊢
    simp only [UInt8.toNat_ofNat] at *
    omega

/-- **When ciphertext is never forwarded.** For every configuration that `cfg_load`
    can leave to `sr_setup_keys` and every client in ESTABLISHED, all marked
    packets are guarded if and only if links and a mode are configured. In the
    other configurations every payload is dispatched as it came. -/
theorem segrt_guarded_iff {cfg₀ cfg : Config} {c : IwanClient} (hmode : cfg₀.srEncryptMode ≤ 2)
    (hset : SrSetup cfg₀ cfg c) (hst : c.state = .established) (env : Env) :
    ((∀ pkt : Bytes, pkt.length ≤ 2048 → Wire.typ pkt = pktSegrt → segrtAlgo pkt &&& 0x7 ≠ 0 →
        Guarded cfg env c pkt) ↔
      0 < cfg₀.srCount ∧ 0 < cfg₀.srEncryptMode) ∧
    (¬ (0 < cfg₀.srCount ∧ 0 < cfg₀.srEncryptMode) → ∀ pkt : Bytes, pkt.length ≤ 2048 →
      segrtPayload pkt ≠ [] →
      handleSegrt cfg env c pkt = segrtDispatch env c (segrtPayload pkt)) := by
  obtain ⟨hdisabled, henabled⟩ := hset.modes hmode
  refine ⟨⟨?_, ?_⟩, ?_⟩
  · intro h
    by_contra hoff
    exact not_guarded_markedPkt env hst (hdisabled hoff) (h markedPkt (by decide) rfl (by decide))
  · intro hon pkt hlen _ halgo
    exact guarded_of_enabled hst hlen (henabled hon).1 (henabled hon).2 halgo
  · intro hoff pkt hlen hne
    exact handleSegrt_disabled hst hlen (hdisabled hoff) hne

/-- The README's configuration has no links. -/
def plainClient : IwanClient := { zeroClient with state := .established }

theorem srSetup_plainClient : SrSetup readmeConfig readmeConfig plainClient :=
  ⟨zeroClient, zeroClient, rfl, rfl, rfl⟩

theorem segrt_guarded_iff_srConfig :
    Guarded srConfig (calmEnv 1) srClient markedPkt :=
  (segrt_guarded_iff (by decide) srSetup_srClient rfl (calmEnv 1)).1.mpr (by decide) markedPkt
    (by decide) rfl (by decide)

/-- A marked packet that the README's configuration forwards as it came. -/
theorem segrt_forwards_ciphertext :
    SrSetup readmeConfig readmeConfig plainClient ∧ plainClient.state = .established ∧
      Wire.typ markedPkt = pktSegrt ∧ segrtAlgo markedPkt &&& 0x7 ≠ 0 ∧
      handleSegrt readmeConfig (calmEnv 1) plainClient markedPkt =
        some ⟨{ plainClient with tunTx := plainClient.tunTx + 1 }, [.tunWrite [0x45]], true⟩ ∧
      ¬ Guarded readmeConfig (calmEnv 1) plainClient markedPkt :=
  ⟨srSetup_plainClient, rfl, rfl, by decide, handleSegrt_markedPkt _ rfl (by decide),
    not_guarded_markedPkt _ rfl (by decide)⟩

end Iwand.Client
