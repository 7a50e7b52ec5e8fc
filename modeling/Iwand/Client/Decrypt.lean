import Iwand.Client.Packets

/-!
# AES decryption and `sr_decrypt`

`aes_decrypt_block` is written with its own tables, its own permutation and
reversed round keys; `sr_decrypt` runs it over a packet in place.

* `aesDecryptBlock_eq`: `aes_decrypt_block` under `aes_set_decrypt_key(key)` is
  the inverse cipher of the standard.
* `srDecrypt_eq`: with algorithm 1, `sr_decrypt` is blockwise decryption.
* `SrKeys`: the client holds the keys that `sr_setup_keys` derived.
* `aes_decrypt_inverts`: decryption inverts encryption, block by block and over
  packets.
-/

namespace Iwand.Client

/-! ## The inverse rounds -/

theorem aesInvSbox_eq (x : UInt8) : lookup aesInvSbox x = AES.invSbox x := by
  simp only [AES.invSbox, AES.inv_eq]
  apply forall_byte (P := fun x =>
    lookup aesInvSbox x = AES.invTable.getD (AES.invAffine x).toNat 0)
  decide +kernel

/-- The macros work on `int`; the low byte of their result is the product in
    the field. -/
theorem mul_macros_eq (x : UInt8) :
    UInt8.ofNat (mul9 x.toNat) = AES.mul 9 x ∧ UInt8.ofNat (mul11 x.toNat) = AES.mul 11 x ∧
      UInt8.ofNat (mul13 x.toNat) = AES.mul 13 x ∧ UInt8.ofNat (mul14 x.toNat) = AES.mul 14 x := by
  apply forall_byte (P := fun x => UInt8.ofNat (mul9 x.toNat) = AES.mul 9 x ∧
    UInt8.ofNat (mul11 x.toNat) = AES.mul 11 x ∧ UInt8.ofNat (mul13 x.toNat) = AES.mul 13 x ∧
    UInt8.ofNat (mul14 x.toNat) = AES.mul 14 x)
  decide +kernel

/-- Truncation to a byte commutes with XOR. -/
theorem ofNat_xor (a b : ℕ) : UInt8.ofNat (a ^^^ b) = UInt8.ofNat a ^^^ UInt8.ofNat b := by
  apply UInt8.toNat_inj.mp
  rw [UInt8.toNat_xor, UInt8.toNat_ofNat', UInt8.toNat_ofNat', UInt8.toNat_ofNat',
    ← Nat.xor_mod_two_pow]

/-- The four assignments of the column loop are the rows of the InvMixColumns
    matrix. -/
theorem aesInvMixByte_eq (a0 a1 a2 a3 : UInt8) :
    aesInvMixByte 0 a0.toNat a1.toNat a2.toNat a3.toNat =
        AES.mul 14 a0 ^^^ AES.mul 11 a1 ^^^ AES.mul 13 a2 ^^^ AES.mul 9 a3 ∧
      aesInvMixByte 1 a0.toNat a1.toNat a2.toNat a3.toNat =
        AES.mul 14 a1 ^^^ AES.mul 11 a2 ^^^ AES.mul 13 a3 ^^^ AES.mul 9 a0 ∧
      aesInvMixByte 2 a0.toNat a1.toNat a2.toNat a3.toNat =
        AES.mul 14 a2 ^^^ AES.mul 11 a3 ^^^ AES.mul 13 a0 ^^^ AES.mul 9 a1 ∧
      aesInvMixByte 3 a0.toNat a1.toNat a2.toNat a3.toNat =
        AES.mul 14 a3 ^^^ AES.mul 11 a0 ^^^ AES.mul 13 a1 ^^^ AES.mul 9 a2 := by
  obtain ⟨h9a, h11a, h13a, h14a⟩ := mul_macros_eq a0
  obtain ⟨h9b, h11b, h13b, h14b⟩ := mul_macros_eq a1
  obtain ⟨h9c, h11c, h13c, h14c⟩ := mul_macros_eq a2
  obtain ⟨h9d, h11d, h13d, h14d⟩ := mul_macros_eq a3
  unfold aesInvMixByte
  simp only [ofNat_xor, h9a, h11a, h13a, h14a, h9b, h11b, h13b, h14b, h9c, h11c, h13c, h14c, h9d,
    h11d, h13d, h14d]
  refine ⟨trivial, ?_, ?_, ?_⟩ <;> simp only [UInt8.xor_comm, UInt8.xor_assoc, AES.xor_left_comm]

theorem aesInvMixColumns_eq (s : Vector UInt8 16) : aesInvMixColumns s = AES.invMixColumns s := by
  apply AES.state_ext
  intro c hc r hr
  obtain ⟨h0, h1, h2, h3⟩ := aesInvMixByte_eq s[4 * c] s[4 * c + 1] s[4 * c + 2] s[4 * c + 3]
  have hdiv : (4 * c + r) / 4 = c := by omega
  have hmod : (4 * c + r) % 4 = r := by omega
  have hr4 : r = 0 ∨ r = 1 ∨ r = 2 ∨ r = 3 := by omega
  rw [AES.invMixColumns, AES.getElem_circulant _ _ _ _ _ c hc r hr]
  simp only [aesInvMixColumns, Vector.getElem_ofFn, hdiv, hmod]
  rcases hr4 with rfl | rfl | rfl | rfl
  · exact h0
  · exact h1
  · exact h2
  · exact h3

theorem aesInvShiftSub_eq (s : Vector UInt8 16) :
    aesInvShiftSub s = AES.invSubBytes (AES.invShiftRows s) := by
  apply Vector.ext
  intro i hi
  simp only [aesInvShiftSub, AES.invShiftRows, AES.invSubBytes, Vector.getElem_ofFn, get_eq_getElem,
    Vector.getElem_map, aesInvSbox_eq]
  interval_cases i <;> rfl

/-! ## The reversed key schedule -/

theorem length_swapWords (rk : AesKey) (a b : ℕ) : (swapWords rk a b).length = rk.length := by
  simp [swapWords]

theorem getD_swapWords {rk : AesKey} {a b : ℕ} (ha : a < rk.length) (hb : b < rk.length) (k : ℕ) :
    (swapWords rk a b).getD k 0 =
      if k = b then rk.getD a 0 else if k = a then rk.getD b 0 else rk.getD k 0 := by
  unfold swapWords
  simp only [List.getD_eq_getElem?_getD, List.getElem?_set, List.length_set]
  by_cases hkb : k = b
  · subst hkb
    simp [hb]
  by_cases hka : k = a
  · subst hka
    simp [Ne.symm hkb, hkb, ha]
  · simp [Ne.symm hkb, Ne.symm hka, hkb, hka]

/-- The inner loop of `aes_set_decrypt_key` after `n` iterations: rounds `i` and
    `10 - i` are swapped up to word `n`. -/
theorem swap_words {rk : AesKey} (hrk : rk.length = 44) {i : ℕ} (hi : i < 5) (n : ℕ) (hn : n ≤ 4) :
    ((List.range n).foldl (fun rk j => swapWords rk (i * 4 + j) ((10 - i) * 4 + j)) rk).length = 44 ∧
      ∀ q r, r < 4 →
        ((List.range n).foldl (fun rk j => swapWords rk (i * 4 + j) ((10 - i) * 4 + j)) rk).getD
          (4 * q + r) 0 =
        if r < n ∧ (q = i ∨ q = 10 - i) then rk.getD (4 * (10 - q) + r) 0
        else rk.getD (4 * q + r) 0 := by
  induction n with
  | zero => simpa using hrk
  | succ n ih =>
    obtain ⟨hlen, hget⟩ := ih (by omega)
    rw [List.range_succ, List.foldl_append]
    simp only [List.foldl_cons, List.foldl_nil]
    generalize (List.range n).foldl (fun rk j => swapWords rk (i * 4 + j) ((10 - i) * 4 + j)) rk = rk'
      at hlen hget
    refine ⟨by rw [length_swapWords, hlen], ?_⟩
    intro q r hr
    rw [getD_swapWords (by omega) (by omega), Nat.mul_comm i, Nat.mul_comm (10 - i),
      hget i n (by omega), hget (10 - i) n (by omega), hget q r hr]
    by_cases hrn : r = n
    · subst hrn
      by_cases hqi : q = i
      · subst hqi
        simp [show 4 * q ≠ 4 * (10 - q) by omega]
      by_cases hqi' : q = 10 - i
      · subst hqi'
        simp [show 10 - (10 - i) = i by omega]
      · simp [hqi, hqi']
    · have h1 : 4 * q + r ≠ 4 * (10 - i) + n := by omega
      have h2 : 4 * q + r ≠ 4 * i + n := by omega
      simp [h1, h2, show r < n + 1 ↔ r < n by omega]

/-- The outer loop after `n` iterations: the outer `n` rounds on both sides are
    swapped. -/
theorem swap_rounds {rk : AesKey} (hrk : rk.length = 44) (n : ℕ) (hn : n ≤ 5) :
    let out := (List.range n).foldl (fun rk i =>
      (List.range 4).foldl (fun rk j => swapWords rk (i * 4 + j) ((10 - i) * 4 + j)) rk) rk
    out.length = 44 ∧ ∀ q r, q ≤ 10 → r < 4 → out.getD (4 * q + r) 0 =
      if q < n ∨ 10 - n < q then rk.getD (4 * (10 - q) + r) 0 else rk.getD (4 * q + r) 0 := by
  induction n with
  | zero =>
    refine ⟨hrk, ?_⟩
    intro q r hq hr
    rw [if_neg (by omega)]
    rfl
  | succ n ih =>
    obtain ⟨hlen, hget⟩ := ih (by omega)
    simp only [List.range_succ (n := n), List.foldl_append, List.foldl_cons, List.foldl_nil]
    obtain ⟨hlen', hget'⟩ := swap_words hlen (show n < 5 by omega) 4 le_rfl
    refine ⟨hlen', ?_⟩
    intro q r hq hr
    rw [hget' q r hr, hget q r hq hr]
    by_cases hn' : q = n ∨ q = 10 - n
    · rw [if_pos ⟨hr, hn'⟩, hget (10 - q) r (by omega) hr, if_neg (by omega), if_pos (by omega)]
    · rw [if_neg (by tauto)]
      congr 1
      simp only [eq_iff_iff]
      omega

theorem length_keyExpansion (key : Vector UInt8 16) : (AES.keyExpansion key).length = 44 := by
  have hlen : ∀ n, (AES.schedule key n).length = 4 + n := by
    intro n
    induction n with
    | zero => rfl
    | succ n ih =>
      rw [AES.schedule, List.length_append, ih]
      rfl
  exact hlen 40

/-- Round `i` of the decryption schedule is round `10 - i` of the encryption
    schedule. -/
theorem getD_aesSetDecryptKey (key : Vector UInt8 16) {q r : ℕ} (hq : q ≤ 10) (hr : r < 4) :
    (aesSetDecryptKey key).getD (4 * q + r) 0 = (AES.keyExpansion key).getD (4 * (10 - q) + r) 0 := by
  have hget := (swap_rounds (length_keyExpansion key) 5 le_rfl).2 q r hq hr
  rw [aesSetDecryptKey, aesSetEncryptKey_eq, hget]
  split_ifs with h
  · rfl
  · rw [show 10 - q = q by omega]

theorem aesAddRoundKey_decrypt (key : Vector UInt8 16) {round : ℕ} (h : round ≤ 10)
    (s : Vector UInt8 16) :
    aesAddRoundKey (aesSetDecryptKey key) round s =
      AES.addRoundKey (AES.keyExpansion key) (10 - round) s := by
  rw [aesAddRoundKey_eq]
  apply Vector.ext
  intro i hi
  simp only [AES.addRoundKey, Vector.getElem_ofFn]
  rw [getD_aesSetDecryptKey key h (by omega)]

/-- **`aes_decrypt_block` is the AES-128 inverse cipher.** -/
theorem aesDecryptBlock_eq (key block : Vector UInt8 16) :
    aesDecryptBlock (aesSetDecryptKey key) block = AES.invCipher key block := by
  have hrev : (List.range' 1 9).reverse = (List.range' 1 9).map fun round => 10 - round := by decide
  have hloop : ∀ s, (List.range' 1 9).foldl
      (fun s round => aesInvMixColumns
        (aesAddRoundKey (aesSetDecryptKey key) round (aesInvShiftSub s))) s =
      (List.range' 1 9).reverse.foldl
        (fun s round => AES.invMixColumns (AES.addRoundKey (AES.keyExpansion key) round
          (AES.invSubBytes (AES.invShiftRows s)))) s := by
    intro s
    rw [hrev, List.foldl_map]
    apply List.foldl_ext
    intro s round hround
    have hle : round ≤ 10 := by
      rw [List.mem_range'_1] at hround
      omega
    rw [aesInvMixColumns_eq, aesAddRoundKey_decrypt key hle, aesInvShiftSub_eq]
  unfold aesDecryptBlock
  simp only [hloop]
  rw [aesAddRoundKey_decrypt key (le_refl 10), aesAddRoundKey_decrypt key (Nat.zero_le 10),
    aesInvShiftSub_eq]
  rfl

/-! ## `sr_decrypt` -/

/-- The loop of `sr_decrypt` after `n` blocks. -/
theorem srDecrypt_loop (c : IwanClient) {data : Bytes} (n : ℕ) (hn : 16 * n ≤ data.length) :
    (List.range n).foldlM (srDecryptBlock c 16) data =
      some (AES.mapBlocks (aesDecryptBlock c.srDecryptKey) n data ++ data.drop (16 * n)) := by
  induction n with
  | zero => rfl
  | succ n ih =>
    have hlen := AES.length_mapBlocks (aesDecryptBlock c.srDecryptKey) n data
    rw [List.range_succ, List.foldlM_append, ih (by omega)]
    simp only [Option.bind_eq_bind, Option.bind_some, List.foldlM_cons, List.foldlM_nil,
      srDecryptBlock, if_true]
    rw [rdN_eq (by simp; omega), Nat.mul_comm n 16, List.drop_left' hlen, Option.bind_some,
      wrN_eq (by simp; omega), Option.bind_some, AES.mapBlocks_succ, List.take_left' hlen,
      Vector.length_toList, ← List.drop_drop, List.drop_left' hlen, List.drop_drop]
    rfl

/-- With algorithm 1, `sr_decrypt` decrypts every block of whole blocks. -/
theorem srDecrypt_eq (c : IwanClient) {data : Bytes} (hlen : 16 ∣ data.length) {srhdr2 : UInt8}
    (halgo : srhdr2 &&& 0x7 = 1) :
    srDecrypt c data data.length srhdr2 =
      some (some (AES.blockwise (aesDecryptBlock c.srDecryptKey) data)) := by
  unfold srDecrypt
  simp only [halgo, if_true]
  rw [if_neg (by omega), srDecrypt_loop c _ (by omega), List.drop_of_length_le (by omega),
    List.append_nil]
  rfl

/-- With algorithm 1 and a partial block, it fails. -/
theorem srDecrypt_partial (c : IwanClient) {data : Bytes} (hlen : ¬ 16 ∣ data.length) {srhdr2 : UInt8}
    (halgo : srhdr2 &&& 0x7 = 1) : srDecrypt c data data.length srhdr2 = some none := by
  unfold srDecrypt
  simp only [halgo, if_true]
  rw [if_pos (by omega)]

/-! ## The client's segment-routing keys -/

/-- `cfg` and the keys of `c` are what `sr_setup_keys` made of `cfg₀`. -/
def SrSetup (cfg₀ cfg : Config) (c : IwanClient) : Prop :=
  ∃ c₀ c₁, srSetupKeys cfg₀ c₀ = some (cfg, c₁) ∧ c.srDecryptKey = c₁.srDecryptKey ∧
    c.srEncryptKey = c₁.srEncryptKey

/-- `c` holds the keys that `sr_setup_keys` left in the client when it left
    `cfg` in `g_cfg`. -/
def SrKeys (cfg : Config) (c : IwanClient) : Prop := ∃ cfg₀, SrSetup cfg₀ cfg c

/-- With links configured, both schedules expand one key. -/
theorem SrKeys.schedules {cfg : Config} {c : IwanClient} (h : SrKeys cfg c) (hcnt : cfg.srCount ≠ 0) :
    ∃ key, c.srDecryptKey = aesSetDecryptKey key ∧ c.srEncryptKey = aesSetEncryptKey key := by
  obtain ⟨cfg₀, c₀, c₁, hsetup, hd, he⟩ := h
  rw [hd, he]
  unfold srSetupKeys at hsetup
  by_cases h0 : cfg₀.srCount = 0
  · rw [if_pos h0] at hsetup
    have hcfg := (Prod.mk.inj (Option.some.inj hsetup)).1
    exact absurd (hcfg ▸ h0) hcnt
  rw [if_neg h0] at hsetup
  simp only [Option.bind_eq_bind, Option.bind_eq_some_iff, Option.pure_def] at hsetup
  obtain ⟨_, _, _, _, _, _, _, _, _, _, key, _, hfin⟩ := hsetup
  have hc := (Prod.mk.inj (Option.some.inj hfin)).2
  clear hfin
  refine ⟨toArr 16 key, ?_, ?_⟩
  · rw [← hc]
  · rw [← hc]

section

variable {cfg : Config} {c : IwanClient}

/-- The two keys undo each other over whole blocks. -/
theorem SrKeys.decrypt_encrypt (h : SrKeys cfg c) (hcnt : cfg.srCount ≠ 0) {data : Bytes}
    (hlen : 16 ∣ data.length) :
    AES.blockwise (aesDecryptBlock c.srDecryptKey)
      (AES.blockwise (aesEncryptBlock c.srEncryptKey) data) = data := by
  obtain ⟨key, hd, he⟩ := h.schedules hcnt
  apply AES.blockwise_blockwise ?_ hlen
  intro s
  rw [hd, he, aesDecryptBlock_eq, aesEncryptBlock_eq]
  exact AES.invCipherWith_cipherWith _ s

/-- What `sr_decrypt` does to blocks encrypted under `sr_encrypt_key`. -/
theorem srDecrypt_blockwise (h : SrKeys cfg c) (hcnt : cfg.srCount ≠ 0) {data : Bytes}
    (hlen : 16 ∣ data.length) {srhdr2 : UInt8} (halgo : srhdr2 &&& 0x7 = 1) :
    srDecrypt c (AES.blockwise (aesEncryptBlock c.srEncryptKey) data) data.length srhdr2 =
      some (some data) := by
  have hl := AES.length_blockwise (aesEncryptBlock c.srEncryptKey) hlen
  have hblocks : 16 ∣ (AES.blockwise (aesEncryptBlock c.srEncryptKey) data).length := by rwa [hl]
  have hdec := srDecrypt_eq c hblocks halgo
  rw [hl] at hdec
  rw [hdec, h.decrypt_encrypt hcnt hlen]

end

/-- **AES decryption inverts AES encryption**, in both orders, and `sr_decrypt`
    with algorithm 1 undoes blockwise encryption under the client's
    `sr_encrypt_key`. -/
theorem aes_decrypt_inverts :
    (∀ key block, aesDecryptBlock (aesSetDecryptKey key)
      (aesEncryptBlock (aesSetEncryptKey key) block) = block) ∧
    (∀ key block, aesEncryptBlock (aesSetEncryptKey key)
      (aesDecryptBlock (aesSetDecryptKey key) block) = block) ∧
    ∀ cfg c, SrKeys cfg c → cfg.srCount ≠ 0 → ∀ (data : Bytes) (srhdr2 : UInt8), 16 ∣ data.length →
      srhdr2 &&& 0x7 = 1 →
      srDecrypt c (AES.blockwise (aesEncryptBlock c.srEncryptKey) data) data.length srhdr2 =
        some (some data) := by
  refine ⟨?_, ?_, ?_⟩
  · intro key block
    rw [aesDecryptBlock_eq, aesEncryptBlock_eq]
    exact AES.invCipherWith_cipherWith _ block
  · intro key block
    rw [aesDecryptBlock_eq, aesEncryptBlock_eq]
    exact AES.cipherWith_invCipherWith _ block
  · intro cfg c h hcnt data srhdr2 hlen halgo
    exact srDecrypt_blockwise h hcnt hlen halgo

/-- `readmeConfig` with one segment-routing link, `srpassword=sr` and
    `srencryptmode=1`. -/
def srConfig : Config :=
  { readmeConfig with
    srCount := 1
    srLinks := #v[#v[10, 0, 0, 1], #v[0, 0, 0, 0], #v[0, 0, 0, 0], #v[0, 0, 0, 0], #v[0, 0, 0, 0],
      #v[0, 0, 0, 0]]
    srEncryptMode := 1
    srPassword := toArr 32 [115, 114] }

theorem srConfig_admitted : srConfig.Admitted := by
  constructor <;> decide

/-- A client in ESTABLISHED with the keys of `srConfig`. -/
def srClient : IwanClient :=
  { zeroClient with
    state := .established
    srDecryptKey := aesSetDecryptKey (srKey srConfig)
    srEncryptKey := aesSetEncryptKey (srKey srConfig) }

theorem srSetup_srClient : SrSetup srConfig srConfig srClient :=
  ⟨zeroClient, _, srSetupKeys_eq srConfig_admitted.bounded (by decide) zeroClient, rfl, rfl⟩

/-- One block of zeros, encrypted and decrypted with the keys of `srConfig`. -/
theorem aes_decrypt_inverts_srConfig :
    srDecrypt srClient (AES.blockwise (aesEncryptBlock srClient.srEncryptKey) (List.replicate 16 0)) 16 1 =
      some (some (List.replicate 16 0)) :=
  aes_decrypt_inverts.2.2 srConfig srClient ⟨srConfig, srSetup_srClient⟩ (by decide) (List.replicate 16 0) 1
    (by decide) (by decide)

end Iwand.Client
