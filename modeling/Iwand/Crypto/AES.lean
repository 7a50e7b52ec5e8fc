import Iwand.Common.Bytes

/-!
# AES-128 (FIPS 197)

The cipher by its mathematical definition. Bytes are elements of
GF(2⁸) = GF(2)[x]/(x⁸ + x⁴ + x³ + x + 1) (§4), the S-box is inversion followed
by an affine map (§5.1.1), the state is the column-major 4×4 array
`s[r, c] = s[r + 4c]` (§3.4), and words are 32-bit groups whose byte 0 is the
most significant one (§3.5).

* `mul_inv`: `inv` is inversion in the field.
* `xtime_xor`: multiplication by `x` is linear.
* `invSbox_sbox`, `invShiftRows_shiftRows`, `invMixColumns_mixColumns`: the
  inverse transformations (§5.3) undo the forward ones.
* `invCipherWith_cipherWith`, `cipherWith_invCipherWith`: the inverse cipher
  and the cipher undo each other under every key schedule.
* `cipherWith_injective`: under every key, different blocks have different
  encryptions.
-/

namespace Iwand.AES

/-! ## Bytes -/

theorem xor_self_left (a b : UInt8) : a ^^^ (a ^^^ b) = b := by
  rw [← UInt8.xor_assoc, UInt8.xor_self, UInt8.zero_xor]

theorem xor_left_comm (a b c : UInt8) : a ^^^ (b ^^^ c) = b ^^^ (a ^^^ c) := by
  rw [← UInt8.xor_assoc, UInt8.xor_comm a b, UInt8.xor_assoc]

/-! ## The field GF(2⁸) -/

/-- Multiplication by `x` (§4.2.1). -/
def xtime (b : UInt8) : UInt8 := (b <<< 1) ^^^ (if b.toNat.testBit 7 then 0x1b else 0)

/-- The product `a • b`: the sum of `xⁱ • b` over the bits `i` of `a`. -/
def mul (a b : UInt8) : UInt8 :=
  ((List.range 8).foldl (fun (acc, p) i =>
    (if a.toNat.testBit i then acc ^^^ p else acc, xtime p)) ((0 : UInt8), b)).1

/-- The inverse `a⁻¹ = a²⁵⁴`, with `0` mapped to `0`. -/
def inv (a : UInt8) : UInt8 :=
  let a2 := mul a a
  let a3 := mul a2 a
  let a12 := mul (mul a3 a3) (mul a3 a3)
  let a15 := mul a12 a3
  let a240 := (fun t => mul t t)^[4] a15
  mul (mul a240 a12) a2

/-- The inverses of all bytes in order. -/
def invTable : List UInt8 := [
  0x00, 0x01, 0x8d, 0xf6, 0xcb, 0x52, 0x7b, 0xd1, 0xe8, 0x4f, 0x29, 0xc0, 0xb0, 0xe1, 0xe5, 0xc7,
  0x74, 0xb4, 0xaa, 0x4b, 0x99, 0x2b, 0x60, 0x5f, 0x58, 0x3f, 0xfd, 0xcc, 0xff, 0x40, 0xee, 0xb2,
  0x3a, 0x6e, 0x5a, 0xf1, 0x55, 0x4d, 0xa8, 0xc9, 0xc1, 0x0a, 0x98, 0x15, 0x30, 0x44, 0xa2, 0xc2,
  0x2c, 0x45, 0x92, 0x6c, 0xf3, 0x39, 0x66, 0x42, 0xf2, 0x35, 0x20, 0x6f, 0x77, 0xbb, 0x59, 0x19,
  0x1d, 0xfe, 0x37, 0x67, 0x2d, 0x31, 0xf5, 0x69, 0xa7, 0x64, 0xab, 0x13, 0x54, 0x25, 0xe9, 0x09,
  0xed, 0x5c, 0x05, 0xca, 0x4c, 0x24, 0x87, 0xbf, 0x18, 0x3e, 0x22, 0xf0, 0x51, 0xec, 0x61, 0x17,
  0x16, 0x5e, 0xaf, 0xd3, 0x49, 0xa6, 0x36, 0x43, 0xf4, 0x47, 0x91, 0xdf, 0x33, 0x93, 0x21, 0x3b,
  0x79, 0xb7, 0x97, 0x85, 0x10, 0xb5, 0xba, 0x3c, 0xb6, 0x70, 0xd0, 0x06, 0xa1, 0xfa, 0x81, 0x82,
  0x83, 0x7e, 0x7f, 0x80, 0x96, 0x73, 0xbe, 0x56, 0x9b, 0x9e, 0x95, 0xd9, 0xf7, 0x02, 0xb9, 0xa4,
  0xde, 0x6a, 0x32, 0x6d, 0xd8, 0x8a, 0x84, 0x72, 0x2a, 0x14, 0x9f, 0x88, 0xf9, 0xdc, 0x89, 0x9a,
  0xfb, 0x7c, 0x2e, 0xc3, 0x8f, 0xb8, 0x65, 0x48, 0x26, 0xc8, 0x12, 0x4a, 0xce, 0xe7, 0xd2, 0x62,
  0x0c, 0xe0, 0x1f, 0xef, 0x11, 0x75, 0x78, 0x71, 0xa5, 0x8e, 0x76, 0x3d, 0xbd, 0xbc, 0x86, 0x57,
  0x0b, 0x28, 0x2f, 0xa3, 0xda, 0xd4, 0xe4, 0x0f, 0xa9, 0x27, 0x53, 0x04, 0x1b, 0xfc, 0xac, 0xe6,
  0x7a, 0x07, 0xae, 0x63, 0xc5, 0xdb, 0xe2, 0xea, 0x94, 0x8b, 0xc4, 0xd5, 0x9d, 0xf8, 0x90, 0x6b,
  0xb1, 0x0d, 0xd6, 0xeb, 0xc6, 0x0e, 0xcf, 0xad, 0x08, 0x4e, 0xd7, 0xe3, 0x5d, 0x50, 0x1e, 0xb3,
  0x5b, 0x23, 0x38, 0x34, 0x68, 0x46, 0x03, 0x8c, 0xdd, 0x9c, 0x7d, 0xa0, 0xcd, 0x1a, 0x41, 0x1c]

theorem inv_eq (a : UInt8) : inv a = invTable.getD a.toNat 0 := by
  apply forall_byte (P := fun a => inv a = invTable.getD a.toNat 0)
  decide +kernel

theorem mul_inv (a : UInt8) (ha : a ≠ 0) : mul a (inv a) = 1 := by
  rw [inv_eq]
  revert ha
  apply forall_byte (P := fun a => a ≠ 0 → mul a (invTable.getD a.toNat 0) = 1)
  decide +kernel

theorem xtime_xor (a b : UInt8) : xtime (a ^^^ b) = xtime a ^^^ xtime b := by
  have hs : (a ^^^ b) <<< 1 = (a <<< 1) ^^^ (b <<< 1) := UInt8.shiftLeft_xor
  have hb : (a ^^^ b).toNat.testBit 7 = (a.toNat.testBit 7 ^^ b.toNat.testBit 7) := by
    rw [UInt8.toNat_xor, Nat.testBit_xor]
  unfold xtime
  rw [hs, hb]
  cases a.toNat.testBit 7 <;> cases b.toNat.testBit 7 <;>
    simp [UInt8.xor_assoc, UInt8.xor_comm, xor_left_comm]

theorem mul_one (a : UInt8) : mul 1 a = a := by
  change 0 ^^^ a = a
  simp

theorem mul_two (a : UInt8) : mul 2 a = xtime a := by
  change 0 ^^^ xtime a = _
  simp

theorem mul_three (a : UInt8) : mul 3 a = a ^^^ xtime a := by
  change 0 ^^^ a ^^^ xtime a = _
  simp

theorem mul_nine (a : UInt8) : mul 9 a = a ^^^ xtime (xtime (xtime a)) := by
  change 0 ^^^ a ^^^ xtime (xtime (xtime a)) = _
  simp

theorem mul_eleven (a : UInt8) : mul 11 a = a ^^^ xtime a ^^^ xtime (xtime (xtime a)) := by
  change 0 ^^^ a ^^^ xtime a ^^^ xtime (xtime (xtime a)) = _
  simp

theorem mul_thirteen (a : UInt8) :
    mul 13 a = a ^^^ xtime (xtime a) ^^^ xtime (xtime (xtime a)) := by
  change 0 ^^^ a ^^^ xtime (xtime a) ^^^ xtime (xtime (xtime a)) = _
  simp

theorem mul_fourteen (a : UInt8) :
    mul 14 a = xtime a ^^^ xtime (xtime a) ^^^ xtime (xtime (xtime a)) := by
  change 0 ^^^ xtime a ^^^ xtime (xtime a) ^^^ xtime (xtime (xtime a)) = _
  simp

/-! ## Words and the key schedule -/

/-- Byte `r` of a word. -/
def wordByte (w : UInt32) (r : ℕ) : UInt8 := (w >>> (UInt32.ofNat (24 - 8 * r))).toUInt8

/-- The affine map of the S-box over GF(2):
    `b'ᵢ = bᵢ ⊕ b₍ᵢ₊₄₎ ⊕ b₍ᵢ₊₅₎ ⊕ b₍ᵢ₊₆₎ ⊕ b₍ᵢ₊₇₎ ⊕ cᵢ`, indices modulo 8, `c = {63}`. -/
def affine (b : UInt8) : UInt8 :=
  let bit (i : ℕ) := b.toNat.testBit (i % 8)
  (List.range 8).foldl (fun acc i =>
    acc ||| (if bit i ^^ bit (i + 4) ^^ bit (i + 5) ^^ bit (i + 6) ^^ bit (i + 7) ^^ Nat.testBit 0x63 i
      then 1 <<< UInt8.ofNat i else 0)) 0

/-- The S-box (§5.1.1). -/
def sbox (b : UInt8) : UInt8 := affine (inv b)

/-- The inverse of the affine map:
    `bᵢ = b'₍ᵢ₊₂₎ ⊕ b'₍ᵢ₊₅₎ ⊕ b'₍ᵢ₊₇₎ ⊕ dᵢ`, indices modulo 8, `d = {05}`. -/
def invAffine (b : UInt8) : UInt8 :=
  let bit (i : ℕ) := b.toNat.testBit (i % 8)
  (List.range 8).foldl (fun acc i =>
    acc ||| (if bit (i + 2) ^^ bit (i + 5) ^^ bit (i + 7) ^^ Nat.testBit 0x05 i
      then 1 <<< UInt8.ofNat i else 0)) 0

/-- The inverse S-box (§5.3.2). -/
def invSbox (b : UInt8) : UInt8 := inv (invAffine b)

theorem invSbox_sbox (b : UInt8) : invSbox (sbox b) = b := by
  simp only [invSbox, sbox, inv_eq]
  apply forall_byte (P := fun b =>
    invTable.getD (invAffine (affine (invTable.getD b.toNat 0))).toNat 0 = b)
  decide +kernel

theorem sbox_invSbox (b : UInt8) : sbox (invSbox b) = b := by
  have hleft : Function.LeftInverse invSbox sbox := invSbox_sbox
  -- a one-to-one map of the bytes reaches all of them
  have hsurj : Function.Surjective sbox := Finite.surjective_of_injective hleft.injective
  exact hleft.rightInverse_of_surjective hsurj b

/-- SubWord (§5.2). -/
def subWord (w : UInt32) : UInt32 :=
  be32 (sbox (wordByte w 0)) (sbox (wordByte w 1)) (sbox (wordByte w 2)) (sbox (wordByte w 3))

/-- RotWord: `[a₀, a₁, a₂, a₃] ↦ [a₁, a₂, a₃, a₀]`. -/
def rotWord (w : UInt32) : UInt32 :=
  be32 (wordByte w 1) (wordByte w 2) (wordByte w 3) (wordByte w 0)

/-- Rcon[j] = `[x^{j-1}, {00}, {00}, {00}]`. -/
def rcon (j : ℕ) : UInt32 := be32 (xtime^[j - 1] 1) 0 0 0

/-- The first `4 + n` words of KeyExpansion (§5.2, `Nk = 4`). -/
def schedule (key : Vector UInt8 16) : (n : ℕ) → List UInt32
  | 0 => (List.range 4).map fun i =>
      be32 (key.toList.getD (4 * i) 0) (key.toList.getD (4 * i + 1) 0)
        (key.toList.getD (4 * i + 2) 0) (key.toList.getD (4 * i + 3) 0)
  | n + 1 =>
    let w := schedule key n
    let i := 4 + n
    let temp := w.getD (i - 1) 0
    let temp := if i % 4 = 0 then subWord (rotWord temp) ^^^ rcon (i / 4) else temp
    w ++ [w.getD (i - 4) 0 ^^^ temp]

/-- KeyExpansion: the 44 words of the ten rounds and the initial key. -/
def keyExpansion (key : Vector UInt8 16) : List UInt32 := schedule key 40

/-! ## The cipher -/

/-- The state. -/
abbrev State := Vector UInt8 16

/-- AddRoundKey with words `4·round … 4·round + 3` (§5.1.4). -/
def addRoundKey (w : List UInt32) (round : ℕ) (s : State) : State :=
  Vector.ofFn fun i => s[i] ^^^ wordByte (w.getD (4 * round + i / 4) 0) (i % 4)

/-- SubBytes (§5.1.1). -/
def subBytes (s : State) : State := s.map sbox

/-- ShiftRows (§5.1.2): `s'[r, c] = s[r, (c + r) mod 4]`. -/
def shiftRows (s : State) : State :=
  Vector.ofFn fun i => s[i.val % 4 + 4 * ((i.val / 4 + i.val % 4) % 4)]

/-- A column-wise product with a circulant matrix whose first row is `k`:
    `s'[r, c] = k₀ • s[r, c] ⊕ k₁ • s[r + 1, c] ⊕ k₂ • s[r + 2, c] ⊕ k₃ • s[r + 3, c]`,
    rows modulo 4. -/
def circulant (k0 k1 k2 k3 : UInt8) (s : State) : State :=
  Vector.ofFn fun i =>
    mul k0 s[4 * (i.val / 4) + i.val % 4] ^^^ mul k1 s[4 * (i.val / 4) + (i.val + 1) % 4] ^^^
      mul k2 s[4 * (i.val / 4) + (i.val + 2) % 4] ^^^ mul k3 s[4 * (i.val / 4) + (i.val + 3) % 4]

/-- MixColumns (§5.1.3). -/
def mixColumns (s : State) : State := circulant 2 3 1 1 s

/-- InvMixColumns (§5.3.3). -/
def invMixColumns (s : State) : State := circulant 0x0e 0x0b 0x0d 0x09 s

/-- InvSubBytes (§5.3.2). -/
def invSubBytes (s : State) : State := s.map invSbox

/-- InvShiftRows (§5.3.1): `s'[r, (c + r) mod 4] = s[r, c]`. -/
def invShiftRows (s : State) : State :=
  Vector.ofFn fun i => s[i.val % 4 + 4 * ((i.val / 4 + 4 - i.val % 4) % 4)]

/-- The nine rounds with MixColumns and the final one, on the state after the
    initial AddRoundKey. -/
def rounds (w : List UInt32) (s : State) : State :=
  let s := (List.range' 1 9).foldl
    (fun s round => addRoundKey w round (mixColumns (shiftRows (subBytes s)))) s
  addRoundKey w 10 (shiftRows (subBytes s))

/-- Cipher (§5.1) under the key schedule `w`. -/
def cipherWith (w : List UInt32) (block : State) : State := rounds w (addRoundKey w 0 block)

/-- AES-128 encryption of one block. -/
def cipher (key : Vector UInt8 16) (block : State) : State := cipherWith (keyExpansion key) block

/-! ## Inverses -/

/-- One output byte of InvMixColumns after MixColumns: the products with the
    two matrices cancel as polynomials in `x`, so only linearity is needed. -/
theorem mixColumn_cancel (a0 a1 a2 a3 : UInt8) :
    mul 14 (mul 2 a0 ^^^ mul 3 a1 ^^^ mul 1 a2 ^^^ mul 1 a3) ^^^
      mul 11 (mul 2 a1 ^^^ mul 3 a2 ^^^ mul 1 a3 ^^^ mul 1 a0) ^^^
      mul 13 (mul 2 a2 ^^^ mul 3 a3 ^^^ mul 1 a0 ^^^ mul 1 a1) ^^^
      mul 9 (mul 2 a3 ^^^ mul 3 a0 ^^^ mul 1 a1 ^^^ mul 1 a2) = a0 := by
  simp only [mul_one, mul_two, mul_three, mul_nine, mul_eleven, mul_thirteen, mul_fourteen, xtime_xor]
  generalize xtime a0 = b0, xtime a1 = b1, xtime a2 = b2, xtime a3 = b3
  generalize xtime b0 = c0, xtime b1 = c1, xtime b2 = c2, xtime b3 = c3
  generalize xtime c0 = d0, xtime c1 = d1, xtime c2 = d2, xtime c3 = d3
  generalize xtime d0 = e0, xtime d1 = e1, xtime d2 = e2, xtime d3 = e3
  simp only [UInt8.xor_comm, xor_left_comm, xor_self_left, UInt8.xor_self, UInt8.xor_zero]

/-- One output byte of MixColumns after InvMixColumns. -/
theorem invMixColumn_cancel (a0 a1 a2 a3 : UInt8) :
    mul 2 (mul 14 a0 ^^^ mul 11 a1 ^^^ mul 13 a2 ^^^ mul 9 a3) ^^^
      mul 3 (mul 14 a1 ^^^ mul 11 a2 ^^^ mul 13 a3 ^^^ mul 9 a0) ^^^
      mul 1 (mul 14 a2 ^^^ mul 11 a3 ^^^ mul 13 a0 ^^^ mul 9 a1) ^^^
      mul 1 (mul 14 a3 ^^^ mul 11 a0 ^^^ mul 13 a1 ^^^ mul 9 a2) = a0 := by
  simp only [mul_one, mul_two, mul_three, mul_nine, mul_eleven, mul_thirteen, mul_fourteen, xtime_xor]
  generalize xtime a0 = b0, xtime a1 = b1, xtime a2 = b2, xtime a3 = b3
  generalize xtime b0 = c0, xtime b1 = c1, xtime b2 = c2, xtime b3 = c3
  generalize xtime c0 = d0, xtime c1 = d1, xtime c2 = d2, xtime c3 = d3
  generalize xtime d0 = e0, xtime d1 = e1, xtime d2 = e2, xtime d3 = e3
  simp only [UInt8.xor_comm, xor_left_comm, xor_self_left, UInt8.xor_self, UInt8.xor_zero]

/-- Byte `r` of column `c` of a circulant product. -/
theorem getElem_circulant (k0 k1 k2 k3 : UInt8) (s : State) (c : ℕ) (hc : c < 4) (r : ℕ) (hr : r < 4) :
    (circulant k0 k1 k2 k3 s)[4 * c + r] =
      mul k0 s[4 * c + r] ^^^ mul k1 s[4 * c + (r + 1) % 4] ^^^ mul k2 s[4 * c + (r + 2) % 4] ^^^
        mul k3 s[4 * c + (r + 3) % 4] := by
  simp only [circulant, Vector.getElem_ofFn]
  have hd : (4 * c + r) / 4 = c := by omega
  have h0 : (4 * c + r) % 4 = r := by omega
  have h1 : (4 * c + r + 1) % 4 = (r + 1) % 4 := by omega
  have h2 : (4 * c + r + 2) % 4 = (r + 2) % 4 := by omega
  have h3 : (4 * c + r + 3) % 4 = (r + 3) % 4 := by omega
  simp only [hd, h0, h1, h2, h3]

/-- States with the same columns are equal. -/
theorem state_ext {s t : State}
    (h : ∀ (c : ℕ) (hc : c < 4) (r : ℕ) (hr : r < 4), s[4 * c + r] = t[4 * c + r]) : s = t := by
  apply Vector.ext
  intro i hi
  have hsplit : 4 * (i / 4) + i % 4 = i := by omega
  have hbyte := h (i / 4) (by omega) (i % 4) (by omega)
  simpa only [hsplit] using hbyte

/-- Byte `r` of column `c` of a product with two circulant matrices. -/
theorem getElem_circulant_circulant (k0 k1 k2 k3 l0 l1 l2 l3 : UInt8) (s : State) (c : ℕ) (hc : c < 4)
    (r : ℕ) (hr : r < 4) :
    (circulant k0 k1 k2 k3 (circulant l0 l1 l2 l3 s))[4 * c + r] =
      mul k0 (mul l0 s[4 * c + r] ^^^ mul l1 s[4 * c + (r + 1) % 4] ^^^
          mul l2 s[4 * c + (r + 2) % 4] ^^^ mul l3 s[4 * c + (r + 3) % 4]) ^^^
        mul k1 (mul l0 s[4 * c + (r + 1) % 4] ^^^ mul l1 s[4 * c + (r + 2) % 4] ^^^
          mul l2 s[4 * c + (r + 3) % 4] ^^^ mul l3 s[4 * c + r]) ^^^
        mul k2 (mul l0 s[4 * c + (r + 2) % 4] ^^^ mul l1 s[4 * c + (r + 3) % 4] ^^^
          mul l2 s[4 * c + r] ^^^ mul l3 s[4 * c + (r + 1) % 4]) ^^^
        mul k3 (mul l0 s[4 * c + (r + 3) % 4] ^^^ mul l1 s[4 * c + r] ^^^
          mul l2 s[4 * c + (r + 1) % 4] ^^^ mul l3 s[4 * c + (r + 2) % 4]) := by
  have e2 : ((r + 1) % 4 + 1) % 4 = (r + 2) % 4 := by omega
  have e3 : ((r + 1) % 4 + 2) % 4 = (r + 3) % 4 := by omega
  have e4 : ((r + 1) % 4 + 3) % 4 = r := by omega
  have f3 : ((r + 2) % 4 + 1) % 4 = (r + 3) % 4 := by omega
  have f4 : ((r + 2) % 4 + 2) % 4 = r := by omega
  have f5 : ((r + 2) % 4 + 3) % 4 = (r + 1) % 4 := by omega
  have g4 : ((r + 3) % 4 + 1) % 4 = r := by omega
  have g5 : ((r + 3) % 4 + 2) % 4 = (r + 1) % 4 := by omega
  have g6 : ((r + 3) % 4 + 3) % 4 = (r + 2) % 4 := by omega
  rw [getElem_circulant _ _ _ _ _ c hc r hr, getElem_circulant _ _ _ _ _ c hc r hr,
    getElem_circulant _ _ _ _ _ c hc ((r + 1) % 4) (by omega),
    getElem_circulant _ _ _ _ _ c hc ((r + 2) % 4) (by omega),
    getElem_circulant _ _ _ _ _ c hc ((r + 3) % 4) (by omega)]
  simp only [e2, e3, e4, f3, f4, f5, g4, g5, g6]

/-- Two circulant matrices are inverse to each other if their product is the
    identity on one byte. -/
theorem circulant_circulant {k0 k1 k2 k3 l0 l1 l2 l3 : UInt8}
    (h : ∀ a0 a1 a2 a3, mul k0 (mul l0 a0 ^^^ mul l1 a1 ^^^ mul l2 a2 ^^^ mul l3 a3) ^^^
      mul k1 (mul l0 a1 ^^^ mul l1 a2 ^^^ mul l2 a3 ^^^ mul l3 a0) ^^^
      mul k2 (mul l0 a2 ^^^ mul l1 a3 ^^^ mul l2 a0 ^^^ mul l3 a1) ^^^
      mul k3 (mul l0 a3 ^^^ mul l1 a0 ^^^ mul l2 a1 ^^^ mul l3 a2) = a0) (s : State) :
    circulant k0 k1 k2 k3 (circulant l0 l1 l2 l3 s) = s := by
  apply state_ext
  intro c hc r hr
  rw [getElem_circulant_circulant _ _ _ _ _ _ _ _ _ c hc r hr]
  apply h

theorem invMixColumns_mixColumns (s : State) : invMixColumns (mixColumns s) = s := by
  apply circulant_circulant
  exact mixColumn_cancel

theorem mixColumns_invMixColumns (s : State) : mixColumns (invMixColumns s) = s := by
  apply circulant_circulant
  exact invMixColumn_cancel

theorem invSubBytes_subBytes (s : State) : invSubBytes (subBytes s) = s := by
  apply Vector.ext
  intro i hi
  simp [invSubBytes, subBytes, invSbox_sbox]

theorem subBytes_invSubBytes (s : State) : subBytes (invSubBytes s) = s := by
  apply Vector.ext
  intro i hi
  simp [invSubBytes, subBytes, sbox_invSbox]

theorem invShiftRows_shiftRows (s : State) : invShiftRows (shiftRows s) = s := by
  apply Vector.ext
  intro i hi
  simp only [invShiftRows, shiftRows, Vector.getElem_ofFn]
  congr 1
  omega

theorem shiftRows_invShiftRows (s : State) : shiftRows (invShiftRows s) = s := by
  apply Vector.ext
  intro i hi
  simp only [invShiftRows, shiftRows, Vector.getElem_ofFn]
  congr 1
  omega

theorem addRoundKey_addRoundKey (w : List UInt32) (round : ℕ) (s : State) :
    addRoundKey w round (addRoundKey w round s) = s := by
  apply Vector.ext
  intro i hi
  simp [addRoundKey]

/-! ## The inverse cipher -/

/-- A loop is undone by the loop of the inverse steps in reverse order, up to a
    change of state `σ`. -/
theorem foldl_reverse_foldl {α β γ : Type*} (f : α → β → α) (g : γ → β → γ) (σ : α → γ)
    (h : ∀ a b, g (σ (f a b)) b = σ a) (l : List β) (a : α) :
    l.reverse.foldl g (σ (l.foldl f a)) = σ a := by
  induction l generalizing a with
  | nil => rfl
  | cons b l ih =>
    rw [List.foldl_cons, List.reverse_cons, List.foldl_append, ih (f a b)]
    exact h a b

/-- InvCipher (§5.3) under the key schedule `w`. -/
def invCipherWith (w : List UInt32) (block : State) : State :=
  let s := addRoundKey w 10 block
  let s := (List.range' 1 9).reverse.foldl
    (fun s round => invMixColumns (addRoundKey w round (invSubBytes (invShiftRows s)))) s
  addRoundKey w 0 (invSubBytes (invShiftRows s))

/-- AES-128 decryption of one block. -/
def invCipher (key : Vector UInt8 16) (block : State) : State :=
  invCipherWith (keyExpansion key) block

/-- **Decryption undoes encryption.** A round with its MixColumns is undone in
    front of the ShiftRows and SubBytes of the round before it. -/
theorem invCipherWith_cipherWith (w : List UInt32) (block : State) :
    invCipherWith w (cipherWith w block) = block := by
  have hloop := foldl_reverse_foldl
    (fun s round => addRoundKey w round (mixColumns (shiftRows (subBytes s))))
    (fun s round => invMixColumns (addRoundKey w round (invSubBytes (invShiftRows s))))
    (fun s => shiftRows (subBytes s))
    (fun s round => by
      rw [invShiftRows_shiftRows, invSubBytes_subBytes, addRoundKey_addRoundKey,
        invMixColumns_mixColumns])
    (List.range' 1 9) (addRoundKey w 0 block)
  simp only [invCipherWith, cipherWith, rounds, addRoundKey_addRoundKey]
  rw [hloop, invShiftRows_shiftRows, invSubBytes_subBytes, addRoundKey_addRoundKey]

/-- **Encryption undoes decryption.** -/
theorem cipherWith_invCipherWith (w : List UInt32) (block : State) :
    cipherWith w (invCipherWith w block) = block := by
  have hloop := foldl_reverse_foldl
    (fun s round => invMixColumns (addRoundKey w round (invSubBytes (invShiftRows s))))
    (fun s round => addRoundKey w round (mixColumns (shiftRows (subBytes s))))
    (fun s => invSubBytes (invShiftRows s))
    (fun s round => by
      rw [subBytes_invSubBytes, shiftRows_invShiftRows, mixColumns_invMixColumns,
        addRoundKey_addRoundKey])
    (List.range' 1 9).reverse (addRoundKey w 10 block)
  rw [List.reverse_reverse] at hloop
  simp only [invCipherWith, cipherWith, rounds, addRoundKey_addRoundKey]
  rw [hloop, subBytes_invSubBytes, shiftRows_invShiftRows, addRoundKey_addRoundKey]

/-! ## Blockwise -/

/-- The first `n` blocks of 16 bytes of `data`, each through `f`. -/
def mapBlocks (f : State → State) : (n : ℕ) → Bytes → Bytes
  | 0, _ => []
  | n + 1, data => (f (toArr 16 (data.take 16))).toList ++ mapBlocks f n (data.drop 16)

/-- All blocks of `data`, each through `f` (the ECB mode). -/
def blockwise (f : State → State) (data : Bytes) : Bytes := mapBlocks f (data.length / 16) data

@[simp] theorem length_mapBlocks (f : State → State) (n : ℕ) (data : Bytes) :
    (mapBlocks f n data).length = 16 * n := by
  induction n generalizing data with
  | zero => rfl
  | succ n ih =>
    rw [mapBlocks, List.length_append, ih, Vector.length_toList]
    omega

/-- The last block comes after the others. -/
theorem mapBlocks_succ (f : State → State) (n : ℕ) (data : Bytes) :
    mapBlocks f (n + 1) data =
      mapBlocks f n data ++ (f (toArr 16 ((data.drop (16 * n)).take 16))).toList := by
  induction n generalizing data with
  | zero => simp [mapBlocks]
  | succ n ih =>
    rw [mapBlocks, ih, mapBlocks, List.append_assoc, List.drop_drop,
      show 16 + 16 * n = 16 * (n + 1) by ring]

theorem mapBlocks_mapBlocks {f g : State → State} (h : ∀ s, g (f s) = s) (n : ℕ) {data : Bytes}
    (hlen : 16 * n ≤ data.length) : mapBlocks g n (mapBlocks f n data) = data.take (16 * n) := by
  induction n generalizing data with
  | zero => rfl
  | succ n ih =>
    have hhead : ∀ s : State, toArr 16 ((s.toList ++ mapBlocks f n (data.drop 16)).take 16) = s := by
      intro s
      rw [List.take_left' s.length_toList, toArr_toList]
    have htail : ∀ s : State, (s.toList ++ mapBlocks f n (data.drop 16)).drop 16 =
        mapBlocks f n (data.drop 16) := fun s => List.drop_left' s.length_toList
    rw [mapBlocks, mapBlocks, hhead, htail, h, ih (by simp; omega), toList_toArr (by simp; omega),
      show 16 * (n + 1) = 16 + 16 * n by ring, List.take_add]

@[simp] theorem length_blockwise (f : State → State) {data : Bytes} (h : 16 ∣ data.length) :
    (blockwise f data).length = data.length := by
  rw [blockwise, length_mapBlocks]
  omega

/-- Blockwise maps of whole blocks undo each other if the maps do. -/
theorem blockwise_blockwise {f g : State → State} (h : ∀ s, g (f s) = s) {data : Bytes}
    (hlen : 16 ∣ data.length) : blockwise g (blockwise f data) = data := by
  rw [blockwise, length_blockwise f hlen, blockwise, mapBlocks_mapBlocks h _ (by omega),
    List.take_of_length_le (by omega)]

/-! ## Injectivity -/

/-- **Encryption is injective** under every key schedule. -/
theorem cipherWith_injective (w : List UInt32) : Function.Injective (cipherWith w) :=
  Function.LeftInverse.injective (invCipherWith_cipherWith w)

end Iwand.AES
