import Iwand.Common.Bytes

/-!
# The MD5 message-digest algorithm (RFC 1321)

The table-driven reference definition: append the padding and the
little-endian bit length (§3.1, §3.2), then run 64 steps on every 64-byte
block (§3.4) and output the four registers, low-order byte first (§3.5).

* `process_append`: the blocks of a message are processed from left to right,
  so a longer message continues where its prefix stopped.
-/

namespace Iwand.MD5

/-- The four registers `A`, `B`, `C`, `D`. -/
structure Regs where
  a : UInt32
  b : UInt32
  c : UInt32
  d : UInt32
deriving DecidableEq, Repr

/-! ## Step 4: the auxiliary functions and tables -/

/-- `F(X,Y,Z) = XY v not(X) Z`. -/
def F (x y z : UInt32) : UInt32 := (x &&& y) ||| (~~~x &&& z)

/-- `G(X,Y,Z) = XZ v Y not(Z)`. -/
def G (x y z : UInt32) : UInt32 := (x &&& z) ||| (y &&& ~~~z)

/-- `H(X,Y,Z) = X xor Y xor Z`. -/
def H (x y z : UInt32) : UInt32 := x ^^^ y ^^^ z

/-- `I(X,Y,Z) = Y xor (X v not(Z))`. -/
def I (x y z : UInt32) : UInt32 := y ^^^ (x ||| ~~~z)

/-- `X <<< s`, the circular shift. -/
def rotl (x s : UInt32) : UInt32 := (x <<< s) ||| (x >>> (32 - s))

/-- `T[i + 1] = ⌊4294967296 · |sin (i + 1)|⌋` for `i = 0 … 63`. -/
def T : List UInt32 := [
  0xd76aa478, 0xe8c7b756, 0x242070db, 0xc1bdceee, 0xf57c0faf, 0x4787c62a, 0xa8304613, 0xfd469501,
  0x698098d8, 0x8b44f7af, 0xffff5bb1, 0x895cd7be, 0x6b901122, 0xfd987193, 0xa679438e, 0x49b40821,
  0xf61e2562, 0xc040b340, 0x265e5a51, 0xe9b6c7aa, 0xd62f105d, 0x02441453, 0xd8a1e681, 0xe7d3fbc8,
  0x21e1cde6, 0xc33707d6, 0xf4d50d87, 0x455a14ed, 0xa9e3e905, 0xfcefa3f8, 0x676f02d9, 0x8d2a4c8a,
  0xfffa3942, 0x8771f681, 0x6d9d6122, 0xfde5380c, 0xa4beea44, 0x4bdecfa9, 0xf6bb4b60, 0xbebfbc70,
  0x289b7ec6, 0xeaa127fa, 0xd4ef3085, 0x04881d05, 0xd9d4d039, 0xe6db99e5, 0x1fa27cf8, 0xc4ac5665,
  0xf4292244, 0x432aff97, 0xab9423a7, 0xfc93a039, 0x655b59c3, 0x8f0ccc92, 0xffeff47d, 0x85845dd1,
  0x6fa87e4f, 0xfe2ce6e0, 0xa3014314, 0x4e0811a1, 0xf7537e82, 0xbd3af235, 0x2ad7d2bb, 0xeb86d391]

/-- The shift amounts: four per round, used cyclically. -/
def S : List (List UInt32) := [[7, 12, 17, 22], [5, 9, 14, 20], [4, 11, 16, 23], [6, 10, 15, 21]]

/-- The word of the block used by step `i`. -/
def K (i : ℕ) : ℕ :=
  if i < 16 then i % 16
  else if i < 32 then (5 * i + 1) % 16
  else if i < 48 then (3 * i + 5) % 16
  else 7 * i % 16

theorem K_lt (i : ℕ) : K i < 16 := by
  unfold K
  split_ifs <;> omega

/-- The auxiliary function of step `i`. -/
def aux (i : ℕ) : UInt32 → UInt32 → UInt32 → UInt32 :=
  if i < 16 then F else if i < 32 then G else if i < 48 then H else I

/-- Step `i`: `a = b + ((a + f(b,c,d) + X[k] + T[i]) <<< s)`, after which the
    registers are renamed so that the next step reads `d, a, b, c`. -/
def step (X : Vector UInt32 16) (r : Regs) (i : ℕ) : Regs :=
  { a := r.d
    b := r.b + rotl (r.a + aux i r.b r.c r.d + X.get ⟨K i, K_lt i⟩ + T.getD i 0)
      ((S.getD (i / 16) []).getD (i % 4) 0)
    c := r.b
    d := r.c }

/-- Process one block of sixteen words and add the registers it started from. -/
def compress (h : Regs) (X : Vector UInt32 16) : Regs :=
  let r := (List.range 64).foldl (step X) h
  ⟨h.a + r.a, h.b + r.b, h.c + r.c, h.d + r.d⟩

/-! ## Words and blocks -/

/-- The 32-bit word at byte offset `off`, low-order byte first. -/
def le32 (m : Bytes) (off : ℕ) : UInt32 :=
  (m.getD off 0).toUInt32 ||| ((m.getD (off + 1) 0).toUInt32 <<< 8) |||
    ((m.getD (off + 2) 0).toUInt32 <<< 16) ||| ((m.getD (off + 3) 0).toUInt32 <<< 24)

/-- The sixteen words of the block at byte offset `off`. -/
def words (m : Bytes) (off : ℕ) : Vector UInt32 16 := Vector.ofFn fun j => le32 m (off + 4 * j)

/-- Step 3: the initial registers. -/
def init : Regs := ⟨0x67452301, 0xefcdab89, 0x98badcfe, 0x10325476⟩

/-- Run blocks `n, n + 1, …, n + k - 1` of `m`. -/
def blocks (m : Bytes) (n k : ℕ) (h : Regs) : Regs :=
  (List.range' n k).foldl (fun h i => compress h (words m (64 * i))) h

/-- Process every complete block of `m`. -/
def process (m : Bytes) : Regs := blocks m 0 (m.length / 64) init

/-! ## Steps 1, 2 and 5: padding and output -/

/-- The `n` low-order bytes of `x`, least significant first. -/
def leBytes (n x : ℕ) : Bytes := (List.range n).map fun i => UInt8.ofNat (x >>> (8 * i))

/-- The padding after a message of `n` bytes: a `1` bit, zeros up to length
    448 mod 512 bits, and the 64-bit length in bits. -/
def padding (n : ℕ) : Bytes :=
  [0x80] ++ List.replicate ((119 - n % 64) % 64) 0 ++ leBytes 8 (8 * n)

/-- The registers as sixteen bytes, low-order byte of `A` first. -/
def output (r : Regs) : Vector UInt8 16 := #v[
  r.a.toUInt8, (r.a >>> 8).toUInt8, (r.a >>> 16).toUInt8, (r.a >>> 24).toUInt8,
  r.b.toUInt8, (r.b >>> 8).toUInt8, (r.b >>> 16).toUInt8, (r.b >>> 24).toUInt8,
  r.c.toUInt8, (r.c >>> 8).toUInt8, (r.c >>> 16).toUInt8, (r.c >>> 24).toUInt8,
  r.d.toUInt8, (r.d >>> 8).toUInt8, (r.d >>> 16).toUInt8, (r.d >>> 24).toUInt8]

/-- The MD5 digest of a byte string. -/
def md5 (m : Bytes) : Vector UInt8 16 := output (process (m ++ padding m.length))

set_option maxRecDepth 4000 in
example : (md5 [0x61, 0x62, 0x63]).toList.take 4 = [0x90, 0x01, 0x50, 0x98] := by decide +kernel

/-! ## Streaming -/

/-- A word only depends on its four bytes. -/
theorem le32_congr {m m' : Bytes} {off off' : ℕ}
    (h : ∀ k < 4, m.getD (off + k) 0 = m'.getD (off' + k) 0) : le32 m off = le32 m' off' := by
  unfold le32
  have h0 := h 0 (by omega)
  simp only [Nat.add_zero] at h0
  rw [h0, h 1 (by omega), h 2 (by omega), h 3 (by omega)]

/-- The words of a block only depend on its 64 bytes. -/
theorem words_congr {m m' : Bytes} {off off' : ℕ}
    (h : ∀ k < 64, m.getD (off + k) 0 = m'.getD (off' + k) 0) : words m off = words m' off' := by
  apply Vector.ext
  intro j hj
  simp only [words, Vector.getElem_ofFn]
  apply le32_congr
  intro k hk
  rw [Nat.add_assoc, Nat.add_assoc]
  exact h (4 * j + k) (by omega)

theorem blocks_add (m : Bytes) (n k l : ℕ) (h : Regs) :
    blocks m n (k + l) h = blocks m (n + k) l (blocks m n k h) := by
  simp only [blocks]
  rw [← List.range'_append_1, List.foldl_append]

theorem blocks_one (m : Bytes) (n : ℕ) (h : Regs) :
    blocks m n 1 h = compress h (words m (64 * n)) := by
  simp [blocks]

theorem blocks_succ (m : Bytes) (n k : ℕ) (h : Regs) :
    blocks m n (k + 1) h = compress (blocks m n k h) (words m (64 * (n + k))) := by
  rw [blocks_add, blocks_one]

/-- The blocks of a prefix are blocks of the whole message. -/
theorem blocks_append (m x : Bytes) (n k : ℕ) (h : Regs) (hk : 64 * (n + k) ≤ m.length) :
    blocks (m ++ x) n k h = blocks m n k h := by
  induction k with
  | zero => simp [blocks]
  | succ k ih =>
    rw [blocks_succ, blocks_succ, ih (by omega)]
    congr 1
    apply words_congr
    intro j hj
    rw [List.getD_append _ _ _ _ (by omega)]

/-- A longer message continues from the registers of its prefix. -/
theorem process_append (m x : Bytes) :
    process (m ++ x) =
      blocks (m ++ x) (m.length / 64) ((m ++ x).length / 64 - m.length / 64) (process m) := by
  have hle : m.length / 64 ≤ (m ++ x).length / 64 :=
    Nat.div_le_div_right (by simp)
  rw [process, show (m ++ x).length / 64 = m.length / 64 +
    ((m ++ x).length / 64 - m.length / 64) by omega, blocks_add, Nat.zero_add,
    blocks_append m x 0 _ _ (by omega)]
  simp [process]

end Iwand.MD5
