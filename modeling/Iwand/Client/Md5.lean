import Iwand.Crypto.MD5

/-!
# The client's MD5 implements RFC 1321

Model of `md5_transform`, `md5_init`, `md5_update`, `md5_final` and `md5_hash`
(`src/iwand.c`, lines 81–195).

* `md5Transform_eq`: the 64 unrolled steps are the 64 steps of the RFC.
* `md5Update_absorbs`: the buffering of `md5_update`. After any sequence of
  updates the context holds the registers of the complete blocks, the bytes of
  the incomplete one and the byte count.
* `md5Final_eq`, `md5Hash_eq`: the digest is the MD5 of the concatenated input,
  whatever the buffer held before `md5_init`.
-/

namespace Iwand.Client

open MD5 (Regs)

/-! ## `md5_transform` -/

/-- `MD5_F`. -/
def md5F (x y z : UInt32) : UInt32 := (x &&& y) ||| ((~~~x) &&& z)

/-- `MD5_G`. -/
def md5G (x y z : UInt32) : UInt32 := (x &&& z) ||| (y &&& (~~~z))

/-- `MD5_H`. -/
def md5H (x y z : UInt32) : UInt32 := x ^^^ y ^^^ z

/-- `MD5_I`. -/
def md5I (x y z : UInt32) : UInt32 := y ^^^ (x ||| (~~~z))

/-- `MD5_ROT`. -/
def md5Rot (x n : UInt32) : UInt32 := (x <<< n) ||| (x >>> (32 - n))

/-- The new value of `a` after the macro `MD5_FF(a,b,c,d,x,s,ac)`, or
    `MD5_GG`, `MD5_HH`, `MD5_II`, which only differ in `f`:
    `a += f(b,c,d) + x + ac; a = MD5_ROT(a, s); a += b`. -/
def md5Macro (f : UInt32 → UInt32 → UInt32 → UInt32) (a b c d x s ac : UInt32) : UInt32 :=
  let a := a + (f b c d + x + ac)
  let a := md5Rot a s
  a + b

/-- Four consecutive macro lines of a round, which assign `a`, `d`, `c` and `b`
    in this order with the round's four shift amounts. -/
def md5Lines (f : UInt32 → UInt32 → UInt32 → UInt32) (s0 s1 s2 s3 : UInt32) (r : Regs)
    (x0 k0 x1 k1 x2 k2 x3 k3 : UInt32) : Regs :=
  let a := md5Macro f r.a r.b r.c r.d x0 s0 k0
  let d := md5Macro f r.d a r.b r.c x1 s1 k1
  let c := md5Macro f r.c d a r.b x2 s2 k2
  let b := md5Macro f r.b c d a x3 s3 k3
  ⟨a, b, c, d⟩

/-- The `MD5_FF` lines. -/
def md5FF := md5Lines md5F 7 12 17 22

/-- The `MD5_GG` lines. -/
def md5GG := md5Lines md5G 5 9 14 20

/-- The `MD5_HH` lines. -/
def md5HH := md5Lines md5H 4 11 16 23

/-- The `MD5_II` lines. -/
def md5II := md5Lines md5I 6 10 15 21

/-- The 64 macro lines of `md5_transform` (lines 105–140). -/
def md5Rounds (x : Vector UInt32 16) (r : Regs) : Regs :=
  let r := md5FF r x[0] 0xd76aa478 x[1] 0xe8c7b756 x[2] 0x242070db x[3] 0xc1bdceee
  let r := md5FF r x[4] 0xf57c0faf x[5] 0x4787c62a x[6] 0xa8304613 x[7] 0xfd469501
  let r := md5FF r x[8] 0x698098d8 x[9] 0x8b44f7af x[10] 0xffff5bb1 x[11] 0x895cd7be
  let r := md5FF r x[12] 0x6b901122 x[13] 0xfd987193 x[14] 0xa679438e x[15] 0x49b40821
  let r := md5GG r x[1] 0xf61e2562 x[6] 0xc040b340 x[11] 0x265e5a51 x[0] 0xe9b6c7aa
  let r := md5GG r x[5] 0xd62f105d x[10] 0x02441453 x[15] 0xd8a1e681 x[4] 0xe7d3fbc8
  let r := md5GG r x[9] 0x21e1cde6 x[14] 0xc33707d6 x[3] 0xf4d50d87 x[8] 0x455a14ed
  let r := md5GG r x[13] 0xa9e3e905 x[2] 0xfcefa3f8 x[7] 0x676f02d9 x[12] 0x8d2a4c8a
  let r := md5HH r x[5] 0xfffa3942 x[8] 0x8771f681 x[11] 0x6d9d6122 x[14] 0xfde5380c
  let r := md5HH r x[1] 0xa4beea44 x[4] 0x4bdecfa9 x[7] 0xf6bb4b60 x[10] 0xbebfbc70
  let r := md5HH r x[13] 0x289b7ec6 x[0] 0xeaa127fa x[3] 0xd4ef3085 x[6] 0x04881d05
  let r := md5HH r x[9] 0xd9d4d039 x[12] 0xe6db99e5 x[15] 0x1fa27cf8 x[2] 0xc4ac5665
  let r := md5II r x[0] 0xf4292244 x[7] 0x432aff97 x[14] 0xab9423a7 x[5] 0xfc93a039
  let r := md5II r x[12] 0x655b59c3 x[3] 0x8f0ccc92 x[10] 0xffeff47d x[1] 0x85845dd1
  let r := md5II r x[8] 0x6fa87e4f x[15] 0xfe2ce6e0 x[6] 0xa3014314 x[13] 0x4e0811a1
  md5II r x[4] 0xf7537e82 x[11] 0xbd3af235 x[2] 0x2ad7d2bb x[9] 0xeb86d391

/-- `md5_transform(state, block)` for the 64 bytes at `block + off` (lines
    98–143). -/
def md5Transform (state : Regs) (block : Bytes) (off : ℕ) : Regs :=
  let x : Vector UInt32 16 := Vector.ofFn fun i =>
    (block.getD (off + 4 * i) 0).toUInt32 ||| ((block.getD (off + 4 * i + 1) 0).toUInt32 <<< 8) |||
      ((block.getD (off + 4 * i + 2) 0).toUInt32 <<< 16) |||
      ((block.getD (off + 4 * i + 3) 0).toUInt32 <<< 24)
  let r := md5Rounds x state
  ⟨state.a + r.a, state.b + r.b, state.c + r.c, state.d + r.d⟩

/-- A macro in the form of the RFC. -/
theorem md5Macro_eq (f : UInt32 → UInt32 → UInt32 → UInt32) (a b c d x s ac : UInt32) :
    md5Macro f a b c d x s ac = b + MD5.rotl (a + f b c d + x + ac) s := by
  simp only [md5Macro, md5Rot, MD5.rotl, UInt32.add_assoc]
  rw [UInt32.add_comm]

/-- Four lines are the four steps from step `i` on, if the words, constants
    and shift amounts are those of the RFC's tables. -/
theorem md5Lines_eq (X : Vector UInt32 16) (i : ℕ) (f : UInt32 → UInt32 → UInt32 → UInt32)
    (s0 s1 s2 s3 x0 k0 x1 k1 x2 k2 x3 k3 : UInt32)
    (h : ∀ r, MD5.step X r i = ⟨r.d, r.b + MD5.rotl (r.a + f r.b r.c r.d + x0 + k0) s0, r.b, r.c⟩)
    (h1 : ∀ r, MD5.step X r (i + 1) =
      ⟨r.d, r.b + MD5.rotl (r.a + f r.b r.c r.d + x1 + k1) s1, r.b, r.c⟩)
    (h2 : ∀ r, MD5.step X r (i + 2) =
      ⟨r.d, r.b + MD5.rotl (r.a + f r.b r.c r.d + x2 + k2) s2, r.b, r.c⟩)
    (h3 : ∀ r, MD5.step X r (i + 3) =
      ⟨r.d, r.b + MD5.rotl (r.a + f r.b r.c r.d + x3 + k3) s3, r.b, r.c⟩) (r : Regs) :
    md5Lines f s0 s1 s2 s3 r x0 k0 x1 k1 x2 k2 x3 k3 = (List.range' i 4).foldl (MD5.step X) r := by
  simp only [List.range', List.foldl_cons, List.foldl_nil, h, h1, h2, h3, md5Lines, md5Macro_eq]

/-- The sixteen groups of four steps are the 64 steps. -/
theorem range_64 : List.range 64 =
    List.range' 0 4 ++ List.range' 4 4 ++ List.range' 8 4 ++ List.range' 12 4 ++
    List.range' 16 4 ++ List.range' 20 4 ++ List.range' 24 4 ++ List.range' 28 4 ++
    List.range' 32 4 ++ List.range' 36 4 ++ List.range' 40 4 ++ List.range' 44 4 ++
    List.range' 48 4 ++ List.range' 52 4 ++ List.range' 56 4 ++ List.range' 60 4 := by decide

set_option maxRecDepth 2000 in
/-- **The 64 macro lines are the 64 steps of the RFC.** -/
theorem md5Rounds_eq (X : Vector UInt32 16) (r : Regs) :
    md5Rounds X r = (List.range 64).foldl (MD5.step X) r := by
  have h0 : ∀ r, md5FF r X[0] 0xd76aa478 X[1] 0xe8c7b756 X[2] 0x242070db X[3] 0xc1bdceee =
      (List.range' 0 4).foldl (MD5.step X) r :=
    md5Lines_eq X 0 md5F _ _ _ _ _ _ _ _ _ _ _ _ (fun _ => rfl) (fun _ => rfl) (fun _ => rfl) (fun _ => rfl)
  have h4 : ∀ r, md5FF r X[4] 0xf57c0faf X[5] 0x4787c62a X[6] 0xa8304613 X[7] 0xfd469501 =
      (List.range' 4 4).foldl (MD5.step X) r :=
    md5Lines_eq X 4 md5F _ _ _ _ _ _ _ _ _ _ _ _ (fun _ => rfl) (fun _ => rfl) (fun _ => rfl) (fun _ => rfl)
  have h8 : ∀ r, md5FF r X[8] 0x698098d8 X[9] 0x8b44f7af X[10] 0xffff5bb1 X[11] 0x895cd7be =
      (List.range' 8 4).foldl (MD5.step X) r :=
    md5Lines_eq X 8 md5F _ _ _ _ _ _ _ _ _ _ _ _ (fun _ => rfl) (fun _ => rfl) (fun _ => rfl) (fun _ => rfl)
  have h12 : ∀ r, md5FF r X[12] 0x6b901122 X[13] 0xfd987193 X[14] 0xa679438e X[15] 0x49b40821 =
      (List.range' 12 4).foldl (MD5.step X) r :=
    md5Lines_eq X 12 md5F _ _ _ _ _ _ _ _ _ _ _ _ (fun _ => rfl) (fun _ => rfl) (fun _ => rfl) (fun _ => rfl)
  have h16 : ∀ r, md5GG r X[1] 0xf61e2562 X[6] 0xc040b340 X[11] 0x265e5a51 X[0] 0xe9b6c7aa =
      (List.range' 16 4).foldl (MD5.step X) r :=
    md5Lines_eq X 16 md5G _ _ _ _ _ _ _ _ _ _ _ _ (fun _ => rfl) (fun _ => rfl) (fun _ => rfl) (fun _ => rfl)
  have h20 : ∀ r, md5GG r X[5] 0xd62f105d X[10] 0x02441453 X[15] 0xd8a1e681 X[4] 0xe7d3fbc8 =
      (List.range' 20 4).foldl (MD5.step X) r :=
    md5Lines_eq X 20 md5G _ _ _ _ _ _ _ _ _ _ _ _ (fun _ => rfl) (fun _ => rfl) (fun _ => rfl) (fun _ => rfl)
  have h24 : ∀ r, md5GG r X[9] 0x21e1cde6 X[14] 0xc33707d6 X[3] 0xf4d50d87 X[8] 0x455a14ed =
      (List.range' 24 4).foldl (MD5.step X) r :=
    md5Lines_eq X 24 md5G _ _ _ _ _ _ _ _ _ _ _ _ (fun _ => rfl) (fun _ => rfl) (fun _ => rfl) (fun _ => rfl)
  have h28 : ∀ r, md5GG r X[13] 0xa9e3e905 X[2] 0xfcefa3f8 X[7] 0x676f02d9 X[12] 0x8d2a4c8a =
      (List.range' 28 4).foldl (MD5.step X) r :=
    md5Lines_eq X 28 md5G _ _ _ _ _ _ _ _ _ _ _ _ (fun _ => rfl) (fun _ => rfl) (fun _ => rfl) (fun _ => rfl)
  have h32 : ∀ r, md5HH r X[5] 0xfffa3942 X[8] 0x8771f681 X[11] 0x6d9d6122 X[14] 0xfde5380c =
      (List.range' 32 4).foldl (MD5.step X) r :=
    md5Lines_eq X 32 md5H _ _ _ _ _ _ _ _ _ _ _ _ (fun _ => rfl) (fun _ => rfl) (fun _ => rfl) (fun _ => rfl)
  have h36 : ∀ r, md5HH r X[1] 0xa4beea44 X[4] 0x4bdecfa9 X[7] 0xf6bb4b60 X[10] 0xbebfbc70 =
      (List.range' 36 4).foldl (MD5.step X) r :=
    md5Lines_eq X 36 md5H _ _ _ _ _ _ _ _ _ _ _ _ (fun _ => rfl) (fun _ => rfl) (fun _ => rfl) (fun _ => rfl)
  have h40 : ∀ r, md5HH r X[13] 0x289b7ec6 X[0] 0xeaa127fa X[3] 0xd4ef3085 X[6] 0x04881d05 =
      (List.range' 40 4).foldl (MD5.step X) r :=
    md5Lines_eq X 40 md5H _ _ _ _ _ _ _ _ _ _ _ _ (fun _ => rfl) (fun _ => rfl) (fun _ => rfl) (fun _ => rfl)
  have h44 : ∀ r, md5HH r X[9] 0xd9d4d039 X[12] 0xe6db99e5 X[15] 0x1fa27cf8 X[2] 0xc4ac5665 =
      (List.range' 44 4).foldl (MD5.step X) r :=
    md5Lines_eq X 44 md5H _ _ _ _ _ _ _ _ _ _ _ _ (fun _ => rfl) (fun _ => rfl) (fun _ => rfl) (fun _ => rfl)
  have h48 : ∀ r, md5II r X[0] 0xf4292244 X[7] 0x432aff97 X[14] 0xab9423a7 X[5] 0xfc93a039 =
      (List.range' 48 4).foldl (MD5.step X) r :=
    md5Lines_eq X 48 md5I _ _ _ _ _ _ _ _ _ _ _ _ (fun _ => rfl) (fun _ => rfl) (fun _ => rfl) (fun _ => rfl)
  have h52 : ∀ r, md5II r X[12] 0x655b59c3 X[3] 0x8f0ccc92 X[10] 0xffeff47d X[1] 0x85845dd1 =
      (List.range' 52 4).foldl (MD5.step X) r :=
    md5Lines_eq X 52 md5I _ _ _ _ _ _ _ _ _ _ _ _ (fun _ => rfl) (fun _ => rfl) (fun _ => rfl) (fun _ => rfl)
  have h56 : ∀ r, md5II r X[8] 0x6fa87e4f X[15] 0xfe2ce6e0 X[6] 0xa3014314 X[13] 0x4e0811a1 =
      (List.range' 56 4).foldl (MD5.step X) r :=
    md5Lines_eq X 56 md5I _ _ _ _ _ _ _ _ _ _ _ _ (fun _ => rfl) (fun _ => rfl) (fun _ => rfl) (fun _ => rfl)
  have h60 : ∀ r, md5II r X[4] 0xf7537e82 X[11] 0xbd3af235 X[2] 0x2ad7d2bb X[9] 0xeb86d391 =
      (List.range' 60 4).foldl (MD5.step X) r :=
    md5Lines_eq X 60 md5I _ _ _ _ _ _ _ _ _ _ _ _ (fun _ => rfl) (fun _ => rfl) (fun _ => rfl) (fun _ => rfl)
  simp only [md5Rounds, h0, h4, h8, h12, h16, h20, h24, h28, h32, h36, h40, h44, h48, h52, h56, h60,
    range_64, List.foldl_append]

/-- **`md5_transform` is the RFC's block step.** -/
theorem md5Transform_eq (state : Regs) (block : Bytes) (off : ℕ) :
    md5Transform state block off = MD5.compress state (MD5.words block off) := by
  simp only [md5Transform, md5Rounds_eq]
  rfl

/-! ## `md5_init`, `md5_update` and `md5_final` -/

/-- `md5_ctx_t`. -/
structure Md5Ctx where
  state : Regs
  count : UInt64
  buffer : Vector UInt8 64

/-- `md5_init`, which leaves `buffer` as it was. -/
def md5Init (ctx : Md5Ctx) : Md5Ctx :=
  { ctx with count := 0, state := ⟨0x67452301, 0xefcdab89, 0x98badcfe, 0x10325476⟩ }

/-- `buffer` after `memcpy(buffer + off, src, len)`; bytes past the end of the
    array, which no call below writes, would be dropped. -/
def bufCopy (buffer : Vector UInt8 64) (off : ℕ) (src : Bytes) : Vector UInt8 64 :=
  Vector.ofFn fun k => if off ≤ k.val ∧ k.val < off + src.length then src.getD (k - off) 0 else buffer[k]

/-- The loop `for (i = part_len; i + 63 < len; i += 64)` of `md5_update`, whose
    arithmetic is that of `uint32_t`. Returns the state and the final `i`. -/
def md5UpdateLoop (input : Bytes) : (fuel : ℕ) → Regs → (i : ℕ) → Regs × ℕ
  | 0, state, i => (state, i)
  | fuel + 1, state, i =>
    if (i + 63) % 2 ^ 32 < input.length then
      md5UpdateLoop input fuel (md5Transform state input i) (i + 64)
    else (state, i)

/-- `md5_update(ctx, input, len)` with `len = input.length` (lines 154–168). -/
def md5Update (ctx : Md5Ctx) (input : Bytes) : Md5Ctx :=
  let len := input.length
  let idx := (ctx.count &&& 0x3f).toNat
  let count := ctx.count + UInt64.ofNat len
  let partLen := 64 - idx
  if partLen ≤ len then
    let buffer := bufCopy ctx.buffer idx (input.take partLen)
    let state := md5Transform ctx.state buffer.toList 0
    let (state, i) := md5UpdateLoop input len state partLen
    { state := state, count := count, buffer := bufCopy buffer 0 (input.drop i) }
  else
    { ctx with count := count, buffer := bufCopy ctx.buffer idx input }

/-- `md5_final`, returning the digest (lines 170–187). -/
def md5Final (ctx : Md5Ctx) : Vector UInt8 16 :=
  let padding : Bytes := 0x80 :: List.replicate 63 0
  let bitCount := ctx.count <<< 3
  let bits : Bytes := (List.range 8).map fun i => (bitCount >>> (UInt64.ofNat (i * 8))).toUInt8
  let idx := (ctx.count &&& 0x3f).toNat
  let padLen := if idx < 56 then 56 - idx else 120 - idx
  let ctx := md5Update ctx (padding.take padLen)
  let ctx := md5Update ctx bits
  #v[ctx.state.a.toUInt8, (ctx.state.a >>> 8).toUInt8, (ctx.state.a >>> 16).toUInt8,
    (ctx.state.a >>> 24).toUInt8, ctx.state.b.toUInt8, (ctx.state.b >>> 8).toUInt8,
    (ctx.state.b >>> 16).toUInt8, (ctx.state.b >>> 24).toUInt8, ctx.state.c.toUInt8,
    (ctx.state.c >>> 8).toUInt8, (ctx.state.c >>> 16).toUInt8, (ctx.state.c >>> 24).toUInt8,
    ctx.state.d.toUInt8, (ctx.state.d >>> 8).toUInt8, (ctx.state.d >>> 16).toUInt8,
    (ctx.state.d >>> 24).toUInt8]

/-- The content of an `md5_ctx_t` on the stack before `md5_init`. `md5Hash_eq`
    and `md5Final_eq` hold for every such content. -/
def md5Stack : Md5Ctx := ⟨⟨0, 0, 0, 0⟩, 0, Vector.replicate 64 0⟩

/-- `md5_hash(data, len, digest)` (lines 189–195). -/
def md5Hash (data : Bytes) : Vector UInt8 16 :=
  md5Final (md5Update (md5Init md5Stack) data)

/-! ## The streaming invariant -/

/-- `ctx` has absorbed the message `m`. -/
structure Absorbed (ctx : Md5Ctx) (m : Bytes) : Prop where
  state : ctx.state = MD5.process m
  count : ctx.count.toNat = m.length % 2 ^ 64
  buffer : ∀ k (hk : k < m.length % 64),
    ctx.buffer[k] = m.getD (64 * (m.length / 64) + k) 0

theorem getElem_bufCopy (buffer : Vector UInt8 64) (off : ℕ) (src : Bytes) {k : ℕ} (hk : k < 64) :
    (bufCopy buffer off src)[k] =
      if off ≤ k ∧ k < off + src.length then src.getD (k - off) 0 else buffer[k] := by
  simp [bufCopy]

theorem absorbed_init (ctx : Md5Ctx) : Absorbed (md5Init ctx) [] :=
  ⟨rfl, rfl, fun k hk => by simp at hk⟩

/-- `ctx->count & 0x3f` is the number of buffered bytes. -/
theorem Absorbed.idx {ctx : Md5Ctx} {m : Bytes} (h : Absorbed ctx m) :
    (ctx.count &&& 0x3f).toNat = m.length % 64 := by
  rw [UInt64.toNat_and, show (0x3f : UInt64).toNat = 2 ^ 6 - 1 from rfl,
    Nat.and_two_pow_sub_one_eq_mod, h.count]
  omega

/-- The buffer after input was copied behind what it holds. -/
theorem Absorbed.getElem_bufCopy {ctx : Md5Ctx} {m : Bytes} (h : Absorbed ctx m) {part input : Bytes}
    (hpart : part <+: input) {k : ℕ} (hk : k < 64) (hin : k < m.length % 64 + part.length) :
    (bufCopy ctx.buffer (m.length % 64) part)[k] =
      (m ++ input).getD (64 * (m.length / 64) + k) 0 := by
  obtain ⟨rest, rfl⟩ := hpart
  rw [Client.getElem_bufCopy _ _ _ hk]
  by_cases hk' : k < m.length % 64
  · rw [if_neg (by omega), h.buffer k hk', List.getD_append _ _ _ _ (by omega)]
  · rw [if_pos (by omega), List.getD_append_right _ _ _ _ (by omega),
      List.getD_append _ _ _ _ (by omega)]
    congr 1
    omega

/-- The loop processes every complete block left in `input`: from block `n` of
    `m ++ input`, which starts at `input + i`, to the last one. -/
theorem md5UpdateLoop_eq (m input : Bytes) (hlen : input.length < 2 ^ 32 - 64) :
    ∀ fuel n i st, m.length + i = 64 * n → i ≤ input.length → input.length < i + 64 * (fuel + 1) →
      md5UpdateLoop input fuel st i =
        (MD5.blocks (m ++ input) n ((m ++ input).length / 64 - n) st,
          i + 64 * ((m ++ input).length / 64 - n)) := by
  intro fuel
  induction fuel with
  | zero =>
    intro n i st hn hi hf
    have h0 : (m ++ input).length / 64 - n = 0 := by simp; omega
    rw [md5UpdateLoop, h0]
    rfl
  | succ fuel ih =>
    intro n i st hn hi hf
    rw [md5UpdateLoop, Nat.mod_eq_of_lt (by omega)]
    by_cases hb : i + 63 < input.length
    · -- one more complete block
      have hwords : MD5.words input i = MD5.words (m ++ input) (64 * n) := by
        apply MD5.words_congr
        intro k hk
        rw [List.getD_append_right _ _ _ _ (by omega), show 64 * n + k - m.length = i + k by omega]
      have hk : (m ++ input).length / 64 - n = 1 + ((m ++ input).length / 64 - (n + 1)) := by
        simp; omega
      rw [if_pos hb, ih (n + 1) (i + 64) _ (by omega) (by omega) (by omega), hk,
        MD5.blocks_add, MD5.blocks_one, md5Transform_eq, hwords]
      rw [show i + 64 + 64 * ((m ++ input).length / 64 - (n + 1)) =
        i + 64 * (1 + ((m ++ input).length / 64 - (n + 1))) by ring]
    · have h0 : (m ++ input).length / 64 - n = 0 := by simp; omega
      rw [if_neg hb, h0]
      rfl

/-- **Buffering.** `md5_update` appends its input to the absorbed message. -/
theorem md5Update_absorbs {ctx : Md5Ctx} {m : Bytes} (h : Absorbed ctx m) (input : Bytes)
    (hlen : input.length < 2 ^ 32 - 64) : Absorbed (md5Update ctx input) (m ++ input) := by
  have hcount : (ctx.count + UInt64.ofNat input.length).toNat = (m ++ input).length % 2 ^ 64 := by
    rw [UInt64.toNat_add, h.count, UInt64.toNat_ofNat']
    simp
  have hidx := h.idx
  set L := m.length with hL
  unfold md5Update
  simp only [hidx]
  split_ifs with hpart
  · -- the buffered block is completed first; it is block `L / 64` of `m ++ input`
    have hwords : MD5.words (bufCopy ctx.buffer (L % 64) (input.take (64 - L % 64))).toList 0 =
        MD5.words (m ++ input) (64 * (L / 64)) := by
      apply MD5.words_congr
      intro k hk
      have hin : k < L % 64 + (input.take (64 - L % 64)).length := by
        rw [List.length_take]
        omega
      rw [Nat.zero_add, List.getD_eq_getElem _ _ (by simpa using hk), Vector.getElem_toList,
        h.getElem_bufCopy (List.take_prefix _ _) hk hin]
    rw [md5UpdateLoop_eq m input hlen _ (L / 64 + 1) _ _ (by omega) hpart (by omega)]
    refine ⟨?_, hcount, ?_⟩
    · simp only
      rw [MD5.process_append, md5Transform_eq, hwords, h.state,
        show (m ++ input).length / 64 - m.length / 64 =
          1 + ((m ++ input).length / 64 - (L / 64 + 1)) by simp; omega, MD5.blocks_add, MD5.blocks_one]
    · intro k hk
      have hlm : (m ++ input).length = L + input.length := by simp [hL]
      simp only [getElem_bufCopy _ _ _ (show k < 64 by omega)]
      rw [if_pos (by simp; omega), List.getD_append_right _ _ _ _ (by omega),
        List.getD_eq_getElem _ _ (by simp; omega), List.getElem_drop,
        List.getD_eq_getElem _ _ (by omega)]
      congr 1
      omega
  · -- the input fits into the buffer
    have hlm : (m ++ input).length = L + input.length := by simp [hL]
    have hdiv : (m ++ input).length / 64 = L / 64 := by omega
    refine ⟨?_, hcount, ?_⟩
    · rw [MD5.process_append, hdiv, ← hL, Nat.sub_self, ← h.state]
      rfl
    · intro k hk
      rw [hdiv, h.getElem_bufCopy (List.prefix_refl input) (by omega) (by omega)]

/-! ## The digest -/

/-- The bytes of `bit_count`, which is the bit length modulo `2^64`. -/
theorem bits_eq {count : UInt64} {n : ℕ} (h : count.toNat = n % 2 ^ 64) :
    ((List.range 8).map fun i => ((count <<< 3) >>> (UInt64.ofNat (i * 8))).toUInt8) =
      MD5.leBytes 8 (8 * n) := by
  apply List.map_congr_left
  intro i hi
  have hi' : i < 8 := List.mem_range.mp hi
  apply UInt8.toNat_inj.mp
  have hs : (UInt64.ofNat (i * 8)).toNat % 64 = 8 * i := by
    rw [UInt64.toNat_ofNat', Nat.mod_eq_of_lt (by omega), Nat.mod_eq_of_lt (by omega)]
    omega
  rw [UInt64.toNat_toUInt8, UInt64.toNat_shiftRight, hs, UInt64.toNat_shiftLeft, h,
    UInt8.toNat_ofNat', show (3 : UInt64).toNat % 64 = 3 from rfl, Nat.shiftLeft_eq,
    Nat.shiftRight_eq_div_pow, Nat.shiftRight_eq_div_pow]
  interval_cases i <;> omega

/-- `md5_final` of a context that has absorbed `m`. -/
theorem md5Final_eq {ctx : Md5Ctx} {m : Bytes} (h : Absorbed ctx m) : md5Final ctx = MD5.md5 m := by
  have hidx := h.idx
  have hpad : ((0x80 :: List.replicate 63 0 : Bytes).take
      (if m.length % 64 < 56 then 56 - m.length % 64 else 120 - m.length % 64)) =
      [0x80] ++ List.replicate ((119 - m.length % 64) % 64) 0 := by
    have hlt := Nat.mod_lt m.length (show 64 > 0 by norm_num)
    generalize m.length % 64 = r at *
    interval_cases r <;> rfl
  have hbits := bits_eq h.count
  have h1 := md5Update_absorbs h ([0x80] ++ List.replicate ((119 - m.length % 64) % 64) 0)
    (by simp; omega)
  have h2 := md5Update_absorbs h1 (MD5.leBytes 8 (8 * m.length)) (by simp [MD5.leBytes])
  rw [List.append_assoc] at h2
  have hst := h2.state
  simp only [md5Final, hidx, hpad, hbits, hst]
  rfl

/-- **`md5_hash` is MD5.** -/
theorem md5Hash_eq (data : Bytes) (hlen : data.length < 2 ^ 32 - 64) :
    md5Hash data = MD5.md5 data :=
  md5Final_eq (by simpa using md5Update_absorbs (absorbed_init md5Stack) data hlen)

end Iwand.Client
