import Mathlib

/-!
# Byte strings and bounded buffers

Byte strings are `List UInt8`; fixed-size arrays (`uint8_t a[n]`, `[n]byte`)
are `Vector UInt8 n`. The accessors `rd`, `rdN` and `wrN` are the memory
accesses of the C code: each returns `none` exactly when it would touch an
index outside the object, so a function written with them returns `some` only
if every access it makes is in bounds. `emit` fills an array from the front.

* `rdN_eq`, `wrN_eq`, `emit_eq`: accesses in bounds.
* `toList_toArr`, `toArr_toList`: arrays and the byte strings they hold.
* `toNat_be16`, `toNat_be32`, `be16_bytes`: big-endian fields.
* `xorCycle_xorCycle`: XOR with a repeated 8-byte key is an involution.
-/

namespace Iwand

/-- A byte string. -/
abbrev Bytes := List UInt8

/-- A property of bytes holds of every byte if it holds of all 256. -/
theorem forall_byte {P : UInt8 → Prop} (h : ∀ i : Fin 256, P (UInt8.ofNat i.val)) (x : UInt8) :
    P x := by
  have := h ⟨x.toNat, x.toNat_lt⟩
  simpa using this

/-! ## Bounded accesses -/

/-- The read `a[i]`. -/
def rd (a : Bytes) (i : ℕ) : Option UInt8 := a[i]?

/-- The `n` bytes at offset `off` (the source of a `memcpy`, or a slice). -/
def rdN (a : Bytes) (off n : ℕ) : Option Bytes :=
  if off + n ≤ a.length then some ((a.drop off).take n) else none

/-- `a` after `memcpy(a + off, src, len)`. -/
def wrN (a : Bytes) (off : ℕ) (src : Bytes) : Option Bytes :=
  if off + src.length ≤ a.length then some (a.take off ++ src ++ a.drop (off + src.length))
  else none

/-- Append `src` to the initialised prefix `buf` of an array of `cap` bytes: the
    writes `*p++ = …` and `memcpy(p, …)` of code that fills an array from the
    front. What was never written is not in `buf`, so it cannot be read. -/
def emit (cap : ℕ) (buf src : Bytes) : Option Bytes :=
  if buf.length + src.length ≤ cap then some (buf ++ src) else none

/-- `if (p) { … }` around such writes. -/
def emitIf (p : Prop) [Decidable p] (cap : ℕ) (buf src : Bytes) : Option Bytes :=
  if p then emit cap buf src else some buf

theorem rd_eq {a : Bytes} {i : ℕ} (h : i < a.length) : rd a i = some a[i] := by
  simp [rd, h]

theorem rdN_eq {a : Bytes} {off n : ℕ} (h : off + n ≤ a.length) :
    rdN a off n = some ((a.drop off).take n) := by
  simp [rdN, h]

theorem wrN_eq {a src : Bytes} {off : ℕ} (h : off + src.length ≤ a.length) :
    wrN a off src = some (a.take off ++ src ++ a.drop (off + src.length)) := by
  simp [wrN, h]

theorem emit_eq {cap : ℕ} {buf src : Bytes} (h : buf.length + src.length ≤ cap) :
    emit cap buf src = some (buf ++ src) := by
  simp [emit, h]

theorem emitIf_eq {p : Prop} [Decidable p] {cap : ℕ} {buf src : Bytes}
    (h : buf.length + src.length ≤ cap) :
    emitIf p cap buf src = some (buf ++ if p then src else []) := by
  unfold emitIf
  split_ifs
  · exact emit_eq h
  · rw [List.append_nil]

/-! ## Arrays -/

/-- An index of type `Fin n` is in the bounds of an array of `n` elements: no side
    condition. -/
instance instGetElemFin {α : Type*} {n : ℕ} : GetElem (Vector α n) (Fin n) α fun _ _ => True where
  getElem a i _ := a.get i

@[simp] theorem getElem_fin {α : Type*} {n : ℕ} (a : Vector α n) (i : Fin n) : a[i] = a[i.val] :=
  rfl

theorem get_eq_getElem {α : Type*} {n : ℕ} (a : Vector α n) (i : Fin n) : a.get i = a[i.val] :=
  rfl

/-- The byte `a[0]`. -/
abbrev firstByte {n : ℕ} (a : Vector UInt8 (n + 1)) : UInt8 := a[0]

/-- The byte `a[sizeof(a) - 1]`. -/
abbrev lastByte {n : ℕ} (a : Vector UInt8 (n + 1)) : UInt8 := a[n]

/-- The array of `n` bytes that starts with `src` and is zero after it: a
    zeroed array after `copy(a[:], src)`. -/
def toArr (n : ℕ) (src : Bytes) : Vector UInt8 n := Vector.ofFn fun i => src.getD i 0

theorem toList_toArr {n : ℕ} {src : Bytes} (h : src.length = n) : (toArr n src).toList = src := by
  subst h
  rw [toArr, Vector.toList_ofFn]
  apply List.ext_getElem (by simp)
  intro i h1 h2
  simp

@[simp] theorem toArr_toList {n : ℕ} (v : Vector UInt8 n) : toArr n v.toList = v := by
  apply Vector.ext
  intro i hi
  simp [toArr]

/-- A source that is shorter than the array. -/
theorem toList_toArr_of_le {n : ℕ} {src : Bytes} (h : src.length ≤ n) :
    (toArr n src).toList = src ++ List.replicate (n - src.length) 0 := by
  apply List.ext_getElem (by simp; omega)
  intro i h1 h2
  simp only [toArr, Vector.toList_ofFn, List.getElem_ofFn, List.getD_eq_getElem?_getD]
  rw [List.getElem_append]
  split_ifs with hi
  · simp [hi]
  · rw [List.getElem?_eq_none (by omega), List.getElem_replicate]
    rfl

/-- Zeros behind the source are already in the array. -/
theorem toArr_take_pad (n k : ℕ) (src : Bytes) :
    toArr n ((src ++ List.replicate k 0).take n) = toArr n (src.take n) := by
  apply Vector.ext
  intro i hi
  simp only [toArr, Vector.getElem_ofFn, List.getD_eq_getElem?_getD, List.getElem?_take, if_pos hi]
  rw [List.getElem?_append]
  split_ifs with hs
  · rfl
  · rw [List.getElem?_replicate, List.getElem?_eq_none (by omega)]
    split_ifs <;> rfl

/-! ## Big-endian fields -/

/-- `(b0 << 8) | b1`. -/
def be16 (b0 b1 : UInt8) : UInt16 := (b0.toUInt16 <<< 8) ||| b1.toUInt16

/-- `(b0 << 24) | (b1 << 16) | (b2 << 8) | b3`. -/
def be32 (b0 b1 b2 b3 : UInt8) : UInt32 :=
  (b0.toUInt32 <<< 24) ||| (b1.toUInt32 <<< 16) ||| (b2.toUInt32 <<< 8) ||| b3.toUInt32

/-- An `or` of a multiple of `2^k` with a number below `2^k` is a sum. -/
theorem or_eq_add {a b k : ℕ} (hb : b < 2 ^ k) : (a * 2 ^ k) ||| b = a * 2 ^ k + b := by
  rw [← Nat.shiftLeft_eq, Nat.shiftLeft_add_eq_or_of_lt hb]

theorem toNat_be16 (a b : UInt8) : (be16 a b).toNat = a.toNat * 2 ^ 8 + b.toNat := by
  have ha := a.toNat_lt
  have hb := b.toNat_lt
  have h8 : a.toNat <<< 8 % 2 ^ 16 = a.toNat * 2 ^ 8 := by
    rw [Nat.shiftLeft_eq, Nat.mod_eq_of_lt (by omega)]
  simp only [be16, UInt16.toNat_or, UInt16.toNat_shiftLeft, UInt8.toNat_toUInt16]
  rw [show UInt16.toNat 8 % 16 = 8 from rfl, h8, or_eq_add hb]

theorem toNat_be32 (a b c d : UInt8) :
    (be32 a b c d).toNat = a.toNat * 2 ^ 24 + b.toNat * 2 ^ 16 + c.toNat * 2 ^ 8 + d.toNat := by
  have ha := a.toNat_lt
  have hb := b.toNat_lt
  have hc := c.toNat_lt
  have hd := d.toNat_lt
  have e24 : a.toNat <<< 24 % 2 ^ 32 = a.toNat * 2 ^ 24 := by
    rw [Nat.shiftLeft_eq, Nat.mod_eq_of_lt (by omega)]
  have e16 : b.toNat <<< 16 % 2 ^ 32 = b.toNat * 2 ^ 16 := by
    rw [Nat.shiftLeft_eq, Nat.mod_eq_of_lt (by omega)]
  have e8 : c.toNat <<< 8 % 2 ^ 32 = c.toNat * 2 ^ 8 := by
    rw [Nat.shiftLeft_eq, Nat.mod_eq_of_lt (by omega)]
  simp only [be32, UInt32.toNat_or, UInt32.toNat_shiftLeft, UInt8.toNat_toUInt32]
  rw [show UInt32.toNat 24 % 32 = 24 from rfl, show UInt32.toNat 16 % 32 = 16 from rfl,
    show UInt32.toNat 8 % 32 = 8 from rfl, e24, e16, e8, or_eq_add (by omega),
    show a.toNat * 2 ^ 24 + b.toNat * 2 ^ 16 = (a.toNat * 2 ^ 8 + b.toNat) * 2 ^ 16 by ring,
    or_eq_add (by omega),
    show (a.toNat * 2 ^ 8 + b.toNat) * 2 ^ 16 + c.toNat * 2 ^ 8 =
      (a.toNat * 2 ^ 16 + b.toNat * 2 ^ 8 + c.toNat) * 2 ^ 8 by ring, or_eq_add (by omega)]

/-- The two bytes of a 16-bit field, most significant first. -/
theorem be16_bytes (x : UInt16) : be16 (x >>> 8).toUInt8 x.toUInt8 = x := by
  apply UInt16.toNat_inj.mp
  rw [toNat_be16]
  have := x.toNat_lt
  simp [Nat.shiftRight_eq_div_pow]
  omega

/-- A big-endian word is zero only if its four bytes are. -/
theorem be32_eq_zero {a b c d : UInt8} (h : be32 a b c d = 0) : a = 0 ∧ b = 0 ∧ c = 0 ∧ d = 0 := by
  have h' := congrArg UInt32.toNat h
  rw [toNat_be32] at h'
  simp only [← UInt8.toNat_inj, UInt32.toNat_zero, UInt8.toNat_zero] at h' ⊢
  omega

/-! ## Dotted quads -/

/-- One decimal number of a dotted quad: 1 to 3 digits, no leading zero, at
    most 255. -/
def decOctet (s : Bytes) : Option UInt8 :=
  let v := s.foldl (fun acc b => 10 * acc + (b.toNat - 48)) 0
  if 1 ≤ s.length ∧ s.length ≤ 3 ∧ (∀ b ∈ s, 48 ≤ b ∧ b ≤ 57) ∧
      (s.length = 1 ∨ s.head? ≠ some 48) ∧ v ≤ 255 then some (UInt8.ofNat v)
  else none

/-- The address that four decimal numbers with dots between them stand for. -/
def dottedQuad (s : Bytes) : Option (Vector UInt8 4) :=
  match s.splitOn 46 with
  | [a, b, c, d] => return #v[← decOctet a, ← decOctet b, ← decOctet c, ← decOctet d]
  | _ => none

/-! ## XOR with a repeated key -/

/-- `data[i] ^= key[i & 7]` for every `i`. -/
def xorCycle (key : Vector UInt8 8) (data : Bytes) : Bytes :=
  data.mapIdx fun i b => b ^^^ key.get ⟨i &&& 7, Nat.and_lt_two_pow i (n := 3) (by decide)⟩

@[simp] theorem length_xorCycle (key : Vector UInt8 8) (data : Bytes) :
    (xorCycle key data).length = data.length := by
  simp [xorCycle]

@[simp] theorem xorCycle_xorCycle (key : Vector UInt8 8) (data : Bytes) :
    xorCycle key (xorCycle key data) = data := by
  apply List.ext_getElem (by simp)
  intro i h1 h2
  simp [xorCycle]

end Iwand
