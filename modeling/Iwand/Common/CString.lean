import Iwand.Common.Bytes

/-!
# C strings and text files

The string functions of the C library on the bytes of a string, without the NUL
that ends it, and `fgets` on the bytes of a file that have not been read.

* `strchr_append`, `strrchr_append`: searching a string whose separator is
  known.
* `fgets_line`, `fgets_shorter`: a line that fits the buffer; every line takes
  bytes away.
* `trim_eq_self`: a string without blanks at its ends.
* `strtoul_decimal`: reading back a decimal number.
* `dottedQuad_chars`: what an IPv4 address is written with.
* `strncpy_eq`: filling a zeroed array.
-/

namespace Iwand

/-- The bytes of ASCII characters. -/
def ascii (cs : List Char) : Bytes := cs.map fun c => UInt8.ofNat c.toNat

/-- The string in a buffer: the bytes before the first NUL. -/
def cstring (buf : Bytes) : Bytes := buf.takeWhile (· ≠ 0)

/-! ## Searching -/

/-- `strchr(s, c)`, as an index. -/
def strchr (s : Bytes) (c : UInt8) : Option ℕ := s.idxOf? c

/-- `strrchr(s, c)`, as an index. -/
def strrchr (s : Bytes) (c : UInt8) : Option ℕ :=
  (s.reverse.idxOf? c).map fun i => s.length - 1 - i

theorem strchr_eq_none {s : Bytes} {c : UInt8} (h : c ∉ s) : strchr s c = none :=
  List.idxOf?_eq_none_iff.mpr h

theorem idxOf?_append_cons {a : Bytes} {c : UInt8} (h : c ∉ a) (b : Bytes) :
    (a ++ c :: b).idxOf? c = some a.length := by
  rw [List.idxOf?_eq_some_iff]
  refine ⟨by simp, by simp, fun j hj => ?_⟩
  rw [List.getElem_append_left hj]
  exact fun heq => h (heq ▸ List.getElem_mem hj)

/-- The first `c` stands behind a string without `c`. -/
theorem strchr_append {a : Bytes} {c : UInt8} (h : c ∉ a) (b : Bytes) :
    strchr (a ++ c :: b) c = some a.length :=
  idxOf?_append_cons h b

/-- The last `c` stands before a string without `c`. -/
theorem strrchr_append {b : Bytes} {c : UInt8} (h : c ∉ b) (a : Bytes) :
    strrchr (a ++ c :: b) c = some a.length := by
  have hrev : (a ++ c :: b).reverse = b.reverse ++ c :: a.reverse := by simp
  rw [strrchr, hrev, idxOf?_append_cons (by simpa using h)]
  simp

/-! ## Reading lines -/

/-- `fgets(line, size, fp)` on the unread bytes `s` of a file: `none` at the end
    of the file, and otherwise the bytes read, the bytes left and `feof(fp)`. -/
def fgets (size : ℕ) (s : Bytes) : Option (Bytes × Bytes × Bool) :=
  if s = [] then none
  else
    let buf := s.take (size - 1)
    match strchr buf 10 with
    | some i => some (buf.take (i + 1), s.drop (i + 1), false)
    | none => some (buf, s.drop buf.length, buf.length < size - 1)

/-- `while ((ch = fgetc(fp)) != EOF && ch != '\n') ;` -/
def discardLine (s : Bytes) : Bytes := (s.dropWhile (· ≠ 10)).drop 1

/-- A line that fits the buffer with its newline. -/
theorem fgets_line {size : ℕ} {l : Bytes} (hl : 10 ∉ l) (hlen : l.length + 2 ≤ size) (rest : Bytes) :
    fgets size (l ++ 10 :: rest) = some (l ++ [10], rest, false) := by
  have hbuf : (l ++ 10 :: rest).take (size - 1) = l ++ 10 :: rest.take (size - 2 - l.length) := by
    rw [List.take_append, List.take_of_length_le (by omega),
      show size - 1 - l.length = (size - 2 - l.length) + 1 by omega, List.take_succ_cons]
  rw [fgets, if_neg (by simp), hbuf]
  simp only [strchr_append hl]
  rw [List.take_append, List.drop_append, List.take_of_length_le (by omega),
    List.drop_of_length_le (by omega), Nat.add_sub_cancel_left]
  rfl

/-- Every call reads something. -/
theorem fgets_shorter {size : ℕ} (hsize : 2 ≤ size) {s line rest : Bytes} {eof : Bool}
    (h : fgets size s = some (line, rest, eof)) : rest.length < s.length := by
  unfold fgets at h
  split_ifs at h with hs
  have hpos := List.length_pos_of_ne_nil hs
  simp only at h
  split at h
  · cases h
    rw [List.length_drop]
    omega
  · cases h
    rw [List.length_drop, List.length_take]
    omega

theorem length_discardLine_le (s : Bytes) : (discardLine s).length ≤ s.length := by
  rw [discardLine, List.length_drop]
  have := (List.dropWhile_suffix (l := s) fun b => decide (b ≠ 10)).length_le
  omega

/-! ## Blanks -/

/-- A space or a tab. -/
def isBlank (b : UInt8) : Bool := b = 32 || b = 9

/-- Strip the blanks at both ends. The loop for the end stops at the first byte
    of the string. -/
def trim (s : Bytes) : Bytes :=
  match s.dropWhile isBlank with
  | [] => []
  | b :: t => b :: t.rdropWhile isBlank

theorem trim_eq_self {s : Bytes} (hhead : ∀ b ∈ s.head?, isBlank b = false)
    (hlast : ∀ b ∈ s.getLast?, isBlank b = false) : trim s = s := by
  rcases s with _ | ⟨b, t⟩
  · rfl
  have hb : isBlank b = false := hhead b rfl
  rw [trim, List.dropWhile_cons_of_neg (by simp [hb])]
  have ht : t.rdropWhile isBlank = t := by
    rw [List.rdropWhile_eq_self_iff]
    intro hne
    have := hlast (t.getLast hne) (by
      rw [List.getLast?_cons_of_ne_nil hne, List.getLast?_eq_some_getLast hne]
      rfl)
    simp [this]
  exact congrArg (b :: ·) ht

/-! ## Numbers -/

/-- The sizes of `unsigned long`. -/
inductive DataModel where
  | ilp32
  | lp64

/-- `ULONG_MAX`. -/
def DataModel.ulongMax : DataModel → ℕ
  | .ilp32 => 2 ^ 32 - 1
  | .lp64 => 2 ^ 64 - 1

/-- `isspace`. -/
def isSpace (b : UInt8) : Bool := b = 32 || (9 ≤ b && b ≤ 13)

/-- `isdigit`. -/
def isDigit (b : UInt8) : Bool := 48 ≤ b && b ≤ 57

theorem isDigit_iff {b : UInt8} : isDigit b = true ↔ 48 ≤ b.toNat ∧ b.toNat ≤ 57 := by
  simp only [isDigit, Bool.and_eq_true, decide_eq_true_eq, UInt8.le_iff_toNat_le, UInt8.reduceToNat]

/-- The number that digits stand for. -/
def digitsValue (s : Bytes) : ℕ := s.foldl (fun acc b => 10 * acc + (b.toNat - 48)) 0

/-- The optional sign of a number: whether it is `-`, and what follows it. -/
def signed (s : Bytes) : Bool × Bytes :=
  match s with
  | 45 :: t => (true, t)
  | 43 :: t => (false, t)
  | _ => (false, s)

/-- `strtoul(s, NULL, 10)`: `ULONG_MAX` on overflow, and a number behind a minus
    is negated modulo `ULONG_MAX + 1`. -/
def strtoul (ulongMax : ℕ) (s : Bytes) : ℕ :=
  let (neg, s) := signed (s.dropWhile isSpace)
  let v := digitsValue (s.takeWhile isDigit)
  if v > ulongMax then ulongMax
  else if neg then (ulongMax + 1 - v) % (ulongMax + 1)
  else v

/-- A number without a sign. -/
theorem signed_digit {b : UInt8} (h : isDigit b = true) (t : Bytes) :
    signed (b :: t) = (false, b :: t) := by
  unfold signed
  split
  · rename_i heq
    cases heq
    simp [isDigit] at h
  · rename_i heq
    cases heq
    simp [isDigit] at h
  · rfl

theorem isSpace_digit {b : UInt8} (h : isDigit b = true) : isSpace b = false := by
  rw [isDigit_iff] at h
  simp only [isSpace, Bool.or_eq_false_iff, Bool.and_eq_false_iff, decide_eq_false_iff_not,
    UInt8.le_iff_toNat_le, ← UInt8.toNat_inj, UInt8.reduceToNat]
  omega

/-- `%u`: a number in decimal. -/
def decimal (n : ℕ) : Bytes := ascii (Nat.toDigits 10 n)

theorem toNat_digit {c : Char} (h : c.isDigit) :
    (UInt8.ofNat c.toNat).toNat = c.toNat ∧ 48 ≤ c.toNat ∧ c.toNat ≤ 57 := by
  obtain ⟨h48, h57⟩ := Char.isDigit_iff_toNat.mp h
  have h48' : 48 ≤ c.toNat := h48
  have h57' : c.toNat ≤ 57 := h57
  refine ⟨?_, h48', h57'⟩
  rw [UInt8.toNat_ofNat', Nat.mod_eq_of_lt (by omega)]

theorem isDigit_of_mem_decimal {n : ℕ} {b : UInt8} (h : b ∈ decimal n) : isDigit b = true := by
  obtain ⟨c, hc, rfl⟩ := List.mem_map.mp h
  obtain ⟨heq, h48, h57⟩ := toNat_digit (Nat.isDigit_of_mem_toDigits (by decide) (by decide) hc)
  rw [isDigit_iff, heq]
  exact ⟨h48, h57⟩

/-- The value of digits that were written as characters. -/
theorem digitsValue_ascii {cs : List Char} (h : ∀ c ∈ cs, c.isDigit) :
    digitsValue (ascii cs) = Nat.ofDigitChars 10 cs 0 := by
  rw [digitsValue, ascii, List.foldl_map, Nat.ofDigitChars_eq_foldl]
  apply List.foldl_ext
  intro acc c hc
  rw [(toNat_digit (h c hc)).1]
  rfl

theorem digitsValue_decimal (n : ℕ) : digitsValue (decimal n) = n := by
  rw [decimal, digitsValue_ascii fun c => Nat.isDigit_of_mem_toDigits (by decide) (by decide),
    Nat.ofDigitChars_ten_toDigits]

/-- **Reading back a decimal number.** -/
theorem strtoul_decimal {ulongMax n : ℕ} (h : n ≤ ulongMax) : strtoul ulongMax (decimal n) = n := by
  have hdig : ∀ b ∈ decimal n, isDigit b = true := fun b => isDigit_of_mem_decimal
  have htake : (decimal n).takeWhile isDigit = decimal n := List.takeWhile_eq_self_iff.mpr hdig
  have hval := digitsValue_decimal n
  obtain ⟨b, t, hbt⟩ : ∃ b t, decimal n = b :: t := by
    refine List.exists_cons_of_ne_nil ?_
    simp [decimal, ascii, Nat.toDigits_ne_nil]
  rw [hbt] at hdig htake hval ⊢
  have hb := hdig b (by simp)
  rw [strtoul, List.dropWhile_cons_of_neg (by simp [isSpace_digit hb]), signed_digit hb]
  simp only [htake, hval]
  rw [if_neg (by omega)]
  rfl

/-! ## Dotted quads -/

theorem decOctet_chars {s : Bytes} {v : UInt8} (h : decOctet s = some v) :
    1 ≤ s.length ∧ s.length ≤ 3 ∧ ∀ b ∈ s, isDigit b = true := by
  unfold decOctet at h
  simp only at h
  split_ifs at h with hs
  refine ⟨hs.1, hs.2.1, fun b hb => ?_⟩
  simpa [isDigit] using hs.2.2.1 b hb

/-- A string that is a dotted quad has 7 to 15 characters, digits and dots. -/
theorem dottedQuad_chars {s : Bytes} {a : Vector UInt8 4} (h : dottedQuad s = some a) :
    7 ≤ s.length ∧ s.length ≤ 15 ∧ ∀ b ∈ s, isDigit b = true ∨ b = 46 := by
  have hs : [46].intercalate (s.splitOn 46) = s := List.intercalate_splitOn 46
  unfold dottedQuad at h
  split at h
  · rename_i o₁ o₂ o₃ o₄ hsplit
    rw [hsplit] at hs
    simp only [Option.bind_eq_bind, Option.bind_eq_some_iff] at h
    obtain ⟨v₁, h₁, v₂, h₂, v₃, h₃, v₄, h₄, -⟩ := h
    obtain ⟨hmin₁, hmax₁, hdig₁⟩ := decOctet_chars h₁
    obtain ⟨hmin₂, hmax₂, hdig₂⟩ := decOctet_chars h₂
    obtain ⟨hmin₃, hmax₃, hdig₃⟩ := decOctet_chars h₃
    obtain ⟨hmin₄, hmax₄, hdig₄⟩ := decOctet_chars h₄
    have hcat : s = o₁ ++ 46 :: (o₂ ++ 46 :: (o₃ ++ 46 :: o₄)) := by
      rw [← hs]
      simp [List.intercalate]
    rw [hcat]
    refine ⟨by simp; omega, by simp; omega, fun b hb => ?_⟩
    simp only [List.mem_append, List.mem_cons] at hb
    rcases hb with hb | rfl | hb | rfl | hb | rfl | hb
    · exact .inl (hdig₁ b hb)
    · exact .inr rfl
    · exact .inl (hdig₂ b hb)
    · exact .inr rfl
    · exact .inl (hdig₃ b hb)
    · exact .inr rfl
    · exact .inl (hdig₄ b hb)
  · cases h

/-! ## Copying -/

/-- `strncpy(dst, src, sizeof(dst) - 1)`: the last byte of the array stays.
    Irreducible, since comparing two records would unfold the copy byte by byte. -/
@[irreducible] def strncpy {n : ℕ} (dst : Vector UInt8 (n + 1)) (src : Bytes) :
    Vector UInt8 (n + 1) :=
  (toArr n src).push (lastByte dst)

@[simp] theorem lastByte_strncpy {n : ℕ} (dst : Vector UInt8 (n + 1)) (src : Bytes) :
    lastByte (strncpy dst src) = lastByte dst := by
  simp [strncpy]

/-- A string that fits a zeroed array. -/
theorem strncpy_eq {n : ℕ} {dst : Vector UInt8 (n + 1)} {src : Bytes} (hdst : lastByte dst = 0)
    (hlen : src.length ≤ n) : strncpy dst src = toArr (n + 1) src := by
  apply Vector.ext
  intro i hi
  rw [strncpy, hdst, Vector.getElem_push]
  split_ifs with hin
  · simp [toArr]
  · simp [toArr, show i = n by omega, List.getElem?_eq_none hlen]

end Iwand
