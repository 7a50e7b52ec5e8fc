import Iwand.Client.ConfigFile

/-!
# The LuCI init script

Model of `validate_value` and `generate_config` of the init script (lines
12–72), which writes the file that `cfg_load` reads. Options are what
`uci_validate_section` sets: numbers in decimal, and the empty string for an
option that is absent. `printf` and `echo` write their arguments as they are.

* `cfgLines_writeLines`: a file of clean lines is read line by line.
* `cfgLine_section`, `cfgLine_option`: the two kinds of lines.
* `srLinksLoop_join`: the list of links.
* `config_round_trip`: `cfg_load` reads back what the script wrote.
-/

namespace Iwand.Client

/-! ## The script -/

/-- The options of the section `main`. -/
structure Settings where
  enabled : ℕ
  interface : Bytes
  server : Bytes
  username : Bytes
  password : Bytes
  port : ℕ
  mtu : ℕ
  encrypt : ℕ
  pipeid : ℕ
  pipeidx : ℕ
  srlinks : Bytes
  srpassword : Bytes
  srencryptmode : ℕ

/-- `[:cntrl:]`. -/
def isCntrl (b : UInt8) : Bool := b < 32 || b = 127

/-- `validate_value` (lines 13–18): no control character and no bracket. -/
def validateValue (v : Bytes) : Bool := v.all fun b => !isCntrl b && b ≠ 91 && b ≠ 93

/-- `key=value`. -/
def optionLine (key val : Bytes) : Bytes := key ++ 61 :: val

/-- The lines of the file (lines 58–68). -/
def Settings.lines (s : Settings) : List Bytes :=
  [91 :: s.interface ++ [93],
    optionLine (ascii ['s', 'e', 'r', 'v', 'e', 'r']) s.server,
    optionLine (ascii ['u', 's', 'e', 'r', 'n', 'a', 'm', 'e']) s.username,
    optionLine (ascii ['p', 'a', 's', 's', 'w', 'o', 'r', 'd']) s.password,
    optionLine (ascii ['p', 'o', 'r', 't']) (decimal s.port),
    optionLine (ascii ['m', 't', 'u']) (decimal s.mtu),
    optionLine (ascii ['e', 'n', 'c', 'r', 'y', 'p', 't']) (decimal s.encrypt)] ++
  (if s.pipeid > 0 then [optionLine (ascii ['p', 'i', 'p', 'e', 'i', 'd']) (decimal s.pipeid)]
    else []) ++
  (if s.pipeidx > 0 then [optionLine (ascii ['p', 'i', 'p', 'e', 'i', 'd', 'x']) (decimal s.pipeidx)]
    else []) ++
  (if s.srlinks ≠ [] ∧ validateValue s.srlinks = true then
    [optionLine (ascii ['s', 'r', 'l', 'i', 'n', 'k', 's']) s.srlinks] else []) ++
  (if s.srpassword ≠ [] ∧ validateValue s.srpassword = true then
    [optionLine (ascii ['s', 'r', 'p', 'a', 's', 's', 'w', 'o', 'r', 'd']) s.srpassword] else []) ++
  (if s.srencryptmode > 0 then
    [optionLine (ascii ['s', 'r', 'e', 'n', 'c', 'r', 'y', 'p', 't', 'm', 'o', 'd', 'e'])
      (decimal s.srencryptmode)] else [])

/-- A newline behind each line. -/
def writeLines (ls : List Bytes) : Bytes := ls.flatMap (· ++ [10])

/-- `generate_config` (lines 20–72): the file, or the result with the message. -/
def generateConfig (s : Settings) : Except (ℕ × String) Bytes :=
  if s.enabled ≠ 1 then .error (1, "")
  else if s.server = [] then .error (2, "server not set")
  else if s.username = [] then .error (2, "username not set")
  else if s.password = [] then .error (2, "password not set")
  else if validateValue s.interface = false then .error (2, "invalid interface name")
  else if validateValue s.server = false then .error (2, "invalid server value")
  else if validateValue s.username = false then .error (2, "invalid username")
  else if validateValue s.password = false then .error (2, "invalid password")
  else .ok (writeLines s.lines)

theorem generateConfig_ok {s : Settings} {file : Bytes} (h : generateConfig s = .ok file) :
    file = writeLines s.lines := by
  unfold generateConfig at h
  split_ifs at h
  exact (Except.ok.inj h).symm

/-! ## Values that can be written -/

/-- A value that fits a field of `n` bytes and reads as it is written. -/
structure Plain (v : Bytes) (n : ℕ) : Prop where
  ne_nil : v ≠ []
  length : v.length ≤ n
  valid : validateValue v = true
  head : v.head? ≠ some 32
  last : v.getLast? ≠ some 32

/-- The settings that the script accepts, with the addresses of `srlinks`. -/
structure Settings.WellFormed (s : Settings) (links : List (Vector UInt8 4)) : Prop where
  interface : Plain s.interface 15
  server : Plain s.server 63
  username : Plain s.username 31
  password : Plain s.password 31
  port : 1 ≤ s.port ∧ s.port ≤ 65535
  mtu : 46 ≤ s.mtu ∧ s.mtu ≤ 1600
  encrypt : s.encrypt ≤ 1
  pipeid : s.pipeid ≤ 32767
  pipeidx : s.pipeidx ≤ 1
  /-- Absent, or one to six dotted quads with commas between them. -/
  srlinks : s.srlinks = [] ∧ links = [] ∨
    ∃ quads : List Bytes, 1 ≤ quads.length ∧ quads.length ≤ 6 ∧
      s.srlinks = [44].intercalate quads ∧ quads.Forall₂ (fun q a => inetPton q = some a) links
  srpassword : s.srpassword = [] ∨ Plain s.srpassword 31
  srencryptmode : s.srencryptmode ≤ 2

section

variable {v : Bytes} {n : ℕ}

theorem Plain.mem (h : Plain v n) {b : UInt8} (hb : b ∈ v) : 32 ≤ b ∧ b ≠ 91 ∧ b ≠ 93 := by
  have hall := List.all_eq_true.mp h.valid b hb
  simp only [isCntrl, Bool.and_eq_true, Bool.not_eq_true', Bool.or_eq_false_iff,
    decide_eq_false_iff_not, decide_eq_true_eq, UInt8.not_lt] at hall
  exact ⟨hall.1.1.1, hall.1.2, hall.2⟩

theorem Plain.notMem (h : Plain v n) {b : UInt8} (hb : b < 32 ∨ b = 91 ∨ b = 93) : b ∉ v := by
  intro hmem
  obtain ⟨h32, h91, h93⟩ := h.mem hmem
  rcases hb with hb | hb | hb
  · exact absurd h32 (UInt8.not_le.mpr hb)
  · exact h91 hb
  · exact h93 hb

theorem Plain.mono {m : ℕ} (h : Plain v n) (hnm : n ≤ m) : Plain v m :=
  { h with length := h.length.trans hnm }

/-- A byte that is no control character is a blank only if it is a space. -/
theorem isBlank_eq_false {b : UInt8} (h32 : 32 ≤ b) (hne : b ≠ 32) : isBlank b = false := by
  have h9 : b ≠ 9 := by
    rintro rfl
    exact absurd h32 (by decide)
  simp [isBlank, hne, h9]

theorem isEol_eq_false {b : UInt8} (h32 : 32 ≤ b) : isEol b = false := by
  have h13 : b ≠ 13 := by
    rintro rfl
    exact absurd h32 (by decide)
  have h10 : b ≠ 10 := by
    rintro rfl
    exact absurd h32 (by decide)
  simp [isEol, h13, h10]

theorem Plain.trim_eq (h : Plain v n) : trim v = v := by
  apply trim_eq_self
  · intro b hb
    exact isBlank_eq_false (h.mem (List.mem_of_mem_head? hb)).1 fun heq => h.head (heq ▸ hb)
  · intro b hb
    exact isBlank_eq_false (h.mem (List.mem_of_mem_getLast? hb)).1 fun heq => h.last (heq ▸ hb)

/-- Digits, dots and commas are plain. -/
theorem plain_of_chars (hne : v ≠ []) (hlen : v.length ≤ n)
    (hb : ∀ b ∈ v, isDigit b = true ∨ b = 46 ∨ b = 44) : Plain v n := by
  have hb' : ∀ b ∈ v, b ≠ 32 ∧ (!isCntrl b && b ≠ 91 && b ≠ 93) = true := by
    intro b hmem
    rcases hb b hmem with h | rfl | rfl
    · rw [isDigit_iff] at h
      simp only [isCntrl, ne_eq, Bool.and_eq_true, Bool.not_eq_true', Bool.or_eq_false_iff,
        decide_eq_false_iff_not, decide_eq_true_eq, UInt8.lt_iff_toNat_lt, ← UInt8.toNat_inj,
        UInt8.reduceToNat]
      omega
    · decide
    · decide
  refine ⟨hne, hlen, List.all_eq_true.mpr fun b hmem => (hb' b hmem).2, ?_, ?_⟩
  · intro h
    exact (hb' 32 (List.mem_of_mem_head? h)).1 rfl
  · intro h
    exact (hb' 32 (List.mem_of_mem_getLast? h)).1 rfl

theorem plain_decimal {k : ℕ} (hk : k < 10 ^ n) (hn : 0 < n) : Plain (decimal k) n := by
  refine plain_of_chars ?_ ?_ fun b hb => .inl (isDigit_of_mem_decimal hb)
  · simp [decimal, ascii, Nat.toDigits_ne_nil]
  · rw [decimal, ascii, List.length_map]
    exact (Nat.length_toDigits_le_iff (by decide) hn).mpr hk

end

/-! ## Lines -/

/-- A line without newline and NUL that fits the buffer. -/
def CleanLine (l : Bytes) : Prop := 10 ∉ l ∧ 0 ∉ l ∧ l.length ≤ 254

section

variable {dm : DataModel} {cfg : Config}

/-- The first line of a file is handled, then the rest. -/
theorem cfgLines_cons {l : Bytes} (hl : CleanLine l) (fuel : ℕ) (rest : Bytes) :
    cfgLines dm (fuel + 1) (l ++ 10 :: rest) cfg =
      (cfgLine dm (l ++ [10]) cfg).bind (cfgLines dm fuel rest) := by
  obtain ⟨hnl, hnul, hlen⟩ := hl
  have hstr : cstring (l ++ [10]) = l ++ [10] := by
    rw [cstring, List.takeWhile_eq_self_iff]
    intro b hb
    rcases List.mem_append.mp hb with hb | hb
    · simpa using fun heq : b = 0 => hnul (heq ▸ hb)
    · rw [List.mem_singleton.mp hb]
      decide
  rw [cfgLines, fgets_line hnl (by omega)]
  simp only [hstr]
  rw [if_neg (by simp)]
  rfl

/-- **A file of clean lines** is read line by line. -/
theorem cfgLines_writeLines {ls : List Bytes} (hls : ∀ l ∈ ls, CleanLine l) {fuel : ℕ}
    (hfuel : (writeLines ls).length < fuel) :
    cfgLines dm fuel (writeLines ls) cfg =
      ls.foldlM (fun cfg l => cfgLine dm (l ++ [10]) cfg) cfg := by
  induction ls generalizing cfg fuel with
  | nil =>
    obtain ⟨fuel, rfl⟩ : ∃ k, fuel = k + 1 := ⟨fuel - 1, by omega⟩
    rfl
  | cons l ls ih =>
    obtain ⟨fuel, rfl⟩ : ∃ k, fuel = k + 1 := ⟨fuel - 1, by omega⟩
    have hfile : writeLines (l :: ls) = l ++ 10 :: writeLines ls := by simp [writeLines]
    have hlen : (writeLines ls).length < fuel := by
      rw [hfile, List.length_append, List.length_cons] at hfuel
      omega
    rw [hfile, cfgLines_cons (hls l (by simp)), List.foldlM_cons]
    congr 1
    funext cfg'
    exact ih (fun l' hl' => hls l' (by simp [hl'])) hlen

/-- The newline is stripped. -/
theorem rdropWhile_isEol {l : Bytes} (h : ∀ b ∈ l.getLast?, isEol b = false) :
    (l ++ [10]).rdropWhile isEol = l := by
  rw [List.rdropWhile_concat_pos _ _ _ (by decide), List.rdropWhile_eq_self_iff]
  intro hne
  simp [h _ (List.getLast?_eq_some_getLast hne)]

/-- The section header. -/
theorem cfgLine_section (name : Bytes) :
    cfgLine dm ((91 :: name ++ [93]) ++ [10]) cfg =
      some { cfg with tunName := strncpy cfg.tunName name } := by
  have hlast : ((91 :: name ++ [93]) ++ [10]).rdropWhile isEol = 91 :: name ++ [93] :=
    rdropWhile_isEol (by rw [List.getLast?_concat]; simp [isEol])
  have hlb : strchr (91 :: name ++ [93]) 91 = some 0 := strchr_append (a := []) (by simp) _
  have hrb : strrchr (91 :: name ++ [93]) 93 = some (name.length + 1) :=
    strrchr_append (a := 91 :: name) (b := []) (by simp)
  rw [cfgLine, if_neg (by simp), hlast]
  simp only [hlb]
  rw [if_neg (by simp), cfgSection, hrb]
  simp

/-- Keys are letters and underscores. -/
theorem Key.name_bytes (k : Key) : ∀ b ∈ k.name, 95 ≤ b := by
  cases k <;> decide +kernel

theorem Key.length_name (k : Key) : 3 ≤ k.name.length ∧ k.name.length ≤ 13 := by
  cases k <;> decide

theorem Key.find_name (k : Key) : Key.all.find? (·.name = k.name) = some k := by
  cases k <;> decide +kernel

theorem Key.trim_name (k : Key) : trim k.name = k.name := by
  have hblank : ∀ b ∈ k.name, isBlank b = false := by
    intro b hb
    have h95 := k.name_bytes b hb
    have h32 : 32 ≤ b := UInt8.le_trans (show (32 : UInt8) ≤ 95 by decide) h95
    exact isBlank_eq_false h32 fun heq => absurd (heq ▸ h95) (by decide)
  exact trim_eq_self (fun b hb => hblank b (List.mem_of_mem_head? hb))
    fun b hb => hblank b (List.mem_of_mem_getLast? hb)

theorem Key.notMem_name (k : Key) {b : UInt8} (hb : b < 95) : b ∉ k.name :=
  fun h => absurd (k.name_bytes b h) (UInt8.not_le.mpr hb)

/-- An option. -/
theorem cfgLine_option (k : Key) {val : Bytes} {n : ℕ} (h : Plain val n) :
    cfgLine dm (optionLine k.name val ++ [10]) cfg = k.store dm val cfg := by
  have hlen := k.length_name
  have hlast : (optionLine k.name val ++ [10]).rdropWhile isEol = optionLine k.name val := by
    apply rdropWhile_isEol
    intro b hb
    rw [optionLine, List.getLast?_append_of_ne_nil _ (by simp),
      List.getLast?_cons_of_ne_nil h.ne_nil] at hb
    exact isEol_eq_false (h.mem (List.mem_of_mem_getLast? hb)).1
  have hnolb : strchr (optionLine k.name val) 91 = none := by
    apply strchr_eq_none
    rw [optionLine, List.mem_append, List.mem_cons]
    rintro (hmem | hmem | hmem)
    · exact k.notMem_name (by decide) hmem
    · exact absurd hmem (by decide)
    · exact h.notMem (.inr (.inl rfl)) hmem
  have heq : strchr (optionLine k.name val) 61 = some k.name.length :=
    strchr_append (k.notMem_name (by decide)) val
  have htake : (optionLine k.name val).take k.name.length = k.name := List.take_left' rfl
  have hdrop : (optionLine k.name val).drop (k.name.length + 1) = val := by
    rw [optionLine, List.drop_append, List.drop_of_length_le (by omega), Nat.add_sub_cancel_left]
    rfl
  -- the line is neither empty nor a comment
  have hskip : ¬ (optionLine k.name val ++ [10] = [] ∨
      (optionLine k.name val ++ [10]).head? = some 35 ∨
      (optionLine k.name val ++ [10]).head? = some 13 ∨
      (optionLine k.name val ++ [10]).head? = some 10) := by
    obtain ⟨b, t, hbt⟩ := List.exists_cons_of_length_pos (l := k.name) (by omega)
    have h95 : 95 ≤ b := k.name_bytes b (by simp [hbt])
    rw [optionLine, hbt]
    simp only [List.cons_append, List.head?_cons, Option.some.injEq, reduceCtorEq, false_or]
    rintro (rfl | rfl | rfl) <;> exact absurd h95 (by decide)
  rw [cfgLine, if_neg hskip, hlast]
  simp only [hnolb, heq, htake, hdrop]
  rw [if_neg (by rw [optionLine, List.length_append]; omega), k.trim_name, h.trim_eq, cfgAssign,
    k.find_name]

theorem cleanLine_section {name : Bytes} (h : Plain name 15) : CleanLine (91 :: name ++ [93]) := by
  have hlen := h.length
  refine ⟨?_, ?_, by simp; omega⟩
  · simp [h.notMem (b := 10) (.inl (by decide))]
  · simp [h.notMem (b := 0) (.inl (by decide))]

theorem cleanLine_option (k : Key) {val : Bytes} (h : Plain val 200) :
    CleanLine (optionLine k.name val) := by
  have hlen := h.length
  have hkey := k.length_name
  have hnot : ∀ b : UInt8, b < 32 → b ∉ optionLine k.name val := by
    intro b hb
    rw [optionLine, List.mem_append, List.mem_cons]
    rintro (hmem | rfl | hmem)
    · exact k.notMem_name (UInt8.lt_trans hb (show (32 : UInt8) < 95 by decide)) hmem
    · exact absurd hb (by decide)
    · exact h.notMem (.inl hb) hmem
  refine ⟨hnot 10 (by decide), hnot 0 (by decide), ?_⟩
  rw [optionLine, List.length_append, List.length_cons]
  omega

end

/-! ## The list of links -/

/-- `sr_links` with the first elements set. -/
def linksArr (links : List (Vector UInt8 4)) : Vector (Vector UInt8 4) 6 :=
  Vector.ofFn fun i => links.getD i.val (Vector.replicate 4 0)

/-- The record with these links. -/
def withLinks (cfg : Config) (links : List (Vector UInt8 4)) : Config :=
  { cfg with srLinks := linksArr links, srCount := UInt8.ofNat links.length }

section

variable {dm : DataModel} {cfg : Config} {acc links : List (Vector UInt8 4)} {quads : List Bytes}

theorem linksArr_nil : linksArr [] = Vector.replicate 6 (Vector.replicate 4 0) := by
  apply Vector.ext
  intro i hi
  simp [linksArr]

theorem linksArr_snoc (acc : List (Vector UInt8 4)) (a : Vector UInt8 4) :
    (linksArr acc).setIfInBounds acc.length a = linksArr (acc ++ [a]) := by
  apply Vector.ext
  intro i hi
  rw [Vector.getElem_setIfInBounds]
  simp only [linksArr, Vector.getElem_ofFn, List.getD_eq_getElem?_getD]
  split_ifs with heq
  · simp [← heq]
  · rcases Nat.lt_or_gt_of_ne heq with hgt | hlt
    · rw [List.getElem?_eq_none (by omega), List.getElem?_eq_none (by simp; omega)]
    · rw [List.getElem?_append_left hlt]

/-- One address. -/
theorem storeLink_quad {q : Bytes} {a : Vector UInt8 4} (hq : inetPton q = some a)
    (hlen : acc.length < 6) :
    storeLink dm q (withLinks cfg acc) = some (withLinks cfg (acc ++ [a])) := by
  have hcnt : (withLinks cfg acc).srCount.toNat = acc.length := by
    rw [withLinks, UInt8.toNat_ofNat', Nat.mod_eq_of_lt (by omega)]
  rw [storeLink, hq, if_pos (by omega), hcnt, Option.getD_some]
  simp only [withLinks, linksArr_snoc, List.length_append, List.length_singleton, UInt8.ofNat_add]
  rfl

/-- **The list of links.** -/
theorem srLinksLoop_join (hq : quads.Forall₂ (fun q a => inetPton q = some a) links)
    (hne : quads ≠ []) (hlen : acc.length + quads.length ≤ 6) {fuel : ℕ}
    (hfuel : ([44].intercalate quads).length < fuel) :
    srLinksLoop dm fuel ([44].intercalate quads) (withLinks cfg acc) =
      some (withLinks cfg (acc ++ links)) := by
  induction hq generalizing acc fuel with
  | nil => exact absurd rfl hne
  | @cons q a quads links hqa hq ih =>
    obtain ⟨fuel, rfl⟩ : ∃ k, fuel = k + 1 := ⟨fuel - 1, by omega⟩
    obtain ⟨hmin, -, hchars⟩ := dottedQuad_chars hqa
    have hcomma : 44 ∉ q := by
      intro hmem
      rcases hchars 44 hmem with h | h
      · exact absurd h (by decide)
      · exact absurd h (by decide)
    have hacc : acc.length < 6 := by
      rw [List.length_cons] at hlen
      omega
    have hcnt : (withLinks cfg acc).srCount < 6 := by
      rw [withLinks, UInt8.lt_iff_toNat_lt, UInt8.toNat_ofNat', Nat.mod_eq_of_lt (by omega)]
      exact hacc
    have hstore : storeLink dm q (withLinks cfg acc) = some (withLinks cfg (acc ++ [a])) :=
      storeLink_quad hqa hacc
    rw [srLinksLoop]
    rcases quads with _ | ⟨q', quads⟩
    · -- the last address
      cases hq
      rw [List.intercalate_singleton, if_pos ⟨List.ne_nil_of_length_pos (by omega), hcnt⟩,
        strchr_eq_none hcomma]
      exact hstore
    · rw [List.intercalate_cons_cons, List.append_assoc] at hfuel ⊢
      rw [if_pos ⟨by simp, hcnt⟩]
      have hat := strchr_append hcomma ([44].intercalate (q' :: quads))
      have hdrop : (q ++ ([44] ++ [44].intercalate (q' :: quads))).drop (q.length + 1) =
          [44].intercalate (q' :: quads) := by
        rw [List.drop_append, List.drop_of_length_le (by omega), Nat.add_sub_cancel_left]
        rfl
      simp only [List.cons_append, List.nil_append] at hat hdrop hfuel ⊢
      simp only [hat, List.take_left', hstore, hdrop, Option.bind_eq_bind, Option.bind_some]
      rw [ih (by simp) (by simp at hlen ⊢; omega) (by simp at hfuel ⊢; omega)]
      simp

/-- The characters of the list, and its length. -/
theorem join_chars (hq : quads.Forall₂ (fun q a => inetPton q = some a) links) :
    (∀ b ∈ [44].intercalate quads, isDigit b = true ∨ b = 46 ∨ b = 44) ∧
      ([44].intercalate quads).length ≤ 16 * quads.length := by
  induction hq with
  | nil => simp
  | @cons q a quads links hqa hq ih =>
    obtain ⟨-, hmax, hchars⟩ := dottedQuad_chars hqa
    have hchars' : ∀ b ∈ q, isDigit b = true ∨ b = 46 ∨ b = 44 := by
      intro b hb
      rcases hchars b hb with h | h
      · exact .inl h
      · exact .inr (.inl h)
    rcases quads with _ | ⟨q', quads⟩
    · rw [List.intercalate_singleton]
      exact ⟨hchars', by simp; omega⟩
    · rw [List.intercalate_cons_cons]
      refine ⟨fun b hb => ?_, ?_⟩
      · rw [List.mem_append, List.mem_append, List.mem_singleton] at hb
        rcases hb with (hb | hb) | hb
        · exact hchars' b hb
        · exact .inr (.inr hb)
        · exact ih.1 b hb
      · have hlen := ih.2
        simp only [List.length_append, List.length_cons, List.length_nil] at hlen ⊢
        omega

theorem plain_join (hq : quads.Forall₂ (fun q a => inetPton q = some a) links)
    (h1 : 1 ≤ quads.length) (h6 : quads.length ≤ 6) : Plain ([44].intercalate quads) 96 := by
  obtain ⟨hchars, hlen⟩ := join_chars hq
  refine plain_of_chars ?_ (by omega) hchars
  rcases hq with _ | ⟨hqa, hq⟩
  · simp at h1
  · rename_i q a quads links
    have hmin := (dottedQuad_chars hqa).1
    rcases quads with _ | ⟨q', quads⟩
    · rw [List.intercalate_singleton]
      exact List.ne_nil_of_length_pos (by omega)
    · simp [List.intercalate_cons_cons]

end

/-! ## The file as a list of options -/

/-- The options of the file. -/
def Settings.options (s : Settings) : List (Key × Bytes) :=
  [(Key.server, s.server), (Key.username, s.username), (Key.password, s.password),
    (Key.port, decimal s.port), (Key.mtu, decimal s.mtu), (Key.encrypt, decimal s.encrypt)] ++
  (if s.pipeid > 0 then [(Key.pipeid, decimal s.pipeid)] else []) ++
  (if s.pipeidx > 0 then [(Key.pipeidx, decimal s.pipeidx)] else []) ++
  (if s.srlinks ≠ [] ∧ validateValue s.srlinks = true then [(Key.srlinks, s.srlinks)] else []) ++
  (if s.srpassword ≠ [] ∧ validateValue s.srpassword = true then [(Key.srpassword, s.srpassword)]
    else []) ++
  (if s.srencryptmode > 0 then [(Key.srencryptmode, decimal s.srencryptmode)] else [])

theorem Settings.lines_eq (s : Settings) : s.lines =
    (91 :: s.interface ++ [93]) :: s.options.map fun p => optionLine p.1.name p.2 := by
  rw [Settings.lines, Settings.options]
  simp only [List.map_append, apply_ite (List.map _), List.map_cons, List.map_nil, List.cons_append,
    Key.name]

/-- The branches of the options, one after the other. -/
def storeAll (dm : DataModel) (options : List (Key × Bytes)) (cfg : Config) : Option Config :=
  options.foldlM (fun cfg p => p.1.store dm p.2 cfg) cfg

section

variable {dm : DataModel} {cfg cfg' : Config} {s : Settings} {links : List (Vector UInt8 4)}

/-- **The reader follows the writer.** -/
theorem cfgLoad_options {name : Bytes} (hname : Plain name 15) {options : List (Key × Bytes)}
    (hopt : ∀ p ∈ options, Plain p.2 200) :
    cfgLoad dm (some (writeLines ((91 :: name ++ [93]) ::
        options.map fun p => optionLine p.1.name p.2))) cfg =
      (storeAll dm options { cfg with tunName := strncpy cfg.tunName name }).map
        fun cfg => (cfg, 0) := by
  have hclean : ∀ l ∈ (91 :: name ++ [93]) :: options.map fun p => optionLine p.1.name p.2,
      CleanLine l := by
    intro l hl
    rcases List.mem_cons.mp hl with rfl | hl
    · exact cleanLine_section hname
    · obtain ⟨p, hp, rfl⟩ := List.mem_map.mp hl
      exact cleanLine_option p.1 (hopt p hp)
  have hfold : ∀ (options : List (Key × Bytes)) cfg, (∀ p ∈ options, Plain p.2 200) →
      (options.map fun p => optionLine p.1.name p.2).foldlM
        (fun cfg l => cfgLine dm (l ++ [10]) cfg) cfg = storeAll dm options cfg := by
    intro options
    induction options with
    | nil => exact fun _ _ => rfl
    | cons p options ih =>
      intro cfg hopt
      rw [List.map_cons, List.foldlM_cons, cfgLine_option p.1 (hopt p (by simp)), storeAll,
        List.foldlM_cons]
      congr 1
      funext cfg'
      exact ih cfg' fun q hq => hopt q (by simp [hq])
  rw [cfgLoad, cfgLines_writeLines hclean (Nat.lt_succ_self _), List.foldlM_cons, cfgLine_section,
    Option.bind_eq_bind, Option.bind_some, hfold options _ hopt]

theorem storeAll_append (o₁ o₂ : List (Key × Bytes)) (cfg : Config) :
    storeAll dm (o₁ ++ o₂) cfg = (storeAll dm o₁ cfg).bind (storeAll dm o₂) :=
  List.foldlM_append

theorem storeAll_cons (k : Key) (v : Bytes) (options : List (Key × Bytes)) (cfg : Config) :
    storeAll dm ((k, v) :: options) cfg = (k.store dm v cfg).bind (storeAll dm options) :=
  List.foldlM_cons

/-- An option that the script may leave out. -/
theorem storeAll_optional {p : Prop} [Decidable p] {k : Key} {v : Bytes}
    (hpos : p → k.store dm v cfg = some cfg') (hneg : ¬ p → cfg = cfg') :
    storeAll dm (if p then [(k, v)] else []) cfg = some cfg' := by
  split_ifs with h
  · rw [storeAll_cons, hpos h]
    rfl
  · rw [hneg h]
    rfl

/-- A number within the limit of its key is read back. -/
theorem strtoul_option {n : ℕ} (h : n ≤ 65535) : strtoul dm.ulongMax (decimal n) = n := by
  apply strtoul_decimal
  cases dm
  · exact h.trans (by decide)
  · exact h.trans (by decide)

theorem Settings.WellFormed.options (h : s.WellFormed links) : ∀ p ∈ s.options, Plain p.2 200 := by
  have hdec : ∀ n ≤ 65535, Plain (decimal n) 200 := fun n hn =>
    (plain_decimal (n := 5) (by omega) (by decide)).mono (by decide)
  intro p hp
  simp only [Settings.options, List.mem_append, List.mem_cons, List.not_mem_nil, or_false] at hp
  rcases hp with ((((hp | hp) | hp) | hp) | hp) | hp
  · rcases hp with rfl | rfl | rfl | rfl | rfl | rfl
    · exact h.server.mono (by decide)
    · exact h.username.mono (by decide)
    · exact h.password.mono (by decide)
    · exact hdec _ h.port.2
    · exact hdec _ (h.mtu.2.trans (by decide))
    · exact hdec _ (h.encrypt.trans (by decide))
  · split_ifs at hp
    · rw [List.mem_singleton.mp hp]
      exact hdec _ (h.pipeid.trans (by decide))
    · simp at hp
  · split_ifs at hp
    · rw [List.mem_singleton.mp hp]
      exact hdec _ (h.pipeidx.trans (by decide))
    · simp at hp
  · split_ifs at hp with hne
    · rw [List.mem_singleton.mp hp]
      rcases h.srlinks with ⟨hnil, -⟩ | ⟨quads, h1, h6, heq, hq⟩
      · exact absurd hnil hne.1
      · rw [heq]
        exact (plain_join hq h1 h6).mono (by decide)
    · simp at hp
  · split_ifs at hp with hne
    · rw [List.mem_singleton.mp hp]
      rcases h.srpassword with hnil | hplain
      · exact absurd hnil hne.1
      · exact hplain.mono (by decide)
    · simp at hp
  · split_ifs at hp
    · rw [List.mem_singleton.mp hp]
      exact hdec _ (h.srencryptmode.trans (by decide))
    · simp at hp

/-- The record that the settings describe. -/
def Settings.config (s : Settings) (links : List (Vector UInt8 4)) : Config where
  server := toArr 64 s.server
  username := toArr 32 s.username
  password := toArr 32 s.password
  tunName := toArr 16 s.interface
  port := UInt16.ofNat s.port
  mtu := UInt16.ofNat s.mtu
  encrypt := UInt8.ofNat s.encrypt
  pipeid := UInt16.ofNat s.pipeid
  pipeidx := UInt16.ofNat s.pipeidx
  srCount := UInt8.ofNat links.length
  srLinks := linksArr links
  srEncryptMode := UInt8.ofNat s.srencryptmode
  srPassword := toArr 32 s.srpassword
  upScript := Vector.replicate 256 0
  downScript := Vector.replicate 256 0

/-- The branch of `encrypt` looks at the first character. -/
theorem encrypt_option {n : ℕ} (h : n ≤ 1) :
    (if (decimal n).head? = some 49 then 1 else 0) = UInt8.ofNat n := by
  interval_cases n <;> decide

/-- The options that are always written. -/
theorem storeAll_required (h : s.WellFormed links) :
    storeAll dm [(.server, s.server), (.username, s.username), (.password, s.password),
        (.port, decimal s.port), (.mtu, decimal s.mtu), (.encrypt, decimal s.encrypt)]
      { zeroConfig with tunName := strncpy zeroConfig.tunName s.interface } =
    some { zeroConfig with tunName := toArr 16 s.interface
                           server := toArr 64 s.server
                           username := toArr 32 s.username
                           password := toArr 32 s.password
                           port := UInt16.ofNat s.port
                           mtu := UInt16.ofNat s.mtu
                           encrypt := UInt8.ofNat s.encrypt } := by
  simp only [storeAll_cons, Key.store, Option.bind_some, strtoul_option h.port.2,
    strtoul_option (h.mtu.2.trans (show 1600 ≤ 65535 by decide)), encrypt_option h.encrypt,
    if_pos (show s.port > 0 ∧ s.port ≤ 65535 from h.port), if_pos h.mtu]
  rw [strncpy_eq (by simp [zeroConfig]) h.interface.length,
    strncpy_eq (by simp [zeroConfig]) h.server.length,
    strncpy_eq (by simp [zeroConfig]) h.username.length,
    strncpy_eq (by simp [zeroConfig]) h.password.length]
  rfl

/-- `pipeid` is left out if it is 0, and so are the options below. -/
theorem storeAll_pipeid (hc : cfg.pipeid = 0) {n : ℕ} (h : n ≤ 32767) :
    storeAll dm (if n > 0 then [(.pipeid, decimal n)] else []) cfg =
      some { cfg with pipeid := UInt16.ofNat n } := by
  apply storeAll_optional
  · intro _
    simp only [Key.store, strtoul_option (h.trans (show 32767 ≤ 65535 by decide)), if_pos h]
  · intro h0
    rw [show n = 0 by omega, show UInt16.ofNat 0 = cfg.pipeid from hc.symm]

theorem storeAll_pipeidx (hc : cfg.pipeidx = 0) {n : ℕ} (h : n ≤ 1) :
    storeAll dm (if n > 0 then [(.pipeidx, decimal n)] else []) cfg =
      some { cfg with pipeidx := UInt16.ofNat n } := by
  apply storeAll_optional
  · intro _
    simp only [Key.store, strtoul_option (h.trans (show 1 ≤ 65535 by decide)), if_pos h]
  · intro h0
    rw [show n = 0 by omega, show UInt16.ofNat 0 = cfg.pipeidx from hc.symm]

theorem storeAll_srencryptmode (hc : cfg.srEncryptMode = 0) {n : ℕ} (h : n ≤ 2) :
    storeAll dm (if n > 0 then [(.srencryptmode, decimal n)] else []) cfg =
      some { cfg with srEncryptMode := UInt8.ofNat n } := by
  apply storeAll_optional
  · intro _
    simp only [Key.store, strtoul_option (h.trans (show 2 ≤ 65535 by decide)), if_pos h]
  · intro h0
    rw [show n = 0 by omega, show UInt8.ofNat 0 = cfg.srEncryptMode from hc.symm]

theorem storeAll_srpassword (hc : cfg.srPassword = Vector.replicate 32 0) {v : Bytes}
    (h : v = [] ∨ Plain v 31) :
    storeAll dm (if v ≠ [] ∧ validateValue v = true then [(.srpassword, v)] else []) cfg =
      some { cfg with srPassword := toArr 32 v } := by
  apply storeAll_optional
  · rintro ⟨hne, -⟩
    have hlen := (h.resolve_left hne).length
    rw [Key.store, strncpy_eq (by simp [hc]) hlen]
  · intro hnot
    rcases h with rfl | h
    · have hzero : toArr 32 [] = cfg.srPassword := by
        rw [hc]
        decide
      rw [hzero]
    · exact absurd ⟨h.ne_nil, h.valid⟩ hnot

theorem storeAll_srlinks (hc : cfg.srCount = 0)
    (hl : cfg.srLinks = Vector.replicate 6 (Vector.replicate 4 0)) (h : s.WellFormed links) :
    storeAll dm (if s.srlinks ≠ [] ∧ validateValue s.srlinks = true then [(.srlinks, s.srlinks)]
      else []) cfg = some (withLinks cfg links) := by
  have hnone : withLinks cfg [] = cfg := by
    rw [withLinks, linksArr_nil, ← hl, List.length_nil, show UInt8.ofNat 0 = cfg.srCount from hc.symm]
  apply storeAll_optional
  · rintro ⟨hne, -⟩
    rcases h.srlinks with ⟨hnil, -⟩ | ⟨quads, h1, h6, heq, hq⟩
    · exact absurd hnil hne
    have hplain := plain_join hq h1 h6
    have hfull : ([44].intercalate quads).take 255 = [44].intercalate quads :=
      List.take_of_length_le (hplain.length.trans (by decide))
    have hstart : ({ cfg with srCount := 0 } : Config) = withLinks cfg [] := by
      rw [hnone, ← hc]
    rw [heq, Key.store, hfull, hstart]
    exact srLinksLoop_join hq (List.ne_nil_of_length_pos h1) (by simpa using h6) (Nat.lt_succ_self _)
  · intro hnot
    rcases h.srlinks with ⟨-, rfl⟩ | ⟨quads, h1, h6, heq, hq⟩
    · exact hnone.symm
    · have hplain := plain_join hq h1 h6
      exact absurd ⟨heq ▸ hplain.ne_nil, heq ▸ hplain.valid⟩ hnot

/-- **The branches of all options.** -/
theorem storeAll_options (h : s.WellFormed links) :
    storeAll dm s.options { zeroConfig with tunName := strncpy zeroConfig.tunName s.interface } =
      some (s.config links) := by
  rw [Settings.options, storeAll_append, storeAll_append, storeAll_append, storeAll_append,
    storeAll_append, storeAll_required h]
  simp only [Option.bind_some]
  rw [storeAll_pipeid rfl h.pipeid, Option.bind_some, storeAll_pipeidx rfl h.pipeidx,
    Option.bind_some, storeAll_srlinks rfl rfl h, Option.bind_some,
    storeAll_srpassword rfl h.srpassword, Option.bind_some,
    storeAll_srencryptmode rfl h.srencryptmode]
  rfl

/-! ## The round trip -/

/-- The record holds the values of the settings. -/
structure Stores (cfg : Config) (s : Settings) (links : List (Vector UInt8 4)) : Prop where
  tunName : cstr cfg.tunName = some s.interface
  server : cstr cfg.server = some s.server
  username : cstr cfg.username = some s.username
  password : cstr cfg.password = some s.password
  srPassword : cstr cfg.srPassword = some s.srpassword
  port : cfg.port.toNat = s.port
  mtu : cfg.mtu.toNat = s.mtu
  encrypt : cfg.encrypt.toNat = s.encrypt
  pipeid : cfg.pipeid.toNat = s.pipeid
  pipeidx : cfg.pipeidx.toNat = s.pipeidx
  srEncryptMode : cfg.srEncryptMode.toNat = s.srencryptmode
  srCount : cfg.srCount.toNat = links.length
  srLinks : cfg.srLinks.toList.take links.length = links
  upScript : cstr cfg.upScript = some []
  downScript : cstr cfg.downScript = some []

theorem Plain.cstr_toArr {v : Bytes} {n : ℕ} (h : Plain v n) : cstr (toArr (n + 1) v) = some v :=
  Client.cstr_toArr (h.notMem (.inl (by decide))) (Nat.lt_succ_of_le h.length)

theorem take_linksArr (h : links.length ≤ 6) : (linksArr links).toList.take links.length = links := by
  apply List.ext_getElem (by simp; omega)
  intro i h1 h2
  simp [linksArr, List.getElem?_eq_getElem h2]

theorem Settings.WellFormed.length_links (h : s.WellFormed links) : links.length ≤ 6 := by
  rcases h.srlinks with ⟨-, rfl⟩ | ⟨quads, -, h6, -, hq⟩
  · simp
  · rwa [← hq.length_eq]

theorem Settings.WellFormed.stores (h : s.WellFormed links) : Stores (s.config links) s links where
  tunName := h.interface.cstr_toArr
  server := h.server.cstr_toArr
  username := h.username.cstr_toArr
  password := h.password.cstr_toArr
  srPassword := by
    rcases h.srpassword with hnil | hplain
    · rw [Settings.config, hnil]
      exact cstr_toArr (by simp) (by simp)
    · exact hplain.cstr_toArr
  port := UInt16.toNat_ofNat_of_lt' (lt_of_le_of_lt h.port.2 (by decide))
  mtu := UInt16.toNat_ofNat_of_lt' (lt_of_le_of_lt h.mtu.2 (by decide))
  encrypt := UInt8.toNat_ofNat_of_lt' (lt_of_le_of_lt h.encrypt (by decide))
  pipeid := UInt16.toNat_ofNat_of_lt' (lt_of_le_of_lt h.pipeid (by decide))
  pipeidx := UInt16.toNat_ofNat_of_lt' (lt_of_le_of_lt h.pipeidx (by decide))
  srEncryptMode := UInt8.toNat_ofNat_of_lt' (lt_of_le_of_lt h.srencryptmode (by decide))
  srCount := UInt8.toNat_ofNat_of_lt' (lt_of_le_of_lt h.length_links (by decide))
  srLinks := take_linksArr h.length_links
  upScript := show cstr (Vector.replicate 256 0) = some [] by decide
  downScript := show cstr (Vector.replicate 256 0) = some [] by decide

/-- **The configuration round trip.** `cfg_load` reads back what `generate_config`
    wrote. -/
theorem config_round_trip (dm : DataModel) {file : Bytes} (hgen : generateConfig s = .ok file)
    (h : s.WellFormed links) :
    cfgLoad dm (some file) zeroConfig = some (s.config links, 0) ∧
      Stores (s.config links) s links := by
  refine ⟨?_, h.stores⟩
  rw [generateConfig_ok hgen, Settings.lines_eq, cfgLoad_options h.interface h.options,
    storeAll_options h]
  rfl

end

/-- Settings with the special characters in the password. -/
def luciSettings : Settings where
  enabled := 1
  interface := ascii ['i', 'w', 'a', 'n', '0']
  server := ascii ['v', 'p', 'n', '.', 'e', 'x', 'a', 'm', 'p', 'l', 'e']
  username := ascii ['m', 'y', 'u', 's', 'e', 'r']
  password := ascii ['#', 'a', '=', ' ', 'b', ',', '"']
  port := 4567
  mtu := 1400
  encrypt := 1
  pipeid := 5
  pipeidx := 1
  srlinks := ascii ['1', '0', '.', '0', '.', '0', '.', '1', ',', '1', '.', '2', '.', '3', '.', '4']
  srpassword := []
  srencryptmode := 1

theorem luciSettings_wellFormed : luciSettings.WellFormed [#v[10, 0, 0, 1], #v[1, 2, 3, 4]] where
  interface := by constructor <;> decide
  server := by constructor <;> decide
  username := by constructor <;> decide
  password := by constructor <;> decide
  port := by decide
  mtu := by decide
  encrypt := by decide
  pipeid := by decide
  pipeidx := by decide
  srlinks := .inr ⟨[ascii ['1', '0', '.', '0', '.', '0', '.', '1'],
    ascii ['1', '.', '2', '.', '3', '.', '4']], by decide, by decide, by decide,
    .cons (by decide +kernel) (.cons (by decide +kernel) .nil)⟩
  srpassword := .inl rfl
  srencryptmode := by decide

/-- Its file, on a 32-bit machine. -/
theorem config_round_trip_luci : ∃ file, generateConfig luciSettings = .ok file ∧
    cfgLoad .ilp32 (some file) zeroConfig =
      some (luciSettings.config [#v[10, 0, 0, 1], #v[1, 2, 3, 4]], 0) :=
  ⟨_, rfl, (config_round_trip .ilp32 rfl luciSettings_wellFormed).1⟩

end Iwand.Client
