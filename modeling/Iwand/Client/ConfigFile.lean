import Iwand.Client.Machine
import Iwand.Common.CString

/-!
# The configuration file

Model of `cfg_load` (lines 455–566). The file is the list of its bytes; a line
is the C string that `fgets` leaves in `line[256]`.

* `cfgLines_invariant`: the rule for what every line preserves.
* `cfgLoad_loaded`, `cfgLoad_admitted`: every file is read to its end and leaves
  the record within the bounds that the rest of the client relies on.
* `config_file_safe`: no file can break the encoders.
-/

namespace Iwand.Client

/-! ## Keys -/

/-- The keys that `cfg_load` knows. -/
inductive Key where
  | server
  | username
  | password
  | port
  | mtu
  | encrypt
  | pipeid
  | pipeidx
  | srlinks
  | srpassword
  | srencryptmode
  | upScript
  | downScript
deriving DecidableEq

/-- The keys in the order of the comparisons. -/
def Key.all : List Key :=
  [.server, .username, .password, .port, .mtu, .encrypt, .pipeid, .pipeidx, .srlinks, .srpassword,
    .srencryptmode, .upScript, .downScript]

/-- The string that a key is compared with. -/
def Key.name : Key → Bytes
  | .server => ascii ['s', 'e', 'r', 'v', 'e', 'r']
  | .username => ascii ['u', 's', 'e', 'r', 'n', 'a', 'm', 'e']
  | .password => ascii ['p', 'a', 's', 's', 'w', 'o', 'r', 'd']
  | .port => ascii ['p', 'o', 'r', 't']
  | .mtu => ascii ['m', 't', 'u']
  | .encrypt => ascii ['e', 'n', 'c', 'r', 'y', 'p', 't']
  | .pipeid => ascii ['p', 'i', 'p', 'e', 'i', 'd']
  | .pipeidx => ascii ['p', 'i', 'p', 'e', 'i', 'd', 'x']
  | .srlinks => ascii ['s', 'r', 'l', 'i', 'n', 'k', 's']
  | .srpassword => ascii ['s', 'r', 'p', 'a', 's', 's', 'w', 'o', 'r', 'd']
  | .srencryptmode => ascii ['s', 'r', 'e', 'n', 'c', 'r', 'y', 'p', 't', 'm', 'o', 'd', 'e']
  | .upScript => ascii ['u', 'p', '_', 's', 'c', 'r', 'i', 'p', 't']
  | .downScript => ascii ['d', 'o', 'w', 'n', '_', 's', 'c', 'r', 'i', 'p', 't']

/-! ## Values -/

/-- `htonl` of the low 32 bits, in memory. -/
def htonl (v : ℕ) : Vector UInt8 4 :=
  #v[UInt8.ofNat (v >>> 24), UInt8.ofNat (v >>> 16), UInt8.ofNat (v >>> 8), UInt8.ofNat v]

/-- One element of the list in `srlinks` (lines 542–548). -/
def storeLink (dm : DataModel) (p : Bytes) (cfg : Config) : Option Config :=
  let addr := (inetPton p).getD (htonl (strtoul dm.ulongMax p))
  if cfg.srCount.toNat < 6 then
    some { cfg with srLinks := cfg.srLinks.setIfInBounds cfg.srCount.toNat addr
                    srCount := cfg.srCount + 1 }
  else none

/-- The loop over the list (lines 538–551). -/
def srLinksLoop (dm : DataModel) : ℕ → Bytes → Config → Option Config
  | 0, _, _ => none
  | fuel + 1, p, cfg =>
    if p ≠ [] ∧ cfg.srCount < 6 then
      match strchr p 44 with
      | none => storeLink dm p cfg
      | some comma => do
        let cfg ← storeLink dm (p.take comma) cfg
        srLinksLoop dm fuel (p.drop (comma + 1)) cfg
    else some cfg

/-- What the branch of each key stores (lines 505–563). -/
def Key.store (dm : DataModel) (val : Bytes) (cfg : Config) : Key → Option Config
  | .server => some { cfg with server := strncpy cfg.server val }
  | .username => some { cfg with username := strncpy cfg.username val }
  | .password => some { cfg with password := strncpy cfg.password val }
  | .port =>
    let v := strtoul dm.ulongMax val
    some (if v > 0 ∧ v ≤ 65535 then { cfg with port := UInt16.ofNat v } else cfg)
  | .mtu =>
    let v := strtoul dm.ulongMax val
    some (if v ≥ 46 ∧ v ≤ 1600 then { cfg with mtu := UInt16.ofNat v } else cfg)
  | .encrypt => some { cfg with encrypt := if val.head? = some 49 then 1 else 0 }
  | .pipeid =>
    let v := strtoul dm.ulongMax val
    some (if v ≤ 32767 then { cfg with pipeid := UInt16.ofNat v } else cfg)
  | .pipeidx =>
    let v := strtoul dm.ulongMax val
    some (if v ≤ 1 then { cfg with pipeidx := UInt16.ofNat v } else cfg)
  | .srlinks =>
    let tmp := val.take 255
    srLinksLoop dm (tmp.length + 1) tmp { cfg with srCount := 0 }
  | .srpassword => some { cfg with srPassword := strncpy cfg.srPassword val }
  | .srencryptmode =>
    let v := strtoul dm.ulongMax val
    some (if v ≤ 2 then { cfg with srEncryptMode := UInt8.ofNat v } else cfg)
  | .upScript => some { cfg with upScript := strncpy cfg.upScript val }
  | .downScript => some { cfg with downScript := strncpy cfg.downScript val }

/-- The comparisons of `key` (lines 505–563). -/
def cfgAssign (dm : DataModel) (key val : Bytes) (cfg : Config) : Option Config :=
  match Key.all.find? (·.name = key) with
  | none => some cfg
  | some k => k.store dm val cfg

/-! ## Lines -/

/-- CR or LF. -/
def isEol (b : UInt8) : Bool := b = 13 || b = 10

/-- A section header `[tun_name]`, with its `[` at `lb` (lines 479–485). -/
def cfgSection (line : Bytes) (lb : ℕ) (cfg : Config) : Config :=
  match strrchr line 93 with
  | none => cfg
  | some rb =>
    if rb > lb then
      { cfg with tunName := strncpy cfg.tunName ((line.take rb).drop (lb + 1)) }
    else cfg

/-- One line (lines 470–564). -/
def cfgLine (dm : DataModel) (line : Bytes) (cfg : Config) : Option Config :=
  if line = [] ∨ line.head? = some 35 ∨ line.head? = some 13 ∨ line.head? = some 10 then some cfg
  else
    let line := line.rdropWhile isEol
    if line.length < 2 then some cfg
    else match strchr line 91 with
      | some lb => some (cfgSection line lb cfg)
      | none =>
        match strchr line 61 with
        | none => some cfg
        | some eq => cfgAssign dm (trim (line.take eq)) (trim (line.drop (eq + 1))) cfg

/-- The loop over the lines (lines 461–564). The rest of an overlong line is
    discarded with what was read of it. -/
def cfgLines (dm : DataModel) : ℕ → Bytes → Config → Option Config
  | 0, _, _ => none
  | fuel + 1, s, cfg =>
    match fgets 256 s with
    | none => some cfg
    | some (buf, rest, eof) =>
      let line := cstring buf
      if line ≠ [] ∧ line.getLast? ≠ some 10 ∧ eof = false then
        cfgLines dm fuel (discardLine rest) cfg
      else do
        let cfg ← cfgLine dm line cfg
        cfgLines dm fuel rest cfg

/-- `cfg_load` on the file that `fopen` opens, if it does: `g_cfg` afterwards and
    the result. -/
def cfgLoad (dm : DataModel) (file : Option Bytes) (cfg : Config) : Option (Config × Int) :=
  match file with
  | none => some (cfg, -1)
  | some s => (cfgLines dm (s.length + 1) s cfg).map fun cfg => (cfg, 0)

/-- `g_cfg` after `memset`. -/
def zeroConfig : Config where
  server := Vector.replicate 64 0
  username := Vector.replicate 32 0
  password := Vector.replicate 32 0
  tunName := Vector.replicate 16 0
  port := 0
  mtu := 0
  encrypt := 0
  pipeid := 0
  pipeidx := 0
  srCount := 0
  srLinks := Vector.replicate 6 (Vector.replicate 4 0)
  srEncryptMode := 0
  srPassword := Vector.replicate 32 0
  upScript := Vector.replicate 256 0
  downScript := Vector.replicate 256 0

/-! ## Bounds -/

/-- What `cfg_load` keeps true of a zeroed record: each number is in its range, and
    the last byte of each string field has not been written. -/
structure Config.Loaded (cfg : Config) : Prop where
  server : lastByte cfg.server = 0
  username : lastByte cfg.username = 0
  password : lastByte cfg.password = 0
  tunName : lastByte cfg.tunName = 0
  srPassword : lastByte cfg.srPassword = 0
  upScript : lastByte cfg.upScript = 0
  downScript : lastByte cfg.downScript = 0
  mtu : cfg.mtu = 0 ∨ 46 ≤ cfg.mtu ∧ cfg.mtu ≤ 1600
  encrypt : cfg.encrypt ≤ 1
  pipeid : cfg.pipeid ≤ 32767
  pipeidx : cfg.pipeidx ≤ 1
  srCount : cfg.srCount ≤ 6
  srEncryptMode : cfg.srEncryptMode ≤ 2

theorem Config.Loaded.bounded {cfg : Config} (h : cfg.Loaded) : cfg.Bounded where
  server := terminated_of_lastByte h.server
  username := terminated_of_lastByte h.username
  password := terminated_of_lastByte h.password
  tunName := terminated_of_lastByte h.tunName
  srPassword := terminated_of_lastByte h.srPassword
  upScript := terminated_of_lastByte h.upScript
  downScript := terminated_of_lastByte h.downScript
  mtu := h.mtu
  encrypt := h.encrypt
  pipeid := h.pipeid
  pipeidx := h.pipeidx
  srCount := h.srCount
  srEncryptMode := h.srEncryptMode

theorem Config.Loaded.admitted {cfg : Config} (h : cfg.Loaded) (hv : cfgValid cfg = true) :
    cfg.Admitted where
  server_nul := h.server
  username_nul := h.username
  password_nul := h.password
  tunName_nul := h.tunName
  srPassword_nul := h.srPassword
  upScript_nul := h.upScript
  downScript_nul := h.downScript
  encrypt_le := h.encrypt
  pipeid_le := h.pipeid
  pipeidx_le := h.pipeidx
  srCount_le := h.srCount
  srEncryptMode_le := h.srEncryptMode
  valid := hv

theorem zeroConfig_loaded : zeroConfig.Loaded := by
  constructor <;> simp [zeroConfig]

theorem ofNat_le16 {v : ℕ} {n : UInt16} (h : v ≤ n.toNat) : UInt16.ofNat v ≤ n := by
  have hn := n.toNat_lt
  rw [UInt16.le_iff_toNat_le, UInt16.toNat_ofNat', Nat.mod_eq_of_lt (by omega)]
  exact h

theorem le_ofNat16 {v : ℕ} {n : UInt16} (h : n.toNat ≤ v) (hv : v < 2 ^ 16) : n ≤ UInt16.ofNat v := by
  rw [UInt16.le_iff_toNat_le, UInt16.toNat_ofNat', Nat.mod_eq_of_lt hv]
  exact h

section

variable {dm : DataModel} {cfg : Config}

theorem storeLink_loaded (h : cfg.Loaded) (hlt : cfg.srCount < 6) (p : Bytes) :
    ∃ cfg', storeLink dm p cfg = some cfg' ∧ cfg'.Loaded := by
  have hlt' : cfg.srCount.toNat < 6 := hlt
  refine ⟨_, if_pos hlt', { h with srCount := ?_ }⟩
  rw [UInt8.le_iff_toNat_le, UInt8.toNat_add]
  simp only [UInt8.reduceToNat]
  omega

/-- The list never leaves `sr_links`. -/
theorem srLinksLoop_loaded {fuel : ℕ} {p : Bytes} (hfuel : p.length < fuel) (h : cfg.Loaded) :
    ∃ cfg', srLinksLoop dm fuel p cfg = some cfg' ∧ cfg'.Loaded := by
  induction fuel generalizing p cfg with
  | zero => omega
  | succ fuel ih =>
    rw [srLinksLoop]
    by_cases hgo : p ≠ [] ∧ cfg.srCount < 6
    swap
    · exact ⟨cfg, if_neg hgo, h⟩
    rw [if_pos hgo]
    rcases strchr p 44 with _ | comma
    · exact storeLink_loaded h hgo.2 p
    · obtain ⟨cfg₁, h₁, hl₁⟩ : ∃ cfg₁, storeLink dm (p.take comma) cfg = some cfg₁ ∧ cfg₁.Loaded :=
        storeLink_loaded h hgo.2 _
      have hpos := List.length_pos_of_ne_nil hgo.1
      simp only [h₁, Option.bind_eq_bind, Option.bind_some]
      apply ih _ hl₁
      rw [List.length_drop]
      omega

/-- **Every branch keeps the bounds.** -/
theorem Key.store_loaded (k : Key) (val : Bytes) (h : cfg.Loaded) :
    ∃ cfg', k.store dm val cfg = some cfg' ∧ cfg'.Loaded := by
  cases k with
  | server => exact ⟨_, rfl, { h with server := (lastByte_strncpy _ _).trans h.server }⟩
  | username => exact ⟨_, rfl, { h with username := (lastByte_strncpy _ _).trans h.username }⟩
  | password => exact ⟨_, rfl, { h with password := (lastByte_strncpy _ _).trans h.password }⟩
  | port =>
    refine ⟨_, rfl, ?_⟩
    split_ifs
    · exact { h with }
    · exact h
  | mtu =>
    refine ⟨_, rfl, ?_⟩
    split_ifs with hv
    · exact { h with mtu := .inr ⟨le_ofNat16 hv.1 (by omega), ofNat_le16 hv.2⟩ }
    · exact h
  | encrypt =>
    refine ⟨_, rfl, ?_⟩
    split_ifs
    · exact { h with encrypt := le_refl 1 }
    · exact { h with encrypt := UInt8.zero_le }
  | pipeid =>
    refine ⟨_, rfl, ?_⟩
    split_ifs with hv
    · exact { h with pipeid := ofNat_le16 hv }
    · exact h
  | pipeidx =>
    refine ⟨_, rfl, ?_⟩
    split_ifs with hv
    · exact { h with pipeidx := ofNat_le16 hv }
    · exact h
  | srlinks => exact srLinksLoop_loaded (Nat.lt_succ_self _) { h with srCount := UInt8.zero_le }
  | srpassword => exact ⟨_, rfl, { h with srPassword := (lastByte_strncpy _ _).trans h.srPassword }⟩
  | srencryptmode =>
    refine ⟨_, rfl, ?_⟩
    split_ifs with hv
    · refine { h with srEncryptMode := ?_ }
      rw [UInt8.le_iff_toNat_le, UInt8.toNat_ofNat', Nat.mod_eq_of_lt (by omega)]
      exact hv
    · exact h
  | upScript => exact ⟨_, rfl, { h with upScript := (lastByte_strncpy _ _).trans h.upScript }⟩
  | downScript => exact ⟨_, rfl, { h with downScript := (lastByte_strncpy _ _).trans h.downScript }⟩

/-- One line keeps the bounds. -/
theorem cfgLine_loaded (line : Bytes) (h : cfg.Loaded) :
    ∃ cfg', cfgLine dm line cfg = some cfg' ∧ cfg'.Loaded := by
  unfold cfgLine
  split_ifs
  · exact ⟨cfg, rfl, h⟩
  simp only
  split_ifs
  · exact ⟨cfg, rfl, h⟩
  split
  · -- a section header
    refine ⟨_, rfl, ?_⟩
    unfold cfgSection
    split
    · exact h
    · split_ifs
      · exact { h with tunName := (lastByte_strncpy _ _).trans h.tunName }
      · exact h
  · split
    · exact ⟨cfg, rfl, h⟩
    · unfold cfgAssign
      split
      · exact ⟨cfg, rfl, h⟩
      · exact Key.store_loaded _ _ h

/-- The rule for properties of the record: every file is read to its end, and what
    every line preserves holds afterwards. -/
theorem cfgLines_invariant {P : Config → Prop}
    (hline : ∀ line cfg, P cfg → ∃ cfg', cfgLine dm line cfg = some cfg' ∧ P cfg') {fuel : ℕ}
    {s : Bytes} (hfuel : s.length < fuel) (h : P cfg) :
    ∃ cfg', cfgLines dm fuel s cfg = some cfg' ∧ P cfg' := by
  induction fuel generalizing s cfg with
  | zero => omega
  | succ fuel ih =>
    rw [cfgLines]
    rcases hread : fgets 256 s with _ | ⟨buf, rest, eof⟩
    · exact ⟨cfg, rfl, h⟩
    have hrest := fgets_shorter (by decide) hread
    simp only
    split_ifs
    · exact ih (lt_of_le_of_lt (length_discardLine_le rest) (by omega)) h
    · obtain ⟨cfg₁, h₁, hp₁⟩ := hline (cstring buf) cfg h
      simp only [h₁, Option.bind_eq_bind, Option.bind_some]
      exact ih (by omega) hp₁

/-- **Every file** is read to its end and leaves the record within its bounds. -/
theorem cfgLoad_loaded (dm : DataModel) (s : Bytes) (h : cfg.Loaded) :
    ∃ cfg', cfgLoad dm (some s) cfg = some (cfg', 0) ∧ cfg'.Loaded := by
  obtain ⟨cfg', heq, h'⟩ : ∃ cfg', cfgLines dm (s.length + 1) s cfg = some cfg' ∧ cfg'.Loaded :=
    cfgLines_invariant (fun line _ => cfgLine_loaded line) (Nat.lt_succ_self s.length) h
  refine ⟨cfg', ?_, h'⟩
  rw [cfgLoad, heq]
  rfl

/-- **A file that passes `cfg_valid`** is an admitted configuration. -/
theorem cfgLoad_admitted {s : Bytes} {ret : Int}
    (hload : cfgLoad dm (some s) zeroConfig = some (cfg, ret)) (hv : cfgValid cfg = true) :
    cfg.Admitted := by
  obtain ⟨cfg', heq, hl⟩ := cfgLoad_loaded dm s zeroConfig_loaded
  obtain ⟨rfl, -⟩ := Prod.mk.inj (Option.some.inj (heq.symm.trans hload))
  exact hl.admitted hv

end

/-! ## Encoders -/

/-- The value of a pipe item. -/
def tlvPipe (t : Wire.Tlv) : Option UInt16 :=
  if t.typ = 0x0a then some (be16 (t.value.getD 0 0) (t.value.getD 1 0)) else none

/-- The pipe that an OPEN asks for, if any. -/
def wirePipe (pkt : Bytes) : Option UInt16 := written tlvPipe (Wire.items (pkt.drop 24))

/-- The pipe of a configuration as one number: 15 bits for `pipeid`, one for
    `pipeidx`. -/
def pipeNumber (cfg : Config) : ℕ := cfg.pipeid.toNat + 2 ^ 15 * cfg.pipeidx.toNat

/-- The encoders stay in their buffers and use only bytes that they have
    initialised, and no byte of the OPEN is cut. -/
structure EncodesSafely (cfg : Config) : Prop where
  xorKey : (deriveXorKey cfg).isSome
  srKeys : ∀ c, (srSetupKeys cfg c).isSome
  /-- Each length byte is the length of its item, and the pipe is not truncated. -/
  openPkt : ∃ pkt ts, buildOpenPkt cfg = some pkt ∧ pkt.length ≤ 2048 ∧
    pkt.drop 24 = Wire.encode ts ∧
    (∀ t ∈ ts, (UInt8.ofNat (t.value.length + 2)).toNat = t.value.length + 2) ∧
    (wirePipe pkt).map UInt16.toNat = if pipeNumber cfg = 0 then none else some (pipeNumber cfg)

section

variable {cfg : Config}

theorem pipeNumber_lt (h : cfg.Bounded) : pipeNumber cfg < 2 ^ 16 := by
  have hid : cfg.pipeid.toNat ≤ 32767 := h.pipeid
  have hidx : cfg.pipeidx.toNat ≤ 1 := h.pipeidx
  unfold pipeNumber
  omega

theorem pipeNumber_eq_zero : pipeNumber cfg = 0 ↔ ¬ (cfg.pipeid ≠ 0 ∨ cfg.pipeidx ≠ 0) := by
  simp only [pipeNumber, ne_eq, not_or, not_not, ← UInt16.toNat_inj, UInt16.toNat_zero]
  omega

/-- The number that is cut to 16 bits has no more. -/
theorem toNat_pipe (h : cfg.Bounded) :
    (cfg.pipeid.toUInt32 ||| (cfg.pipeidx.toUInt32 <<< 15)).toNat = pipeNumber cfg := by
  have hid : cfg.pipeid.toNat < 2 ^ 15 := lt_of_le_of_lt h.pipeid (by decide)
  have hidx : cfg.pipeidx.toNat ≤ 1 := h.pipeidx
  have hshift : cfg.pipeidx.toNat <<< 15 % 2 ^ 32 = cfg.pipeidx.toNat * 2 ^ 15 := by
    rw [Nat.shiftLeft_eq, Nat.mod_eq_of_lt (by omega)]
  rw [UInt32.toNat_or, UInt32.toNat_shiftLeft, UInt16.toNat_toUInt32, UInt16.toNat_toUInt32,
    show UInt32.toNat 15 % 32 = 15 from rfl, hshift, Nat.or_comm, or_eq_add hid, pipeNumber]
  omega

theorem toNat_pipe_bytes (h : cfg.Bounded) (val : UInt32) (hval : val.toNat = pipeNumber cfg) :
    (be16 (val >>> 8).toUInt8 val.toUInt8).toNat = pipeNumber cfg := by
  have hlt := pipeNumber_lt h
  rw [toNat_be16, UInt32.toNat_toUInt8, UInt32.toNat_toUInt8, UInt32.toNat_shiftRight,
    show UInt32.toNat 8 % 32 = 8 from rfl, Nat.shiftRight_eq_div_pow, hval]
  omega

/-- **The pipe on the wire.** -/
theorem wirePipe_openPkt (h : cfg.Bounded) :
    (wirePipe (openPkt cfg)).map UInt16.toNat =
      if pipeNumber cfg = 0 then none else some (pipeNumber cfg) := by
  rw [wirePipe, items_openPkt h, openTlvs, written_append, written_append]
  have hfirst : written tlvPipe [⟨3, [(cfg.mtu >>> 8).toUInt8, cfg.mtu.toUInt8]⟩, ⟨1, cfg.user⟩,
      ⟨2, (passwordBlock cfg.user cfg.pass).toList⟩] = none := rfl
  have henc : written tlvPipe (if cfg.encrypt ≠ 0 then [⟨8, [cfg.encrypt]⟩] else []) = none := by
    split_ifs <;> rfl
  rw [hfirst, henc, Option.or_none, Option.or_none]
  by_cases hp : cfg.pipeid ≠ 0 ∨ cfg.pipeidx ≠ 0
  · rw [if_pos hp, if_neg fun h0 => pipeNumber_eq_zero.mp h0 hp, written_singleton]
    exact congrArg some (toNat_pipe_bytes h _ (toNat_pipe h))
  · rw [if_neg hp, if_pos (pipeNumber_eq_zero.mpr hp)]
    rfl

/-- The number determines the pair. -/
theorem pipeNumber_inj {cfg' : Config} (h : cfg.Bounded) (h' : cfg'.Bounded)
    (heq : pipeNumber cfg = pipeNumber cfg') :
    cfg.pipeid = cfg'.pipeid ∧ cfg.pipeidx = cfg'.pipeidx := by
  have hid : cfg.pipeid.toNat ≤ 32767 := h.pipeid
  have hid' : cfg'.pipeid.toNat ≤ 32767 := h'.pipeid
  unfold pipeNumber at heq
  rw [← UInt16.toNat_inj, ← UInt16.toNat_inj]
  omega

theorem length_openPkt_le (h : cfg.Bounded) : (openPkt cfg).length ≤ 2048 := by
  have hul := h.user.2
  rw [openPkt, List.length_append, Wire.length_signedHeader, openTlvs]
  split_ifs <;> simp [Wire.encode, Wire.Tlv.encode] <;> omega

theorem encodesSafely (h : cfg.Bounded) : EncodesSafely cfg := by
  refine ⟨by rw [deriveXorKey_eq h]; rfl, fun c => ?_, openPkt cfg, openTlvs cfg, buildOpenPkt_eq h,
    length_openPkt_le h, Wire.drop_signedHeader _ _ _ _ _, fun t ht => ?_, wirePipe_openPkt h⟩
  · by_cases hcnt : cfg.srCount = 0
    · rw [srSetupKeys, if_pos hcnt]
      rfl
    · rw [srSetupKeys_eq h hcnt]
      rfl
  · have := length_openTlvs h t ht
    rw [UInt8.toNat_ofNat', Nat.mod_eq_of_lt (by omega)]

end

/-- **No file can break the encoders.** Whatever the file contains, `cfg_load`
    leaves a record within its bounds. From every such record that passes
    `cfg_valid` the encoders work in their buffers and cut nothing, and
    different pipes are different on the wire. -/
theorem config_file_safe (dm : DataModel) :
    (∀ s : Bytes, ∃ cfg, cfgLoad dm (some s) zeroConfig = some (cfg, 0) ∧ cfg.Bounded) ∧
    (∀ cfg : Config, cfg.Bounded → cfgValid cfg = true → EncodesSafely cfg) ∧
    ∀ (cfg cfg' : Config) (pkt pkt' : Bytes), cfg.Bounded → cfgValid cfg = true →
      cfg'.Bounded → cfgValid cfg' = true →
      buildOpenPkt cfg = some pkt → buildOpenPkt cfg' = some pkt' →
      wirePipe pkt = wirePipe pkt' → cfg.pipeid = cfg'.pipeid ∧ cfg.pipeidx = cfg'.pipeidx := by
  refine ⟨fun s => ?_, fun cfg h _ => encodesSafely h, ?_⟩
  · obtain ⟨cfg, heq, h⟩ := cfgLoad_loaded dm s zeroConfig_loaded
    exact ⟨cfg, heq, h.bounded⟩
  · intro cfg cfg' pkt pkt' h _ h' _ hpkt hpkt' heq
    rw [buildOpenPkt_eq h] at hpkt
    rw [buildOpenPkt_eq h'] at hpkt'
    cases hpkt
    cases hpkt'
    have hnum := congrArg (Option.map UInt16.toNat) heq
    rw [wirePipe_openPkt h, wirePipe_openPkt h'] at hnum
    apply pipeNumber_inj h h'
    split_ifs at hnum with h0 h0'
    · rw [h0, h0']
    · exact Option.some.inj hnum

/-- The README's configuration, and its wire values for two pipes that share no
    bit. -/
theorem config_file_safe_readme : EncodesSafely readmeConfig ∧
    (∃ cfg, cfgLoad .ilp32 (some (ascii ['[', 'a', ']'])) zeroConfig = some (cfg, 0)) ∧
    ∀ pkt pkt', buildOpenPkt { readmeConfig with pipeid := 32767 } = some pkt →
      buildOpenPkt { readmeConfig with pipeidx := 1 } = some pkt' → wirePipe pkt ≠ wirePipe pkt' := by
  obtain ⟨hload, henc, hinj⟩ := config_file_safe .ilp32
  obtain ⟨cfg, heq, -⟩ := hload (ascii ['[', 'a', ']'])
  have hid : ({ readmeConfig with pipeid := 32767 } : Config).Admitted := by
    constructor <;> decide
  have hidx : ({ readmeConfig with pipeidx := 1 } : Config).Admitted := by
    constructor <;> decide
  refine ⟨henc readmeConfig readmeConfig_admitted.bounded readmeConfig_admitted.valid, ⟨cfg, heq⟩, ?_⟩
  intro pkt pkt' hpkt hpkt' hsame
  have hpair := hinj _ _ pkt pkt' hid.bounded hid.valid hidx.bounded hidx.valid hpkt hpkt' hsame
  exact absurd hpair.1 (by decide)

end Iwand.Client
