import Iwand.Client.Aes

/-!
# Client state

The data of `src/iwand.c`: packet types and constants (lines 34–70), the
configuration `config_t` with its validation (lines 433–598), the client
record `iwan_client_t` (lines 672–719), and what the client exchanges with the
operating system.

`char` arrays are byte arrays of the declared size. Values that the code only
copies with `memcpy` and compares for equality (`session_token`, `session_id`,
fragment ids, addresses in network order) are the bytes in memory, so no host
byte order enters the model; the integers of the echo payload are little-endian.

Every system call is one field of `Env`, the environment of one event, and
every call that acts on the outside world is an `Effect`.

* `Config.Admitted`: the configurations that `cfg_load` produces from a zeroed
  `g_cfg` and `cfg_valid` accepts.
-/

namespace Iwand.Client

/-! ## Constants -/

abbrev pktOpenrej : UInt8 := 0x11
abbrev pktOpenack : UInt8 := 0x12
abbrev pktOpen : UInt8 := 0x13
abbrev pktData : UInt8 := 0x14
abbrev pktEchoreq : UInt8 := 0x15
abbrev pktEchoresp : UInt8 := 0x16
abbrev pktClose : UInt8 := 0x17
abbrev pktDataEnc : UInt8 := 0x18
abbrev pktIpfrag : UInt8 := 0x21
abbrev pktIpfragSr : UInt8 := 0x22
abbrev pktSegrt : UInt8 := 0x27

abbrev authTimeout : UInt32 := 6
abbrev authRetryInterval : UInt32 := 2
abbrev dataTimeout : UInt32 := 15

@[simp] abbrev maxPktSize : ℕ := 2048
@[simp] abbrev hdrSize : ℕ := 8
@[simp] abbrev signSize : ℕ := 16

@[simp] abbrev fragBufSize : ℕ := 2048
@[simp] abbrev fragContentSize : ℕ := 4096
abbrev fragTimeout : UInt32 := 5
@[simp] abbrev ethpktSize : ℕ := 16

/-- `STATE_NOT_READY` … `STATE_CLOSED`. -/
inductive State where
  | notReady
  | dnsNeeded
  | ipReady
  | authSent
  | established
  | closed
deriving DecidableEq, Repr

/-! ## Configuration -/

/-- `config_t` (lines 433–451). -/
structure Config where
  server : Vector UInt8 64
  username : Vector UInt8 32
  password : Vector UInt8 32
  tunName : Vector UInt8 16
  port : UInt16
  mtu : UInt16
  encrypt : UInt8
  pipeid : UInt16
  pipeidx : UInt16
  srCount : UInt8
  /-- IPv4 addresses in network order. -/
  srLinks : Vector (Vector UInt8 4) 6
  srEncryptMode : UInt8
  srPassword : Vector UInt8 32
  upScript : Vector UInt8 256
  downScript : Vector UInt8 256

/-- The C string in a `char` array: the bytes before the first NUL. Without a
    NUL in the array a string function runs past its end. -/
def cstr {n : ℕ} (a : Vector UInt8 n) : Option Bytes :=
  if 0 ∈ a.toList then some (a.toList.takeWhile (· ≠ 0)) else none

/-- `cfg_valid` (lines 568–598). -/
def cfgValid (cfg : Config) : Bool :=
  firstByte cfg.tunName ≠ 0 ∧ firstByte cfg.server ≠ 0 ∧ firstByte cfg.username ≠ 0 ∧
    firstByte cfg.password ≠ 0 ∧ ¬ (cfg.mtu < 46 ∨ cfg.mtu > 1600) ∧ cfg.port ≠ 0

/-- What `cfg_load` guarantees and `cfg_valid` checks: each string field was
    filled by `strncpy(field, val, sizeof(field) - 1)` in a zeroed record, so
    its last byte is NUL, and each number was range-checked before it was
    stored (lines 505–563). -/
structure Config.Admitted (cfg : Config) : Prop where
  server_nul : lastByte cfg.server = 0
  username_nul : lastByte cfg.username = 0
  password_nul : lastByte cfg.password = 0
  tunName_nul : lastByte cfg.tunName = 0
  srPassword_nul : lastByte cfg.srPassword = 0
  upScript_nul : lastByte cfg.upScript = 0
  downScript_nul : lastByte cfg.downScript = 0
  encrypt_le : cfg.encrypt ≤ 1
  pipeid_le : cfg.pipeid ≤ 32767
  pipeidx_le : cfg.pipeidx ≤ 1
  srCount_le : cfg.srCount ≤ 6
  srEncryptMode_le : cfg.srEncryptMode ≤ 2
  valid : cfgValid cfg = true

/-- The array contains a NUL, so that its string ends within it. -/
def Terminated {n : ℕ} (a : Vector UInt8 n) : Prop := 0 ∈ a.toList

/-- What the encoders rely on, and do not check themselves. -/
structure Config.Bounded (cfg : Config) : Prop where
  server : Terminated cfg.server
  username : Terminated cfg.username
  password : Terminated cfg.password
  tunName : Terminated cfg.tunName
  srPassword : Terminated cfg.srPassword
  upScript : Terminated cfg.upScript
  downScript : Terminated cfg.downScript
  mtu : cfg.mtu = 0 ∨ 46 ≤ cfg.mtu ∧ cfg.mtu ≤ 1600
  encrypt : cfg.encrypt ≤ 1
  pipeid : cfg.pipeid ≤ 32767
  pipeidx : cfg.pipeidx ≤ 1
  srCount : cfg.srCount ≤ 6
  srEncryptMode : cfg.srEncryptMode ≤ 2

/-! ## The client record -/

/-- One element of `frags` (lines 706–713). -/
structure FragSlot where
  buf : Vector UInt8 2048
  timestamp : UInt32
  id : Vector UInt8 4
  off : UInt16
  len : UInt16
  inUse : Bool

/-- `iwan_client_t` (lines 672–714). -/
structure IwanClient where
  state : State
  encrypt : UInt8
  peerDupPkt : UInt8
  peerIp : UInt32
  dns0 : UInt32
  dns1 : UInt32
  serverMtu : UInt16
  sessionToken : Vector UInt8 2
  sessionId : Vector UInt8 4
  xorKey : Vector UInt8 8
  serverDomain : Vector UInt8 64
  serverAddr : Vector UInt8 4
  serverPort : UInt16
  udpFd : Int
  tunFd : Int
  lastRecvTime : UInt32
  lastOpenTime : UInt32
  echoCounter : UInt32
  rxPkts : UInt32
  txPkts : UInt32
  tunRx : UInt32
  tunTx : UInt32
  curDelay : UInt32
  minDelay : UInt32
  maxDelay : UInt32
  rtMagic : UInt32
  srDecryptKey : AesKey
  srEncryptKey : AesKey
  frags : Vector FragSlot 10

/-- `g_clnt` after `memset` and the three assignments at the start of `main`
    (lines 1722–1725). -/
def zeroClient : IwanClient where
  state := .notReady
  encrypt := 0
  peerDupPkt := 0
  peerIp := 0
  dns0 := 0
  dns1 := 0
  serverMtu := 0
  sessionToken := Vector.replicate 2 0
  sessionId := Vector.replicate 4 0
  xorKey := Vector.replicate 8 0
  serverDomain := Vector.replicate 64 0
  serverAddr := Vector.replicate 4 0
  serverPort := 0
  udpFd := -1
  tunFd := -1
  lastRecvTime := 0
  lastOpenTime := 0
  echoCounter := 0
  rxPkts := 0
  txPkts := 0
  tunRx := 0
  tunTx := 0
  curDelay := 0
  minDelay := 5000000
  maxDelay := 0
  rtMagic := 0
  srDecryptKey := List.replicate 44 0
  srEncryptKey := List.replicate 44 0
  frags := Vector.replicate 10 ⟨Vector.replicate 2048 0, 0, Vector.replicate 4 0, 0, 0, false⟩

/-! ## The operating system -/

/-- The second argument of `run_script`. -/
inductive Hook where
  | up
  | down
deriving DecidableEq, Repr

/-- The argument vector of a hook script after the script itself (lines
    1018–1021). -/
structure HookArgs where
  event : Hook
  tunName : Vector UInt8 16
  ip : String
  mtu : String
  dns0 : String
  dns1 : String
deriving DecidableEq

/-- What the client does to its surroundings, in order. `resolved` and `reset`
    record a call of `resolve_server` with its outcome and a call of
    `client_reset`, both visible in the log; `close()` is left out. -/
inductive Effect where
  | sendto (pkt : Bytes) (addr : Vector UInt8 4) (port : UInt16)
  | tunWrite (data : Bytes)
  | tunSetIp (ip mask : UInt32)
  | tunSetMtu (mtu : UInt16)
  | tunClearIp
  | runScript (script : Vector UInt8 256) (args : HookArgs)
  | socket (fd : Int)
  | resolved (ok : Bool)
  | reset
deriving DecidableEq

/-- Results of the system calls made while one event is handled. No event makes
    the same call twice, except `mono_secs` when a datagram is accepted and
    `socket` when a tick without a socket resets the client. -/
structure Env where
  /-- `mono_secs()` in `timer_tick` and in the packet handlers. -/
  secs : UInt32
  /-- `mono_secs()` in `handle_recv`, after the handler has returned. -/
  secsAfter : UInt32
  /-- `mono_usecs()`. -/
  usecs : UInt64
  /-- `socket()` at the head of `timer_tick`. -/
  tickSocket : Int
  /-- `socket()` in `client_reset`. -/
  resetSocket : Int
  /-- `getaddrinfo()`: the first address, in network order. -/
  getaddrinfo : Option (Vector UInt8 4)
  tunSetIp : Int
  tunSetMtu : Int
  /-- `write()` to the TUN. -/
  tunWrite : Int
  /-- `access(script, X_OK) == 0`. -/
  access : Bool
  /-- `fork() >= 0`. -/
  fork : Bool

/-- `udp_socket_create` (lines 658–665), given what `socket()` returned. -/
def udpSocketCreate (fd : Int) : Int := if fd < 0 then -1 else fd

/-- System calls that all succeed, at second `now`. -/
def calmEnv (now : UInt32) : Env where
  secs := now
  secsAfter := now
  usecs := 0
  tickSocket := 3
  resetSocket := 3
  getaddrinfo := none
  tunSetIp := 0
  tunSetMtu := 0
  tunWrite := 1
  access := true
  fork := true

theorem tunSet_calmEnv (now : UInt32) : 0 ≤ (calmEnv now).tunSetIp ∧ 0 ≤ (calmEnv now).tunSetMtu := by
  simp [calmEnv]

/-! ## Strings of admitted configurations -/

/-- A `char` array that contains a NUL holds a string shorter than itself. -/
theorem Terminated.cstr_eq {n : ℕ} {a : Vector UInt8 n} (h : Terminated a) :
    cstr a = some (a.toList.takeWhile (· ≠ 0)) ∧ (a.toList.takeWhile (· ≠ 0)).length < n := by
  refine ⟨if_pos h, ?_⟩
  by_contra hlt
  have hlen := (List.takeWhile_prefix (l := a.toList) fun x => decide (x ≠ 0)).length_le
  rw [Vector.length_toList] at hlen
  have hall : a.toList.takeWhile (· ≠ 0) = a.toList :=
    (List.takeWhile_prefix _).eq_of_length (by rw [Vector.length_toList]; omega)
  rw [List.takeWhile_eq_self_iff] at hall
  simpa using hall 0 h

theorem terminated_of_lastByte {n : ℕ} {a : Vector UInt8 (n + 1)} (h : lastByte a = 0) :
    Terminated a := by
  unfold Terminated
  rw [← h]
  simp

theorem Config.Admitted.bounded {cfg : Config} (h : cfg.Admitted) : cfg.Bounded where
  mtu := by
    have hv := h.valid
    simp only [cfgValid, decide_eq_true_eq, not_or, UInt16.not_lt, gt_iff_lt] at hv
    exact .inr hv.2.2.2.2.1
  encrypt := h.encrypt_le
  pipeid := h.pipeid_le
  pipeidx := h.pipeidx_le
  srCount := h.srCount_le
  srEncryptMode := h.srEncryptMode_le
  server := terminated_of_lastByte h.server_nul
  username := terminated_of_lastByte h.username_nul
  password := terminated_of_lastByte h.password_nul
  tunName := terminated_of_lastByte h.tunName_nul
  srPassword := terminated_of_lastByte h.srPassword_nul
  upScript := terminated_of_lastByte h.upScript_nul
  downScript := terminated_of_lastByte h.downScript_nul

/-- No byte of a C string is NUL. -/
theorem ne_zero_of_mem_cstr {n : ℕ} {a : Vector UInt8 n} {s : Bytes} (h : cstr a = some s) :
    ∀ b ∈ s, b ≠ 0 := by
  unfold cstr at h
  split_ifs at h
  cases h
  intro b hb
  simpa using List.mem_takeWhile_imp hb

/-- A string that was copied into a zeroed array. -/
theorem cstr_toArr {n : ℕ} {s : Bytes} (hs : 0 ∉ s) (hlen : s.length < n) :
    cstr (toArr n s) = some s := by
  have hlist := toList_toArr_of_le (le_of_lt hlen)
  obtain ⟨k, hk⟩ : ∃ k, n - s.length = k + 1 := ⟨n - s.length - 1, by omega⟩
  rw [hk, List.replicate_succ] at hlist
  have htake : (s ++ 0 :: List.replicate k 0).takeWhile (· ≠ 0) = s := by
    rw [List.takeWhile_append_of_pos fun b hb => by simpa using fun heq : b = 0 => hs (heq ▸ hb)]
    simp
  rw [cstr, hlist, if_pos (by simp), htake]

/-- A string field that passes the check `field[0] != '\0'` is not empty. -/
theorem takeWhile_ne_nil {n : ℕ} {a : Vector UInt8 (n + 1)} (h : firstByte a ≠ 0) :
    a.toList.takeWhile (· ≠ 0) ≠ [] := by
  obtain ⟨l, hl⟩ : ∃ l, a.toList = a[0] :: l := by
    refine ⟨a.toList.tail, ?_⟩
    have h0 : a.toList ≠ [] := List.ne_nil_of_length_pos (by simp)
    rw [← List.cons_head_tail h0]
    congr 1
    simp [List.head_eq_getElem]
  rw [hl, List.takeWhile_cons_of_pos (by simpa using h)]
  simp

/-- The configuration file of `README.md`: `[iwan0]`, `server=1.2.3.4`,
    `username=myuser`, `password=mypass`, `port=4567`, `mtu=1400`, `encrypt=0`. -/
def readmeConfig : Config where
  server := toArr 64 [49, 46, 50, 46, 51, 46, 52]
  username := toArr 32 [109, 121, 117, 115, 101, 114]
  password := toArr 32 [109, 121, 112, 97, 115, 115]
  tunName := toArr 16 [105, 119, 97, 110, 48]
  port := 4567
  mtu := 1400
  encrypt := 0
  pipeid := 0
  pipeidx := 0
  srCount := 0
  srLinks := Vector.replicate 6 (Vector.replicate 4 0)
  srEncryptMode := 0
  srPassword := Vector.replicate 32 0
  upScript := Vector.replicate 256 0
  downScript := Vector.replicate 256 0

theorem readmeConfig_admitted : readmeConfig.Admitted := by
  constructor <;> decide

end Iwand.Client
