import Iwand.Server.Protocol

/-!
# Server configuration

Model of `server/config.go`. `validate` fills in defaults while it checks, so it
returns the changed configuration; a panic is possible in `normalized`, which
parses the addresses a second time with `MustParseAddr` and `MustParsePrefix`.

The parsers of the standard library are fields of `Net`: functions, so that a
second call on the same text gives the same result.

* `validate_checked`, `Checked.validate`: validation fills in defaults once, and
  passes its own result unchanged.
* `validate_ok`: what a configuration that passes satisfies (`Valid`).
* `normalized_eq`: the addresses that were parsed once are parsed again.
* `normalized_ok`: the normalized configuration (`NormalizedOk`): each user
  under its own name, distinct non-zero IPv4 addresses, MTUs in range.
-/

namespace Iwand.Server

open Go

/-! ## The standard library -/

/-- `netip.Prefix`. -/
structure Prefix where
  addr : Addr
  bits : ℕ
deriving DecidableEq

/-- Functions of the standard library. `R` is the type of UDP addresses. -/
structure Net (R : Type) where
  /-- `netip.ParseAddr`, with the text of the error. -/
  parseAddr : Bytes → Except String Addr
  /-- `netip.ParsePrefix`. -/
  parsePrefix : Bytes → Except String Prefix
  /-- `net.ResolveUDPAddr("udp", _)`. -/
  resolveUDPAddr : Bytes → Except String R
  /-- `(*net.UDPAddr).String`. -/
  remoteString : R → Bytes
  /-- `netip.Addr.String` of an address that is not IPv4. -/
  addrString : Addr → Bytes
  /-- The verb `%q`. -/
  quote : Bytes → String

variable {R : Type}

/-- `netip.Addr.String`. -/
def Net.string (net : Net R) : Addr → Bytes
  | .v4 a => Addr.string4 a
  | a => net.addrString a

/-- `netip.MustParseAddr`. -/
def Net.mustParseAddr (net : Net R) (s : Bytes) : Go Addr :=
  match net.parseAddr s with
  | .ok a => .ok a
  | .error _ => .error (.panic .mustParse)

/-- `netip.MustParsePrefix`. -/
def Net.mustParsePrefix (net : Net R) (s : Bytes) : Go Prefix :=
  match net.parsePrefix s with
  | .ok p => .ok p
  | .error _ => .error (.panic .mustParse)

/-- `fmt.Errorf("…: %w", err)` around a call. -/
def wrap {α : Type} (context : String) : Except String α → Go α
  | .ok a => .ok a
  | .error msg => fail (context ++ ": " ++ msg)

/-! ## Configuration records -/

/-- `ExitConfig`. -/
structure ExitConfig where
  enabled : Bool
  tunName : Bytes
  tunAddress : Bytes
  mtu : UInt16
  strictSource : Option Bool
deriving DecidableEq

/-- `UserConfig`. -/
structure UserConfig where
  username : Bytes
  password : Bytes
  address : Bytes
  allowEncrypt : Option Bool
deriving DecidableEq

/-- `Config`. -/
structure Config where
  listen : Bytes
  mtu : UInt16
  dns : List Bytes
  exit : ExitConfig
  users : List UserConfig
deriving DecidableEq

/-- `normalizedExitConfig`; `tunAddress` is the zero value unless exit mode is
    enabled. -/
structure NormalizedExitConfig where
  enabled : Bool
  tunName : Bytes
  tunAddress : Prefix
  mtu : UInt16
  strictSource : Bool

/-- `configuredUser`. It is never changed, so a pointer to it is the value. -/
structure ConfiguredUser where
  username : Bytes
  password : Bytes
  address : Addr
  allowEncrypt : Bool
  xorKey : Vector UInt8 8
deriving DecidableEq

/-- `normalizedConfig`. -/
structure NormalizedConfig where
  listen : Bytes
  mtu : UInt16
  dns : List Addr
  exit : NormalizedExitConfig
  users : GoMap Bytes ConfiguredUser

/-- `"127.0.0.1:4567"`. -/
def defaultListen : Bytes := [49, 50, 55, 46, 48, 46, 48, 46, 49, 58, 52, 53, 54, 55]

/-- `"iwand0"`. -/
def defaultExitTUNName : Bytes := [105, 119, 97, 110, 100, 48]

@[simp] abbrev maxInterfaceName : ℕ := 15

/-! ## Validation -/

/-- `validateExit` (lines 166–190). -/
def validateExit (net : Net R) (c : Config) : Go Config :=
  if c.exit.enabled = false then .ok c
  else
    let exit := if c.exit.tunName = [] then { c.exit with tunName := defaultExitTUNName } else c.exit
    if exit.tunName.length > maxInterfaceName then
      fail ("exit.tun_name " ++ net.quote exit.tunName ++
        " exceeds Linux interface name limit of " ++ toString maxInterfaceName ++ " bytes")
    else if exit.tunAddress = [] then
      fail "exit.tun_address is required when exit.enabled is true"
    else do
      let pfx ← wrap "exit.tun_address" (net.parsePrefix exit.tunAddress)
      if pfx.addr.is4 = false ∨ pfx.addr.isUnspecified then
        fail "exit.tun_address must be a non-zero IPv4 prefix"
      else
        let exit := if exit.mtu = 0 then { exit with mtu := c.mtu } else exit
        if exit.mtu < minMTU ∨ exit.mtu > maxMTU then
          fail ("invalid exit.mtu " ++ toString exit.mtu.toNat ++ ", required " ++
            toString minMTU.toNat ++ "-" ++ toString maxMTU.toNat)
        else return { c with exit := exit }

/-- `users[index].field`. -/
def userField (index : ℕ) (field : String) : String :=
  "users[" ++ toString index ++ "]." ++ field

/-- The loop over the users, at `index` with the names and addresses seen so far
    (lines 117–146). -/
def validateUsers (net : Net R) : ℕ → List Bytes → List Bytes → List UserConfig → Go Unit
  | _, _, _, [] => .ok ()
  | index, usernames, addresses, user :: users =>
    if user.username = [] then fail (userField index "username is required")
    else if user.password = [] then fail (userField index "password is required")
    else if user.address = [] then fail (userField index "address is required")
    else if user.username ∈ usernames then fail ("duplicate username " ++ net.quote user.username)
    else do
      let address ← wrap (userField index "address") (net.parseAddr user.address)
      if address.is4 = false ∨ address.isUnspecified then
        fail (userField index "address must be a non-zero IPv4 address")
      else
        let addressKey := net.string address
        if addressKey ∈ addresses then
          fail ("duplicate assigned address " ++ net.quote addressKey)
        else
          validateUsers net (index + 1) (user.username :: usernames) (addressKey :: addresses) users

/-- The loop over the DNS servers (lines 148–156). -/
def validateDNS (net : Net R) : ℕ → List Bytes → Go Unit
  | _, [] => .ok ()
  | index, rawDNS :: rest => do
    let dns ← wrap ("dns[" ++ toString index ++ "]") (net.parseAddr rawDNS)
    if dns.is4 = false then fail ("dns[" ++ toString index ++ "] must be an IPv4 address")
    else validateDNS net (index + 1) rest

/-- `validate` (lines 97–164). -/
def validate (net : Net R) (c : Config) : Go Config :=
  let c := if c.listen = [] then { c with listen := defaultListen } else c
  let c := if c.mtu = 0 then { c with mtu := defaultMTU } else c
  if c.mtu < minMTU ∨ c.mtu > maxMTU then
    fail ("invalid mtu " ++ toString c.mtu.toNat ++ ", required " ++ toString minMTU.toNat ++ "-" ++
      toString maxMTU.toNat)
  else do
    let c ← validateExit net c
    let _ ← wrap ("invalid listen address " ++ net.quote c.listen) (net.resolveUDPAddr c.listen)
    if c.users = [] then fail "at least one user is required"
    else
      validateUsers net 0 [] [] c.users
      validateDNS net 0 c.dns
      if c.dns.length > 2 then fail "at most two DNS servers are supported"
      else return c

/-! ## Normalization -/

/-- One entry of the user map (lines 217–229). -/
def normalizedUser (net : Net R) (rawUser : UserConfig) : Go ConfiguredUser := do
  let address ← net.mustParseAddr rawUser.address
  return { username := rawUser.username
           password := rawUser.password
           address := address
           allowEncrypt := rawUser.allowEncrypt.getD true
           xorKey := deriveXORKey rawUser.username rawUser.password }

/-- The loop that fills the user map. -/
def normalizedUsers (net : Net R) (users : GoMap Bytes ConfiguredUser) :
    List UserConfig → Go (GoMap Bytes ConfiguredUser)
  | [] => .ok users
  | rawUser :: rest => do
    let user ← normalizedUser net rawUser
    normalizedUsers net (users.insert rawUser.username user) rest

/-- The exit address, if exit mode is enabled (lines 211–213). -/
def normalizedTunAddress (net : Net R) (exit : ExitConfig) : Go Prefix :=
  if exit.enabled then net.mustParsePrefix exit.tunAddress else .ok ⟨.zero, 0⟩

/-- `normalized` (lines 192–232). -/
def normalized (net : Net R) (c : Config) : Go NormalizedConfig := do
  let c ← validate net c
  let tunAddress ← normalizedTunAddress net c.exit
  let dns ← c.dns.mapM net.mustParseAddr
  let users ← normalizedUsers net ∅ c.users
  return { listen := c.listen
           mtu := c.mtu
           dns := dns
           exit := { enabled := c.exit.enabled
                     tunName := c.exit.tunName
                     tunAddress := tunAddress
                     mtu := c.exit.mtu
                     strictSource := c.exit.strictSource.getD true }
           users := users }

/-! ## What validation guarantees -/

variable {net : Net R}

theorem wrap_eq_ok {α : Type} {context : String} {x : Except String α} {a : α}
    (h : wrap context x = .ok a) : x = .ok a := by
  cases x with
  | error msg => cases h
  | ok b => cases h; rfl

/-- The address of a user. -/
def UserConfig.parsed (net : Net R) (user : UserConfig) : Addr :=
  match net.parseAddr user.address with
  | .ok a => a
  | .error _ => .zero

/-- The checks on one user. -/
structure ValidUser (net : Net R) (user : UserConfig) : Prop where
  username_ne : user.username ≠ []
  password_ne : user.password ≠ []
  address_ok : ∃ a, net.parseAddr user.address = .ok (.v4 a) ∧ a ≠ Vector.replicate 4 0

theorem nonzero_v4 {a : Addr} (h : ¬ (a.is4 = false ∨ a.isUnspecified = true)) :
    ∃ v, a = .v4 v ∧ v ≠ Vector.replicate 4 0 := by
  rw [not_or, Bool.not_eq_false, Addr.is4_iff] at h
  obtain ⟨⟨v, rfl⟩, h⟩ := h
  exact ⟨v, rfl, fun hv => h (by simp [Addr.isUnspecified, hv])⟩

theorem ValidUser.parsed {user : UserConfig} (h : ValidUser net user) :
    ∃ a, net.parseAddr user.address = .ok (.v4 a) ∧ user.parsed net = .v4 a ∧
      a ≠ Vector.replicate 4 0 := by
  obtain ⟨a, ha, hne⟩ := h.address_ok
  exact ⟨a, ha, by rw [UserConfig.parsed, ha], hne⟩

/-- A list of users that passes has valid users with pairwise distinct names and
    addresses, none of which was seen before. -/
theorem validateUsers_ok {users : List UserConfig} : ∀ {index : ℕ} {usernames addresses : List Bytes},
    validateUsers net index usernames addresses users = .ok () →
    (∀ u ∈ users, ValidUser net u ∧ u.username ∉ usernames ∧
      net.string (u.parsed net) ∉ addresses) ∧
    (users.map (·.username)).Nodup ∧ (users.map fun u => net.string (u.parsed net)).Nodup := by
  induction users with
  | nil => intro _ _ _ _; simp
  | cons user users ih =>
    intro index usernames addresses h
    rw [validateUsers] at h
    obtain ⟨h1, h⟩ := of_check h
    obtain ⟨h2, h⟩ := of_check h
    obtain ⟨h3, h⟩ := of_check h
    obtain ⟨h4, h⟩ := of_check h
    obtain ⟨address, haddr, h⟩ := bind_eq_ok h
    obtain ⟨h5, h⟩ := of_check h
    obtain ⟨h6, h⟩ := of_check h
    have hparse := wrap_eq_ok haddr
    have hparsed : user.parsed net = address := by rw [UserConfig.parsed, hparse]
    obtain ⟨a, rfl, ha⟩ := nonzero_v4 h5
    obtain ⟨hall, hnames, haddrs⟩ := ih h
    refine ⟨?_, ?_, ?_⟩
    · rintro u (_ | ⟨_, hu⟩)
      · exact ⟨⟨h1, h2, a, hparse, ha⟩, h4, by rw [hparsed]; exact h6⟩
      · obtain ⟨hv, hn, hk⟩ := hall u hu
        exact ⟨hv, fun hm => hn (List.mem_cons_of_mem _ hm), fun hm => hk (List.mem_cons_of_mem _ hm)⟩
    · rw [List.map_cons, List.nodup_cons]
      refine ⟨fun hm => ?_, hnames⟩
      obtain ⟨u, hu, heq⟩ := List.mem_map.mp hm
      exact (hall u hu).2.1 (heq ▸ List.mem_cons_self)
    · rw [List.map_cons, List.nodup_cons]
      refine ⟨fun hm => ?_, haddrs⟩
      obtain ⟨u, hu, heq⟩ := List.mem_map.mp hm
      rw [hparsed] at heq
      exact (hall u hu).2.2 (heq ▸ List.mem_cons_self)

theorem validateDNS_ok {dns : List Bytes} : ∀ {index : ℕ}, validateDNS net index dns = .ok () →
    ∀ d ∈ dns, ∃ a, net.parseAddr d = .ok (.v4 a) := by
  induction dns with
  | nil => intro _ _ d hd; cases hd
  | cons rawDNS rest ih =>
    intro index h
    obtain ⟨a, hparse, h⟩ := bind_eq_ok h
    obtain ⟨h4, h⟩ := of_check h
    rintro d (_ | ⟨_, hd⟩)
    · rw [Bool.not_eq_false, Addr.is4_iff] at h4
      obtain ⟨v, rfl⟩ := h4
      exact ⟨v, wrap_eq_ok hparse⟩
    · exact ih h d hd

/-- The exit block that passes. -/
structure ValidExit (net : Net R) (exit : ExitConfig) : Prop where
  tunAddress : ∃ p, net.parsePrefix exit.tunAddress = .ok p
  mtu_min : minMTU ≤ exit.mtu
  mtu_max : exit.mtu ≤ maxMTU

/-- `validateExit` fills in the exit block, and finds nothing to change in it the
    next time. -/
theorem validateExit_ok {c c' : Config} (h : validateExit net c = .ok c') :
    validateExit net c' = .ok c' ∧ ∃ exit, c' = { c with exit := exit } ∧
      exit.enabled = c.exit.enabled ∧ (exit.enabled = true → ValidExit net exit ∧
        exit.mtu = if c.exit.mtu = 0 then c.mtu else c.exit.mtu) := by
  unfold validateExit at h
  by_cases hen : c.exit.enabled = false
  · rw [if_pos hen] at h
    cases h
    exact ⟨if_pos hen, c.exit, rfl, rfl, fun he => by simp [hen] at he⟩
  rw [if_neg hen] at h
  simp only at h
  -- the exit block with its name filled in
  obtain ⟨name, hname, hexit⟩ : ∃ name, name ≠ [] ∧
      (if c.exit.tunName = [] then { c.exit with tunName := defaultExitTUNName } else c.exit) =
        { c.exit with tunName := name } := by
    split_ifs with h
    · exact ⟨_, by simp [defaultExitTUNName], rfl⟩
    · exact ⟨_, h, rfl⟩
  rw [hexit] at h
  obtain ⟨hlen, h⟩ := of_check h
  obtain ⟨haddr, h⟩ := of_check h
  obtain ⟨p, hp, h⟩ := bind_eq_ok h
  obtain ⟨hv4, h⟩ := of_check h
  have hmtu_eq : (if c.exit.mtu = 0 then { { c.exit with tunName := name } with mtu := c.mtu }
      else { c.exit with tunName := name }) =
        { c.exit with tunName := name, mtu := if c.exit.mtu = 0 then c.mtu else c.exit.mtu } := by
    split_ifs <;> rfl
  rw [hmtu_eq] at h
  generalize hm : (if c.exit.mtu = 0 then c.mtu else c.exit.mtu) = mtu at h ⊢
  obtain ⟨hmtu, h⟩ := of_check h
  cases h
  have hrange := hmtu
  simp only [not_or, UInt16.not_lt, gt_iff_lt] at hrange
  have hne : mtu ≠ 0 := by
    rintro rfl
    exact absurd hrange.1 (by decide)
  refine ⟨?_, _, rfl, rfl, fun _ => ⟨⟨⟨p, wrap_eq_ok hp⟩, hrange.1, hrange.2⟩, rfl⟩⟩
  unfold validateExit
  rw [if_neg hen]
  simp only [if_neg hname, if_neg hlen, if_neg haddr, hp, bind_ok, if_neg hv4, if_neg hne, if_neg hmtu]
  rfl

/-- A configuration in which `validate` finds nothing to change or to reject. -/
structure Checked (net : Net R) (c : Config) : Prop where
  listen_ne : c.listen ≠ []
  mtu : ¬ (c.mtu < minMTU ∨ c.mtu > maxMTU)
  exit : validateExit net c = .ok c
  listen : ∃ r, net.resolveUDPAddr c.listen = .ok r
  users_ne : c.users ≠ []
  users : validateUsers net 0 [] [] c.users = .ok ()
  dns : validateDNS net 0 c.dns = .ok ()
  dns_two : ¬ c.dns.length > 2

/-- **Validation returns a checked configuration**, with the users and the DNS
    servers as they were. -/
theorem validate_checked {c c' : Config} (h : validate net c = .ok c') :
    Checked net c' ∧ c'.users = c.users ∧ c'.dns = c.dns ∧
      (c'.mtu = if c.mtu = 0 then defaultMTU else c.mtu) ∧ c'.exit.enabled = c.exit.enabled ∧
      (c'.exit.enabled = true → ValidExit net c'.exit ∧
        c'.exit.mtu = if c.exit.mtu = 0 then c'.mtu else c.exit.mtu) := by
  unfold validate at h
  simp only at h
  obtain ⟨l, hl, hlisten⟩ : ∃ l, l ≠ [] ∧
      (if c.listen = [] then { c with listen := defaultListen } else c) = { c with listen := l } := by
    split_ifs with h
    · exact ⟨_, by simp [defaultListen], rfl⟩
    · exact ⟨_, h, rfl⟩
  rw [hlisten] at h
  have hmtu_eq : (if c.mtu = 0 then { { c with listen := l } with mtu := defaultMTU }
      else { c with listen := l }) =
        { c with listen := l, mtu := if c.mtu = 0 then defaultMTU else c.mtu } := by
    split_ifs <;> rfl
  rw [hmtu_eq] at h
  obtain ⟨hmtu, h⟩ := of_check h
  obtain ⟨c₃, hexit, h⟩ := bind_eq_ok h
  obtain ⟨hfixed, exit, rfl, hen, hvalid⟩ := validateExit_ok hexit
  obtain ⟨r, hr, h⟩ := bind_eq_ok h
  obtain ⟨hne, h⟩ := of_check h
  obtain ⟨_, husers, h⟩ := bind_eq_ok h
  obtain ⟨_, hdns, h⟩ := bind_eq_ok h
  obtain ⟨htwo, h⟩ := of_check h
  cases h
  exact ⟨⟨hl, hmtu, hfixed, ⟨r, wrap_eq_ok hr⟩, hne, husers, hdns, htwo⟩, rfl, rfl, rfl, hen, hvalid⟩

/-- **A checked configuration passes unchanged.** -/
theorem Checked.validate {c : Config} (h : Checked net c) : validate net c = .ok c := by
  obtain ⟨r, hr⟩ := h.listen
  have hmtu : c.mtu ≠ 0 := fun h0 => h.mtu (.inl (by rw [h0]; decide))
  unfold Server.validate
  simp only [if_neg h.listen_ne, if_neg hmtu, if_neg h.mtu, h.exit, bind_ok, hr, wrap,
    if_neg h.users_ne, h.users, h.dns, if_neg h.dns_two]
  rfl

/-- What a configuration that passes satisfies. -/
structure Valid (net : Net R) (c : Config) : Prop where
  mtu_min : minMTU ≤ c.mtu
  mtu_max : c.mtu ≤ maxMTU
  exit : c.exit.enabled = true → ValidExit net c.exit
  users : ∀ u ∈ c.users, ValidUser net u
  users_ne : c.users ≠ []
  names : (c.users.map (·.username)).Nodup
  addresses : (c.users.map fun u => net.string (u.parsed net)).Nodup
  dns : ∀ d ∈ c.dns, ∃ a, net.parseAddr d = .ok (.v4 a)
  dns_two : c.dns.length ≤ 2

theorem validate_ok {c c' : Config} (h : validate net c = .ok c') : Valid net c' := by
  obtain ⟨hc, -, -, -, -, hexit⟩ := validate_checked h
  obtain ⟨hall, hnames, haddrs⟩ := validateUsers_ok hc.users
  have hmtu := hc.mtu
  simp only [not_or, UInt16.not_lt, gt_iff_lt] at hmtu
  exact ⟨hmtu.1, hmtu.2, fun he => (hexit he).1, fun u hu => (hall u hu).1, hc.users_ne, hnames,
    haddrs, validateDNS_ok hc.dns, Nat.le_of_not_lt hc.dns_two⟩

/-! ## What normalization guarantees -/

/-- The entry of the user map for a valid user. -/
def UserConfig.configured (net : Net R) (user : UserConfig) : ConfiguredUser where
  username := user.username
  password := user.password
  address := user.parsed net
  allowEncrypt := user.allowEncrypt.getD true
  xorKey := deriveXORKey user.username user.password

theorem normalizedUser_eq {user : UserConfig} (h : ValidUser net user) :
    normalizedUser net user = .ok (user.configured net) := by
  obtain ⟨a, hparse, hparsed, -⟩ := h.parsed
  rw [normalizedUser, Net.mustParseAddr, hparse, UserConfig.configured, hparsed]
  rfl

/-- The user map: for each name its configured user, else what was there before. -/
theorem normalizedUsers_eq {users : List UserConfig} (hv : ∀ u ∈ users, ValidUser net u)
    (hnd : (users.map (·.username)).Nodup) (m : GoMap Bytes ConfiguredUser) :
    ∃ m', normalizedUsers net m users = .ok m' ∧ ∀ name, m'.lookup name =
      ((users.find? (·.username = name)).map (·.configured net)).or (m.lookup name) := by
  induction users generalizing m with
  | nil => exact ⟨m, rfl, fun name => rfl⟩
  | cons user users ih =>
    rw [List.map_cons, List.nodup_cons] at hnd
    obtain ⟨m', hm', hlook⟩ := ih (fun u hu => hv u (by simp [hu])) hnd.2
      (m.insert user.username (user.configured net))
    refine ⟨m', ?_, fun name => ?_⟩
    · rw [normalizedUsers, normalizedUser_eq (hv user (by simp)), bind_ok, hm']
    rw [hlook name]
    by_cases hname : user.username = name
    · -- no later user has this name
      have hnone : users.find? (·.username = name) = none := by
        rw [List.find?_eq_none]
        intro u hu hun
        exact hnd.1 (List.mem_map.mpr ⟨u, hu, by rw [hname]; simpa using hun⟩)
      rw [hnone, List.find?_cons_of_pos (by simpa using hname), ← hname, AList.lookup_insert]
      rfl
    · rw [List.find?_cons_of_neg (by simpa using hname),
        AList.lookup_insert_ne (fun h => hname h.symm)]

/-- What every normalized configuration satisfies. -/
structure NormalizedOk (c : NormalizedConfig) : Prop where
  username : ∀ name u, c.users.lookup name = some u → u.username = name
  address4 : ∀ name u, c.users.lookup name = some u →
    ∃ a, u.address = .v4 a ∧ a ≠ Vector.replicate 4 0
  address_inj : ∀ name₁ u₁ name₂ u₂, c.users.lookup name₁ = some u₁ →
    c.users.lookup name₂ = some u₂ → u₁.address = u₂.address → u₁ = u₂
  xorKey : ∀ name u, c.users.lookup name = some u → u.xorKey = deriveXORKey u.username u.password
  mtu_min : minMTU ≤ c.mtu
  mtu_max : c.mtu ≤ maxMTU
  dns4 : ∃ ds : List (Vector UInt8 4), c.dns = ds.map .v4 ∧ ds.length ≤ 2

/-- The texts of IPv4 addresses are parsed in order. -/
theorem mapM_mustParseAddr {raw : List Bytes}
    (h : ∀ d ∈ raw, ∃ a, net.parseAddr d = .ok (.v4 a)) :
    ∃ ds : List (Vector UInt8 4), raw.map net.parseAddr = ds.map (fun d => .ok (.v4 d)) ∧
      raw.mapM net.mustParseAddr = .ok (ds.map .v4) := by
  induction raw with
  | nil => exact ⟨[], rfl, rfl⟩
  | cons d raw ih =>
    obtain ⟨a, ha⟩ := h d (by simp)
    obtain ⟨ds, hparse, hds⟩ := ih fun d hd => h d (by simp [hd])
    refine ⟨a :: ds, by rw [List.map_cons, List.map_cons, ha, hparse], ?_⟩
    rw [List.mapM_cons, Net.mustParseAddr, ha, hds]
    rfl

/-- **The second round of parsing cannot fail**: a configuration that passes is
    normalized without a panic. -/
theorem normalized_eq {c c' : Config} (h : validate net c = .ok c') :
    ∃ (tun : Prefix) (ds : List (Vector UInt8 4)) (m : GoMap Bytes ConfiguredUser),
      normalized net c = .ok
        { listen := c'.listen
          mtu := c'.mtu
          dns := ds.map .v4
          exit := { enabled := c'.exit.enabled
                    tunName := c'.exit.tunName
                    tunAddress := tun
                    mtu := c'.exit.mtu
                    strictSource := c'.exit.strictSource.getD true }
          users := m } ∧
      c'.dns.map net.parseAddr = ds.map (fun d => .ok (.v4 d)) ∧
      ∀ name, m.lookup name = (c'.users.find? (·.username = name)).map (·.configured net) := by
  have hv := validate_ok h
  obtain ⟨ds, hparse, hds⟩ := mapM_mustParseAddr hv.dns
  obtain ⟨m, hm, hlook⟩ := normalizedUsers_eq hv.users hv.names ∅
  have htun : ∃ p, normalizedTunAddress net c'.exit = .ok p := by
    unfold normalizedTunAddress
    split_ifs with hen
    · obtain ⟨p, hp⟩ := (hv.exit hen).tunAddress
      exact ⟨p, by rw [Net.mustParsePrefix, hp]⟩
    · exact ⟨_, rfl⟩
  obtain ⟨p, hp⟩ := htun
  simp only [AList.lookup_empty, Option.or_none] at hlook
  refine ⟨p, ds, m, ?_, hparse, hlook⟩
  rw [normalized, h, bind_ok, hp, bind_ok, hds, bind_ok, hm, bind_ok]
  rfl

/-- **Normalization.** The result for a configuration that passes is sound. -/
theorem normalized_valid {c c' : Config} (h : validate net c = .ok c') :
    ∃ n, normalized net c = .ok n ∧ NormalizedOk n ∧ n.mtu = c'.mtu ∧
      n.exit.enabled = c'.exit.enabled ∧ n.exit.strictSource = c'.exit.strictSource.getD true ∧
      ∀ name, n.users.lookup name =
        (c'.users.find? (·.username = name)).map (·.configured net) := by
  have hv := validate_ok h
  obtain ⟨p, ds, m, heq, hparse, hlook⟩ := normalized_eq h
  have hlen : ds.length = c'.dns.length := by simpa using (congrArg List.length hparse).symm
  refine ⟨_, heq, ?_, rfl, rfl, rfl, hlook⟩
  -- every entry is the configured form of a user of that name
  have hentry : ∀ name u, m.lookup name = some u →
      ∃ user ∈ c'.users, user.username = name ∧ u = user.configured net := by
    intro name u hu
    rw [hlook name, Option.map_eq_some_iff] at hu
    obtain ⟨user, hfind, rfl⟩ := hu
    exact ⟨user, List.mem_of_find?_eq_some hfind, by simpa using List.find?_some hfind, rfl⟩
  refine ⟨?_, ?_, ?_, ?_, hv.mtu_min, hv.mtu_max, ds, rfl, hlen ▸ hv.dns_two⟩
  · intro name u hu
    obtain ⟨user, -, rfl, rfl⟩ := hentry name u hu
    rfl
  · intro name u hu
    obtain ⟨user, hmem, -, rfl⟩ := hentry name u hu
    obtain ⟨a, -, hparsed, hne⟩ := (hv.users user hmem).parsed
    exact ⟨a, hparsed, hne⟩
  · intro name₁ u₁ name₂ u₂ hu₁ hu₂ haddr
    obtain ⟨user₁, hmem₁, -, rfl⟩ := hentry name₁ u₁ hu₁
    obtain ⟨user₂, hmem₂, -, rfl⟩ := hentry name₂ u₂ hu₂
    have haddr : user₁.parsed net = user₂.parsed net := haddr
    have huser : user₁ = user₂ := List.inj_on_of_nodup_map hv.addresses hmem₁ hmem₂ (by rw [haddr])
    rw [huser]
  · intro name u hu
    obtain ⟨user, -, -, rfl⟩ := hentry name u hu
    rfl

/-- The user map of a normalized configuration: the configured users by name. -/
theorem normalized_users {c : Config} {n : NormalizedConfig} (h : normalized net c = .ok n)
    (name : Bytes) (user : ConfiguredUser) :
    n.users.lookup name = some user ↔
      ∃ u ∈ c.users, u.username = name ∧ user = u.configured net := by
  obtain ⟨c', hc', -⟩ := bind_eq_ok h
  obtain ⟨n', hn', -, -, -, -, hlook⟩ := normalized_valid hc'
  have hv := validate_ok hc'
  rw [h] at hn'
  cases hn'
  rw [hlook name, Option.map_eq_some_iff, ← (validate_checked hc').2.1]
  constructor
  · rintro ⟨u, hfind, rfl⟩
    exact ⟨u, List.mem_of_find?_eq_some hfind, by simpa using List.find?_some hfind, rfl⟩
  · rintro ⟨u, hu, hname, rfl⟩
    -- names are distinct, so the search finds this user
    cases hfind : c'.users.find? (·.username = name) with
    | none =>
      rw [List.find?_eq_none] at hfind
      exact absurd (by simpa using hname) (hfind u hu)
    | some v =>
      have hv' : v.username = name := by simpa using List.find?_some hfind
      have huv : u = v := List.inj_on_of_nodup_map hv.names hu (List.mem_of_find?_eq_some hfind)
        (by rw [hname, hv'])
      exact ⟨v, rfl, by rw [huv]⟩

theorem normalized_ok {c : Config} {n : NormalizedConfig} (h : normalized net c = .ok n) :
    NormalizedOk n := by
  obtain ⟨c', hc', -⟩ := bind_eq_ok h
  obtain ⟨n', hn', hok, -⟩ := normalized_valid hc'
  rw [h] at hn'
  cases hn'
  exact hok

/-! ## The example configuration -/

/-- The standard library on the texts of the example: dotted quads, prefixes of
    them, and UDP addresses that are their own text. -/
def exampleNet : Net Bytes where
  parseAddr s :=
    match dottedQuad s with
    | some a => .ok (.v4 a)
    | none => .error "unable to parse IP"
  parsePrefix s :=
    match s.splitOn 47 with
    | [a, b] =>
      match dottedQuad a, decOctet b with
      | some a, some b => .ok ⟨.v4 a, b.toNat⟩
      | _, _ => .error "bad prefix"
    | _ => .error "no slash"
  resolveUDPAddr s := .ok s
  remoteString s := s
  addrString _ := []
  quote _ := ""

/-- The users of `config.example.json`: `alice` at `10.20.30.10` and `bob` at
    `10.20.30.11`. -/
def alice : UserConfig where
  username := [97, 108, 105, 99, 101]
  password := [99, 104, 97, 110, 103, 101, 45, 109, 101, 45, 97, 108, 105, 99, 101]
  address := [49, 48, 46, 50, 48, 46, 51, 48, 46, 49, 48]
  allowEncrypt := some true

@[inherit_doc alice]
def bob : UserConfig where
  username := [98, 111, 98]
  password := [99, 104, 97, 110, 103, 101, 45, 109, 101, 45, 98, 111, 98]
  address := [49, 48, 46, 50, 48, 46, 51, 48, 46, 49, 49]
  allowEncrypt := some true

/-- `config.example.json`, with exit mode on or off (it is off in the file). -/
def exampleConfig (exit : Bool) : Config where
  listen := defaultListen
  mtu := 1400
  dns := [[49, 46, 49, 46, 49, 46, 49], [56, 46, 56, 46, 56, 46, 56]]
  exit :=
    { enabled := exit
      tunName := defaultExitTUNName
      tunAddress := [49, 48, 46, 50, 48, 46, 51, 48, 46, 49, 47, 50, 52]
      mtu := 1400
      strictSource := some true }
  users := [alice, bob]

theorem exampleConfig_valid (exit : Bool) :
    validate exampleNet (exampleConfig exit) = .ok (exampleConfig exit) := by
  cases exit <;> decide +kernel

end Iwand.Server
