import Iwand.Server.Config

/-!
# Normalization is sound

`normalized` on every configuration: any number of users and DNS servers, and
any texts. It validates first, which fills in defaults while it checks, and then
parses every address a second time with functions that panic.

`DecodeConfig` is modelled around the JSON decoder, which is a parameter.

* `validate_noPanic`, `validate_idempotent`: validation itself.
* `normalized_from`: what a configuration that passes is turned into
  (`NormalizedFrom`).
* `normalization_sound`: the three together, and a configuration that
  `DecodeConfig` returned.
-/

namespace Iwand.Server

open Go

variable {R : Type}

/-! ## `DecodeConfig` -/

/-- What the second call of `decoder.Decode` finds behind the first value. -/
inductive Rest where
  | eof
  | value
  | error (msg : String)

/-- `json.NewDecoder` with `DisallowUnknownFields`, on the bytes of the reader. -/
structure Decoder where
  /-- The first call of `Decode`, on a `Config`. -/
  decode : Bytes → Except String Config
  /-- The second call. -/
  rest : Bytes → Rest

/-- `DecodeConfig` (lines 78–95). -/
def decodeConfig (net : Net R) (decoder : Decoder) (reader : Bytes) : Go Config :=
  match decoder.decode reader with
  | .error msg => fail msg
  | .ok config =>
    match decoder.rest reader with
    | .value => fail "config must contain a single JSON object"
    | .error msg => fail msg
    | .eof => validate net config

/-! ## Validation -/

variable {net : Net R}

theorem wrap_noPanic {α : Type} (context : String) (x : Except String α) : NoPanic (wrap context x) := by
  cases x with
  | error msg => exact NoPanic.fail _
  | ok a => exact NoPanic.ok a

theorem validateExit_noPanic (c : Config) : NoPanic (validateExit net c) := by
  unfold validateExit
  by_cases hen : c.exit.enabled = false
  · rw [if_pos hen]
    exact NoPanic.ok c
  · rw [if_neg hen]
    exact .check (.check (.bind (wrap_noPanic _ _) fun p _ => .check (.check (.ok _))))

theorem validateUsers_noPanic (users : List UserConfig) : ∀ (index : ℕ) (usernames addresses : List Bytes),
    NoPanic (validateUsers net index usernames addresses users) := by
  induction users with
  | nil => exact fun _ _ _ => NoPanic.ok ()
  | cons user users ih =>
    intro index usernames addresses
    rw [validateUsers]
    exact .check (.check (.check (.check (.bind (wrap_noPanic _ _) fun a _ =>
      .check (.check (ih _ _ _))))))

theorem validateDNS_noPanic (dns : List Bytes) : ∀ index, NoPanic (validateDNS net index dns) := by
  induction dns with
  | nil => exact fun _ => NoPanic.ok ()
  | cons rawDNS rest ih =>
    intro index
    rw [validateDNS]
    exact .bind (wrap_noPanic _ _) fun a _ => .check (ih _)

/-- Validation returns a configuration or an error. -/
theorem validate_noPanic (c : Config) : NoPanic (validate net c) := by
  unfold validate
  exact .check (.bind (validateExit_noPanic _) fun c₁ _ => .bind (wrap_noPanic _ _) fun _ _ =>
    .check (.bind (validateUsers_noPanic _ _ _ _) fun _ _ => .bind (validateDNS_noPanic _ _)
      fun _ _ => .check (.ok _)))

/-- **Validating twice is validating once.** -/
theorem validate_idempotent (c : Config) : (validate net c >>= validate net) = validate net c := by
  cases h : validate net c with
  | error e => rfl
  | ok c' => exact (validate_checked h).1.validate

/-- What `DecodeConfig` returns is validated. -/
theorem decodeConfig_validate {decoder : Decoder} {reader : Bytes} {c : Config}
    (h : decodeConfig net decoder reader = .ok c) : validate net c = .ok c := by
  unfold decodeConfig at h
  split at h
  · cases h
  · split at h
    · cases h
    · cases h
    · exact (validate_checked h).1.validate

/-! ## Normalization -/

/-- What `normalized` makes of the configuration `c`. -/
structure NormalizedFrom (net : Net R) (c : Config) (n : NormalizedConfig) : Prop where
  /-- The map has exactly one entry for each configured user, under its name. -/
  names : n.users.keys.Perm (c.users.map (·.username))
  entry : ∀ u ∈ c.users, ∃ a, net.parseAddr u.address = .ok (.v4 a) ∧ a ≠ Vector.replicate 4 0 ∧
    n.users.lookup u.username = some
      { username := u.username
        password := u.password
        address := .v4 a
        allowEncrypt := u.allowEncrypt.getD true
        xorKey := deriveXORKey u.username u.password }
  addresses : ∀ name₁ name₂ u₁ u₂, n.users.lookup name₁ = some u₁ →
    n.users.lookup name₂ = some u₂ → name₁ ≠ name₂ → u₁.address ≠ u₂.address
  /-- The DNS servers are the parsed ones, in order. -/
  dns : ∃ ds : List (Vector UInt8 4), c.dns.map net.parseAddr = ds.map (fun d => .ok (.v4 d)) ∧
    n.dns = ds.map .v4 ∧ ds.length ≤ 2
  mtu : n.mtu = if c.mtu = 0 then defaultMTU else c.mtu
  mtu_range : minMTU ≤ n.mtu ∧ n.mtu ≤ maxMTU
  exit : n.exit.enabled = c.exit.enabled
  /-- The MTU of the exit device defaults to the MTU after its own default. -/
  exit_mtu : n.exit.enabled = true →
    n.exit.mtu = (if c.exit.mtu = 0 then n.mtu else c.exit.mtu) ∧
      minMTU ≤ n.exit.mtu ∧ n.exit.mtu ≤ maxMTU

theorem normalized_from {c : Config} {n : NormalizedConfig} (h : normalized net c = .ok n) :
    NormalizedFrom net c n := by
  obtain ⟨c', hc', -⟩ := bind_eq_ok h
  obtain ⟨-, husers, hdns, hmtu, hen, hexit⟩ := validate_checked hc'
  have hv := validate_ok hc'
  have hok := normalized_ok h
  have hentry := normalized_users h
  obtain ⟨tun, ds, m, heq, hparse, -⟩ := normalized_eq hc'
  have hlen : ds.length = c'.dns.length := by simpa using (congrArg List.length hparse).symm
  rw [h] at heq
  cases heq
  constructor
  case names =>
    rw [List.perm_ext_iff_of_nodup m.keys_nodup (husers ▸ hv.names)]
    intro name
    rw [← AList.mem_keys, ← AList.lookup_isSome, Option.isSome_iff_exists, List.mem_map]
    constructor
    · rintro ⟨user, hlook⟩
      obtain ⟨u, hu, hname, -⟩ := (hentry name user).mp hlook
      exact ⟨u, hu, hname⟩
    · rintro ⟨u, hu, hname⟩
      exact ⟨_, (hentry name _).mpr ⟨u, hu, hname, rfl⟩⟩
  case entry =>
    intro u hu
    obtain ⟨a, ha, hparsed, hne⟩ := (hv.users u (husers ▸ hu)).parsed
    refine ⟨a, ha, hne, (hentry _ _).mpr ⟨u, hu, rfl, ?_⟩⟩
    rw [UserConfig.configured, hparsed]
  case addresses =>
    intro name₁ name₂ u₁ u₂ h₁ h₂ hne haddr
    have hu := hok.address_inj _ _ _ _ h₁ h₂ haddr
    exact hne (by rw [← hok.username _ _ h₁, ← hok.username _ _ h₂, hu])
  case dns => exact ⟨ds, hdns ▸ hparse, rfl, hlen ▸ hv.dns_two⟩
  case mtu => exact hmtu
  case mtu_range => exact ⟨hv.mtu_min, hv.mtu_max⟩
  case exit => exact hen
  case exit_mtu =>
    intro he
    obtain ⟨hexit, hemtu⟩ := hexit he
    exact ⟨hemtu, hexit.mtu_min, hexit.mtu_max⟩

/-- **Normalization is sound.** It returns an error, never a panic, or the
    configuration that `NormalizedFrom` describes. Validating again changes nothing, so
    a configuration from `DecodeConfig` is normalized. -/
theorem normalization_sound (net : Net R) (decoder : Decoder) (c : Config) :
    ((∃ msg, normalized net c = .error (.err msg)) ∨
      ∃ n, normalized net c = .ok n ∧ NormalizedFrom net c n) ∧
    (validate net c >>= validate net) = validate net c ∧
    ∀ (reader : Bytes) (c' : Config), decodeConfig net decoder reader = .ok c' →
      validate net c' = .ok c' ∧ ∃ n, normalized net c' = .ok n ∧ NormalizedFrom net c' n := by
  have hsound : ∀ {c c' : Config}, validate net c = .ok c' →
      ∃ n, normalized net c = .ok n ∧ NormalizedFrom net c n := by
    intro c c' h
    obtain ⟨tun, ds, m, hn, -⟩ := normalized_eq h
    exact ⟨_, hn, normalized_from hn⟩
  refine ⟨?_, validate_idempotent c, fun reader c' hdec => ?_⟩
  · cases h : validate net c with
    | ok c' => exact .inr (hsound h)
    | error e =>
      cases e with
      | err msg => exact .inl ⟨msg, by rw [normalized, h, bind_error]⟩
      | panic p => exact absurd h (validate_noPanic c p)
  · have hc := decodeConfig_validate hdec
    exact ⟨hc, hsound hc⟩

end Iwand.Server
