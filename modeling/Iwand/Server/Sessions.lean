import Iwand.Server.Server
import Iwand.Common.Run

/-!
# The session table

The server keeps its sessions in a heap with two maps of pointers into it. Seen
from outside it is a set of live sessions, `Server.live`: an OPEN takes the
sessions of its remote and of its user out of the set and puts a new one in, a
CLOSE takes one out, and a packet that bears a session's key renews its
`lastSeen`. The lemmas below say this of the functions of the source, under the
invariant `Inv` that ties the maps to the set.

* `removeLoop_spec`: the removal loop, in whatever order it visits the keys.
* `openSession_spec`, `removeSessionLocked_spec`, `sessionForPacket_live`,
  `outboundForAddress_live`: the table operations on the set of live sessions.
-/

namespace Iwand.Server

open Go

variable {R : Type}

/-! ## Live sessions -/

/-- `p` points to the session `x`, and the table has it under its key. -/
def Server.At (s : Server R) (p : ℕ) (x : Session R) : Prop :=
  s.heap[p]? = some x ∧ s.sessions.lookup x.key = some p

/-- The live sessions. -/
def Server.live (s : Server R) : Set (Session R) := {x | ∃ p, s.At p x}

/-- The maps and the heap fit together. -/
structure Linked (s : Server R) : Prop where
  stored : ∀ k p, s.sessions.lookup k = some p → ∃ x, s.heap[p]? = some x ∧ x.key = k
  routed : ∀ a p, s.byAddress.lookup a = some p ↔ ∃ x, s.At p x ∧ x.user.address = a

/-- What holds of each live session. -/
structure SessionOk (net : Net R) (config : NormalizedConfig) (x : Session R) : Prop where
  user : config.users.lookup x.user.username = some x.user
  encrypt : x.encrypt = true → x.user.allowEncrypt = true
  mtu_min : minMTU ≤ x.mtu
  mtu_max : x.mtu ≤ config.mtu
  remote : x.key.remote = net.remoteString x.remote

/-- The invariant of the server. -/
structure Inv (net : Net R) (s : Server R) : Prop where
  config : NormalizedOk s.config
  exit : s.exit = s.config.exit.enabled
  linked : Linked s
  session : ∀ x ∈ s.live, SessionOk net s.config x
  oneUser : ∀ x ∈ s.live, ∀ y ∈ s.live, x.user.username = y.user.username → x = y
  oneRemote : ∀ x ∈ s.live, ∀ y ∈ s.live, x.key.remote = y.key.remote → x = y

section

variable {s : Server R} {p q : ℕ} {x y : Session R}

theorem Server.At.unique (h : s.At p x) (h' : s.At p y) : x = y :=
  Option.some.inj (h.1.symm.trans h'.1)

/-- A key determines the pointer and the session. -/
theorem Server.At.of_key (h : s.At p x) (h' : s.At q y) (hk : x.key = y.key) : p = q ∧ x = y := by
  have hp : p = q := Option.some.inj (by rw [← h.2, ← h'.2, hk])
  subst hp
  exact ⟨rfl, h.unique h'⟩

/-- So does an address. -/
theorem Linked.of_address (hl : Linked s) (h : s.At p x) (h' : s.At q y)
    (ha : x.user.address = y.user.address) : p = q ∧ x = y := by
  have hx := (hl.routed _ _).mpr ⟨x, h, rfl⟩
  have hy := (hl.routed _ _).mpr ⟨y, h', rfl⟩
  rw [ha, hy] at hx
  cases hx
  exact ⟨rfl, h.unique h'⟩

/-- The session that the table has under a key. -/
theorem Linked.at_of_lookup (hl : Linked s) {k : SessionKey} (h : s.sessions.lookup k = some p) :
    ∃ x, s.At p x ∧ x.key = k := by
  obtain ⟨x, hx, hk⟩ := hl.stored k p h
  exact ⟨x, ⟨hx, by rw [hk]; exact h⟩, hk⟩

theorem deref_eq (h : s.At p x) : s.deref p = .ok x := by
  rw [Server.deref, h.1]

/-! ## Removal -/

/-- Removing a live session removes it from both maps and nothing else. -/
theorem removeSessionLocked_spec (hl : Linked s) (h : s.At p x) :
    ∃ s', removeSessionLocked s p = .ok s' ∧ Linked s' ∧
      s' = { s with sessions := s'.sessions, byAddress := s'.byAddress } ∧
      s'.sessions = s.sessions.erase x.key ∧
      ∀ q y, s'.At q y ↔ s.At q y ∧ y.key ≠ x.key := by
  have hroute : s.byAddress.lookup x.user.address = some p := (hl.routed _ _).mpr ⟨x, h, rfl⟩
  rw [removeSessionLocked, deref_eq h, bind_ok]
  simp only [if_pos hroute]
  have hat : ∀ q y, ({ s with sessions := s.sessions.erase x.key
                              byAddress := s.byAddress.erase x.user.address } : Server R).At q y ↔
      s.At q y ∧ y.key ≠ x.key := by
    intro q y
    simp only [Server.At, lookup_erase_ite]
    by_cases hk : y.key = x.key
    · simp [hk]
    · simp [hk]
  refine ⟨_, rfl, ⟨?_, ?_⟩, rfl, rfl, hat⟩
  · intro k q hk
    simp only [lookup_erase_ite] at hk
    split_ifs at hk
    exact hl.stored k q hk
  · intro a q
    simp only [hat, lookup_erase_ite]
    split_ifs with ha
    · -- nobody else has the address
      simp only [false_iff, not_exists, not_and]
      rintro y ⟨hy, hne⟩ haddr
      exact hne (congrArg Session.key (hl.of_address hy h (haddr.trans ha)).2)
    · rw [hl.routed a q]
      constructor
      · rintro ⟨y, hy, rfl⟩
        exact ⟨y, ⟨hy, fun hk => ha (by rw [(hy.of_key h hk).2])⟩, rfl⟩
      · rintro ⟨y, ⟨hy, -⟩, rfl⟩
        exact ⟨y, hy, rfl⟩

/-- The sessions that an OPEN from `remote` for `username` replaces. -/
def Replaced (remote username : Bytes) (x : Session R) : Prop :=
  x.key.remote = remote ∨ x.user.username = username

/-- The loop removes the replaced sessions whose keys it still has to visit. -/
theorem removeLoop_spec (remote username : Bytes) : ∀ (keys : List SessionKey) (s : Server R),
    Linked s → ∃ s', removeLoop remote username keys s = .ok s' ∧ Linked s' ∧
      s' = { s with sessions := s'.sessions, byAddress := s'.byAddress } ∧
      ∀ q y, s'.At q y ↔ s.At q y ∧ ¬ (y.key ∈ keys ∧ Replaced remote username y) := by
  intro keys
  induction keys with
  | nil => exact fun s hl => ⟨s, rfl, hl, rfl, fun q y => by simp⟩
  | cons key keys ih =>
    intro s hl
    rw [removeLoop]
    cases hlook : s.sessions.lookup key with
    | none =>
      obtain ⟨s', hs', hl', hframe, hat⟩ := ih s hl
      refine ⟨s', hs', hl', hframe, fun q y => ?_⟩
      rw [hat q y]
      refine and_congr_right fun hy => ?_
      have hne : y.key ≠ key := fun hk => by
        have := hy.2
        rw [hk, hlook] at this
        cases this
      simp [hne]
    | some p =>
      obtain ⟨x, hx, rfl⟩ := hl.at_of_lookup hlook
      simp only [deref_eq hx, bind_ok]
      by_cases hrep : x.key.remote = remote ∨ x.user.username = username
      · rw [if_pos hrep]
        obtain ⟨s₁, hs₁, hl₁, hframe₁, -, hat₁⟩ := removeSessionLocked_spec hl hx
        obtain ⟨s', hs', hl', hframe, hat⟩ := ih s₁ hl₁
        rw [hs₁, bind_ok]
        refine ⟨s', hs', hl', ?_, fun q y => ?_⟩
        · rw [hframe, hframe₁]
        rw [hat q y, hat₁ q y]
        constructor
        · rintro ⟨⟨hy, hne⟩, hn⟩
          exact ⟨hy, fun ⟨hm, hr⟩ => (List.mem_cons.mp hm).elim hne fun hm => hn ⟨hm, hr⟩⟩
        · rintro ⟨hy, hn⟩
          refine ⟨⟨hy, fun hk => hn ⟨by simp [hk], ?_⟩⟩, fun ⟨hm, hr⟩ => hn ⟨by simp [hm], hr⟩⟩
          rw [(hy.of_key hx hk).2]
          exact hrep
      · rw [if_neg hrep]
        obtain ⟨s', hs', hl', hframe, hat⟩ := ih s hl
        refine ⟨s', hs', hl', hframe, fun q y => ?_⟩
        rw [hat q y]
        refine and_congr_right fun hy => not_congr (and_congr_left fun hr => ?_)
        -- the visited session is not replaced
        have hne : y.key ≠ x.key := fun hk => hrep ((hy.of_key hx hk).2 ▸ hr)
        simp [hne]

/-- **Removal by remote or user**, whatever the order of the iteration. -/
theorem removeSessions_spec (env : Env) (hl : Linked s) (remote username : Bytes) :
    ∃ s', removeSessionsForRemoteOrUserLocked env s remote username = .ok s' ∧ Linked s' ∧
      s' = { s with sessions := s'.sessions, byAddress := s'.byAddress } ∧
      ∀ q y, s'.At q y ↔ s.At q y ∧ ¬ Replaced remote username y := by
  obtain ⟨s', hs', hl', hframe, hat⟩ :=
    removeLoop_spec remote username (env.order.keys s.sessions.keys) s hl
  refine ⟨s', hs', hl', hframe, fun q y => ?_⟩
  rw [hat q y]
  refine and_congr_right fun hy => not_congr (and_iff_right ?_)
  rw [(env.order.perm _).mem_iff, ← AList.mem_keys, ← AList.lookup_isSome, hy.2]
  rfl

/-! ## Insertion -/

/-- A pointer in the table lies in the heap. -/
theorem Linked.lt_of_lookup (hl : Linked s) {k : SessionKey} (h : s.sessions.lookup k = some p) :
    p < s.heap.length := by
  obtain ⟨x, hx, -⟩ := hl.stored k p h
  exact (List.getElem?_eq_some_iff.mp hx).1

/-- An allocation changes no live session. -/
theorem at_alloc (hl : Linked s) (next : Session R) (q : ℕ) (y : Session R) :
    ({ s with heap := s.heap ++ [next] } : Server R).At q y ↔ s.At q y := by
  simp only [Server.At]
  constructor
  · rintro ⟨hy, hlook⟩
    rw [List.getElem?_append_left (hl.lt_of_lookup hlook)] at hy
    exact ⟨hy, hlook⟩
  · rintro ⟨hy, hlook⟩
    exact ⟨by rw [List.getElem?_append_left (hl.lt_of_lookup hlook), hy], hlook⟩

theorem Linked.alloc (hl : Linked s) (next : Session R) :
    Linked ({ s with heap := s.heap ++ [next] } : Server R) := by
  refine ⟨fun k q hk => ?_, fun a q => ?_⟩
  · obtain ⟨x, hx, hkey⟩ := hl.stored k q hk
    exact ⟨x, by rw [List.getElem?_append_left (hl.lt_of_lookup hk), hx], hkey⟩
  · simp only [at_alloc hl, hl.routed a q]

/-- The two maps with the pointer `p` to a new session. -/
def withSession (s : Server R) (p : ℕ) (next : Session R) : Server R :=
  { s with sessions := s.sessions.insert next.key p
           byAddress := s.byAddress.insert next.user.address p }

/-- A new session at an unused pointer, with an unused key and address. -/
theorem withSession_spec {next : Session R} (hl : Linked s) (hp : s.heap[p]? = some next)
    (hunused : ∀ y, ¬ s.At p y)
    (hkey : ∀ q y, s.At q y → y.key ≠ next.key)
    (haddr : ∀ q y, s.At q y → y.user.address ≠ next.user.address) :
    Linked (withSession s p next) ∧
      ∀ q y, (withSession s p next).At q y ↔ q = p ∧ y = next ∨ s.At q y := by
  have hat : ∀ q y, (withSession s p next).At q y ↔ q = p ∧ y = next ∨ s.At q y := by
    intro q y
    simp only [Server.At, withSession, lookup_insert_ite]
    by_cases hk : y.key = next.key
    · simp only [if_pos hk, Option.some.injEq]
      constructor
      · rintro ⟨hy, rfl⟩
        exact .inl ⟨rfl, Option.some.inj (hy.symm.trans hp)⟩
      · rintro (⟨rfl, rfl⟩ | hy)
        · exact ⟨hp, rfl⟩
        · exact absurd hk (hkey q y hy)
    · rw [if_neg hk]
      refine ⟨.inr, ?_⟩
      rintro (⟨-, rfl⟩ | hy)
      · exact absurd rfl hk
      · exact hy
  refine ⟨⟨fun k q hk => ?_, fun a q => ?_⟩, hat⟩
  · simp only [withSession, lookup_insert_ite] at hk
    split_ifs at hk with hkey
    · cases hk
      exact ⟨next, hp, hkey.symm⟩
    · exact hl.stored k q hk
  · simp only [hat]
    simp only [withSession, lookup_insert_ite]
    by_cases ha : a = next.user.address
    · simp only [if_pos ha, Option.some.injEq]
      constructor
      · rintro rfl
        exact ⟨next, .inl ⟨rfl, rfl⟩, ha.symm⟩
      · rintro ⟨y, ⟨rfl, rfl⟩ | hy, hya⟩
        · rfl
        · exact absurd (hya.trans ha) (haddr q y hy)
    · rw [if_neg ha, hl.routed a q]
      constructor
      · rintro ⟨y, hy, hya⟩
        exact ⟨y, .inr hy, hya⟩
      · rintro ⟨y, ⟨rfl, rfl⟩ | hy, hya⟩
        · exact absurd hya.symm ha
        · exact ⟨y, hy, hya⟩

variable {net : Net R}

/-- Live sessions have different keys. -/
theorem Inv.eq_of_key (h : Inv net s) (hx : x ∈ s.live) (hy : y ∈ s.live) (hk : x.key = y.key) :
    x = y :=
  h.oneRemote x hx y hy (by rw [hk])

/-- The table after `next` was allocated, the sessions that it replaces were removed
    and it was inserted. -/
theorem replace_spec (env : Env) {next : Session R} (h : Inv net s)
    (hnext : SessionOk net s.config next) :
    ∃ s₁, removeSessionsForRemoteOrUserLocked env { s with heap := s.heap ++ [next] }
        (net.remoteString next.remote) next.user.username = .ok s₁ ∧
      s₁.config = s.config ∧ s₁.exit = s.exit ∧ Linked (withSession s₁ s.heap.length next) ∧
      ∀ y, y ∈ (withSession s₁ s.heap.length next).live ↔
        y = next ∨ y ∈ s.live ∧ ¬ Replaced next.key.remote next.user.username y := by
  obtain ⟨s₁, hs₁, hl₁, hframe, hat₁⟩ := removeSessions_spec env (h.linked.alloc next)
    (net.remoteString next.remote) next.user.username
  simp only [at_alloc h.linked, ← hnext.remote] at hat₁
  have hp : s₁.heap[s.heap.length]? = some next := by
    rw [hframe]
    simp
  have hfresh : ∀ y, ¬ s₁.At s.heap.length y := fun y hy =>
    Nat.lt_irrefl _ (h.linked.lt_of_lookup ((hat₁ _ y).mp hy).1.2)
  have hkey : ∀ q y, s₁.At q y → y.key ≠ next.key := fun q y hy hk =>
    ((hat₁ q y).mp hy).2 (.inl (by rw [hk]))
  have haddr : ∀ q y, s₁.At q y → y.user.address ≠ next.user.address := by
    intro q y hy ha
    -- an address belongs to one user only
    obtain ⟨hy, hrep⟩ := (hat₁ q y).mp hy
    have huser := h.config.address_inj _ _ _ _ (h.session y ⟨q, hy⟩).user hnext.user ha
    exact hrep (.inr (by rw [huser]))
  obtain ⟨hl₂, hat₂⟩ := withSession_spec hl₁ hp hfresh hkey haddr
  refine ⟨s₁, hs₁, by rw [hframe], by rw [hframe], hl₂, fun y => ?_⟩
  simp only [Server.live, Set.mem_ofPred_eq, hat₂, hat₁]
  constructor
  · rintro ⟨q, ⟨-, rfl⟩ | ⟨hy, hrep⟩⟩
    · exact .inl rfl
    · exact .inr ⟨⟨q, hy⟩, hrep⟩
  · rintro (rfl | ⟨⟨q, hy⟩, hrep⟩)
    · exact ⟨_, .inl ⟨rfl, rfl⟩⟩
    · exact ⟨q, .inr ⟨hy, hrep⟩⟩

/-- The invariant after `next` took the place of the sessions that it replaces. -/
theorem Inv.replaced {s' : Server R} {next : Session R} (h : Inv net s)
    (hnext : SessionOk net s.config next) (hl : Linked s') (hconfig : s'.config = s.config)
    (hexit : s'.exit = s.exit)
    (hlive : ∀ y, y ∈ s'.live ↔
      y = next ∨ y ∈ s.live ∧ ¬ Replaced next.key.remote next.user.username y) : Inv net s' := by
  refine ⟨hconfig ▸ h.config, by rw [hexit, hconfig, h.exit], hl, ?_, ?_, ?_⟩
  · intro y hy
    rw [hconfig]
    rcases (hlive y).mp hy with rfl | ⟨hy, -⟩
    · exact hnext
    · exact h.session y hy
  · intro y hy z hz hname
    rcases (hlive y).mp hy with rfl | ⟨hy, hry⟩ <;> rcases (hlive z).mp hz with rfl | ⟨hz, hrz⟩
    · rfl
    · exact absurd (.inr hname.symm) hrz
    · exact absurd (.inr hname) hry
    · exact h.oneUser y hy z hz hname
  · intro y hy z hz hrem
    rcases (hlive y).mp hy with rfl | ⟨hy, hry⟩ <;> rcases (hlive z).mp hz with rfl | ⟨hz, hrz⟩
    · rfl
    · exact absurd (.inl hrem.symm) hrz
    · exact absurd (.inl hrem) hry
    · exact h.oneRemote y hy z hz hrem

/-- **Opening a session**: the sessions of the same remote and of the same user
    are replaced by the new one, and an OPENACK is written. -/
theorem openSession_spec (env : Env) {next : Session R} (h : Inv net s)
    (hnext : SessionOk net s.config next) :
    ∃ s' ack, openSession net env s next = .ok ⟨s', [.udp ack next.remote], env.writeErr⟩ ∧
      buildOpenAck next.key.token next.key.sessionID next.mtu next.user.address s.config.dns
        next.encrypt = .ok ack ∧
      Inv net s' ∧ s'.config = s.config ∧
      ∀ y, y ∈ s'.live ↔
        y = next ∨ y ∈ s.live ∧ ¬ Replaced next.key.remote next.user.username y := by
  obtain ⟨s₁, hs₁, hconfig, hexit, hl, hlive⟩ := replace_spec env h hnext
  obtain ⟨a, ha, -⟩ := h.config.address4 _ _ hnext.user
  obtain ⟨ds, hds, -⟩ := h.config.dns4
  have hack : buildOpenAck next.key.token next.key.sessionID next.mtu next.user.address s.config.dns
      next.encrypt = .ok (openAck next.key.token next.key.sessionID next.mtu a ds next.encrypt) := by
    rw [ha, hds, buildOpenAck_eq]
  refine ⟨withSession s₁ s.heap.length next, _, ?_, hack, h.replaced hnext hl hconfig hexit hlive,
    hconfig, hlive⟩
  have hack₁ := hack
  rw [← hconfig] at hack₁
  rw [openSession]
  simp only [hs₁, bind_ok, hack₁]
  rfl

/-! ## Closing and renewing -/

/-- **Closing a session.** -/
theorem removeSessionLocked_live (h : Inv net s) (hx : s.At p x) :
    ∃ s', removeSessionLocked s p = .ok s' ∧ Inv net s' ∧ s'.config = s.config ∧
      ∀ y, y ∈ s'.live ↔ y ∈ s.live ∧ y.key ≠ x.key := by
  obtain ⟨s', hs', hl', hframe, -, hat⟩ := removeSessionLocked_spec h.linked hx
  have hconfig : s'.config = s.config := by rw [hframe]
  have hexit : s'.exit = s.exit := by rw [hframe]
  have hlive : ∀ y, y ∈ s'.live ↔ y ∈ s.live ∧ y.key ≠ x.key := by
    intro y
    simp only [Server.live, Set.mem_ofPred_eq, hat]
    exact exists_and_right
  refine ⟨s', hs', ⟨hconfig ▸ h.config, by rw [hexit, hconfig, h.exit], hl', ?_, ?_, ?_⟩, hconfig,
    hlive⟩
  · intro y hy
    rw [hconfig]
    exact h.session y ((hlive y).mp hy).1
  · exact fun y hy z hz => h.oneUser y ((hlive y).mp hy).1 z ((hlive z).mp hz).1
  · exact fun y hy z hz => h.oneRemote y ((hlive y).mp hy).1 z ((hlive z).mp hz).1

/-- The session under `key`, seen at `now`; other sessions are unchanged. -/
def renew (key : SessionKey) (now : ℕ) (x : Session R) : Session R :=
  if x.key = key then { x with lastSeen := now } else x

section

variable (key : SessionKey) (now : ℕ) (x : Session R)

/-- Only `lastSeen` is written. -/
theorem renew_eq : renew key now x = { x with lastSeen := (renew key now x).lastSeen } := by
  unfold renew
  split_ifs <;> rfl

@[simp] theorem renew_key : (renew key now x).key = x.key := by rw [renew_eq]
@[simp] theorem renew_user : (renew key now x).user = x.user := by rw [renew_eq]
@[simp] theorem renew_remote : (renew key now x).remote = x.remote := by rw [renew_eq]
@[simp] theorem renew_encrypt : (renew key now x).encrypt = x.encrypt := by rw [renew_eq]
@[simp] theorem renew_mtu : (renew key now x).mtu = x.mtu := by rw [renew_eq]

end

/-- `s'` is `s` after a packet bearing `key` was seen. -/
structure Renewed (net : Net R) (s : Server R) (key : SessionKey) (now : ℕ) (s' : Server R) :
    Prop where
  inv : Inv net s'
  config : s'.config = s.config
  sessions : s'.sessions = s.sessions
  byAddress : s'.byAddress = s.byAddress
  live : ∀ y, y ∈ s'.live ↔ ∃ z ∈ s.live, y = renew key now z

theorem at_set (h : s.At p x) (now q : ℕ) (y : Session R) :
    ({ s with heap := s.heap.set p { x with lastSeen := now } } : Server R).At q y ↔
      ∃ z, s.At q z ∧ y = renew x.key now z := by
  have hp : p < s.heap.length := (List.getElem?_eq_some_iff.mp h.1).1
  simp only [Server.At, List.getElem?_set]
  by_cases hq : p = q
  · subst hq
    simp only [if_true, if_pos hp, Option.some.injEq]
    constructor
    · rintro ⟨rfl, -⟩
      exact ⟨x, h, by simp [renew]⟩
    · rintro ⟨z, hz, rfl⟩
      rw [← h.unique hz]
      exact ⟨by simp [renew], by rw [renew_key]; exact h.2⟩
  · simp only [if_neg hq]
    have hne : ∀ z, s.At q z → renew x.key now z = z := fun z hz =>
      if_neg fun hk => hq (hz.of_key h hk).1.symm
    constructor
    · rintro ⟨hy, hlook⟩
      exact ⟨y, ⟨hy, hlook⟩, (hne y ⟨hy, hlook⟩).symm⟩
    · rintro ⟨z, hz, rfl⟩
      rw [hne z hz]
      exact hz

theorem renewed_set (h : Inv net s) (hx : s.At p x) (now : ℕ) :
    Renewed net s x.key now { s with heap := s.heap.set p { x with lastSeen := now } } := by
  have hlive : ∀ y, y ∈ ({ s with heap := s.heap.set p { x with lastSeen := now } } : Server R).live ↔
      ∃ z ∈ s.live, y = renew x.key now z := by
    intro y
    simp only [Server.live, Set.mem_ofPred_eq, at_set hx]
    constructor
    · rintro ⟨q, z, hz, rfl⟩
      exact ⟨z, ⟨q, hz⟩, rfl⟩
    · rintro ⟨z, ⟨q, hz⟩, rfl⟩
      exact ⟨q, z, hz, rfl⟩
  refine ⟨⟨h.config, h.exit, ⟨?_, ?_⟩, ?_, ?_, ?_⟩, rfl, rfl, rfl, hlive⟩
  · intro k q hk
    obtain ⟨z, hz, rfl⟩ := h.linked.at_of_lookup hk
    exact ⟨renew x.key now z, ((at_set hx now q _).mpr ⟨z, hz, rfl⟩).1, by simp⟩
  · intro a q
    rw [h.linked.routed a q]
    simp only [at_set hx]
    constructor
    · rintro ⟨z, hz, ha⟩
      exact ⟨_, ⟨z, hz, rfl⟩, by simpa using ha⟩
    · rintro ⟨_, ⟨z, hz, rfl⟩, ha⟩
      exact ⟨z, hz, by simpa using ha⟩
  · intro y hy
    obtain ⟨z, hz, rfl⟩ := (hlive y).mp hy
    obtain ⟨h1, h2, h3, h4, h5⟩ := h.session z hz
    exact ⟨by rw [renew_user]; exact h1, by simpa using h2, by simpa using h3, by simpa using h4,
      by simpa using h5⟩
  · intro y hy y' hy' hname
    obtain ⟨z, hz, rfl⟩ := (hlive y).mp hy
    obtain ⟨z', hz', rfl⟩ := (hlive y').mp hy'
    rw [h.oneUser z hz z' hz' (by simpa using hname)]
  · intro y hy y' hy' hrem
    obtain ⟨z, hz, rfl⟩ := (hlive y).mp hy
    obtain ⟨z', hz', rfl⟩ := (hlive y').mp hy'
    rw [h.oneRemote z hz z' hz' (by simpa using hrem)]

/-! ## Lookups -/

/-- The key that a packet from `remote` bears. -/
def packetKey (net : Net R) (remote : R) (packet : Bytes) : SessionKey :=
  ⟨net.remoteString remote, Wire.token packet, Wire.sessionId packet⟩

theorem keyFromPacket_eq (remote : R) {packet : Bytes} (h8 : 8 ≤ packet.length) :
    keyFromPacket net remote packet = .ok (packetKey net remote packet) := by
  rw [keyFromPacket, slice_eq (by omega) (by omega), bind_ok, slice_eq (by omega) h8, bind_ok,
    packetKey, Wire.token, Wire.sessionId, List.drop_take, List.drop_take]
  rfl

/-- A key is looked up in the set of live sessions. -/
theorem Linked.lookup_none_iff (hl : Linked s) (k : SessionKey) :
    s.sessions.lookup k = none ↔ ∀ x ∈ s.live, x.key ≠ k := by
  constructor
  · rintro hnone x ⟨p, hx⟩ rfl
    rw [hx.2] at hnone
    cases hnone
  · intro hall
    cases hlook : s.sessions.lookup k with
    | none => rfl
    | some p =>
      obtain ⟨x, hx, hk⟩ := hl.at_of_lookup hlook
      exact absurd hk (hall x ⟨p, hx⟩)

/-- The session of a packet, with its `lastSeen` renewed. -/
theorem sessionForPacket_live (h : Inv net s) (env : Env) (remote : R) {packet : Bytes}
    (h8 : 8 ≤ packet.length) (hx : x ∈ s.live) (hk : x.key = packetKey net remote packet) :
    ∃ s', sessionForPacket net env s remote packet = .ok (s', some (sessionToOutbound x)) ∧
      Renewed net s x.key env.now s' := by
  obtain ⟨p, hx⟩ := hx
  refine ⟨_, ?_, renewed_set h hx env.now⟩
  rw [sessionForPacket, keyFromPacket_eq remote h8, bind_ok, ← hk]
  simp only [hx.2, deref_eq hx, bind_ok]
  rfl

theorem sessionForPacket_none (hl : Linked s) (env : Env) (remote : R) {packet : Bytes}
    (h8 : 8 ≤ packet.length) (hnone : ∀ x ∈ s.live, x.key ≠ packetKey net remote packet) :
    sessionForPacket net env s remote packet = .ok (s, none) := by
  rw [sessionForPacket, keyFromPacket_eq remote h8, bind_ok]
  simp only [(hl.lookup_none_iff _).mpr hnone]
  rfl

/-- The session of an address. -/
theorem outboundForAddress_live (hl : Linked s) (hx : x ∈ s.live) :
    outboundForAddress s x.user.address = .ok (some (sessionToOutbound x)) := by
  obtain ⟨p, hx⟩ := hx
  have hroute := (hl.routed _ _).mpr ⟨x, hx, rfl⟩
  simp only [outboundForAddress, hroute, deref_eq hx, bind_ok]
  rfl

theorem outboundForAddress_none (hl : Linked s) {a : Addr}
    (hnone : ∀ x ∈ s.live, x.user.address ≠ a) : outboundForAddress s a = .ok none := by
  rw [outboundForAddress]
  cases hlook : s.byAddress.lookup a with
  | none => rfl
  | some p =>
    obtain ⟨x, hx, ha⟩ := (hl.routed a p).mp hlook
    exact absurd ha (hnone x ⟨p, hx⟩)

end

end Iwand.Server
