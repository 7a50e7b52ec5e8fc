import Iwand.Common.Netdev

/-!
# Network interfaces of FreeBSD

The requests of tun(4) and netintro(4). An interface has a set of IPv4 addresses, and
a descriptor of a TUN device has an interface, which keeps its descriptor when it is
renamed. Addresses and masks are words in host order.

* `BsdNet.wp_aliasAddr`, `BsdNet.wp_delAddr`, `BsdNet.wp_getAddr`, `BsdNet.wp_getFlags`,
  `BsdNet.wp_setFlags`, `BsdNet.wp_setMtu`: one rule for each request.
* `tableBsd`: a kernel that keeps a table of interfaces.
-/

namespace Iwand.Netdev.Bsd

open Syscall

/-- The requests: `TUNSLMODE`, `TUNSIFHEAD`, `TUNSIFMODE`, `TUNSTRANSIENT`, `TUNGIFNAME`,
    `SIOCSIFNAME`, `SIOCAIFADDR`, `SIOCDIFADDR`, `SIOCGIFADDR`, `SIOCGIFFLAGS`,
    `SIOCSIFFLAGS` and `SIOCSIFMTU`. -/
inductive Req where
  | slMode (off : Int)
  | ifHead (off : Int)
  | ifMode (mode : UInt32)
  | transient (on : Int)
  | ifName
  | setName (name new : Bytes)
  | aliasAddr (name : Bytes) (ip mask broad : UInt32)
  | delAddr (name : Bytes) (ip : UInt32)
  | getAddr (name : Bytes)
  | getFlags (name : Bytes)
  | setFlags (name : Bytes) (flags : UInt16)
  | setMtu (name : Bytes) (mtu : Int)

/-- What a request leaves in the `struct ifreq`. -/
structure Ifreq where
  name : Bytes
  addr : UInt32
  flags : UInt16

/-- An interface: the netmask of each of its addresses, whether it is up, and its
    MTU. -/
@[ext]
structure Iface where
  addrs : UInt32 → Option UInt32
  up : Bool
  mtu : Int

/-- The interface layer of a kernel in the states `D`. A new address may also bring
    its interface up. -/
structure BsdNet (D : Type) extends Device Req Ifreq D where
  iface : D → Bytes → Iface
  attached : D → Int → Option Bytes
  ifName : ∀ {d fd r d'}, io d fd .ifName (.ok r) d' →
    attached d' fd = some r.name ∧ r.name.length ≤ 15
  setName : ∀ {d fd old new r d'}, io d fd (.setName old new) (.ok r) d' → new.length ≤ 15 → ∀ f,
    attached d' f = if attached d f = some old then some new else attached d f
  aliasAddr : ∀ {d fd n ip mask broad r d'}, io d fd (.aliasAddr n ip mask broad) (.ok r) d' →
    ∃ up, iface d' = Function.update (iface d) n { iface d n with
      addrs := Function.update (iface d n).addrs ip (some mask), up := up }
  delAddr : ∀ {d fd n ip r d'}, io d fd (.delAddr n ip) (.ok r) d' →
    iface d' = Function.update (iface d) n { iface d n with
      addrs := Function.update (iface d n).addrs ip none }
  getAddr : ∀ {d fd n r d'}, io d fd (.getAddr n) (.ok r) d' →
    iface d' = iface d ∧ (iface d n).addrs r.addr ≠ none
  getFlags : ∀ {d fd n r d'}, io d fd (.getFlags n) (.ok r) d' → iface d' = iface d
  setFlags : ∀ {d fd n f r d'}, io d fd (.setFlags n f) (.ok r) d' →
    iface d' = Function.update (iface d) n { iface d n with up := f &&& iffUp ≠ 0 }
  setMtu : ∀ {d fd n mtu r d'}, io d fd (.setMtu n mtu) (.ok r) d' →
    iface d' = Function.update (iface d) n { iface d n with mtu := mtu }

namespace BsdNet

variable {D α : Type} {N : BsdNet D}

/-- The request asks an interface without addresses for its address, or a descriptor
    without an interface for its name. -/
def Vain (N : BsdNet D) (d : D) (fd : Int) : Req → Prop
  | .ifName => N.attached d fd = none
  | .getAddr n => ∀ ip, (N.iface d n).addrs ip = none
  | _ => False

/-- The kernel refuses nothing that it can do. -/
structure Grants (N : BsdNet D) : Prop where
  noFd : ∀ {d e}, ¬ N.noFd d e
  io : ∀ {d fd req e d'}, N.io d fd req (.error e) d' → N.Vain d fd req

/-- The interface layer, when it grants each request that it can. -/
def granting (N : BsdNet D) : BsdNet D where
  toDevice := N.only fun d fd req r => r.isOk = true ∨ N.Vain d fd req
  iface := N.iface
  attached := N.attached
  ifName h := N.ifName h.2
  setName h := N.setName h.2
  aliasAddr h := N.aliasAddr h.2
  delAddr h := N.delAddr h.2
  getAddr h := N.getAddr h.2
  getFlags h := N.getFlags h.2
  setFlags h := N.setFlags h.2
  setMtu h := N.setMtu h.2

theorem granting_grants (N : BsdNet D) : N.granting.Grants where
  noFd h := h
  io h := by
    rcases h.1 with hok | hvain
    · exact absurd hok (by simp [Except.isOk, Except.toBool])
    · exact hvain

section

variable {s : Process D} {fd : Int} {n : Bytes} {Q : α → Process D → Prop}
  {f : Except ℕ Ifreq → Program (FdCall Req) (FdAns Req Ifreq) α}

theorem wp_aliasAddr {ip mask broad : UInt32} (hfd : s.fds fd ≠ none)
    (hok : ∀ r d, (∃ up, N.iface d n = { N.iface s.dev n with
        addrs := Function.update (N.iface s.dev n).addrs ip (some mask), up := up }) →
      Untouched N.iface n s { s with dev := d } → wp N.kernel (f (.ok r)) Q { s with dev := d })
    (herr : ∀ e d, N.io s.dev fd (.aliasAddr n ip mask broad) (.error e) d →
      wp N.kernel (f (.error e)) Q s) :
    wp N.kernel (FdCall.doIoctl fd (.aliasAddr n ip mask broad) >>= f) Q s := by
  refine wp_request (T := fun _ (i j : Iface) => ∃ up, j = { i with
    addrs := Function.update i.addrs ip (some mask), up := up }) (fun hd => ?_) hfd hok herr
  obtain ⟨up, h⟩ := N.aliasAddr hd
  exact ⟨_, ⟨up, rfl⟩, h⟩

theorem wp_delAddr {ip : UInt32} (hfd : s.fds fd ≠ none)
    (hok : ∀ r d, N.iface d n = { N.iface s.dev n with
        addrs := Function.update (N.iface s.dev n).addrs ip none } →
      Untouched N.iface n s { s with dev := d } → wp N.kernel (f (.ok r)) Q { s with dev := d })
    (herr : ∀ e d, N.io s.dev fd (.delAddr n ip) (.error e) d → wp N.kernel (f (.error e)) Q s) :
    wp N.kernel (FdCall.doIoctl fd (.delAddr n ip) >>= f) Q s :=
  wp_request (T := fun _ (i j : Iface) => j = { i with addrs := Function.update i.addrs ip none })
    (fun hd => ⟨_, rfl, N.delAddr hd⟩) hfd hok herr

theorem wp_getAddr (hfd : s.fds fd ≠ none)
    (hok : ∀ r d, N.iface d n = N.iface s.dev n ∧ (N.iface s.dev n).addrs r.addr ≠ none →
      Untouched N.iface n s { s with dev := d } → wp N.kernel (f (.ok r)) Q { s with dev := d })
    (herr : ∀ e d, N.io s.dev fd (.getAddr n) (.error e) d → wp N.kernel (f (.error e)) Q s) :
    wp N.kernel (FdCall.doIoctl fd (.getAddr n) >>= f) Q s := by
  refine wp_request (T := fun r (i j : Iface) => j = i ∧ i.addrs r.addr ≠ none) (fun hd => ?_) hfd
    hok herr
  obtain ⟨hsame, haddr⟩ := N.getAddr hd
  exact ⟨_, ⟨rfl, haddr⟩, by rw [hsame, Function.update_eq_self]⟩

theorem wp_getFlags (hfd : s.fds fd ≠ none)
    (hok : ∀ r d, N.iface d n = N.iface s.dev n → Untouched N.iface n s { s with dev := d } →
      wp N.kernel (f (.ok r)) Q { s with dev := d })
    (herr : ∀ e d, N.io s.dev fd (.getFlags n) (.error e) d → wp N.kernel (f (.error e)) Q s) :
    wp N.kernel (FdCall.doIoctl fd (.getFlags n) >>= f) Q s :=
  wp_request (T := fun _ (i j : Iface) => j = i) (fun hd => ⟨_, rfl, by
    rw [N.getFlags hd, Function.update_eq_self]⟩) hfd hok herr

theorem wp_setFlags {flags : UInt16} (hfd : s.fds fd ≠ none)
    (hok : ∀ r d, N.iface d n = { N.iface s.dev n with up := flags &&& iffUp ≠ 0 } →
      Untouched N.iface n s { s with dev := d } → wp N.kernel (f (.ok r)) Q { s with dev := d })
    (herr : ∀ e d, N.io s.dev fd (.setFlags n flags) (.error e) d →
      wp N.kernel (f (.error e)) Q s) :
    wp N.kernel (FdCall.doIoctl fd (.setFlags n flags) >>= f) Q s :=
  wp_request (T := fun _ (i j : Iface) => j = { i with up := flags &&& iffUp ≠ 0 })
    (fun hd => ⟨_, rfl, N.setFlags hd⟩) hfd hok herr

theorem wp_setMtu {mtu : Int} (hfd : s.fds fd ≠ none)
    (hok : ∀ r d, N.iface d n = { N.iface s.dev n with mtu := mtu } →
      Untouched N.iface n s { s with dev := d } → wp N.kernel (f (.ok r)) Q { s with dev := d })
    (herr : ∀ e d, N.io s.dev fd (.setMtu n mtu) (.error e) d → wp N.kernel (f (.error e)) Q s) :
    wp N.kernel (FdCall.doIoctl fd (.setMtu n mtu) >>= f) Q s :=
  wp_request (T := fun _ (i j : Iface) => j = { i with mtu := mtu })
    (fun hd => ⟨_, rfl, N.setMtu hd⟩) hfd hok herr

end

end BsdNet

/-! ## A kernel -/

/-- A table of interfaces, and the interface of each descriptor. -/
structure Table where
  iface : Bytes → Iface
  attached : Int → Option Bytes
  short : ∀ {fd n}, attached fd = some n → n.length ≤ 15

/-- What a granted request does to the table. -/
def Req.apply (d : Table) : Req → Table
  | .setName old new =>
    { d with
      attached := fun f =>
        if d.attached f = some old then some (new.take 15) else d.attached f
      short := by
        intro fd n h
        split_ifs at h with hold
        · rw [← Option.some.inj h, List.length_take]
          exact Nat.min_le_left ..
        · exact d.short h }
  | .aliasAddr n ip mask _ =>
    { d with iface := Function.update d.iface n { d.iface n with
        addrs := Function.update (d.iface n).addrs ip (some mask) } }
  | .delAddr n ip =>
    { d with iface := Function.update d.iface n { d.iface n with
        addrs := Function.update (d.iface n).addrs ip none } }
  | .setFlags n f =>
    { d with iface := Function.update d.iface n { d.iface n with up := f &&& iffUp ≠ 0 } }
  | .setMtu n mtu => { d with iface := Function.update d.iface n { d.iface n with mtu := mtu } }
  | _ => d

/-- The results of a granted request. -/
def Req.Result (d : Table) (fd : Int) (r : Ifreq) : Req → Prop
  | .ifName => d.attached fd = some r.name
  | .getAddr n => (d.iface n).addrs r.addr ≠ none
  | _ => True

/-- A kernel over a table, that may refuse any request. -/
def tableBsd : BsdNet Table where
  io d fd req r d' := (∃ e, r = .error e ∧ d' = d) ∨
    ∃ res, r = .ok res ∧ req.Result d fd res ∧ d' = req.apply d
  acquire d _ _ d' := d' = d
  release d _ d' := d' = d
  noFd _ _ := True
  refused := by
    rintro d fd req e d' (⟨_, -, rfl⟩ | ⟨_, h, -⟩)
    · rfl
    · cases h
  iface d := d.iface
  attached d := d.attached
  ifName := by
    rintro d fd r d' (⟨_, h, -⟩ | ⟨res, h, hres, rfl⟩)
    · cases h
    · obtain rfl := Except.ok.inj h
      exact ⟨hres, Table.short _ hres⟩
  setName := by
    rintro d fd old new r d' (⟨_, h, -⟩ | ⟨-, -, -, rfl⟩) hnew f
    · cases h
    · show (if d.attached f = some old then some (new.take 15) else d.attached f) = _
      rw [List.take_of_length_le hnew]
  aliasAddr := by
    rintro d fd n ip mask broad r d' (⟨_, h, -⟩ | ⟨-, -, -, rfl⟩)
    · cases h
    · exact ⟨_, rfl⟩
  delAddr := by
    rintro d fd n ip r d' (⟨_, h, -⟩ | ⟨-, -, -, rfl⟩)
    · cases h
    · rfl
  getAddr := by
    rintro d fd n r d' (⟨_, h, -⟩ | ⟨res, h, hres, rfl⟩)
    · cases h
    · obtain rfl := Except.ok.inj h
      exact ⟨rfl, hres⟩
  getFlags := by
    rintro d fd n r d' (⟨_, h, -⟩ | ⟨-, -, -, rfl⟩)
    · cases h
    · rfl
  setFlags := by
    rintro d fd n f r d' (⟨_, h, -⟩ | ⟨-, -, -, rfl⟩)
    · cases h
    · rfl
  setMtu := by
    rintro d fd n mtu r d' (⟨_, h, -⟩ | ⟨-, -, -, rfl⟩)
    · cases h
    · rfl

/-- It can grant each request, unless the request is in vain. -/
theorem tableBsd_answers (d : Table) (fd : Int) (req : Req) :
    ∃ r d', tableBsd.granting.io d fd req r d' := by
  by_cases hvain : tableBsd.Vain d fd req
  · exact ⟨.error 0, d, .inr hvain, .inl ⟨0, rfl, rfl⟩⟩
  obtain ⟨res, hres⟩ : ∃ res, req.Result d fd res := by
    cases req with
    | ifName =>
      obtain ⟨n, hn⟩ := Option.ne_none_iff_exists'.mp (show d.attached fd ≠ none from hvain)
      exact ⟨⟨n, 0, 0⟩, hn⟩
    | getAddr n =>
      obtain ⟨ip, hip⟩ := not_forall.mp (show ¬ ∀ ip, (d.iface n).addrs ip = none from hvain)
      exact ⟨⟨[], ip, 0⟩, hip⟩
    | _ => exact ⟨⟨[], 0, 0⟩, trivial⟩
  exact ⟨.ok res, _, .inl rfl, .inr ⟨res, rfl, hres, rfl⟩⟩

end Iwand.Netdev.Bsd
