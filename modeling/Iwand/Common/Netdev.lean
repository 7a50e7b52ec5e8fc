import Iwand.Common.Syscall

/-!
# Network interfaces

The `ioctl` requests that configure a network interface. The first part is about
any device with named parts: `Untouched` is the frame, all parts but one, and
`wp_request` a rule for requests that change one part. The second part is Linux, as
netdevice(7) describes it, with a kernel that may refuse any request. `LinuxNet` is
what a program can rely on; addresses and masks are words in host order.

* `LinuxNet.wp_tunSetIff`, `LinuxNet.wp_setAddr`, `LinuxNet.wp_setMask`, `LinuxNet.wp_getFlags`,
  `LinuxNet.wp_setFlags`, `LinuxNet.wp_setMtu`: one rule for each request.
* `tableNet`: a kernel that keeps a table of interfaces.
-/

namespace Iwand.Netdev

open Syscall

/-! ## Parts of a device -/

section

variable {Req Resp D I α : Type} {part : D → Bytes → I} {s s' s'' : Process D} {n : Bytes}
  {fd : Int} {fmt : String} {args : List LogArg} {Q : α → Process D → Prop}

/-- The descriptors and all parts but `n` are as they were. -/
structure Untouched (part : D → Bytes → I) (n : Bytes) (s s' : Process D) : Prop where
  fds : s'.fds = s.fds
  others : ∀ m, m ≠ n → part s'.dev m = part s.dev m

theorem Untouched.refl (s : Process D) : Untouched part n s s := ⟨rfl, fun _ _ => rfl⟩

theorem Untouched.trans (h : Untouched part n s s') (h' : Untouched part n s' s'') :
    Untouched part n s s'' :=
  ⟨h'.fds.trans h.fds, fun m hm => (h'.others m hm).trans (h.others m hm)⟩

/-- What happens with a socket that is closed in the end. -/
theorem Untouched.closed (hfree : s.fds fd = none)
    (h : Untouched part n (s.opened fd .socket) s') : Untouched part n s (s'.closed fd) :=
  ⟨closed_opened hfree h.fds, h.others⟩

theorem Untouched.noted (h : Untouched part n s s') : Untouched part n s (s'.noted fmt args) :=
  ⟨h.fds, h.others⟩

theorem Untouched.socket (h : Untouched part n (s.opened fd .socket) s') :
    s'.fds fd = some .socket := by
  rw [h.fds, opened_fds]

/-- A rule for requests that change the part `n` as `T` says. -/
theorem wp_request {N : Device Req Resp D} {req : Req} {T : Resp → I → I → Prop}
    (hT : ∀ {d r d'}, N.io d fd req (.ok r) d' →
      ∃ i, T r (part d n) i ∧ part d' = Function.update (part d) n i)
    {f : Except ℕ Resp → Program (FdCall Req) (FdAns Req Resp) α} (hfd : s.fds fd ≠ none)
    (hok : ∀ r d, T r (part s.dev n) (part d n) →
      Untouched part n s { s with dev := d } → wp N.kernel (f (.ok r)) Q { s with dev := d })
    (herr : ∀ e d, N.io s.dev fd req (.error e) d → wp N.kernel (f (.error e)) Q s) :
    wp N.kernel (FdCall.doIoctl fd req >>= f) Q s := by
  refine (Device.wp_ioctl hfd).mpr ⟨fun r d hd => ?_, herr⟩
  obtain ⟨i, hi, hd'⟩ := hT hd
  have hself : part d n = i := by
    rw [hd', Function.update_self]
  refine hok r d (by rwa [hself]) ⟨rfl, fun m hm => ?_⟩
  show part d m = part s.dev m
  rw [hd', Function.update_of_ne hm]

end

/-! ## Linux -/

/-- `IFF_UP`. -/
def iffUp : UInt16 := 0x0001

/-- `IFF_RUNNING`. -/
def iffRunning : UInt16 := 0x0040

/-- Flags with `IFF_UP` among those that are set. -/
theorem up_or (flags : UInt16) {mask : UInt16} (h : mask &&& iffUp = iffUp) :
    (flags ||| mask) &&& iffUp ≠ 0 := by
  intro h0
  have hmask := congrArg (fun w : UInt16 => w.toBitVec.getLsbD 0) h
  have hbit := congrArg (fun w : UInt16 => w.toBitVec.getLsbD 0) h0
  simp [iffUp] at hmask hbit
  simp [hmask] at hbit

/-- Flags with `IFF_UP` among those that are cleared. -/
theorem up_and_not (flags : UInt16) {mask : UInt16} (h : ~~~mask &&& iffUp = 0) :
    (flags &&& ~~~mask) &&& iffUp = 0 := by
  rw [UInt16.and_assoc, h, UInt16.and_zero]

/-- The requests: `TUNSETIFF`, `SIOCSIFADDR`, `SIOCSIFNETMASK`, `SIOCGIFFLAGS`,
    `SIOCSIFFLAGS` and `SIOCSIFMTU`. -/
inductive Req where
  | tunSetIff (name : Bytes) (flags : UInt16)
  | setAddr (name : Bytes) (ip : UInt32)
  | setMask (name : Bytes) (mask : UInt32)
  | getFlags (name : Bytes)
  | setFlags (name : Bytes) (flags : UInt16)
  | setMtu (name : Bytes) (mtu : Int)
deriving DecidableEq

/-- An interface: its IPv4 address, 0 if it has none, its netmask, whether it is up,
    and its MTU. -/
@[ext]
structure Iface where
  addr : UInt32
  mask : UInt32
  up : Bool
  mtu : Int
deriving DecidableEq

/-- The interface layer of a kernel in the states `D`. A request that is granted
    changes the named interface only, and of it only what the request says; `TUNSETIFF` may
    create it; a new address comes with a netmask of the kernel's choice, and an MTU too small for
    IPv4 may cost the interface its address. -/
structure LinuxNet (D : Type) extends Device Req UInt16 D where
  iface : D → Bytes → Iface
  acquired : ∀ {d path fd d'}, acquire d path fd d' → iface d' = iface d
  tunSetIff : ∀ {d fd n f r d'}, io d fd (.tunSetIff n f) (.ok r) d' →
    ∃ i, iface d' = Function.update (iface d) n i
  setAddr : ∀ {d fd n ip r d'}, io d fd (.setAddr n ip) (.ok r) d' →
    ∃ mask, iface d' = Function.update (iface d) n { iface d n with addr := ip, mask := mask }
  setMask : ∀ {d fd n mask r d'}, io d fd (.setMask n mask) (.ok r) d' →
    iface d' = Function.update (iface d) n { iface d n with mask := mask }
  getFlags : ∀ {d fd n f d'}, io d fd (.getFlags n) (.ok f) d' → iface d' = iface d
  setFlags : ∀ {d fd n f r d'}, io d fd (.setFlags n f) (.ok r) d' →
    iface d' = Function.update (iface d) n { iface d n with up := f &&& iffUp ≠ 0 }
  setMtu : ∀ {d fd n mtu r d'}, io d fd (.setMtu n mtu) (.ok r) d' →
    iface d' = Function.update (iface d) n { iface d n with mtu := mtu } ∨
      mtu < 68 ∧ iface d' = Function.update (iface d) n
        { iface d n with addr := 0, mask := 0, mtu := mtu }

/-- The interface layer, when it grants each request. -/
def LinuxNet.granting {D : Type} (N : LinuxNet D) : LinuxNet D where
  toDevice := N.only fun _ _ _ r => r.isOk = true
  iface := N.iface
  acquired h := N.acquired h
  tunSetIff h := N.tunSetIff h.2
  setAddr h := N.setAddr h.2
  setMask h := N.setMask h.2
  getFlags h := N.getFlags h.2
  setFlags h := N.setFlags h.2
  setMtu h := N.setMtu h.2

theorem LinuxNet.granting_grants {D : Type} (N : LinuxNet D) : N.granting.Grants where
  noFd h := h
  io h := absurd h.1 (by simp [Except.isOk, Except.toBool])

namespace LinuxNet

variable {D α : Type} {N : LinuxNet D} {s : Process D} {fd : Int} {n : Bytes}
  {Q : α → Process D → Prop}

section

variable {f : Except ℕ UInt16 → Program (FdCall Req) (FdAns Req UInt16) α}

theorem wp_tunSetIff {flags : UInt16} (hfd : s.fds fd ≠ none)
    (hok : ∀ r d, Untouched N.iface n s { s with dev := d } →
      wp N.kernel (f (.ok r)) Q { s with dev := d })
    (herr : ∀ e d, N.io s.dev fd (.tunSetIff n flags) (.error e) d → wp N.kernel (f (.error e)) Q s) :
    wp N.kernel (FdCall.doIoctl fd (.tunSetIff n flags) >>= f) Q s := by
  refine wp_request (T := fun _ (_ _ : Iface) => True) (fun hd => ?_) hfd
    (fun r d _ hu => hok r d hu) herr
  obtain ⟨i, h⟩ := N.tunSetIff hd
  exact ⟨i, trivial, h⟩

theorem wp_setAddr {ip : UInt32} (hfd : s.fds fd ≠ none)
    (hok : ∀ r d, (∃ mask, N.iface d n = { N.iface s.dev n with addr := ip, mask := mask }) →
      Untouched N.iface n s { s with dev := d } → wp N.kernel (f (.ok r)) Q { s with dev := d })
    (herr : ∀ e d, N.io s.dev fd (.setAddr n ip) (.error e) d → wp N.kernel (f (.error e)) Q s) :
    wp N.kernel (FdCall.doIoctl fd (.setAddr n ip) >>= f) Q s := by
  refine wp_request (T := fun _ (i j : Iface) => ∃ mask, j = { i with addr := ip, mask := mask })
    (fun hd => ?_) hfd hok herr
  obtain ⟨mask, h⟩ := N.setAddr hd
  exact ⟨_, ⟨mask, rfl⟩, h⟩

theorem wp_setMask {mask : UInt32} (hfd : s.fds fd ≠ none)
    (hok : ∀ r d, N.iface d n = { N.iface s.dev n with mask := mask } →
      Untouched N.iface n s { s with dev := d } → wp N.kernel (f (.ok r)) Q { s with dev := d })
    (herr : ∀ e d, N.io s.dev fd (.setMask n mask) (.error e) d → wp N.kernel (f (.error e)) Q s) :
    wp N.kernel (FdCall.doIoctl fd (.setMask n mask) >>= f) Q s :=
  wp_request (T := fun _ (i j : Iface) => j = { i with mask := mask })
    (fun hd => ⟨_, rfl, N.setMask hd⟩) hfd hok herr

theorem wp_setFlags {flags : UInt16} (hfd : s.fds fd ≠ none)
    (hok : ∀ r d, N.iface d n = { N.iface s.dev n with up := flags &&& iffUp ≠ 0 } →
      Untouched N.iface n s { s with dev := d } → wp N.kernel (f (.ok r)) Q { s with dev := d })
    (herr : ∀ e d, N.io s.dev fd (.setFlags n flags) (.error e) d → wp N.kernel (f (.error e)) Q s) :
    wp N.kernel (FdCall.doIoctl fd (.setFlags n flags) >>= f) Q s :=
  wp_request (T := fun _ (i j : Iface) => j = { i with up := flags &&& iffUp ≠ 0 })
    (fun hd => ⟨_, rfl, N.setFlags hd⟩) hfd hok herr

theorem wp_setMtu {mtu : Int} (hfd : s.fds fd ≠ none)
    (hok : ∀ r d, (N.iface d n = { N.iface s.dev n with mtu := mtu } ∨
        mtu < 68 ∧ N.iface d n = { N.iface s.dev n with addr := 0, mask := 0, mtu := mtu }) →
      Untouched N.iface n s { s with dev := d } → wp N.kernel (f (.ok r)) Q { s with dev := d })
    (herr : ∀ e d, N.io s.dev fd (.setMtu n mtu) (.error e) d → wp N.kernel (f (.error e)) Q s) :
    wp N.kernel (FdCall.doIoctl fd (.setMtu n mtu) >>= f) Q s := by
  refine wp_request (T := fun _ (i j : Iface) => j = { i with mtu := mtu } ∨
    mtu < 68 ∧ j = { i with addr := 0, mask := 0, mtu := mtu }) (fun hd => ?_) hfd hok herr
  rcases N.setMtu hd with h | ⟨hlt, h⟩
  · exact ⟨_, .inl rfl, h⟩
  · exact ⟨_, .inr ⟨hlt, rfl⟩, h⟩

theorem wp_getFlags (hfd : s.fds fd ≠ none)
    (hok : ∀ flags d, N.iface d n = N.iface s.dev n → Untouched N.iface n s { s with dev := d } →
      wp N.kernel (f (.ok flags)) Q { s with dev := d })
    (herr : ∀ e d, N.io s.dev fd (.getFlags n) (.error e) d → wp N.kernel (f (.error e)) Q s) :
    wp N.kernel (FdCall.doIoctl fd (.getFlags n) >>= f) Q s :=
  wp_request (T := fun _ (i j : Iface) => j = i) (fun hd => ⟨_, rfl, by
    rw [N.getFlags hd, Function.update_eq_self]⟩) hfd hok herr

end

end LinuxNet

/-! ## A kernel -/

/-- What a granted request does to a table of interfaces, and its result. -/
def Req.apply (d : Bytes → Iface) : Req → UInt16 × (Bytes → Iface)
  | .tunSetIff _ _ => (0, d)
  | .setAddr n ip => (0, Function.update d n { d n with addr := ip, mask := 0xff000000 })
  | .setMask n mask => (0, Function.update d n { d n with mask := mask })
  | .getFlags n => (if (d n).up then iffUp else 0, d)
  | .setFlags n f => (0, Function.update d n { d n with up := f &&& iffUp ≠ 0 })
  | .setMtu n mtu => (0, Function.update d n { d n with mtu := mtu })

/-- A table of interfaces, with a kernel that grants or refuses each request. -/
def tableNet : LinuxNet (Bytes → Iface) where
  io d _ req r d' := (∃ e, r = .error e ∧ d' = d) ∨ r = .ok (req.apply d).1 ∧ d' = (req.apply d).2
  acquire d _ _ d' := d' = d
  release d _ d' := d' = d
  noFd _ _ := True
  refused := by
    rintro d fd req e d' (⟨_, -, rfl⟩ | ⟨h, -⟩)
    · rfl
    · cases h
  iface d := d
  acquired h := h
  tunSetIff := by
    rintro d fd n f r d' (⟨_, h, -⟩ | ⟨-, rfl⟩)
    · cases h
    · exact ⟨d' n, (Function.update_eq_self n d').symm⟩
  setAddr := by
    rintro d fd n ip r d' (⟨_, h, -⟩ | ⟨-, rfl⟩)
    · cases h
    · exact ⟨_, rfl⟩
  setMask := by
    rintro d fd n mask r d' (⟨_, h, -⟩ | ⟨-, rfl⟩)
    · cases h
    · rfl
  getFlags := by
    rintro d fd n f d' (⟨_, h, -⟩ | ⟨-, rfl⟩)
    · cases h
    · rfl
  setFlags := by
    rintro d fd n f r d' (⟨_, h, -⟩ | ⟨-, rfl⟩)
    · cases h
    · rfl
  setMtu := by
    rintro d fd n mtu r d' (⟨_, h, -⟩ | ⟨-, rfl⟩)
    · cases h
    · exact .inl rfl

/-- It can grant each request. -/
theorem tableNet_answers (d : Bytes → Iface) (fd : Int) (req : Req) :
    ∃ r d', tableNet.granting.io d fd req r d' :=
  ⟨_, _, rfl, .inr ⟨rfl, rfl⟩⟩

end Iwand.Netdev
