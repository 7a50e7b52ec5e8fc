import Iwand.Common.Netdev
import Iwand.Server.Config

/-!
# The exit device

Model of `tun_linux.go` (lines 13–148), where `fmt.Errorf` is its format and its
arguments.

* `openPacketDevice_spec`: every outcome of `openPacketDevice` on a valid exit block.
* `normalized_exit`: what validation promises about the exit block.
* `exit_device`: the two together. With a configuration that is accepted no panic and no
  error but that of a system call is left.
-/

namespace Iwand.Server

open Go Syscall Netdev Netdev.LinuxNet
open Syscall.FdCall (doOpen doSocket doClose doIoctl)

/-- How a call can fail. -/
inductive TunFault where
  | panic (p : Panic)
  | err (e : LogLine)

/-- A result or a fault. -/
abbrev TunResult (α : Type) := Except TunFault α

/-- A program of `tun_linux.go`. -/
abbrev TunCode (α : Type) := Program (FdCall Req) (FdAns Req UInt16) α

/-- `return fmt.Errorf(fmt, args…)`. -/
def errorf {α : Type} (fmt : String) (args : List LogArg) : TunCode (TunResult α) :=
  return .error (.err (fmt, args))

/-- `"/dev/net/tun"`. -/
def tunDevicePath : Bytes := [47, 100, 101, 118, 47, 110, 101, 116, 47, 116, 117, 110]

/-- The four bytes of an address in a `RawSockaddrInet4`, as a word. -/
def addrWord (a : Vector UInt8 4) : UInt32 :=
  a.toList.foldl (fun w b => (w <<< 8) ||| b.toUInt32) 0

/-- `net.CIDRMask(bits, 32)`, as a word. -/
def cidrMask (bits : ℕ) : UInt32 :=
  if bits ≤ 32 then UInt32.ofNat (2 ^ 32 - 2 ^ (32 - bits)) else 0

/-- `newIFReq` (lines 72–82): the name, with room for its NUL. -/
def newIFReq (name : Bytes) : TunResult Bytes :=
  if name = [] then .error (.err ("interface name is required", []))
  else if name.length > maxInterfaceName then
    .error (.err ("interface name %q exceeds %d bytes", [.str name, .int maxInterfaceName]))
  else .ok name

/-- `setInterfaceIPv4` (lines 84–106). -/
def setInterfaceIPv4 (socket : Int) (name : Bytes) (pfx : Prefix) : TunCode (TunResult Unit) := do
  match newIFReq name with
  | .error e => return .error e
  | .ok request =>
    match pfx.addr.as4 with
    | .error _ => return .error (.panic .as4)
    | .ok addr =>
      match ← doIoctl socket (.setAddr request (addrWord addr)) with
      | .error errno =>
        errorf "set %s address %s: %w" [.str name, .word (addrWord addr), .errno errno]
      | .ok _ =>
        match newIFReq name with
        | .error e => return .error e
        | .ok request =>
          let mask := cidrMask pfx.bits
          match ← doIoctl socket (.setMask request mask) with
          | .error errno => errorf "set %s netmask %s: %w" [.str name, .word mask, .errno errno]
          | .ok _ => return .ok ()

/-- `setInterfaceMTU` (lines 108–118). -/
def setInterfaceMTU (socket : Int) (name : Bytes) (mtu : UInt16) : TunCode (TunResult Unit) := do
  match newIFReq name with
  | .error e => return .error e
  | .ok request =>
    match ← doIoctl socket (.setMtu request mtu.toNat) with
    | .error errno => errorf "set %s mtu %d: %w" [.str name, .int mtu.toNat, .errno errno]
    | .ok _ => return .ok ()

/-- `setInterfaceUp` (lines 120–134). -/
def setInterfaceUp (socket : Int) (name : Bytes) : TunCode (TunResult Unit) := do
  match newIFReq name with
  | .error e => return .error e
  | .ok request =>
    match ← doIoctl socket (.getFlags request) with
    | .error errno => errorf "get %s flags: %w" [.str name, .errno errno]
    | .ok flags =>
      match ← doIoctl socket (.setFlags request (flags ||| iffUp)) with
      | .error errno => errorf "set %s up: %w" [.str name, .errno errno]
      | .ok _ => return .ok ()

/-- The calls of `configureTUNInterface` on its socket (lines 60–69). -/
def configureSocket (socket : Int) (config : NormalizedExitConfig) : TunCode (TunResult Unit) := do
  match ← setInterfaceIPv4 socket config.tunName config.tunAddress with
  | .error e => return .error e
  | .ok () =>
    match ← setInterfaceMTU socket config.tunName config.mtu with
    | .error e => return .error e
    | .ok () => setInterfaceUp socket config.tunName

/-- `configureTUNInterface` (lines 53–70). -/
def configureTUNInterface (config : NormalizedExitConfig) : TunCode (TunResult Unit) := do
  match ← doSocket with
  | .error errno => errorf "open interface config socket: %w" [.errno errno]
  | .ok socket =>
    let res ← configureSocket socket config
    -- deferred, so that a panic closes the socket too
    doClose socket
    return res

/-- `openPacketDevice` (lines 28–51). -/
def openPacketDevice (config : NormalizedExitConfig) : TunCode (TunResult Int) := do
  match ← doOpen tunDevicePath with
  | .error errno => errorf "open %s: %w" [.str tunDevicePath, .errno errno]
  | .ok fd =>
    match newIFReq config.tunName with
    | .error e =>
      doClose fd
      return .error e
    | .ok request =>
      match ← doIoctl fd (.tunSetIff request (0x0001 ||| 0x1000)) with
      | .error errno =>
        doClose fd
        errorf "create tun %q: %w" [.str config.tunName, .errno errno]
      | .ok _ =>
        match ← configureTUNInterface config with
        | .error (.err e) =>
          doClose fd
          return .error (.err e)
        | .error (.panic p) => return .error (.panic p)
        | .ok () => return .ok fd

/-! ## Outcomes -/

/-- An exit block whose name and address can be applied. -/
structure Applicable (config : NormalizedExitConfig) : Prop where
  name_ne : config.tunName ≠ []
  name_le : config.tunName.length ≤ maxInterfaceName
  address : ∃ a, config.tunAddress.addr = .v4 a

/-- The error of a system call. -/
def TunFault.OfErrno (e : TunFault) : Prop := ∃ fmt args errno, e = .err (fmt, args ++ [.errno errno])

section

variable {D : Type} {N : LinuxNet D} {s t : Process D} {fd : Int} {config : NormalizedExitConfig}

theorem newIFReq_ok (h : Applicable config) : newIFReq config.tunName = .ok config.tunName := by
  unfold newIFReq
  rw [if_neg h.name_ne, if_neg (Nat.not_lt.mpr h.name_le)]

/-- `setInterfaceIPv4` on a valid block. -/
theorem setInterfaceIPv4_spec (h : Applicable config) {a : Vector UInt8 4}
    (ha : config.tunAddress.addr = .v4 a) (hfd : t.fds fd ≠ none) :
    wp N.kernel (setInterfaceIPv4 fd config.tunName config.tunAddress) (fun r t' =>
      Untouched N.iface config.tunName t t' ∧
      match r with
      | .ok _ => N.iface t'.dev config.tunName = { N.iface t.dev config.tunName with
          addr := addrWord a, mask := cidrMask config.tunAddress.bits }
      | .error e => e.OfErrno ∧ ¬ N.Grants) t := by
  unfold setInterfaceIPv4
  simp only [newIFReq_ok h, ha, Addr.as4]
  refine wp_setAddr hfd (fun _ d₁ hi₁ hu₁ => ?_) fun e d hd => ?_
  · obtain ⟨m, hi₁⟩ := hi₁
    refine wp_setMask (by exact hfd) (fun _ d₂ hi₂ hu₂ => ?_) fun e d hd => ?_
    · rw [hi₁] at hi₂
      exact ⟨hu₁.trans hu₂, hi₂⟩
    · exact ⟨hu₁, ⟨_, [_, _], e, rfl⟩, fun hg => hg.io hd⟩
  · exact ⟨.refl t, ⟨_, [_, _], e, rfl⟩, fun hg => hg.io hd⟩

/-- `setInterfaceMTU` on a valid block. -/
theorem setInterfaceMTU_spec (h : Applicable config) (hfd : t.fds fd ≠ none) :
    wp N.kernel (setInterfaceMTU fd config.tunName config.mtu) (fun r t' =>
      Untouched N.iface config.tunName t t' ∧
      match r with
      | .ok _ => (N.iface t'.dev config.tunName).mtu = config.mtu.toNat ∧
          (68 ≤ config.mtu → N.iface t'.dev config.tunName =
            { N.iface t.dev config.tunName with mtu := config.mtu.toNat })
      | .error e => e.OfErrno ∧ ¬ N.Grants) t := by
  unfold setInterfaceMTU
  simp only [newIFReq_ok h]
  refine wp_setMtu hfd (fun _ d hi hu => ⟨hu, ?_⟩) fun e d hd =>
    ⟨.refl t, ⟨_, [_, _], e, rfl⟩, fun hg => hg.io hd⟩
  rcases hi with hi | ⟨hlt, hi⟩
  · exact ⟨by rw [hi], fun _ => hi⟩
  · refine ⟨by rw [hi], fun h68 => absurd (UInt16.le_iff_toNat_le.mp h68) ?_⟩
    simpa using hlt

/-- `setInterfaceUp` on a valid block. -/
theorem setInterfaceUp_spec (h : Applicable config) (hfd : t.fds fd ≠ none) :
    wp N.kernel (setInterfaceUp fd config.tunName) (fun r t' =>
      Untouched N.iface config.tunName t t' ∧
      match r with
      | .ok _ => N.iface t'.dev config.tunName =
          { N.iface t.dev config.tunName with up := true }
      | .error e => e.OfErrno ∧ ¬ N.Grants) t := by
  unfold setInterfaceUp
  simp only [newIFReq_ok h]
  refine wp_getFlags hfd (fun flags d₁ hi₁ hu₁ => ?_) fun e d hd =>
    ⟨.refl t, ⟨_, [_], e, rfl⟩, fun hg => hg.io hd⟩
  refine wp_setFlags (by exact hfd) (fun _ d₂ hi₂ hu₂ => ?_) fun e d hd =>
    ⟨hu₁, ⟨_, [_], e, rfl⟩, fun hg => hg.io hd⟩
  simp only [hi₁, up_or _ (show iffUp &&& iffUp = iffUp by decide), ne_eq, not_false_eq_true,
    decide_true] at hi₂
  exact ⟨hu₁.trans hu₂, hi₂⟩

/-- The exit interface is as configured. -/
structure Configured (N : LinuxNet D) (config : NormalizedExitConfig) (d : D) : Prop where
  up : (N.iface d config.tunName).up = true
  mtu : (N.iface d config.tunName).mtu = config.mtu.toNat
  address : 68 ≤ config.mtu → ∀ a, config.tunAddress.addr = .v4 a →
    (N.iface d config.tunName).addr = addrWord a ∧
      (N.iface d config.tunName).mask = cidrMask config.tunAddress.bits

/-- The calls of `configureTUNInterface` on a valid block. -/
theorem configureSocket_spec (h : Applicable config)
    (hfd : t.fds fd ≠ none) : wp N.kernel (configureSocket fd config) (fun r t' =>
      Untouched N.iface config.tunName t t' ∧
      match r with
      | .ok _ => Configured N config t'.dev
      | .error e => e.OfErrno ∧ ¬ N.Grants) t := by
  obtain ⟨a, ha⟩ := h.address
  unfold configureSocket
  rw [wp_bind]
  refine wp_mono (fun r t₁ => ?_) (setInterfaceIPv4_spec h ha hfd)
  rintro ⟨hu₁, hr₁⟩
  cases r with
  | error e => exact ⟨hu₁, hr₁⟩
  | ok =>
    rw [wp_bind]
    refine wp_mono (fun r t₂ => ?_) (setInterfaceMTU_spec h (hu₁.fds ▸ hfd))
    rintro ⟨hu₂, hr₂⟩
    have hu₂ := hu₁.trans hu₂
    cases r with
    | error e => exact ⟨hu₂, hr₂⟩
    | ok =>
      obtain ⟨hmtu, h68⟩ := hr₂
      refine wp_mono (fun r t₃ => ?_) (setInterfaceUp_spec h (hu₂.fds ▸ hfd))
      rintro ⟨hu₃, hr₃⟩
      refine ⟨hu₂.trans hu₃, ?_⟩
      cases r with
      | error e => exact hr₃
      | ok =>
        have hi : N.iface t₃.dev config.tunName =
          { N.iface t₂.dev config.tunName with up := true } := hr₃
        refine ⟨by rw [hi], by rw [hi, ← hmtu], fun hmin b hb => ?_⟩
        obtain rfl := Addr.v4.inj (ha.symm.trans hb)
        have hi₂ := h68 hmin
        rw [show N.iface t₁.dev config.tunName = _ from hr₁] at hi₂
        rw [hi, hi₂]
        exact ⟨rfl, rfl⟩

/-- `configureTUNInterface` on a valid block. -/
theorem configureTUNInterface_spec (h : Applicable config) (s : Process D) :
    wp N.kernel (configureTUNInterface config) (fun r s' =>
      Untouched N.iface config.tunName s s' ∧
      match r with
      | .ok _ => Configured N config s'.dev
      | .error e => e.OfErrno ∧ ¬ N.Grants) s := by
  unfold configureTUNInterface
  rw [Device.wp_socket]
  refine ⟨fun fd hfree _ => ?_, fun e he => ?_⟩
  · rw [wp_bind]
    refine wp_mono (fun r t => ?_) (configureSocket_spec h (by simp))
    rintro ⟨hu, hr⟩
    rw [Device.wp_closeSocket hu.socket]
    exact ⟨hu.closed hfree, hr⟩
  · exact ⟨.refl s, ⟨_, [], e, rfl⟩, fun hg => hg.noFd he⟩

/-- The outcomes of `openPacketDevice`: a new descriptor and its interface as configured,
    or the error of a system call and no descriptor. -/
def DeviceOutcome (N : LinuxNet D) (config : NormalizedExitConfig) (s : Process D)
    (r : TunResult Int) (s' : Process D) : Prop :=
  match r with
  | .ok fd => 0 ≤ fd ∧ s.fds fd = none ∧ s'.fds = (s.opened fd .file).fds ∧
      Configured N config s'.dev ∧ ∀ m, m ≠ config.tunName → N.iface s'.dev m = N.iface s.dev m
  | .error e => e.OfErrno ∧ ¬ N.Grants ∧ s'.fds = s.fds

/-- Every outcome of `openPacketDevice` on a valid block. -/
theorem openPacketDevice_spec (h : Applicable config) (s : Process D) :
    wp N.kernel (openPacketDevice config) (DeviceOutcome N config s) s := by
  unfold openPacketDevice
  rw [Device.wp_openFile]
  refine ⟨fun fd d hfree hfd hacq => ?_, fun e he => ⟨⟨_, [_], e, rfl⟩, fun hg => hg.noFd he, rfl⟩⟩
  have hiface : N.iface d = N.iface s.dev := N.acquired hacq
  simp only [newIFReq_ok h]
  refine wp_tunSetIff (by simp) (fun _ d₁ hu₁ => ?_) fun e d hd => ?_
  · rw [wp_bind]
    refine wp_mono (fun r t => ?_) (configureTUNInterface_spec h _)
    rintro ⟨hu₂, hr⟩
    have hu₂ := hu₁.trans hu₂
    cases r with
    | ok =>
      refine ⟨hfd, hfree, hu₂.fds, hr, fun m hm => ?_⟩
      rw [hu₂.others m hm]
      show N.iface d m = N.iface s.dev m
      rw [hiface]
    | error e =>
      obtain ⟨⟨fmt, args, errno, rfl⟩, hg⟩ := hr
      refine (Device.wp_closeFile (by rw [hu₂.fds]; exact opened_fds s fd .file)).mpr fun d' _ => ?_
      exact ⟨⟨fmt, args, errno, rfl⟩, hg, closed_opened hfree hu₂.fds⟩
  · refine (Device.wp_closeFile (by exact opened_fds s fd .file)).mpr fun d' _ => ?_
    exact ⟨⟨_, [_], e, rfl⟩, fun hg => hg.io hd, closed_opened hfree rfl⟩

end

/-! ## Configurations -/

section

variable {R : Type} {net : Net R}

/-- What validation promises about the exit block. -/
theorem validateExit_block {c c' : Config} (h : validateExit net c = .ok c')
    (hen : c'.exit.enabled = true) : c'.exit.tunName ≠ [] ∧
      c'.exit.tunName.length ≤ maxInterfaceName ∧
      ∃ p, net.parsePrefix c'.exit.tunAddress = .ok p ∧
        ∃ a, p.addr = .v4 a ∧ a ≠ Vector.replicate 4 0 := by
  have henc : c.exit.enabled = true := by
    obtain ⟨-, exit, rfl, he, -⟩ := validateExit_ok h
    exact he ▸ hen
  unfold validateExit at h
  rw [if_neg (by simp [henc])] at h
  simp only at h
  obtain ⟨name, hname, hexit⟩ : ∃ name, name ≠ [] ∧
      (if c.exit.tunName = [] then { c.exit with tunName := defaultExitTUNName } else c.exit) =
        { c.exit with tunName := name } := by
    split_ifs with h
    · exact ⟨_, by simp [defaultExitTUNName], rfl⟩
    · exact ⟨_, h, rfl⟩
  rw [hexit] at h
  obtain ⟨hlen, h⟩ := of_check h
  obtain ⟨-, h⟩ := of_check h
  obtain ⟨p, hp, h⟩ := bind_eq_ok h
  obtain ⟨hv4, h⟩ := of_check h
  obtain ⟨-, h⟩ := of_check h
  rw [not_or, Bool.not_eq_false, Addr.is4_iff] at hv4
  obtain ⟨⟨a, ha⟩, hzero⟩ := hv4
  have hne : a ≠ Vector.replicate 4 0 := by
    rintro rfl
    exact hzero (by simp [ha, Addr.isUnspecified])
  obtain rfl := Except.ok.inj h
  have hp := wrap_eq_ok hp
  split_ifs
  · exact ⟨hname, Nat.not_lt.mp hlen, p, hp, a, ha, hne⟩
  · exact ⟨hname, Nat.not_lt.mp hlen, p, hp, a, ha, hne⟩

/-- An exit block that was accepted can be applied, and its address is not zero. -/
theorem normalized_exit {c : Config} {n : NormalizedConfig} (h : normalized net c = .ok n)
    (hen : n.exit.enabled = true) : Applicable n.exit ∧
      ∃ a, n.exit.tunAddress.addr = .v4 a ∧ a ≠ Vector.replicate 4 0 := by
  unfold normalized at h
  obtain ⟨c', hc', h⟩ := bind_eq_ok h
  obtain ⟨p, hp, h⟩ := bind_eq_ok h
  obtain ⟨ds, -, h⟩ := bind_eq_ok h
  obtain ⟨m, -, h⟩ := bind_eq_ok h
  obtain rfl := Except.ok.inj h
  have hen : c'.exit.enabled = true := hen
  obtain ⟨hname, hlen, p', hp', a, ha, hne⟩ :=
    validateExit_block (validate_checked hc').1.exit hen
  rw [normalizedTunAddress, if_pos hen, Net.mustParsePrefix, hp'] at hp
  obtain rfl := Except.ok.inj hp
  exact ⟨⟨hname, hlen, a, ha⟩, a, ha, hne⟩

/-- **The exit device.** With the exit block of any configuration that is accepted,
    whatever system calls fail, `openPacketDevice` does not panic, reports no error but
    that of a system call, and leaves no descriptor open when it does. Otherwise its
    descriptor is new and the interface is up, with the MTU and, if this is at least 68,
    with the address and the netmask of the configuration; no other interface changes.
    No call is made on a descriptor that is not open, and if the kernel refuses nothing
    then the device is opened. -/
theorem exit_device {c : Config} {n : NormalizedConfig} (h : normalized net c = .ok n)
    (hen : n.exit.enabled = true) {D : Type} (N : LinuxNet D) (s : Process D) :
    (∀ r s', Exec N.kernel (openPacketDevice n.exit) s r s' → DeviceOutcome N n.exit s r s') ∧
    (∀ c t, Makes N.kernel (openPacketDevice n.exit) s c t → N.kernel.allowed t c) ∧
    (∀ r s', Exec N.granting.kernel (openPacketDevice n.exit) s r s' →
      ∃ fd, r = .ok fd ∧ DeviceOutcome N n.exit s (.ok fd) s') := by
  obtain ⟨happ, -⟩ := normalized_exit h hen
  have hspec := openPacketDevice_spec (N := N) happ s
  refine ⟨fun r s' => wp_sound hspec, fun c t => wp_allowed hspec, fun r s' hexec => ?_⟩
  have hout := wp_sound hspec hexec.of_only
  cases r with
  | ok fd => exact ⟨fd, rfl, hout⟩
  | error e =>
    obtain ⟨-, hg, -⟩ := wp_sound (openPacketDevice_spec (N := N.granting) happ s) hexec
    exact absurd N.granting_grants hg

end

/-- A process without descriptors, on a system whose interfaces are down. -/
def bareProcess : Process (Bytes → Iface) := ⟨fun _ => none, fun _ => ⟨0, 0, false, 1500⟩, []⟩

/-- The exit block of the example configuration. -/
theorem example_exit_device : ∃ n fd s',
    normalized exampleNet (exampleConfig true) = .ok n ∧
    Exec tableNet.granting.kernel (openPacketDevice n.exit) bareProcess (.ok fd) s' ∧
    DeviceOutcome tableNet n.exit bareProcess (.ok fd) s' := by
  obtain ⟨n, hn, -, -, hexit, -⟩ := normalized_valid (exampleConfig_valid true)
  obtain ⟨-, -, hgranted⟩ := exit_device hn hexit tableNet bareProcess
  have hfinite : bareProcess.Finite := by
    show {fd : Int | (none : Option Kind) ≠ none}.Finite
    simp
  obtain ⟨r, s', hexec, -⟩ := wp_total
    (Device.kernel_total tableNet_answers (fun d path fd => ⟨d, rfl⟩) fun d fd => ⟨d, rfl⟩) hfinite
    (openPacketDevice_spec (N := tableNet.granting) (normalized_exit hn hexit).1 bareProcess)
  obtain ⟨fd, rfl, hout⟩ := hgranted r s' hexec
  exact ⟨n, fd, s', hn, hexec, hout⟩

end Iwand.Server
