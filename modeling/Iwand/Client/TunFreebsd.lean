import Iwand.Common.BsdNetdev
import Iwand.Client.Interface

/-!
# The interface on FreeBSD

Model of `tun_freebsd.c` (lines 17–265). Addresses are words in host order, so `htonl`
does not appear; a call that fails is its `errno`.

* `tunOpen_spec`: the name that `tun_open` leaves is the name of the interface.
* `tunSetIp_spec`, `tunSetMtu_spec`, `tunClearIp_spec`: every outcome of the other
  functions.
* `freebsdTun`: what the client relies on.
* `freebsd_interface`: the interface of the client over whole runs.
-/

namespace Iwand.Client.TunFreebsd

open Syscall Syscall.FdCall Netdev.Bsd Netdev.Bsd.BsdNet
open Netdev (iffUp Untouched up_or up_and_not)

/-- A program of `tun_freebsd.c`. -/
abbrev Code (α : Type) := Program (FdCall Req) (FdAns Req Ifreq) α

/-- `EEXIST`. -/
def eexist : ℕ := 17

/-- `"tun"`. -/
def tunPrefix : Bytes := [116, 117, 110]

/-- `"/dev/"`. -/
def devPrefix : Bytes := [47, 100, 101, 118, 47]

/-- `snprintf(ifr.ifr_name, IFNAMSIZ, "%s", dev)`. -/
def ifrName (dev : Bytes) : Bytes := dev.take 15

/-- `freebsd_is_tun_unit` (lines 25–40). -/
def freebsdIsTunUnit (dev : Bytes) : Bool :=
  dev.take 3 = tunPrefix ∧ dev.drop 3 ≠ [] ∧ (dev.drop 3).all fun p => 48 ≤ p ∧ p ≤ 57

/-- `freebsd_open_tun_device` (lines 42–68), with `*cloned`. -/
def freebsdOpenTunDevice (dev : Bytes) : Code (Int × Bool) := do
  match ← doOpen (devPrefix ++ tunPrefix) with
  | .ok fd => return (fd, true)
  | .error errno =>
    if freebsdIsTunUnit dev then
      -- char path[sizeof("/dev/") + IFNAMSIZ]
      let path := (devPrefix ++ dev).take 21
      match ← doOpen path with
      | .ok fd => return (fd, false)
      | .error errno =>
        doLog "open %s failed: %s\n" [.str path, .errno errno]
        return (-1, false)
    else
      doLog "open /dev/tun failed: %s\n" [.errno errno]
      return (-1, false)

/-- `freebsd_get_tun_name` (lines 70–82). -/
def freebsdGetTunName (fd : Int) : Code (Option Bytes) := do
  match ← doIoctl fd .ifName with
  | .error errno =>
    doLog "TUNGIFNAME failed: %s\n" [.errno errno]
    return none
  | .ok ifr => return some (ifrName ifr.name)

/-- `freebsd_rename_tun` (lines 84–110), with `*saved_errno`. -/
def freebsdRenameTun (oldName newName : Bytes) : Code (Except ℕ Unit) := do
  if oldName = newName then
    return .ok ()
  else
    match ← doSocket with
    | .error errno => return .error errno
    | .ok sockfd =>
      match ← doIoctl sockfd (.setName (ifrName oldName) (ifrName newName)) with
      | .error errno =>
        doClose sockfd
        return .error errno
      | .ok _ =>
        doClose sockfd
        return .ok ()

/-- What follows a failed call: log it, `close(fd)` and `return -1`. -/
def giveUp {α : Type} (fd : Int) (fmt : String) (errno : ℕ) (res : α) : Code α := do
  doLog fmt [.errno errno]
  doClose fd
  return res

/-- The end of `tun_open` (lines 149–169): the name of the interface, and the result with
    the name that is left in `dev`. -/
def nameTun (fd : Int) (dev : Bytes) : Code (Int × Bytes) := do
  match ← freebsdGetTunName fd with
  | none =>
    doClose fd
    return (-1, dev)
  | some actual =>
    if actual = dev then
      return (fd, dev)
    else
      match ← freebsdRenameTun actual dev with
      | .ok () =>
        doLog "renamed FreeBSD TUN %s -> %s\n" [.str actual, .str dev]
        return (fd, dev)
      | .error errno =>
        doLog "rename FreeBSD TUN %s -> %s failed: %s; using %s\n"
          [.str actual, .str dev, .errno errno, .str actual]
        return (fd, ifrName actual)

/-- `tun_open` (lines 112–170), with the name that it leaves in `dev`. `transient` says
    that the system has `TUNSTRANSIENT`. -/
def tunOpen (transient : Bool) (dev : Bytes) : Code (Int × Bytes) := do
  let (fd, cloned) ← freebsdOpenTunDevice dev
  if fd < 0 then
    return (-1, dev)
  else
    match ← doIoctl fd (.slMode 0) with
    | .error errno => giveUp fd "TUNSLMODE off failed: %s\n" errno (-1, dev)
    | .ok _ =>
      match ← doIoctl fd (.ifHead 0) with
      | .error errno => giveUp fd "TUNSIFHEAD off failed: %s\n" errno (-1, dev)
      | .ok _ =>
        -- IFF_BROADCAST | IFF_MULTICAST
        match ← doIoctl fd (.ifMode (0x2 ||| 0x8000)) with
        | .error errno => giveUp fd "TUNSIFMODE failed: %s\n" errno (-1, dev)
        | .ok _ =>
          if transient && cloned then
            match ← doIoctl fd (.transient 1) with
            | .error errno =>
              doLog "TUNSTRANSIENT warning: %s\n" [.errno errno]
              nameTun fd dev
            | .ok _ => nameTun fd dev
          else
            nameTun fd dev

/-- The first half of `tun_set_ip` (lines 177–201): add the address, and if it is there
    already then delete and add it again. -/
def addAddr (sockfd : Int) (dev : Bytes) (ip mask : UInt32) : Code (Except ℕ Ifreq) := do
  let broad := (ip &&& mask) ||| ~~~mask
  match ← doIoctl sockfd (.aliasAddr (ifrName dev) ip mask broad) with
  | .ok ifr => return .ok ifr
  | .error errno =>
    if errno = eexist then
      match ← doIoctl sockfd (.delAddr (ifrName dev) ip) with
      | .ok _ => doIoctl sockfd (.aliasAddr (ifrName dev) ip mask broad)
      | .error _ => return .error errno
    else
      return .error errno

/-- `tun_set_ip` (lines 172–228). -/
def tunSetIp (dev : Bytes) (ip mask : UInt32) : Code Int := do
  match ← doSocket with
  | .error _ => return -1
  | .ok sockfd =>
    match ← addAddr sockfd dev ip mask with
    | .error errno => giveUp sockfd "SIOCAIFADDR failed: %s\n" errno (-1)
    | .ok _ =>
      match ← doIoctl sockfd (.getFlags (ifrName dev)) with
      | .error errno => giveUp sockfd "SIOCGIFFLAGS failed: %s\n" errno (-1)
      | .ok ifr =>
        match ← doIoctl sockfd (.setFlags (ifrName dev) (ifr.flags ||| iffUp)) with
        | .error errno => giveUp sockfd "SIOCSIFFLAGS UP failed: %s\n" errno (-1)
        | .ok _ =>
          doClose sockfd
          return 0

/-- `tun_set_mtu` (lines 230–243). -/
def tunSetMtu (dev : Bytes) (mtu : UInt16) : Code Int := do
  match ← doSocket with
  | .error _ => return -1
  | .ok sockfd =>
    match ← doIoctl sockfd (.setMtu (ifrName dev) mtu.toNat) with
    | .error errno =>
      doLog "SIOCSIFMTU(%d) failed: %s\n" [.int mtu.toNat, .errno errno]
      doClose sockfd
      return -1
    | .ok _ =>
      doClose sockfd
      return 0

/-- The second half of `tun_clear_ip` (lines 258–264). -/
def clearFlags (dev : Bytes) (sockfd : Int) : Code Unit := do
  match ← doIoctl sockfd (.getFlags (ifrName dev)) with
  | .error _ =>
    doClose sockfd
    return ()
  | .ok ifr =>
    let _ ← doIoctl sockfd (.setFlags (ifrName dev) (ifr.flags &&& ~~~iffUp))
    doClose sockfd
    return ()

/-- `tun_clear_ip` (lines 245–265). -/
def tunClearIp (dev : Bytes) : Code Unit := do
  match ← doSocket with
  | .error _ => return ()
  | .ok sockfd =>
    match ← doIoctl sockfd (.getAddr (ifrName dev)) with
    | .error _ => clearFlags dev sockfd
    | .ok ifr =>
      let _ ← doIoctl sockfd (.delAddr (ifrName dev) ifr.addr)
      clearFlags dev sockfd

/-! ## Outcomes -/

/-- The outcomes of `tun_set_ip` for an interface `i`: the result, what `i` becomes,
    and the messages. Only `done` is left when the kernel refuses nothing. -/
inductive SetIp (grants : Prop) (ip mask : UInt32) (i : Iface) (log : List LogLine) :
    Int → Iface → List LogLine → Prop
  | done : SetIp grants ip mask i log 0
      { i with addrs := Function.update i.addrs ip (some mask), up := true } log
  | noSocket (h : ¬ grants) : SetIp grants ip mask i log (-1) i log
  | refused (h : ¬ grants) (fmt : String) (errno : ℕ) :
      SetIp grants ip mask i log (-1) i (log ++ [(fmt, [.errno errno])])
  | deleted (h : ¬ grants) (fmt : String) (errno : ℕ) : SetIp grants ip mask i log (-1)
      { i with addrs := Function.update i.addrs ip none } (log ++ [(fmt, [.errno errno])])
  | partly (h : ¬ grants) (fmt : String) (errno : ℕ) (up : Bool) :
      SetIp grants ip mask i log (-1)
        { i with addrs := Function.update i.addrs ip (some mask), up := up }
        (log ++ [(fmt, [.errno errno])])

/-- The outcomes of `tun_set_mtu`. -/
inductive SetMtu (grants : Prop) (mtu : UInt16) (i : Iface) (log : List LogLine) :
    Int → Iface → List LogLine → Prop
  | done : SetMtu grants mtu i log 0 { i with mtu := mtu.toNat } log
  | noSocket (h : ¬ grants) : SetMtu grants mtu i log (-1) i log
  | refused (h : ¬ grants) (errno : ℕ) : SetMtu grants mtu i log (-1) i
      (log ++ [("SIOCSIFMTU(%d) failed: %s\n", [.int mtu.toNat, .errno errno])])

/-- What `tun_clear_ip` makes of the addresses: one of them is gone, if there was one. -/
inductive Removed (i : Iface) : Iface → Prop
  | one (ip : UInt32) (h : i.addrs ip ≠ none) :
      Removed i { i with addrs := Function.update i.addrs ip none }
  | none (h : ∀ ip, i.addrs ip = none) : Removed i i

/-- The outcomes of `tun_clear_ip`. -/
inductive ClearIp (grants : Prop) (i : Iface) : Iface → Prop
  | done (j : Iface) (h : Removed i j) : ClearIp grants i { j with up := false }
  | partly (h : ¬ grants) (j : Iface) (hj : j = i ∨ Removed i j) (up : Bool)
      (hup : up = true → i.up = true) : ClearIp grants i { j with up := up }

section

variable {D : Type} {N : BsdNet D} {s t : Process D} {fd : Int} {dev : Bytes}

/-- What follows a failed call, with a socket. -/
theorem wp_giveUp {α : Type} {fmt : String} {errno : ℕ} {res : α} {Q : α → Process D → Prop}
    (hfd : s.fds fd = some .socket) :
    wp N.kernel (giveUp fd fmt errno res) Q s ↔
      Q res ((s.noted fmt [.errno errno]).closed fd) := by
  unfold giveUp
  rw [Device.wp_log, Device.wp_closeSocket (s := s.noted fmt [.errno errno]) hfd]
  exact Iff.rfl

/-- A successful `tun_open`: a new descriptor, and the name of its interface. -/
structure Opened (N : BsdNet D) (s : Process D) (r : Int × Bytes) (s' : Process D) : Prop where
  nonneg : 0 ≤ r.1
  free : s.fds r.1 = none
  fds : s'.fds = (s.opened r.1 .file).fds
  name : N.attached s'.dev r.1 = some r.2

/-- The outcomes of `tun_open`. -/
def OpenOutcome (N : BsdNet D) (s : Process D) (dev : Bytes) (r : Int × Bytes)
    (s' : Process D) : Prop :=
  Opened N s r s' ∨ r = (-1, dev) ∧ s'.fds = s.fds ∧ s.logged.length < s'.logged.length

/-- `open`, by clone or by unit. -/
theorem openTunDevice_spec (s : Process D) (dev : Bytes) :
    wp N.kernel (freebsdOpenTunDevice dev) (fun r t =>
      0 ≤ r.1 ∧ s.fds r.1 = none ∧ t.fds = (s.opened r.1 .file).fds ∧ t.logged = s.logged ∨
        r.1 = -1 ∧ t.fds = s.fds ∧ s.logged.length < t.logged.length) s := by
  unfold freebsdOpenTunDevice
  rw [Device.wp_openFile]
  refine ⟨fun fd d hfree hfd _ => .inl ⟨hfd, hfree, rfl, rfl⟩, fun e _ => ?_⟩
  dsimp only
  split_ifs
  · rw [Device.wp_openFile]
    refine ⟨fun fd d hfree hfd _ => .inl ⟨hfd, hfree, rfl, rfl⟩, fun e _ => ?_⟩
    rw [Device.wp_log]
    exact .inr ⟨rfl, rfl, by simp⟩
  · rw [Device.wp_log]
    exact .inr ⟨rfl, rfl, by simp⟩

/-- `TUNGIFNAME`. -/
theorem getTunName_spec (hfd : t.fds fd ≠ none) :
    wp N.kernel (freebsdGetTunName fd) (fun r t' => t'.fds = t.fds ∧
      match r with
      | some n => N.attached t'.dev fd = some n ∧ n.length ≤ 15 ∧ t'.logged = t.logged
      | none => t.logged.length < t'.logged.length) t := by
  unfold freebsdGetTunName
  rw [Device.wp_ioctl hfd]
  refine ⟨fun ifr d hd => ?_, fun e d _ => ?_⟩
  · obtain ⟨hname, hlen⟩ := N.ifName hd
    show _ = _ ∧ N.attached d fd = some (ifrName ifr.name) ∧ (ifrName ifr.name).length ≤ 15 ∧ _ = _
    rw [ifrName, List.take_of_length_le hlen]
    exact ⟨rfl, hname, hlen, rfl⟩
  · rw [Device.wp_log]
    exact ⟨rfl, by simp⟩

/-- `freebsd_rename_tun`: an interface with the old name has the new name after it, and if
    it fails then all names stay. -/
theorem renameTun_spec {old new : Bytes} (hold : old.length ≤ 15) (hnew : new.length ≤ 15) :
    wp N.kernel (freebsdRenameTun old new) (fun r t' => t'.fds = t.fds ∧ t'.logged = t.logged ∧
      match r with
      | .ok _ => ∀ f, N.attached t.dev f = some old → N.attached t'.dev f = some new
      | .error _ => N.attached t'.dev = N.attached t.dev) t := by
  unfold freebsdRenameTun
  rw [ifrName, ifrName, List.take_of_length_le hold, List.take_of_length_le hnew]
  split_ifs with heq
  · exact ⟨rfl, rfl, fun f hf => heq ▸ hf⟩
  rw [Device.wp_socket]
  refine ⟨fun sockfd hfree _ => ?_, fun e _ => ⟨rfl, rfl, rfl⟩⟩
  rw [Device.wp_ioctl (by simp)]
  refine ⟨fun r d hd => ?_, fun e d _ => ?_⟩
  · rw [Device.wp_closeSocket (by simp)]
    refine ⟨closed_opened hfree rfl, rfl, fun f hf => ?_⟩
    show N.attached d f = some new
    rw [N.setName hd hnew, opened_dev, if_pos hf]
  · rw [Device.wp_closeSocket (by simp)]
    exact ⟨closed_opened hfree rfl, rfl, rfl⟩

/-- The end of `tun_open`. -/
theorem nameTun_spec (hdev : dev.length ≤ 15) (hnonneg : 0 ≤ fd) (hfree : s.fds fd = none)
    (ht : t.fds = (s.opened fd .file).fds) (hlog : s.logged.length ≤ t.logged.length) :
    wp N.kernel (nameTun fd dev) (OpenOutcome N s dev) t := by
  have hfd : t.fds fd = some .file := by rw [ht, opened_fds]
  unfold nameTun
  rw [wp_bind]
  refine wp_mono (fun r t₁ => ?_) (getTunName_spec (by simp [hfd]))
  rintro ⟨hfds₁, hr⟩
  cases r with
  | none =>
    rw [Device.wp_closeFile (by rw [hfds₁, hfd])]
    exact fun d _ => .inr ⟨rfl, closed_opened hfree (hfds₁.trans ht), by
      exact lt_of_le_of_lt hlog hr⟩
  | some actual =>
    obtain ⟨hname, hlen, -⟩ := hr
    dsimp only
    split_ifs with heq
    · exact .inl ⟨hnonneg, hfree, hfds₁.trans ht, heq ▸ hname⟩
    rw [wp_bind]
    refine wp_mono (fun r t₂ => ?_) (renameTun_spec hlen hdev)
    rintro ⟨hfds₂, -, hr⟩
    cases r with
    | ok =>
      rw [Device.wp_log]
      exact .inl ⟨hnonneg, hfree, hfds₂.trans (hfds₁.trans ht), hr fd hname⟩
    | error e =>
      rw [Device.wp_log]
      refine .inl ⟨hnonneg, hfree, hfds₂.trans (hfds₁.trans ht), ?_⟩
      show N.attached t₂.dev fd = some (ifrName actual)
      rw [ifrName, List.take_of_length_le hlen, hr, hname]

/-- A failed `tun_open` after the device was opened. -/
theorem openGiveUp_spec {fmt : String} {errno : ℕ} (hfree : s.fds fd = none)
    (ht : t.fds = (s.opened fd .file).fds) (hlog : s.logged.length ≤ t.logged.length) :
    wp N.kernel (giveUp fd fmt errno (-1, dev)) (OpenOutcome N s dev) t := by
  unfold giveUp
  rw [Device.wp_log, Device.wp_closeFile (by rw [noted_fds, ht, opened_fds])]
  refine fun d _ => .inr ⟨rfl, closed_opened hfree ht, ?_⟩
  show s.logged.length < (t.logged ++ [(fmt, [LogArg.errno errno])]).length
  rw [List.length_append, List.length_singleton]
  omega

/-- Every outcome of `tun_open`: the name that it leaves is the name of the interface
    of its descriptor, whether this was renamed or not. -/
theorem tunOpen_spec (s : Process D) (transient : Bool) (hdev : dev.length ≤ 15) :
    wp N.kernel (tunOpen transient dev) (OpenOutcome N s dev) s := by
  unfold tunOpen
  rw [wp_bind]
  refine wp_mono (fun r t => ?_) (openTunDevice_spec s dev)
  obtain ⟨fd, cloned⟩ := r
  rintro (⟨hnonneg, hfree, ht, hlog⟩ | ⟨hneg, hfds, hlog⟩)
  · have hnonneg : 0 ≤ fd := hnonneg
    have hfree : s.fds fd = none := hfree
    have ht : t.fds = (s.opened fd .file).fds := ht
    have hfd : t.fds fd ≠ none := by simp [ht]
    have hlog : s.logged.length ≤ t.logged.length := by rw [hlog]
    dsimp only
    rw [if_neg (by omega)]
    refine (Device.wp_ioctl hfd).mpr
      ⟨fun _ d₁ _ => ?_, fun e d _ => openGiveUp_spec hfree ht hlog⟩
    refine (Device.wp_ioctl (by exact hfd)).mpr
      ⟨fun _ d₂ _ => ?_, fun e d _ => openGiveUp_spec hfree ht hlog⟩
    refine (Device.wp_ioctl (by exact hfd)).mpr
      ⟨fun _ d₃ _ => ?_, fun e d _ => openGiveUp_spec hfree ht hlog⟩
    dsimp only
    split_ifs
    · refine (Device.wp_ioctl (by exact hfd)).mpr
        ⟨fun _ d₄ _ => nameTun_spec hdev hnonneg hfree ht hlog, fun e d _ => ?_⟩
      rw [Device.wp_log]
      exact nameTun_spec hdev hnonneg hfree ht (hlog.trans (by simp))
    · exact nameTun_spec hdev hnonneg hfree ht hlog
  · have hneg : fd = -1 := hneg
    subst hneg
    exact .inr ⟨rfl, hfds, hlog⟩

/-- Every outcome of `tun_set_mtu`. -/
theorem tunSetMtu_spec (s : Process D) (dev : Bytes) (mtu : UInt16) :
    wp N.kernel (tunSetMtu dev mtu) (fun r s' => Untouched N.iface (ifrName dev) s s' ∧
      SetMtu N.Grants mtu (N.iface s.dev (ifrName dev)) s.logged r
        (N.iface s'.dev (ifrName dev)) s'.logged) s := by
  unfold tunSetMtu
  rw [Device.wp_socket]
  refine ⟨fun fd hfree _ => ?_, fun e he => ⟨.refl s, .noSocket fun hg => hg.noFd he⟩⟩
  have hu₀ : Untouched N.iface (ifrName dev) (s.opened fd .socket) (s.opened fd .socket) := .refl _
  refine wp_setMtu (by simp) (fun _ d hi hu => ?_) fun e d hd => ?_
  · rw [Device.wp_closeSocket (by simp)]
    exact ⟨hu.closed hfree, hi ▸ .done⟩
  · rw [Device.wp_log, Device.wp_closeSocket (by simp)]
    exact ⟨hu₀.noted.closed hfree, .refused (fun hg => hg.io hd) e⟩

/-- `SIOCAIFADDR`, tried again after `SIOCDIFADDR`. -/
theorem addAddr_spec {ip mask : UInt32} (hfd : t.fds fd ≠ none) :
    wp N.kernel (addAddr fd dev ip mask) (fun r t' => Untouched N.iface (ifrName dev) t t' ∧
      t'.logged = t.logged ∧
      match r with
      | .ok _ => ∃ up, N.iface t'.dev (ifrName dev) = { N.iface t.dev (ifrName dev) with
          addrs := Function.update (N.iface t.dev (ifrName dev)).addrs ip (some mask), up := up }
      | .error _ => ¬ N.Grants ∧ (N.iface t'.dev (ifrName dev) = N.iface t.dev (ifrName dev) ∨
          N.iface t'.dev (ifrName dev) = { N.iface t.dev (ifrName dev) with
            addrs := Function.update (N.iface t.dev (ifrName dev)).addrs ip none })) t := by
  unfold addAddr
  refine wp_aliasAddr hfd (fun r d hi hu => ?_) fun e d hd => ?_
  · exact ⟨hu, rfl, hi⟩
  have hg : ¬ N.Grants := fun hg => hg.io hd
  dsimp only
  split_ifs with he
  · refine wp_delAddr hfd (fun r d hi hu => ?_) fun e' d hd => ?_
    · show wp N.kernel (doIoctl fd _ >>= pure) _ _
      refine wp_aliasAddr hfd (fun r d' hi' hu' => ?_) fun e' d hd => ?_
      · obtain ⟨up, hi'⟩ := hi'
        rw [hi] at hi'
        dsimp only at hi'
        rw [Function.update_idem] at hi'
        exact ⟨hu.trans hu', rfl, up, hi'⟩
      · exact ⟨hu, rfl, hg, .inr hi⟩
    · exact ⟨.refl t, rfl, hg, .inl rfl⟩
  · exact ⟨.refl t, rfl, hg, .inl rfl⟩

/-- Every outcome of `tun_set_ip`. -/
theorem tunSetIp_spec (s : Process D) (dev : Bytes) (ip mask : UInt32) :
    wp N.kernel (tunSetIp dev ip mask) (fun r s' => Untouched N.iface (ifrName dev) s s' ∧
      SetIp N.Grants ip mask (N.iface s.dev (ifrName dev)) s.logged r
        (N.iface s'.dev (ifrName dev)) s'.logged) s := by
  unfold tunSetIp
  rw [Device.wp_socket]
  refine ⟨fun fd hfree _ => ?_, fun e he => ⟨.refl s, .noSocket fun hg => hg.noFd he⟩⟩
  rw [wp_bind]
  refine wp_mono (fun r t => ?_) (addAddr_spec (by simp))
  rintro ⟨hu, hlog, hr⟩
  have hlog : s.logged = t.logged := hlog.symm
  rw [hlog]
  cases r with
  | error errno =>
    rw [wp_giveUp hu.socket]
    obtain ⟨hg, hi | hi⟩ := hr
    · exact ⟨hu.noted.closed hfree, hi ▸ .refused hg ..⟩
    · exact ⟨hu.noted.closed hfree, hi ▸ .deleted hg ..⟩
  | ok ifr =>
    obtain ⟨up, hi⟩ := hr
    refine wp_getFlags (by simp [hu.socket]) (fun ifr d₁ hi₁ hu₁ => ?_) fun e d hd => ?_
    · have hu₁ := hu.trans hu₁
      rw [hi] at hi₁
      refine wp_setFlags (by simp [hu.socket]) (fun _ d₂ hi₂ hu₂ => ?_) fun e d hd => ?_
      · rw [Device.wp_closeSocket (by simp [hu.socket])]
        simp only [hi₁, up_or _ (show iffUp &&& iffUp = iffUp by decide), ne_eq,
          not_false_eq_true, decide_true] at hi₂
        exact ⟨(hu₁.trans hu₂).closed hfree, hi₂ ▸ .done⟩
      · rw [wp_giveUp hu₁.socket]
        exact ⟨hu₁.noted.closed hfree, hi₁ ▸ .partly (fun hg => hg.io hd) ..⟩
    · rw [wp_giveUp hu.socket]
      exact ⟨hu.noted.closed hfree, hi ▸ .partly (fun hg => hg.io hd) ..⟩

/-- The second half of `tun_clear_ip`. -/
theorem clearFlags_spec (hfree : s.fds fd = none)
    (hu : Untouched N.iface (ifrName dev) (s.opened fd .socket) t) :
    wp N.kernel (clearFlags dev fd) (fun _ s' => Untouched N.iface (ifrName dev) s s' ∧
      s'.logged = t.logged ∧
      (N.iface s'.dev (ifrName dev) = { N.iface t.dev (ifrName dev) with up := false } ∨
        N.iface s'.dev (ifrName dev) = N.iface t.dev (ifrName dev) ∧ ¬ N.Grants)) t := by
  have hfd := hu.socket
  unfold clearFlags
  refine wp_getFlags (by simp [hfd]) (fun ifr d hi hu₁ => ?_) fun e d hd => ?_
  · have hu₁ := hu.trans hu₁
    refine wp_setFlags (by simp [hfd]) (fun _ d' hi' hu' => ?_) fun e d' hd => ?_
    · rw [Device.wp_closeSocket (by simp [hfd])]
      simp only [hi, up_and_not _ (show ~~~iffUp &&& iffUp = 0 by decide), ne_eq,
        not_true_eq_false, decide_false] at hi'
      exact ⟨(hu₁.trans hu').closed hfree, rfl, .inl hi'⟩
    · rw [Device.wp_closeSocket (by simp [hfd])]
      exact ⟨hu₁.closed hfree, rfl, .inr ⟨hi, fun hg => hg.io hd⟩⟩
  · rw [Device.wp_closeSocket hfd]
    exact ⟨hu.closed hfree, rfl, .inr ⟨rfl, fun hg => hg.io hd⟩⟩

/-- Every outcome of `tun_clear_ip`. -/
theorem tunClearIp_spec (s : Process D) (dev : Bytes) :
    wp N.kernel (tunClearIp dev) (fun _ s' => Untouched N.iface (ifrName dev) s s' ∧
      s'.logged = s.logged ∧
      ClearIp N.Grants (N.iface s.dev (ifrName dev)) (N.iface s'.dev (ifrName dev))) s := by
  unfold tunClearIp
  rw [Device.wp_socket]
  refine ⟨fun fd hfree _ => ?_, fun e he => ⟨.refl s, rfl,
    .partly (fun hg => hg.noFd he) _ (.inl rfl) _ id⟩⟩
  -- whatever the first half made of the interface
  have hrest : ∀ t j, Untouched N.iface (ifrName dev) (s.opened fd .socket) t →
      t.logged = s.logged → N.iface t.dev (ifrName dev) = j →
      (Removed (N.iface s.dev (ifrName dev)) j ∨ ¬ N.Grants ∧ j = N.iface s.dev (ifrName dev)) →
      j.up = (N.iface s.dev (ifrName dev)).up →
      wp N.kernel (clearFlags dev fd) (fun _ s' => Untouched N.iface (ifrName dev) s s' ∧
        s'.logged = s.logged ∧
        ClearIp N.Grants (N.iface s.dev (ifrName dev)) (N.iface s'.dev (ifrName dev))) t := by
    rintro t j hu hlog rfl hj hup
    refine wp_mono (fun _ s' => ?_) (clearFlags_spec hfree hu)
    rintro ⟨hu', hlog', h⟩
    refine ⟨hu', hlog'.trans hlog, ?_⟩
    rcases h with h | ⟨h, hg⟩
    · rw [h]
      rcases hj with hj | ⟨hg, hj⟩
      · exact .done _ hj
      · exact .partly hg _ (.inl hj) false (by simp)
    · rw [h]
      have hup' : (N.iface t.dev (ifrName dev)).up = true →
        (N.iface s.dev (ifrName dev)).up = true := fun h => hup ▸ h
      rcases hj with hj | ⟨-, hj⟩
      · exact .partly hg _ (.inr hj) _ hup'
      · exact .partly hg _ (.inl hj) _ hup'
  refine wp_getAddr (by simp) (fun ifr d hi hu => ?_) fun e d hd => ?_
  · obtain ⟨hi, haddr⟩ := hi
    refine wp_delAddr (by simp) (fun _ d' hi' hu' => ?_) fun e d' hd => ?_
    · rw [hi] at hi'
      exact hrest _ _ (hu.trans hu') rfl hi' (.inl (.one ifr.addr haddr)) rfl
    · exact hrest _ _ hu rfl hi (.inr ⟨fun hg => hg.io hd, rfl⟩) rfl
  · by_cases hg : N.Grants
    · exact hrest _ _ (.refl _) rfl rfl (.inl (.none (hg.io hd))) rfl
    · exact hrest _ _ (.refl _) rfl rfl (.inr ⟨hg, rfl⟩) rfl

end

/-- Interfaces without addresses. -/
def bareTable : Table where
  iface := fun _ => ⟨fun _ => none, false, 1500⟩
  attached := fun _ => none
  short := nofun

/-- The addresses of an interface, with their netmasks. -/
def addrs (i : Iface) : Set (UInt32 × UInt32) := {a | i.addrs a.1 = some a.2}

section

variable {i i' : Iface} {log log' : List LogLine} {r : Int} {grants : Prop}

theorem mem_addrs_update {ip : UInt32} {m : Option UInt32} {a : UInt32 × UInt32}
    (ha : Function.update i.addrs ip m a.1 = some a.2) : a ∈ addrs i ∨ a.1 = ip := by
  by_cases hip : a.1 = ip
  · exact .inr hip
  · rw [Function.update_of_ne hip] at ha
    exact .inl ha

theorem SetIp.contract {ip mask : UInt32} (h : SetIp grants ip mask i log r i' log') :
    (0 ≤ r → (ip, mask) ∈ addrs i' ∧ i'.up = true) ∧
      ∀ a ∈ addrs i', a ∈ addrs i ∨ a.1 = ip := by
  cases h with
  | done => exact ⟨fun _ => ⟨Function.update_self .., rfl⟩, fun a ha => mem_addrs_update ha⟩
  | noSocket => exact ⟨fun h => absurd h (by decide), fun a ha => .inl ha⟩
  | refused => exact ⟨fun h => absurd h (by decide), fun a ha => .inl ha⟩
  | deleted => exact ⟨fun h => absurd h (by decide), fun a ha => mem_addrs_update ha⟩
  | partly => exact ⟨fun h => absurd h (by decide), fun a ha => mem_addrs_update ha⟩

theorem SetIp.result {ip mask : UInt32} (h : SetIp grants ip mask i log r i' log')
    (hg : grants) : r = 0 := by
  cases h with
  | done => rfl
  | noSocket h => exact absurd hg h
  | refused h => exact absurd hg h
  | deleted h => exact absurd hg h
  | partly h => exact absurd hg h

theorem SetMtu.contract {mtu : UInt16} (h : SetMtu grants mtu i log r i' log') :
    (0 ≤ r → i'.mtu = mtu.toNat) ∧ i'.up = i.up ∧ addrs i' = addrs i := by
  cases h with
  | done => exact ⟨fun _ => rfl, rfl, rfl⟩
  | noSocket => exact ⟨fun h => absurd h (by decide), rfl, rfl⟩
  | refused => exact ⟨fun h => absurd h (by decide), rfl, rfl⟩

theorem SetMtu.result {mtu : UInt16} (h : SetMtu grants mtu i log r i' log') (hg : grants) :
    r = 0 := by
  cases h with
  | done => rfl
  | noSocket h => exact absurd hg h
  | refused h => exact absurd hg h

/-- An interface with one address has none after it is removed. -/
theorem Removed.addrs_eq {ip : UInt32} (honly : ∀ a ∈ addrs i, a.1 = ip) (h : Removed i i') :
    addrs i' = ∅ := by
  refine Set.eq_empty_of_forall_notMem fun a ha => ?_
  cases h with
  | one ip' hip' =>
    obtain ⟨m, hm⟩ := Option.ne_none_iff_exists'.mp hip'
    have heq : ip' = ip := honly (ip', m) hm
    have ha : Function.update i.addrs ip' Option.none a.1 = some a.2 := ha
    by_cases hne : a.1 = ip'
    · rw [hne, Function.update_self] at ha
      cases ha
    · rw [Function.update_of_ne hne] at ha
      exact hne ((honly a ha).trans heq.symm)
  | none h =>
    have ha : i.addrs a.1 = some a.2 := ha
    rw [h] at ha
    cases ha

theorem ClearIp.contract {ip : UInt32} (h : ClearIp grants i i') (hg : grants)
    (honly : ∀ a ∈ addrs i, a.1 = ip) : addrs i' = ∅ ∧ i'.up = false := by
  cases h with
  | done j h =>
    have hnone : addrs j = ∅ := h.addrs_eq honly
    exact ⟨hnone, rfl⟩
  | partly h => exact absurd hg h

end

section

variable {D : Type}

/-- `tun_freebsd.c` for the interface `dev`. -/
def freebsdTun (N : BsdNet D) (dev : Bytes) : Tun Req Ifreq D where
  device := N.toDevice
  granting := N.granting.toDevice
  view d :=
    let i := N.iface d (ifrName dev)
    ⟨addrs i, i.up, i.mtu⟩
  frame d d' := ∀ m, m ≠ ifrName dev → N.iface d' m = N.iface d m
  setIp := tunSetIp dev
  setMtu := tunSetMtu dev
  clearIp := tunClearIp dev
  frame_refl _ _ _ := rfl
  frame_trans h h' m hm := (h' m hm).trans (h m hm)
  setIp_spec s ip mask _ := wp_mono
    (fun _ _ ⟨hu, ho⟩ => ⟨⟨hu.fds, hu.others⟩, ho.contract⟩) (tunSetIp_spec s dev ip mask)
  setMtu_spec s mtu := wp_mono (fun _ _ ⟨hu, ho⟩ =>
    have ⟨hmtu, hup, haddrs⟩ := ho.contract
    ⟨⟨hu.fds, hu.others⟩, hmtu, hup, haddrs.subset, fun _ => haddrs⟩) (tunSetMtu_spec s dev mtu)
  clearIp_spec s := wp_mono (fun _ _ ⟨hu, _⟩ => ⟨hu.fds, hu.others⟩) (tunClearIp_spec s dev)
  clearIp_granting s _ hip := wp_mono
    (fun _ _ ⟨_, _, ho⟩ => ho.contract N.granting_grants hip)
    (tunClearIp_spec (N := N.granting) s dev)

/-- With a kernel that can grant each request, the calls can succeed. -/
theorem freebsdTun_runs {N : BsdNet D} (dev : Bytes)
    (hio : ∀ d fd req, ∃ r d', N.granting.io d fd req r d')
    (hacquire : ∀ d path fd, ∃ d', N.acquire d path fd d')
    (hrelease : ∀ d fd, ∃ d', N.release d fd d') : (freebsdTun N dev).Runs Process.Finite where
  setIp {s} hs ip mask := by
    obtain ⟨r, s', hexec, ⟨-, ho⟩, hs'⟩ := wp_total (Device.kernel_total hio hacquire hrelease) hs
      (tunSetIp_spec (N := N.granting) s dev ip mask)
    obtain rfl := ho.result N.granting_grants
    exact ⟨s', hexec.of_only, hs'⟩
  setMtu {s} hs mtu := by
    obtain ⟨r, s', hexec, ⟨-, ho⟩, hs'⟩ := wp_total (Device.kernel_total hio hacquire hrelease) hs
      (tunSetMtu_spec (N := N.granting) s dev mtu)
    obtain rfl := ho.result N.granting_grants
    exact ⟨s', hexec.of_only, hs'⟩
  clearIp {s} hs := by
    obtain ⟨⟨⟩, s', hexec, -, hs'⟩ := wp_total (Device.kernel_total hio hacquire hrelease) hs
      (tunClearIp_spec (N := N.granting) s dev)
    exact ⟨s', hexec, hexec.of_only, hs'⟩

end

end Iwand.Client.TunFreebsd
