import Iwand.Common.Netdev
import Iwand.Client.Interface

/-!
# The interface on Linux

Model of `tun_linux.c` (lines 27–138). Addresses are words in host order, so
`htonl` does not appear; a call that fails is its `errno`.

* `tunOpen_spec`: every outcome of `tun_open`.
* `tunSetIp_spec`, `tunSetMtu_spec`, `tunClearIp_spec`: every outcome of the other
  functions, with what they leave open, change and log.
* `linuxTun`: what the client relies on.
* `linux_interface`: the interface of the client over whole runs.
-/

namespace Iwand.Client.TunLinux

open Syscall Syscall.FdCall Netdev Netdev.LinuxNet

/-- A program of `tun_linux.c`. -/
abbrev Code (α : Type) := Program (FdCall Req) (FdAns Req UInt16) α

/-- `"/dev/net/tun"`. -/
def tunDevice : Bytes := [47, 100, 101, 118, 47, 110, 101, 116, 47, 116, 117, 110]

/-- `snprintf(ifr.ifr_name, IFNAMSIZ, "%s", dev)`. -/
def ifrName (dev : Bytes) : Bytes := dev.take 15

/-- What follows a failed call: log it, `close(fd)` and `return -1`. -/
def giveUp (fd : Int) (fmt : String) (args : List LogArg) : Code Int := do
  doLog fmt args
  doClose fd
  return -1

/-- `tun_open` (lines 27–49). -/
def tunOpen (dev : Bytes) : Code Int := do
  match ← doOpen tunDevice with
  | .error errno =>
    doLog "open /dev/net/tun failed: %s\n" [.errno errno]
    return -1
  | .ok fd =>
    match ← doIoctl fd (.tunSetIff (ifrName dev) (0x0001 ||| 0x1000)) with
    | .error errno => giveUp fd "TUNSETIFF failed: %s\n" [.errno errno]
    | .ok _ => return fd

/-- `tun_set_ip` (lines 51–94). -/
def tunSetIp (dev : Bytes) (ip mask : UInt32) : Code Int := do
  match ← doSocket with
  | .error _ => return -1
  | .ok sockfd =>
    match ← doIoctl sockfd (.setAddr (ifrName dev) ip) with
    | .error errno => giveUp sockfd "SIOCSIFADDR failed: %s\n" [.errno errno]
    | .ok _ =>
      match ← doIoctl sockfd (.setMask (ifrName dev) mask) with
      | .error errno => giveUp sockfd "SIOCSIFNETMASK failed: %s\n" [.errno errno]
      | .ok _ =>
        match ← doIoctl sockfd (.getFlags (ifrName dev)) with
        | .error errno => giveUp sockfd "SIOCGIFFLAGS failed: %s\n" [.errno errno]
        | .ok flags =>
          match ← doIoctl sockfd (.setFlags (ifrName dev) (flags ||| (iffUp ||| iffRunning))) with
          | .error errno => giveUp sockfd "SIOCSIFFLAGS UP failed: %s\n" [.errno errno]
          | .ok _ =>
            doClose sockfd
            return 0

/-- `tun_set_mtu` (lines 96–109). -/
def tunSetMtu (dev : Bytes) (mtu : UInt16) : Code Int := do
  match ← doSocket with
  | .error _ => return -1
  | .ok sockfd =>
    match ← doIoctl sockfd (.setMtu (ifrName dev) mtu.toNat) with
    | .error errno => giveUp sockfd "SIOCSIFMTU(%d) failed: %s\n" [.int mtu.toNat, .errno errno]
    | .ok _ =>
      doClose sockfd
      return 0

/-- The second half of `tun_clear_ip` (lines 127–133). If `SIOCGIFFLAGS` fails then the
    flags are those of the zeroed `ifr`. -/
def clearFlags (dev : Bytes) (sockfd : Int) : Code Unit := do
  let flags := match ← doIoctl sockfd (.getFlags (ifrName dev)) with
    | .error _ => 0
    | .ok flags => flags
  let _ ← doIoctl sockfd (.setFlags (ifrName dev) (flags &&& ~~~(iffUp ||| iffRunning)))
  doClose sockfd
  return ()

/-- `tun_clear_ip` (lines 111–134). No result is looked at but that of `socket`. -/
def tunClearIp (dev : Bytes) : Code Unit := do
  match ← doSocket with
  | .error _ => return ()
  | .ok sockfd =>
    let _ ← doIoctl sockfd (.setAddr (ifrName dev) 0)
    clearFlags dev sockfd

/-! ## Outcomes -/

theorem up_upRunning : (iffUp ||| iffRunning) &&& iffUp = iffUp := by decide

theorem up_not_upRunning : ~~~(iffUp ||| iffRunning) &&& iffUp = 0 := by decide

/-- The outcomes of `tun_set_ip` for an interface `i`: the result, what `i` becomes,
    and the messages. Only `done` is left when the kernel refuses nothing. -/
inductive SetIp (grants : Prop) (ip mask : UInt32) (i : Iface) (log : List LogLine) :
    Int → Iface → List LogLine → Prop
  | done : SetIp grants ip mask i log 0 { i with addr := ip, mask := mask, up := true } log
  | noSocket (h : ¬ grants) : SetIp grants ip mask i log (-1) i log
  | refused (h : ¬ grants) (fmt : String) (errno : ℕ) :
      SetIp grants ip mask i log (-1) i (log ++ [(fmt, [.errno errno])])
  | partly (h : ¬ grants) (fmt : String) (errno : ℕ) (m : UInt32) :
      SetIp grants ip mask i log (-1) { i with addr := ip, mask := m }
        (log ++ [(fmt, [.errno errno])])

/-- The outcomes of `tun_set_mtu`. -/
inductive SetMtu (grants : Prop) (mtu : UInt16) (i : Iface) (log : List LogLine) :
    Int → Iface → List LogLine → Prop
  | done : SetMtu grants mtu i log 0 { i with mtu := mtu.toNat } log
  | tooSmall (h : mtu < 68) :
      SetMtu grants mtu i log 0 { i with addr := 0, mask := 0, mtu := mtu.toNat } log
  | noSocket (h : ¬ grants) : SetMtu grants mtu i log (-1) i log
  | refused (h : ¬ grants) (errno : ℕ) :
      SetMtu grants mtu i log (-1) i
        (log ++ [("SIOCSIFMTU(%d) failed: %s\n", [.int mtu.toNat, .errno errno])])

/-- What `tun_clear_ip` makes of an interface. -/
inductive ClearIp (grants : Prop) (i : Iface) : Iface → Prop
  | done (m : UInt32) : ClearIp grants i { i with addr := 0, mask := m, up := false }
  | zeroed (h : ¬ grants) (m : UInt32) : ClearIp grants i { i with addr := 0, mask := m }
  | downed (h : ¬ grants) : ClearIp grants i { i with up := false }
  | kept (h : ¬ grants) : ClearIp grants i i

section

variable {D : Type} {N : LinuxNet D} {s t : Process D} {fd : Int} {dev : Bytes}

/-- What follows a failed call, with a socket. -/
theorem wp_giveUp {fmt : String} {args : List LogArg} {Q : Int → Process D → Prop}
    (hfd : s.fds fd = some .socket) :
    wp N.kernel (giveUp fd fmt args) Q s ↔ Q (-1) ((s.noted fmt args).closed fd) := by
  unfold giveUp
  rw [Device.wp_log, Device.wp_closeSocket (s := s.noted fmt args) hfd]
  exact Iff.rfl

/-- `tun_open` returns a descriptor that is open, or -1 with one message and no
    descriptor left open. -/
theorem tunOpen_spec (s : Process D) (dev : Bytes) : wp N.kernel (tunOpen dev) (fun r s' =>
    (0 ≤ r ∧ s.fds r = none ∧ s'.fds = (s.opened r .file).fds ∧ s'.logged = s.logged) ∨
      r = -1 ∧ s'.fds = s.fds ∧ ∃ entry, s'.logged = s.logged ++ [entry]) s := by
  unfold tunOpen
  rw [Device.wp_openFile]
  refine ⟨fun fd d hfree hfd _ => ?_, fun e _ => ?_⟩
  · rw [Device.wp_ioctl (by simp)]
    refine ⟨fun r d _ => .inl ⟨hfd, hfree, rfl, rfl⟩, fun e d _ => ?_⟩
    unfold giveUp
    rw [Device.wp_log, Device.wp_closeFile (by simp)]
    exact fun d _ => .inr ⟨rfl, closed_opened hfree rfl, _, rfl⟩
  · rw [Device.wp_log]
    exact .inr ⟨rfl, rfl, _, rfl⟩

/-- Every outcome of `tun_set_ip`. -/
theorem tunSetIp_spec (s : Process D) (dev : Bytes) (ip mask : UInt32) :
    wp N.kernel (tunSetIp dev ip mask) (fun r s' => Untouched N.iface (ifrName dev) s s' ∧
      SetIp N.Grants ip mask (N.iface s.dev (ifrName dev)) s.logged r
        (N.iface s'.dev (ifrName dev)) s'.logged) s := by
  unfold tunSetIp
  rw [Device.wp_socket]
  refine ⟨fun fd hfree _ => ?_, fun e he => ⟨.refl s, .noSocket fun hg => hg.noFd he⟩⟩
  have hu₀ : Untouched N.iface (ifrName dev) (s.opened fd .socket) (s.opened fd .socket) := .refl _
  refine wp_setAddr (by simp) (fun _ d₁ ⟨m, hi₁⟩ hu₁ => ?_) fun e d hd => ?_
  · refine wp_setMask (by simp) (fun _ d₂ hi₂ hu₂ => ?_) fun e d hd => ?_
    · have hu₂ := hu₁.trans hu₂
      rw [hi₁] at hi₂
      refine wp_getFlags (by simp) (fun flags d₃ hi₃ hu₃ => ?_) fun e d hd => ?_
      · have hu₃ := hu₂.trans hu₃
        rw [hi₂] at hi₃
        refine wp_setFlags (by simp) (fun _ d₄ hi₄ hu₄ => ?_) fun e d hd => ?_
        · rw [Device.wp_closeSocket (by simp)]
          simp only [hi₃, up_or _ up_upRunning, ne_eq, not_false_eq_true, decide_true] at hi₄
          exact ⟨(hu₃.trans hu₄).closed hfree, hi₄ ▸ .done⟩
        · rw [wp_giveUp hu₃.socket]
          exact ⟨hu₃.noted.closed hfree, hi₃ ▸ .partly (fun hg => hg.io hd) ..⟩
      · rw [wp_giveUp hu₂.socket]
        exact ⟨hu₂.noted.closed hfree, hi₂ ▸ .partly (fun hg => hg.io hd) ..⟩
    · rw [wp_giveUp hu₁.socket]
      exact ⟨hu₁.noted.closed hfree, hi₁ ▸ .partly (fun hg => hg.io hd) ..⟩
  · rw [wp_giveUp hu₀.socket]
    exact ⟨hu₀.noted.closed hfree, .refused (fun hg => hg.io hd) ..⟩

/-- Every outcome of `tun_set_mtu`. -/
theorem tunSetMtu_spec (s : Process D) (dev : Bytes) (mtu : UInt16) :
    wp N.kernel (tunSetMtu dev mtu) (fun r s' => Untouched N.iface (ifrName dev) s s' ∧
      SetMtu N.Grants mtu (N.iface s.dev (ifrName dev)) s.logged r
        (N.iface s'.dev (ifrName dev)) s'.logged) s := by
  unfold tunSetMtu
  rw [Device.wp_socket]
  refine ⟨fun fd hfree _ => ?_, fun e he => ⟨.refl s, .noSocket fun hg => hg.noFd he⟩⟩
  have hu₀ : Untouched N.iface (ifrName dev) (s.opened fd .socket) (s.opened fd .socket) := .refl _
  refine wp_setMtu (by simp) (fun _ d hi hu => ?_) fun e d hd => ?_
  · rw [Device.wp_closeSocket (by simp)]
    refine ⟨hu.closed hfree, ?_⟩
    rcases hi with hi | ⟨hlt, hi⟩
    · exact hi ▸ .done
    · exact hi ▸ .tooSmall (UInt16.lt_iff_toNat_lt.mpr (by simpa using hlt))
  · rw [wp_giveUp hu₀.socket]
    exact ⟨hu₀.noted.closed hfree, .refused (fun hg => hg.io hd) e⟩

/-- The second half of `tun_clear_ip`. -/
theorem clearFlags_spec {t : Process D} {fd : Int} (hfree : s.fds fd = none)
    (hu : Untouched N.iface (ifrName dev) (s.opened fd .socket) t) :
    wp N.kernel (clearFlags dev fd) (fun _ s' => Untouched N.iface (ifrName dev) s s' ∧
      s'.logged = t.logged ∧
      (N.iface s'.dev (ifrName dev) = { N.iface t.dev (ifrName dev) with up := false } ∨
        N.iface s'.dev (ifrName dev) = N.iface t.dev (ifrName dev) ∧ ¬ N.Grants)) t := by
  -- whatever the flags are
  have hset : ∀ (t' : Process D) (flags : UInt16), Untouched N.iface (ifrName dev) (s.opened fd .socket) t' →
      t'.logged = t.logged → N.iface t'.dev (ifrName dev) = N.iface t.dev (ifrName dev) →
      wp N.kernel (do
        let _ ← doIoctl fd (.setFlags (ifrName dev) (flags &&& ~~~(iffUp ||| iffRunning)))
        doClose fd
        return ()) (fun _ s' => Untouched N.iface (ifrName dev) s s' ∧ s'.logged = t.logged ∧
      (N.iface s'.dev (ifrName dev) = { N.iface t.dev (ifrName dev) with up := false } ∨
        N.iface s'.dev (ifrName dev) = N.iface t.dev (ifrName dev) ∧ ¬ N.Grants)) t' := by
    intro t' flags hu hlog hi
    have hfd := hu.socket
    refine wp_setFlags (by simp [hfd]) (fun _ d hi' hu' => ?_) fun e d hd => ?_
    · rw [Device.wp_closeSocket (by exact hfd)]
      simp only [hi, up_and_not _ up_not_upRunning, ne_eq, not_true_eq_false, decide_false] at hi'
      exact ⟨(hu.trans hu').closed hfree, hlog, .inl hi'⟩
    · rw [Device.wp_closeSocket hfd]
      exact ⟨hu.closed hfree, hlog, .inr ⟨hi, fun hg => hg.io hd⟩⟩
  unfold clearFlags
  refine wp_getFlags (by simp [hu.socket]) (fun flags d hi hu' => ?_) fun e d _ => ?_
  · exact hset _ flags (hu.trans hu') rfl hi
  · exact hset _ 0 hu rfl rfl

/-- Every outcome of `tun_clear_ip`. -/
theorem tunClearIp_spec (s : Process D) (dev : Bytes) :
    wp N.kernel (tunClearIp dev) (fun _ s' => Untouched N.iface (ifrName dev) s s' ∧
      s'.logged = s.logged ∧
      ClearIp N.Grants (N.iface s.dev (ifrName dev)) (N.iface s'.dev (ifrName dev))) s := by
  unfold tunClearIp
  rw [Device.wp_socket]
  refine ⟨fun fd hfree _ => ?_, fun e he => ⟨.refl s, rfl, .kept fun hg => hg.noFd he⟩⟩
  refine wp_setAddr (by simp) (fun _ d ⟨m, hi⟩ hu => ?_) fun e d hd => ?_
  · refine wp_mono (fun _ s' => ?_) (clearFlags_spec hfree hu)
    rw [hi]
    rintro ⟨hu', hlog, h | ⟨h, hg⟩⟩
    · exact ⟨hu', hlog, h ▸ .done m⟩
    · exact ⟨hu', hlog, h ▸ .zeroed hg m⟩
  · refine wp_mono (fun _ s' => ?_) (clearFlags_spec hfree (.refl _))
    have hg : ¬ N.Grants := fun hg => hg.io hd
    rintro ⟨hu', hlog, h | ⟨h, -⟩⟩
    · exact ⟨hu', hlog, h ▸ .downed hg⟩
    · exact ⟨hu', hlog, h ▸ .kept hg⟩

end

/-! ## The contract -/

/-- The addresses of an interface. -/
def addrs (i : Iface) : Set (UInt32 × UInt32) := {a | a = (i.addr, i.mask) ∧ i.addr ≠ 0}

section

variable {i i' : Iface} {log log' : List LogLine} {r : Int}

theorem SetIp.contract {grants : Prop} {ip mask : UInt32}
    (h : SetIp grants ip mask i log r i' log') (hip : ip ≠ 0) :
    (0 ≤ r → (ip, mask) ∈ addrs i' ∧ i'.up = true) ∧
      ∀ a ∈ addrs i', a ∈ addrs i ∨ a.1 = ip := by
  cases h with
  | done => exact ⟨fun _ => ⟨⟨rfl, hip⟩, rfl⟩, fun a ha => .inr (by rw [ha.1])⟩
  | noSocket => exact ⟨fun h => absurd h (by decide), fun a ha => .inl ha⟩
  | refused => exact ⟨fun h => absurd h (by decide), fun a ha => .inl ha⟩
  | partly => exact ⟨fun h => absurd h (by decide), fun a ha => .inr (by rw [ha.1])⟩

theorem SetIp.result {grants : Prop} {ip mask : UInt32}
    (h : SetIp grants ip mask i log r i' log') (hg : grants) : r = 0 := by
  cases h with
  | done => rfl
  | noSocket h => exact absurd hg h
  | refused h => exact absurd hg h
  | partly h => exact absurd hg h

theorem SetMtu.contract {grants : Prop} {mtu : UInt16} (h : SetMtu grants mtu i log r i' log') :
    (0 ≤ r → i'.mtu = mtu.toNat) ∧ i'.up = i.up ∧ addrs i' ⊆ addrs i ∧
      (68 ≤ mtu → addrs i' = addrs i) := by
  cases h with
  | done => exact ⟨fun _ => rfl, rfl, fun _ ha => ha, fun _ => rfl⟩
  | tooSmall hlt =>
    exact ⟨fun _ => rfl, rfl, fun _ ha => absurd rfl ha.2, fun h => absurd hlt (UInt16.not_lt.mpr h)⟩
  | noSocket => exact ⟨fun h => absurd h (by decide), rfl, fun _ ha => ha, fun _ => rfl⟩
  | refused => exact ⟨fun h => absurd h (by decide), rfl, fun _ ha => ha, fun _ => rfl⟩

theorem SetMtu.result {grants : Prop} {mtu : UInt16} (h : SetMtu grants mtu i log r i' log')
    (hg : grants) : r = 0 := by
  cases h with
  | done => rfl
  | tooSmall => rfl
  | noSocket h => exact absurd hg h
  | refused h => exact absurd hg h

theorem ClearIp.contract {grants : Prop} (h : ClearIp grants i i') (hg : grants) :
    addrs i' = ∅ ∧ i'.up = false := by
  cases h with
  | done => exact ⟨Set.eq_empty_of_forall_notMem fun _ ha => ha.2 rfl, rfl⟩
  | zeroed h => exact absurd hg h
  | downed h => exact absurd hg h
  | kept h => exact absurd hg h

end

section

variable {D : Type}

/-- `tun_linux.c` for the interface `dev`. -/
def linuxTun (N : LinuxNet D) (dev : Bytes) : Tun Req UInt16 D where
  device := N.toDevice
  granting := N.granting.toDevice
  view d :=
    let i := N.iface d (ifrName dev)
    ⟨addrs i, i.up, i.mtu⟩
  frame d d' := ∀ m, m ≠ ifrName dev → N.iface d' m = N.iface d m
  setIp := tunSetIp dev
  setMtu := tunSetMtu dev
  clearIp := tunClearIp dev
  frame_refl _ _ _ := rfl
  frame_trans h h' m hm := (h' m hm).trans (h m hm)
  setIp_spec s ip mask hip := wp_mono
    (fun _ _ ⟨hu, ho⟩ => ⟨⟨hu.fds, hu.others⟩, ho.contract hip⟩) (tunSetIp_spec s dev ip mask)
  setMtu_spec s mtu := wp_mono
    (fun _ _ ⟨hu, ho⟩ => ⟨⟨hu.fds, hu.others⟩, ho.contract⟩) (tunSetMtu_spec s dev mtu)
  clearIp_spec s := wp_mono (fun _ _ ⟨hu, _⟩ => ⟨hu.fds, hu.others⟩) (tunClearIp_spec s dev)
  clearIp_granting s _ _ := wp_mono
    (fun _ _ ⟨_, _, ho⟩ => ho.contract N.granting_grants) (tunClearIp_spec (N := N.granting) s dev)

/-- With a kernel that can grant each request, the calls can succeed. -/
theorem linuxTun_runs {N : LinuxNet D} (dev : Bytes)
    (hio : ∀ d fd req, ∃ r d', N.granting.io d fd req r d')
    (hacquire : ∀ d path fd, ∃ d', N.acquire d path fd d')
    (hrelease : ∀ d fd, ∃ d', N.release d fd d') : (linuxTun N dev).Runs Process.Finite where
  setIp {s} hs ip mask := by
    obtain ⟨r, s', hexec, ⟨-, ho⟩, hs'⟩ := wp_total (Device.kernel_total hio hacquire hrelease) hs
      (tunSetIp_spec (N := N.granting) s dev ip mask)
    obtain rfl := ho.result N.granting_grants
    exact ⟨s', hexec.of_only, hs'⟩
  setMtu {s} hs mtu := by
    obtain ⟨r, s', hexec, ⟨-, ho⟩, hs'⟩ := wp_total (Device.kernel_total hio hacquire hrelease) hs
      (tunSetMtu_spec (N := N.granting) s dev mtu)
    obtain rfl := ho.result N.granting_grants
    exact ⟨s', hexec.of_only, hs'⟩
  clearIp {s} hs := by
    obtain ⟨⟨⟩, s', hexec, -, hs'⟩ := wp_total (Device.kernel_total hio hacquire hrelease) hs
      (tunClearIp_spec (N := N.granting) s dev)
    exact ⟨s', hexec, hexec.of_only, hs'⟩

end

/-- Interfaces without an address. -/
def bareTable : Bytes → Iface := fun _ => ⟨0, 0, false, 1500⟩

end Iwand.Client.TunLinux
