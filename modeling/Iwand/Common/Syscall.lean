import Iwand.Common.Bytes

/-!
# Programs of system calls

A program is a tree of system calls; a kernel says which calls a process may make in
a state, how they can be answered, and what the state is then. `wp` is the weakest
precondition over all answers, with the obligation that each call is allowed.

The second half is the kernel of file descriptors. A process has a table of open
descriptors, a device answers `ioctl`, and a call on a descriptor that is not open
is not allowed. What the device does is a parameter.

* `wp_bind`, `wp_mono`: programs in sequence, weaker postconditions.
* `wp_sound`, `wp_allowed`, `wp_total`: what a precondition says about executions.
* `Device.wp_openFile`, `Device.wp_socket`, `Device.wp_closeSocket`, `Device.wp_closeFile`,
  `Device.wp_ioctl`, `Device.wp_log`: one rule for each call.
-/

namespace Iwand.Syscall

/-- A program that makes system calls and goes on with their answers. -/
inductive Program (Call : Type) (Ans : Call → Type) (α : Type) where
  | ret (a : α)
  | call (c : Call) (next : Ans c → Program Call Ans α)

namespace Program

variable {Call : Type} {Ans : Call → Type} {α β : Type}

/-- One program after another. -/
def bind : Program Call Ans α → (α → Program Call Ans β) → Program Call Ans β
  | ret a, f => f a
  | call c next, f => call c fun r => (next r).bind f

instance : Monad (Program Call Ans) where
  pure := ret
  bind := bind

/-- A single call. -/
def perform (c : Call) : Program Call Ans (Ans c) := call c ret

end Program

/-- What the calls of a process do in the states `S`. -/
structure Kernel (Call : Type) (Ans : Call → Type) (S : Type) where
  allowed : S → Call → Prop
  answer : S → (c : Call) → Ans c → S → Prop

section

variable {Call S α β : Type} {Ans : Call → Type} {K : Kernel Call Ans S}
  {p : Program Call Ans α} {f : α → Program Call Ans β} {c : Call} {s s' s₁ : S} {a : α}

/-- `p` can run from `s`, return `a` and leave `s'`. -/
inductive Exec (K : Kernel Call Ans S) : Program Call Ans α → S → α → S → Prop
  | ret (a : α) (s : S) : Exec K (.ret a) s a s
  | call {c : Call} {next : Ans c → Program Call Ans α} {r : Ans c} {s s' s'' : S} {a : α}
      (hc : K.answer s c r s') (h : Exec K (next r) s' a s'') : Exec K (.call c next) s a s''

/-- An execution of `p` from `s` can come to make the call `c` in `s₁`. -/
inductive Makes (K : Kernel Call Ans S) : Program Call Ans α → S → Call → S → Prop
  | here (c : Call) (next : Ans c → Program Call Ans α) (s : S) : Makes K (.call c next) s c s
  | later {c c' : Call} {next : Ans c → Program Call Ans α} {r : Ans c} {s s' s₁ : S}
      (hc : K.answer s c r s') (h : Makes K (next r) s' c' s₁) : Makes K (.call c next) s c' s₁

/-- From `s` every call of `p` is allowed, and `Q` holds at its end. -/
def wp (K : Kernel Call Ans S) : Program Call Ans α → (α → S → Prop) → S → Prop
  | .ret a, Q, s => Q a s
  | .call c next, Q, s => K.allowed s c ∧ ∀ r s', K.answer s c r s' → wp K (next r) Q s'

variable {Q Q' : α → S → Prop} {Q₁ : β → S → Prop}

@[simp] theorem wp_ret : wp K (.ret a) Q s ↔ Q a s := Iff.rfl

@[simp] theorem wp_pure : wp K (pure a) Q s ↔ Q a s := Iff.rfl

theorem wp_perform {f : Ans c → Program Call Ans β} : wp K (Program.perform c >>= f) Q₁ s ↔
    K.allowed s c ∧ ∀ r s', K.answer s c r s' → wp K (f r) Q₁ s' :=
  Iff.rfl

theorem wp_mono (h : ∀ a s, Q a s → Q' a s) : wp K p Q s → wp K p Q' s := by
  induction p generalizing s with
  | ret a => exact h a s
  | call c next ih =>
    rintro ⟨hallowed, hnext⟩
    exact ⟨hallowed, fun r s' hc => ih r (hnext r s' hc)⟩

/-- Programs in sequence. -/
theorem wp_bind : wp K (p >>= f) Q₁ s ↔ wp K p (fun a s => wp K (f a) Q₁ s) s := by
  show wp K (p.bind f) Q₁ s ↔ _
  induction p generalizing s with
  | ret a => exact Iff.rfl
  | call c next ih =>
    constructor
    · rintro ⟨hallowed, hnext⟩
      exact ⟨hallowed, fun r s' hc => (ih r).mp (hnext r s' hc)⟩
    · rintro ⟨hallowed, hnext⟩
      exact ⟨hallowed, fun r s' hc => (ih r).mpr (hnext r s' hc)⟩

/-- The postcondition holds after every execution. -/
theorem wp_sound (h : wp K p Q s) (hexec : Exec K p s a s') : Q a s' := by
  induction hexec with
  | ret a s => exact h
  | call hc _ ih => exact ih (h.2 _ _ hc)

/-- Every call of every execution is allowed. -/
theorem wp_allowed (h : wp K p Q s) (hmakes : Makes K p s c s₁) : K.allowed s₁ c := by
  induction hmakes with
  | here c next s => exact h.1
  | later hc _ ih => exact ih (h.2 _ _ hc)

/-- If each allowed call is answered, in the states of an invariant, then there is
    an execution. -/
theorem wp_total {I : S → Prop}
    (hK : ∀ s c, I s → K.allowed s c → ∃ r s', K.answer s c r s' ∧ I s') (hI : I s)
    (h : wp K p Q s) : ∃ a s', Exec K p s a s' ∧ Q a s' ∧ I s' := by
  induction p generalizing s with
  | ret a => exact ⟨a, s, .ret a s, h, hI⟩
  | call c next ih =>
    obtain ⟨hallowed, hnext⟩ := h
    obtain ⟨r, s', hc, hI'⟩ := hK s c hI hallowed
    obtain ⟨a, s'', hexec, hq⟩ := ih r hI' (hnext r s' hc)
    exact ⟨a, s'', .call hc hexec, hq⟩

/-- What can happen with fewer answers can happen. -/
theorem Exec.mono {K' : Kernel Call Ans S} (hK : ∀ s c r s', K'.answer s c r s' → K.answer s c r s')
    (h : Exec K' p s a s') : Exec K p s a s' := by
  induction h with
  | ret a s => exact .ret a s
  | call hc _ ih => exact .call (hK _ _ _ _ hc) ih

end

/-! ## File descriptors -/

/-- What a descriptor is open for. -/
inductive Kind where
  | file
  | socket

/-- An argument of a formatted message: a string, a number, an address or a mask, or the
    text of an `errno`. -/
inductive LogArg where
  | str (s : Bytes)
  | int (i : Int)
  | word (w : UInt32)
  | errno (e : ℕ)

/-- A message, as its format and the arguments. -/
abbrev LogLine := String × List LogArg

/-- The calls on descriptors, with requests `Req` for `ioctl`, and a callback that takes
    a message. -/
inductive FdCall (Req : Type) where
  | openFile (path : Bytes)
  | socket
  | close (fd : Int)
  | ioctl (fd : Int) (req : Req)
  | log (fmt : String) (args : List LogArg)

/-- The answers: a result or an `errno`. -/
@[reducible] def FdAns (Req Resp : Type) : FdCall Req → Type
  | .openFile _ => Except ℕ Int
  | .socket => Except ℕ Int
  | .close _ => Unit
  | .ioctl .. => Except ℕ Resp
  | .log .. => Unit

/-- The open descriptors of a process, the state of the device, and the messages. -/
@[ext]
structure Process (D : Type) where
  fds : Int → Option Kind
  dev : D
  logged : List LogLine

/-- A device in the states `D`: how it answers a request on a descriptor, what opening
    and closing a file do to it, and with which `errno` a new descriptor can be refused.
    A refused request does nothing. -/
structure Device (Req Resp D : Type) where
  io : D → Int → Req → Except ℕ Resp → D → Prop
  acquire : D → Bytes → Int → D → Prop
  release : D → Int → D → Prop
  noFd : D → ℕ → Prop
  refused : ∀ {d fd req e d'}, io d fd req (.error e) d' → d' = d

section

variable {Req Resp D α : Type}

/-- The process with a new descriptor. -/
def Process.opened (s : Process D) (fd : Int) (kind : Kind) : Process D :=
  { s with fds := Function.update s.fds fd (some kind) }

/-- The process without a descriptor. -/
def Process.closed (s : Process D) (fd : Int) : Process D :=
  { s with fds := Function.update s.fds fd none }

/-- The process after a message. -/
def Process.noted (s : Process D) (fmt : String) (args : List LogArg) : Process D :=
  { s with logged := s.logged ++ [(fmt, args)] }

/-- The device, when it gives a new descriptor each time and only the answers that
    pass a test. -/
def Device.only (N : Device Req Resp D) (ok : D → Int → Req → Except ℕ Resp → Prop) :
    Device Req Resp D where
  io d fd req r d' := ok d fd req r ∧ N.io d fd req r d'
  acquire := N.acquire
  release := N.release
  noFd _ _ := False
  refused h := N.refused h.2

/-- The device refuses nothing. -/
structure Device.Grants (N : Device Req Resp D) : Prop where
  noFd : ∀ {d e}, ¬ N.noFd d e
  io : ∀ {d fd req e d'}, ¬ N.io d fd req (.error e) d'

/-- The kernel of descriptors over a device. -/
def Device.kernel (N : Device Req Resp D) :
    Kernel (FdCall Req) (FdAns Req Resp) (Process D) where
  allowed s
    | .close fd => s.fds fd ≠ none
    | .ioctl fd _ => s.fds fd ≠ none
    | _ => True
  answer s
    | .openFile path, .ok fd, s' => s.fds fd = none ∧ 0 ≤ fd ∧
      ∃ d, N.acquire s.dev path fd d ∧ s' = { s.opened fd .file with dev := d }
    | .openFile _, .error e, s' => N.noFd s.dev e ∧ s' = s
    | .socket, .ok fd, s' => s.fds fd = none ∧ 0 ≤ fd ∧ s' = s.opened fd .socket
    | .socket, .error e, s' => N.noFd s.dev e ∧ s' = s
    | .close fd, (), s' =>
      match s.fds fd with
      | some .file => ∃ d, N.release s.dev fd d ∧ s' = { s.closed fd with dev := d }
      | _ => s' = s.closed fd
    | .ioctl fd req, r, s' => ∃ d, N.io s.dev fd req r d ∧ s' = { s with dev := d }
    | .log fmt args, (), s' => s' = s.noted fmt args

/-- What can happen with the tamer device can happen. -/
theorem Exec.of_only {N : Device Req Resp D} {ok : D → Int → Req → Except ℕ Resp → Prop}
    {p : Program (FdCall Req) (FdAns Req Resp) α} {s s' : Process D} {a : α}
    (h : Exec (N.only ok).kernel p s a s') : Exec N.kernel p s a s' := by
  refine h.mono fun s c r s' hc => ?_
  cases c with
  | openFile path =>
    cases r with
    | ok fd => exact hc
    | error e => exact absurd hc.1 id
  | socket =>
    cases r with
    | ok fd => exact hc
    | error e => exact absurd hc.1 id
  | close fd => exact hc
  | ioctl fd req =>
    obtain ⟨d, hd, hs⟩ := hc
    exact ⟨d, hd.2, hs⟩
  | log fmt args => exact hc

namespace FdCall

/-- `open(path, O_RDWR | O_CLOEXEC)`. -/
def doOpen (path : Bytes) : Program (FdCall Req) (FdAns Req Resp) (Except ℕ Int) :=
  Program.perform (FdCall.openFile path)

/-- `socket(AF_INET, SOCK_DGRAM | SOCK_CLOEXEC, 0)`. -/
def doSocket : Program (FdCall Req) (FdAns Req Resp) (Except ℕ Int) :=
  Program.perform FdCall.socket

/-- `close(fd)`. -/
def doClose (fd : Int) : Program (FdCall Req) (FdAns Req Resp) Unit :=
  Program.perform (FdCall.close fd)

/-- `ioctl(fd, …)`. -/
def doIoctl (fd : Int) (req : Req) : Program (FdCall Req) (FdAns Req Resp) (Except ℕ Resp) :=
  Program.perform (FdCall.ioctl fd req)

/-- `log_fn(fmt, …)`. -/
def doLog (fmt : String) (args : List LogArg) : Program (FdCall Req) (FdAns Req Resp) Unit :=
  Program.perform (FdCall.log fmt args)

end FdCall

open FdCall

@[simp] theorem opened_fds (s : Process D) (fd : Int) (kind : Kind) :
    (s.opened fd kind).fds fd = some kind :=
  Function.update_self ..

@[simp] theorem opened_dev (s : Process D) (fd : Int) (kind : Kind) :
    (s.opened fd kind).dev = s.dev := rfl

@[simp] theorem opened_logged (s : Process D) (fd : Int) (kind : Kind) :
    (s.opened fd kind).logged = s.logged := rfl

@[simp] theorem closed_dev (s : Process D) (fd : Int) : (s.closed fd).dev = s.dev := rfl

@[simp] theorem closed_logged (s : Process D) (fd : Int) : (s.closed fd).logged = s.logged := rfl

@[simp] theorem noted_fds (s : Process D) (fmt : String) (args : List LogArg) :
    (s.noted fmt args).fds = s.fds := rfl

@[simp] theorem noted_dev (s : Process D) (fmt : String) (args : List LogArg) :
    (s.noted fmt args).dev = s.dev := rfl

@[simp] theorem noted_logged (s : Process D) (fmt : String) (args : List LogArg) :
    (s.noted fmt args).logged = s.logged ++ [(fmt, args)] := rfl

/-- A descriptor that was opened and closed leaves the table as it was. -/
theorem closed_opened {s t : Process D} {fd : Int} {kind : Kind} (hfree : s.fds fd = none)
    (ht : t.fds = (s.opened fd kind).fds) : (t.closed fd).fds = s.fds := by
  unfold Process.closed
  rw [ht]
  unfold Process.opened
  show Function.update (Function.update s.fds fd (some kind)) fd none = s.fds
  rw [Function.update_idem, ← hfree, Function.update_eq_self]

/-- The process has finitely many open descriptors. -/
def Process.Finite (s : Process D) : Prop := {fd | s.fds fd ≠ none}.Finite

theorem Process.Finite.update {s : Process D} (h : s.Finite) (fd : Int) (k : Option Kind) :
    {fd' | Function.update s.fds fd k fd' ≠ none}.Finite := by
  refine (h.insert fd).subset fun fd' hfd' => ?_
  by_cases heq : fd' = fd
  · exact .inl heq
  · right
    rwa [Set.mem_ofPred_eq, Function.update_of_ne heq] at hfd'

/-- Some descriptor is free. -/
theorem Process.Finite.free {s : Process D} (h : s.Finite) : ∃ fd, s.fds fd = none ∧ 0 ≤ fd := by
  obtain ⟨fd, hfd, hnot⟩ := (Set.Ici_infinite (0 : Int)).exists_notMem_finite h
  exact ⟨fd, not_not.mp hnot, hfd⟩

namespace Device

variable {N : Device Req Resp D} {s : Process D} {fd : Int} {Q : α → Process D → Prop}

/-- A device that answers each request answers each allowed call of a process with
    finitely many descriptors. -/
theorem kernel_total (hio : ∀ d fd req, ∃ r d', N.io d fd req r d')
    (hacquire : ∀ d path fd, ∃ d', N.acquire d path fd d')
    (hrelease : ∀ d fd, ∃ d', N.release d fd d') (s : Process D) (c : FdCall Req) (hs : s.Finite)
    (hc : N.kernel.allowed s c) : ∃ r s', N.kernel.answer s c r s' ∧ s'.Finite := by
  cases c with
  | openFile path =>
    obtain ⟨fd, hfree, hfd⟩ := hs.free
    obtain ⟨d, hd⟩ := hacquire s.dev path fd
    exact ⟨.ok fd, _, ⟨hfree, hfd, d, hd, rfl⟩, hs.update fd _⟩
  | socket =>
    obtain ⟨fd, hfree, hfd⟩ := hs.free
    exact ⟨.ok fd, _, ⟨hfree, hfd, rfl⟩, hs.update fd _⟩
  | close fd =>
    cases hkind : s.fds fd with
    | none => exact absurd hkind hc
    | some kind =>
      cases kind with
      | file =>
        obtain ⟨d, hd⟩ := hrelease s.dev fd
        refine ⟨(), { s.closed fd with dev := d }, ?_, hs.update fd _⟩
        show match s.fds fd with
          | some .file => ∃ d', N.release s.dev fd d' ∧ _ = { s.closed fd with dev := d' }
          | _ => _ = s.closed fd
        rw [hkind]
        exact ⟨d, hd, rfl⟩
      | socket =>
        refine ⟨(), s.closed fd, ?_, hs.update fd _⟩
        show match s.fds fd with
          | some .file => ∃ d, N.release s.dev fd d ∧ s.closed fd = { s.closed fd with dev := d }
          | _ => s.closed fd = s.closed fd
        rw [hkind]
  | ioctl fd req =>
    obtain ⟨r, d, hd⟩ := hio s.dev fd req
    exact ⟨r, _, ⟨d, hd, rfl⟩, hs⟩
  | log fmt args => exact ⟨(), _, rfl, hs⟩

theorem wp_openFile {path : Bytes} {f : Except ℕ Int → Program (FdCall Req) (FdAns Req Resp) α} :
    wp N.kernel (doOpen path >>= f) Q s ↔
      (∀ fd d, s.fds fd = none → 0 ≤ fd → N.acquire s.dev path fd d →
        wp N.kernel (f (.ok fd)) Q { s.opened fd .file with dev := d }) ∧
        ∀ e, N.noFd s.dev e → wp N.kernel (f (.error e)) Q s := by
  rw [doOpen, wp_perform]
  constructor
  · rintro ⟨-, h⟩
    exact ⟨fun fd d hfree hfd hd => h (.ok fd) _ ⟨hfree, hfd, d, hd, rfl⟩,
      fun e he => h (.error e) _ ⟨he, rfl⟩⟩
  · rintro ⟨hok, herr⟩
    refine ⟨trivial, fun r s' hr => ?_⟩
    cases r with
    | ok fd =>
      obtain ⟨hfree, hfd, d, hd, rfl⟩ := hr
      exact hok fd d hfree hfd hd
    | error e =>
      obtain ⟨he, rfl⟩ := hr
      exact herr e he

theorem wp_socket {f : Except ℕ Int → Program (FdCall Req) (FdAns Req Resp) α} :
    wp N.kernel (doSocket >>= f) Q s ↔
      (∀ fd, s.fds fd = none → 0 ≤ fd → wp N.kernel (f (.ok fd)) Q (s.opened fd .socket)) ∧
        ∀ e, N.noFd s.dev e → wp N.kernel (f (.error e)) Q s := by
  rw [doSocket, wp_perform]
  constructor
  · rintro ⟨-, h⟩
    exact ⟨fun fd hfree hfd => h (.ok fd) _ ⟨hfree, hfd, rfl⟩,
      fun e he => h (.error e) _ ⟨he, rfl⟩⟩
  · rintro ⟨hok, herr⟩
    refine ⟨trivial, fun r s' hr => ?_⟩
    cases r with
    | ok fd =>
      obtain ⟨hfree, hfd, rfl⟩ := hr
      exact hok fd hfree hfd
    | error e =>
      obtain ⟨he, rfl⟩ := hr
      exact herr e he

/-- Closing a socket. -/
theorem wp_closeSocket {f : Unit → Program (FdCall Req) (FdAns Req Resp) α}
    (hfd : s.fds fd = some .socket) :
    wp N.kernel (doClose fd >>= f) Q s ↔ wp N.kernel (f ()) Q (s.closed fd) := by
  rw [doClose, wp_perform]
  constructor
  · rintro ⟨-, h⟩
    refine h () _ ?_
    show match s.fds fd with
      | some .file => ∃ d, N.release s.dev fd d ∧ s.closed fd = { s.closed fd with dev := d }
      | _ => s.closed fd = s.closed fd
    rw [hfd]
  · intro h
    refine ⟨show s.fds fd ≠ none by simp [hfd], fun r s' hr => ?_⟩
    change match s.fds fd with
      | some .file => ∃ d, N.release s.dev fd d ∧ s' = { s.closed fd with dev := d }
      | _ => s' = s.closed fd at hr
    rw [hfd] at hr
    obtain rfl : s' = s.closed fd := hr
    exact h

/-- Closing a file. -/
theorem wp_closeFile {f : Unit → Program (FdCall Req) (FdAns Req Resp) α}
    (hfd : s.fds fd = some .file) :
    wp N.kernel (doClose fd >>= f) Q s ↔
      ∀ d, N.release s.dev fd d → wp N.kernel (f ()) Q { s.closed fd with dev := d } := by
  rw [doClose, wp_perform]
  constructor
  · rintro ⟨-, h⟩ d hd
    refine h () _ ?_
    show match s.fds fd with
      | some .file => ∃ d', N.release s.dev fd d' ∧ _ = { s.closed fd with dev := d' }
      | _ => _ = s.closed fd
    rw [hfd]
    exact ⟨d, hd, rfl⟩
  · intro h
    refine ⟨show s.fds fd ≠ none by simp [hfd], fun r s' hr => ?_⟩
    change match s.fds fd with
      | some .file => ∃ d, N.release s.dev fd d ∧ s' = { s.closed fd with dev := d }
      | _ => s' = s.closed fd at hr
    rw [hfd] at hr
    obtain ⟨d, hd, rfl⟩ := hr
    exact h d hd

theorem wp_ioctl {req : Req} {f : Except ℕ Resp → Program (FdCall Req) (FdAns Req Resp) α}
    (hfd : s.fds fd ≠ none) :
    wp N.kernel (doIoctl fd req >>= f) Q s ↔
      (∀ r d, N.io s.dev fd req (.ok r) d → wp N.kernel (f (.ok r)) Q { s with dev := d }) ∧
        ∀ e d, N.io s.dev fd req (.error e) d → wp N.kernel (f (.error e)) Q s := by
  rw [doIoctl, wp_perform]
  constructor
  · rintro ⟨-, h⟩
    refine ⟨fun r d hd => h (.ok r) _ ⟨d, hd, rfl⟩, fun e d hd => ?_⟩
    have hsame : ({ s with dev := d } : Process D) = s := by rw [N.refused hd]
    rw [← hsame]
    exact h (.error e) _ ⟨d, hd, rfl⟩
  · rintro ⟨hok, herr⟩
    refine ⟨hfd, fun r s' hr => ?_⟩
    obtain ⟨d, hd, rfl⟩ := hr
    cases r with
    | ok r => exact hok r d hd
    | error e =>
      have hsame : ({ s with dev := d } : Process D) = s := by rw [N.refused hd]
      rw [hsame]
      exact herr e d hd

theorem wp_log {fmt : String} {args : List LogArg}
    {f : Unit → Program (FdCall Req) (FdAns Req Resp) α} :
    wp N.kernel (doLog fmt args >>= f) Q s ↔ wp N.kernel (f ()) Q (s.noted fmt args) := by
  rw [doLog, wp_perform]
  constructor
  · rintro ⟨-, h⟩
    exact h () _ rfl
  · intro h
    refine ⟨trivial, fun r s' hr => ?_⟩
    obtain rfl : s' = s.noted fmt args := hr
    exact h

end Device

end

end Iwand.Syscall
