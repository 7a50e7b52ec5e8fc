import Iwand.Common.Bytes

/-!
# Go programs

A Go function that may panic or return an error is a function into `Go`: a
result, a panic or an error with its text. Slices are byte strings whose
capacity is their length, so `idx`, `slice` and `sliceFrom` panic exactly when
the expression would. Strings are byte strings, maps are association lists
without repeated keys; an iteration over a map visits its keys in an order that
the environment chooses (`RangeOrder`).

* `idx_eq`, `slice_eq`, `sliceFrom_eq`: accesses in bounds.
* `bind_eq_ok`, `of_check`: a sequence of calls and checks returns only if each
  of them passes.
-/

namespace Iwand

/-- The panics of the runtime and of the library functions that the code calls;
    `diverged` stands for a loop that outlives its bound. -/
inductive Panic where
  | index
  | slice
  | nilDereference
  | as4
  | mustParse
  | diverged
deriving DecidableEq, Repr

/-- How a call can fail. -/
inductive Fault where
  | panic (p : Panic)
  | err (msg : String)
deriving DecidableEq, Repr

/-- The result of a call. -/
abbrev Go := Except Fault

/-- `map[K]V`. -/
abbrev GoMap (K V : Type) := AList fun _ : K => V

/-- The order in which `range` visits the keys of a map: any order, but each
    key once. -/
structure RangeOrder (K : Type) where
  keys : List K → List K
  perm : ∀ l, (keys l).Perm l

section

variable {K V : Type} [DecidableEq K]

/-- `m[k']` after `delete(m, k)`. -/
theorem lookup_erase_ite (m : GoMap K V) (k k' : K) :
    (m.erase k).lookup k' = if k' = k then none else m.lookup k' := by
  split_ifs with h
  · rw [h, AList.lookup_erase]
  · exact AList.lookup_erase_ne h

/-- `m[k']` after `m[k] = v`. -/
theorem lookup_insert_ite (m : GoMap K V) (k k' : K) (v : V) :
    (m.insert k v).lookup k' = if k' = k then some v else m.lookup k' := by
  split_ifs with h
  · rw [h, AList.lookup_insert]
  · exact AList.lookup_insert_ne h

end

namespace Go

variable {α β : Type}

@[simp] theorem bind_ok (a : α) (f : α → Go β) : ((Except.ok a : Go α) >>= f) = f a := rfl

@[simp] theorem bind_error (e : Fault) (f : α → Go β) :
    ((Except.error e : Go α) >>= f) = Except.error e := rfl

/-- A sequence of calls returns only if each of them does. -/
theorem bind_eq_ok {x : Go α} {f : α → Go β} {b : β} (h : (x >>= f) = .ok b) :
    ∃ a, x = .ok a ∧ f a = .ok b := by
  cases x with
  | error e => cases h
  | ok a => exact ⟨a, rfl, h⟩

/-- `x, err := f()` followed by a look at `err`: the error becomes a value, a
    panic goes on. -/
def attempt : Go α → Go (Except String α)
  | .ok a => .ok (.ok a)
  | .error (.err msg) => .ok (.error msg)
  | .error (.panic p) => .error (.panic p)

/-- The call returns a result or an error. -/
def NoPanic (x : Go α) : Prop := ∀ p, x ≠ .error (.panic p)

theorem NoPanic.ok (a : α) : NoPanic (.ok a : Go α) := fun _ h => by cases h

theorem NoPanic.bind {x : Go α} {f : α → Go β} (hx : NoPanic x) (hf : ∀ a, x = .ok a → NoPanic (f a)) :
    NoPanic (x >>= f) := by
  cases x with
  | ok a => exact hf a rfl
  | error e =>
    intro p h
    rw [bind_error, Except.error.injEq] at h
    exact hx p (by rw [h])

theorem NoPanic.attempt {x : Go α} (h : NoPanic x) : ∃ r, attempt x = .ok r ∧
    ∀ a, r = .ok a ↔ x = .ok a := by
  match x, h with
  | .ok a, _ => exact ⟨_, rfl, fun b => by simp⟩
  | .error (.err msg), _ => exact ⟨_, rfl, fun b => by simp⟩
  | .error (.panic p), h => exact absurd rfl (h p)

/-- `return errors.New(msg)`. -/
def fail (msg : String) : Go α := .error (.err msg)

theorem NoPanic.fail (msg : String) : NoPanic (fail msg : Go α) := fun _ h => by cases h

theorem NoPanic.check {p : Prop} [Decidable p] {msg : String} {x : Go α} (h : NoPanic x) :
    NoPanic (if p then Go.fail msg else x) := by
  split_ifs
  · exact NoPanic.fail msg
  · exact h

/-- `if p { return errors.New(msg) }` in a call that returns. -/
theorem of_check {p : Prop} [Decidable p] {msg : String} {x : Go α} {a : α}
    (h : (if p then fail msg else x) = .ok a) : ¬ p ∧ x = .ok a := by
  split_ifs at h with hp
  · cases h
  · exact ⟨hp, h⟩

/-- `b[i]`. -/
def idx (b : Bytes) (i : ℕ) : Go UInt8 :=
  match b[i]? with
  | some x => .ok x
  | none => .error (.panic .index)

/-- `b` after `b[i] = x`. -/
def put (b : Bytes) (i : ℕ) (x : UInt8) : Go Bytes :=
  if i < b.length then .ok (b.set i x) else .error (.panic .index)

/-- `b[lo:hi]`. -/
def slice (b : Bytes) (lo hi : ℕ) : Go Bytes :=
  if lo ≤ hi ∧ hi ≤ b.length then .ok ((b.take hi).drop lo) else .error (.panic .slice)

/-- `b[lo:]`. -/
def sliceFrom (b : Bytes) (lo : ℕ) : Go Bytes := slice b lo b.length

/-- `b` after `copy(b[lo:hi], src)`. -/
def copyInto (b : Bytes) (lo hi : ℕ) (src : Bytes) : Go Bytes := do
  let dst ← slice b lo hi
  let n := min dst.length src.length
  return b.take lo ++ src.take n ++ b.drop (lo + n)

theorem idx_eq {b : Bytes} {i : ℕ} (h : i < b.length) : idx b i = .ok b[i] := by
  simp [idx, h]

theorem put_eq {b : Bytes} {i : ℕ} {x : UInt8} (h : i < b.length) : put b i x = .ok (b.set i x) :=
  if_pos h

theorem slice_eq {b : Bytes} {lo hi : ℕ} (h₁ : lo ≤ hi) (h₂ : hi ≤ b.length) :
    slice b lo hi = .ok ((b.take hi).drop lo) :=
  if_pos ⟨h₁, h₂⟩

theorem sliceFrom_eq {b : Bytes} {lo : ℕ} (h : lo ≤ b.length) : sliceFrom b lo = .ok (b.drop lo) := by
  rw [sliceFrom, slice_eq h le_rfl, List.take_length]

/-- A copy of exactly the bytes of the destination. -/
theorem copyInto_eq {b src : Bytes} {lo hi : ℕ} (h₁ : lo ≤ hi) (h₂ : hi ≤ b.length)
    (hsrc : src.length = hi - lo) :
    copyInto b lo hi src = .ok (b.take lo ++ src ++ b.drop hi) := by
  have hn : min ((b.take hi).drop lo).length src.length = src.length := by
    simp; omega
  rw [copyInto, slice_eq h₁ h₂]
  simp only [bind_ok, hn, List.take_length]
  rw [hsrc, Nat.add_sub_cancel' h₁]
  rfl

end Go

end Iwand
