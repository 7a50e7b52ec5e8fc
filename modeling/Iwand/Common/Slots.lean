import Iwand.Common.Bytes

/-!
# Tables of keyed slots

A table of `n` slots, each of which is free or holds a key. Searching it from
the front and overwriting one slot at a time implements a finite map as long as
no key is held twice.

* `find_eq_some`, `get_eq_some`: the search finds the slot that holds the key.
* `Unique.set`, `get_set_self`, `get_set_removed`: overwriting a slot.
* `exists_free`: a table whose keys come from fewer than `n` values has a free
  slot.
-/

namespace Iwand.Slots

variable {n : ℕ} {σ κ : Type*} {key : σ → Option κ}

/-- No key is held by two slots. -/
def Unique (key : σ → Option κ) (t : Vector σ n) : Prop :=
  ∀ (i j : Fin n) (k : κ), key t[i] = some k → key t[j] = some k → i = j

theorem getElem_set_self (t : Vector σ n) (i : Fin n) (s : σ) : (t.set i s i.isLt)[i] = s := by
  simp

theorem getElem_set_ne (t : Vector σ n) {i j : Fin n} (s : σ) (h : i ≠ j) :
    (t.set i s i.isLt)[j] = t[j] := by
  simp only [getElem_fin]
  exact Vector.getElem_set_ne _ _ fun he => h (Fin.ext he)

/-- A slot may be overwritten by a key that no other slot holds. -/
theorem Unique.set {t : Vector σ n} (h : Unique key t) (i : Fin n) {s : σ}
    (hs : ∀ k, key s = some k → ∀ j, j ≠ i → key t[j] ≠ some k) : Unique key (t.set i s i.isLt) := by
  intro j₁ j₂ k h₁ h₂
  by_cases e₁ : i = j₁ <;> by_cases e₂ : i = j₂
  · exact e₁.symm.trans e₂
  · subst e₁
    rw [getElem_set_self] at h₁
    rw [getElem_set_ne _ _ e₂] at h₂
    exact absurd h₂ (hs k h₁ j₂ (Ne.symm e₂))
  · subst e₂
    rw [getElem_set_self] at h₂
    rw [getElem_set_ne _ _ e₁] at h₁
    exact absurd h₁ (hs k h₂ j₁ (Ne.symm e₁))
  · rw [getElem_set_ne _ _ e₁] at h₁
    rw [getElem_set_ne _ _ e₂] at h₂
    exact h j₁ j₂ k h₁ h₂

section

variable [DecidableEq κ]

/-- The first slot that holds `k`. -/
def find (key : σ → Option κ) (t : Vector σ n) (k : κ) : Option (Fin n) :=
  (List.finRange n).find? fun i => key t[i] == some k

/-- What the table holds under `k`. -/
def get (key : σ → Option κ) (t : Vector σ n) (k : κ) : Option σ := (find key t k).map fun i => t[i]

theorem find_eq_none {t : Vector σ n} {k : κ} : find key t k = none ↔ ∀ i : Fin n, key t[i] ≠ some k := by
  simp [find]

theorem find_eq_some {t : Vector σ n} (h : Unique key t) {k : κ} {i : Fin n} :
    find key t k = some i ↔ key t[i] = some k := by
  constructor
  · intro hi
    simpa using List.find?_some hi
  · intro hi
    cases hfind : find key t k with
    | none => exact absurd hi (find_eq_none.mp hfind i)
    | some j => rw [h i j k hi (by simpa using List.find?_some hfind)]

theorem get_eq_none {t : Vector σ n} {k : κ} : get key t k = none ↔ ∀ i : Fin n, key t[i] ≠ some k := by
  rw [get, Option.map_eq_none_iff, find_eq_none]

theorem get_eq_some {t : Vector σ n} (h : Unique key t) {k : κ} {s : σ} :
    get key t k = some s ↔ ∃ i : Fin n, key t[i] = some k ∧ t[i] = s := by
  simp only [get, Option.map_eq_some_iff, find_eq_some h]

/-- A slot in the table is what the table holds under its key. -/
theorem get_of_key {t : Vector σ n} (h : Unique key t) {k : κ} {i : Fin n} (hi : key t[i] = some k) :
    get key t k = some t[i] :=
  (get_eq_some h).mpr ⟨i, hi, rfl⟩

theorem get_set_self {t : Vector σ n} {i : Fin n} {s : σ} (h : Unique key (t.set i s i.isLt)) {k : κ}
    (hs : key s = some k) : get key (t.set i s i.isLt) k = some s := by
  have hi := getElem_set_self t i s
  have hget := get_of_key h (i := i) (hi.symm ▸ hs)
  rwa [hi] at hget

/-- Overwriting the only slot that may hold the key by one without it removes the
    key. -/
theorem get_set_removed {t : Vector σ n} {i : Fin n} {s : σ} {k : κ}
    (hid : ∀ j, j ≠ i → key t[j] ≠ some k) (hs : key s ≠ some k) :
    get key (t.set i s i.isLt) k = none := by
  rw [get_eq_none]
  intro j
  by_cases hij : i = j
  · subst hij
    rwa [getElem_set_self]
  · rw [getElem_set_ne _ _ hij]
    exact hid j (Ne.symm hij)

end

/-- A table whose keys come from fewer than `n` values has a free slot. -/
theorem exists_free {t : Vector σ n} (h : Unique key t) (S : Finset κ) (hcard : S.card < n)
    (hS : ∀ (i : Fin n) (k : κ), key t[i] = some k → k ∈ S) : ∃ i : Fin n, key t[i] = none := by
  by_contra hno
  have hsome : ∀ i : Fin n, ∃ k, key t[i] = some k :=
    fun i => Option.ne_none_iff_exists'.mp fun hi => hno ⟨i, hi⟩
  choose k hk using hsome
  -- the keys are different and lie in `S`
  have hinj : Function.Injective k := fun i j hij => h i j (k i) (hk i) (hij ▸ hk j)
  have hle := Finset.card_le_card_of_injOn k (s := Finset.univ) (t := S)
    (fun i _ => hS i (k i) (hk i)) hinj.injOn
  rw [Finset.card_univ, Fintype.card_fin] at hle
  omega

end Iwand.Slots
