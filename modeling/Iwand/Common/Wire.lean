import Iwand.Crypto.MD5

/-!
# The packet format

What both implementations agree on, stated once: the 8-byte header with the
session token and id in bytes 2–7, the signature over the header, and
type-length-value items, whose length byte counts the two bytes in front of
the value.

* `signed_signedHeader`: a signed header verifies whatever follows it.
* `header_token`, `header_sessionId`: the session fields of a header.
* `encode_items`, `prefix_items`: the items of a byte string are encoded in its
  longest prefix that consists of complete items.
* `items_encode`: the items of an encoded list are that list.
-/

namespace Iwand.Wire

/-! ## Header and signature -/

/-- The session token: bytes 2 and 3. -/
def token (pkt : Bytes) : Vector UInt8 2 := toArr 2 ((pkt.drop 2).take 2)

/-- The session id: bytes 4 to 7. -/
def sessionId (pkt : Bytes) : Vector UInt8 4 := toArr 4 ((pkt.drop 4).take 4)

/-- The packet type: byte 0. -/
def typ (pkt : Bytes) : UInt8 := pkt.getD 0 0

/-- A header: type, flag byte, token, session id. -/
def header (typ flag : UInt8) (token : Vector UInt8 2) (id : Vector UInt8 4) : Bytes :=
  [typ, flag] ++ token.toList ++ id.toList

/-- `"mw"`, the constant that is hashed behind the header. -/
def magic : Bytes := [0x6d, 0x77]

/-- The signature of a header. -/
def signature (hdr : Bytes) : Vector UInt8 16 := MD5.md5 (hdr ++ magic)

/-- `pkt` has a header followed by its signature. -/
def Signed (pkt : Bytes) : Prop :=
  24 ≤ pkt.length ∧ (pkt.drop 8).take 16 = (signature (pkt.take 8)).toList

instance (pkt : Bytes) : Decidable (Signed pkt) := inferInstanceAs (Decidable (_ ∧ _))

/-- A header with its signature. -/
def signedHeader (typ flag : UInt8) (token : Vector UInt8 2) (id : Vector UInt8 4) : Bytes :=
  header typ flag token id ++ (signature (header typ flag token id)).toList

section

variable (t flag : UInt8) (tok : Vector UInt8 2) (id : Vector UInt8 4) (rest : Bytes)

@[simp] theorem length_header : (header t flag tok id).length = 8 := by
  simp [header]

@[simp] theorem length_signedHeader : (signedHeader t flag tok id).length = 24 := by
  simp [signedHeader]

theorem take_signedHeader : (signedHeader t flag tok id ++ rest).take 8 = header t flag tok id := by
  rw [signedHeader, List.append_assoc, List.take_left' (by simp)]

theorem drop_signedHeader : (signedHeader t flag tok id ++ rest).drop 24 = rest :=
  List.drop_left' (by simp)

/-- A signed header verifies whatever follows it. -/
theorem signed_signedHeader : Signed (signedHeader t flag tok id ++ rest) := by
  refine ⟨by simp, ?_⟩
  rw [take_signedHeader, signedHeader, List.append_assoc, List.drop_left' (by simp),
    List.take_left' (by simp)]

@[simp] theorem header_typ : typ (header t flag tok id ++ rest) = t := rfl

/-- The token of a header. -/
@[simp] theorem header_token : token (header t flag tok id ++ rest) = tok := by
  have h : ((header t flag tok id ++ rest).drop 2).take 2 = tok.toList := by
    rw [header, List.append_assoc, List.append_assoc, List.drop_left' (by simp),
      List.take_left' (by simp)]
  rw [token, h, toArr_toList]

/-- The session id of a header. -/
@[simp] theorem header_sessionId : sessionId (header t flag tok id ++ rest) = id := by
  have h : ((header t flag tok id ++ rest).drop 4).take 4 = id.toList := by
    rw [header, List.append_assoc, List.drop_left' (by simp), List.take_left' (by simp)]
  rw [sessionId, h, toArr_toList]

@[simp] theorem signedHeader_typ : typ (signedHeader t flag tok id ++ rest) = t := rfl

@[simp] theorem signedHeader_token : token (signedHeader t flag tok id ++ rest) = tok := by
  rw [signedHeader, List.append_assoc, header_token]

@[simp] theorem signedHeader_sessionId : sessionId (signedHeader t flag tok id ++ rest) = id := by
  rw [signedHeader, List.append_assoc, header_sessionId]

end

/-! ## Type-length-value items -/

/-- One item. -/
structure Tlv where
  typ : UInt8
  value : Bytes
deriving DecidableEq, Repr

/-- Type, length of the whole item, value. -/
def Tlv.encode (t : Tlv) : Bytes := [t.typ, UInt8.ofNat (t.value.length + 2)] ++ t.value

/-- The concatenation of the encoded items. -/
def encode (ts : List Tlv) : Bytes := ts.flatMap Tlv.encode

/-- The complete items at the front of `data`, at most `fuel` of them. -/
def itemsFuel : ℕ → Bytes → List Tlv
  | fuel + 1, typ :: len :: rest =>
    if 2 ≤ len.toNat ∧ len.toNat ≤ rest.length + 2 then
      ⟨typ, rest.take (len.toNat - 2)⟩ :: itemsFuel fuel (rest.drop (len.toNat - 2))
    else []
  | _, _ => []

/-- The items of the longest prefix of `data` that is a concatenation of
    complete items. An item has at least two bytes, so `data.length` is enough
    fuel. -/
def items (data : Bytes) : List Tlv := itemsFuel data.length data

/-- More fuel than bytes changes nothing. -/
theorem itemsFuel_eq_items : ∀ (fuel : ℕ) (data : Bytes), data.length ≤ fuel →
    itemsFuel fuel data = items data := by
  suffices h : ∀ fuel fuel' data, data.length ≤ fuel → data.length ≤ fuel' →
      itemsFuel fuel data = itemsFuel fuel' data from
    fun fuel data hf => h fuel data.length data hf le_rfl
  intro fuel
  induction fuel with
  | zero =>
    intro fuel' data hf _
    obtain rfl := List.eq_nil_of_length_eq_zero (Nat.le_zero.mp hf)
    cases fuel' <;> rfl
  | succ fuel ih =>
    intro fuel' data hf hf'
    match data, fuel' with
    | [], 0 => rfl
    | [], _ + 1 => rfl
    | [_], 0 => simp at hf'
    | [_], _ + 1 => rfl
    | _ :: _ :: _, 0 => simp at hf'
    | typ :: len :: rest, fuel' + 1 =>
      rw [itemsFuel, itemsFuel]
      split_ifs with hlen
      · rw [ih fuel' _ (by simp at hf ⊢; omega) (by simp at hf' ⊢; omega)]
      · rfl

/-- The items behind a complete first item. -/
theorem items_cons {typ len : UInt8} {rest : Bytes} (h2 : 2 ≤ len.toNat)
    (hle : len.toNat ≤ rest.length + 2) :
    items (typ :: len :: rest) =
      ⟨typ, rest.take (len.toNat - 2)⟩ :: items (rest.drop (len.toNat - 2)) := by
  rw [items, List.length_cons, itemsFuel, if_pos ⟨h2, hle⟩, itemsFuel_eq_items _ _ (by simp; omega)]

/-- An incomplete first item ends the list. -/
theorem items_stop {typ len : UInt8} {rest : Bytes}
    (h : ¬ (2 ≤ len.toNat ∧ len.toNat ≤ rest.length + 2)) : items (typ :: len :: rest) = [] := by
  rw [items, List.length_cons, itemsFuel, if_neg h]

theorem items_short {data : Bytes} (h : data.length < 2) : items data = [] := by
  match data, h with
  | [], _ => rfl
  | [_], _ => rfl

/-- Either `data` does not begin with a complete item, or it is an encoded item and
    the bytes behind it. -/
theorem items_cases (data : Bytes) :
    items data = [] ∨ ∃ t rest, t.value.length ≤ 253 ∧ data = t.encode ++ rest ∧
      items data = t :: items rest := by
  match data with
  | [] => exact .inl rfl
  | [_] => exact .inl rfl
  | typ :: len :: rest =>
    by_cases h : 2 ≤ len.toNat ∧ len.toNat ≤ rest.length + 2
    swap
    · exact .inl (items_stop h)
    have hlen := len.toNat_lt
    have hval : (rest.take (len.toNat - 2)).length = len.toNat - 2 := by
      rw [List.length_take]
      omega
    refine .inr ⟨_, _, ?_, ?_, items_cons h.1 h.2⟩
    · rw [hval]
      omega
    · simp only [Tlv.encode, hval, Nat.sub_add_cancel h.1, UInt8.ofNat_toNat, List.cons_append,
        List.nil_append, List.take_append_drop]

theorem length_encodeTlv (t : Tlv) : t.encode.length = t.value.length + 2 := by
  simp [Tlv.encode]

theorem encode_append (ts us : List Tlv) : encode (ts ++ us) = encode ts ++ encode us :=
  List.flatMap_append

/-- The items are encoded at the front of `data`. -/
theorem encode_items (data : Bytes) :
    (∀ t ∈ items data, t.value.length ≤ 253) ∧ encode (items data) <+: data := by
  induction hn : data.length using Nat.strong_induction_on generalizing data with
  | _ n ih =>
    rcases items_cases data with hnil | ⟨t, rest, hv, rfl, hcons⟩
    · rw [hnil]
      exact ⟨by simp, List.nil_prefix⟩
    · rw [List.length_append, length_encodeTlv] at hn
      obtain ⟨hvalues, hprefix⟩ := ih rest.length (by omega) rest rfl
      rw [hcons]
      refine ⟨?_, ?_⟩
      · intro u hu
        rcases List.mem_cons.mp hu with rfl | hu
        · exact hv
        · exact hvalues u hu
      · exact (List.prefix_append_right_inj t.encode).mpr hprefix

/-- The items of encoded items with anything behind them. -/
theorem items_encode_append {ts : List Tlv} (h : ∀ t ∈ ts, t.value.length ≤ 253) (rest : Bytes) :
    items (encode ts ++ rest) = ts ++ items rest := by
  induction ts with
  | nil => rfl
  | cons t ts ih =>
    have hv : t.value.length ≤ 253 := h t (by simp)
    have hlen : (UInt8.ofNat (t.value.length + 2)).toNat = t.value.length + 2 := by
      rw [UInt8.toNat_ofNat', Nat.mod_eq_of_lt (by omega)]
    have hcons : encode (t :: ts) ++ rest =
        t.typ :: UInt8.ofNat (t.value.length + 2) :: (t.value ++ (encode ts ++ rest)) := by
      simp [encode, Tlv.encode]
    rw [hcons, items_cons (by omega) (by rw [hlen]; simp), hlen, Nat.add_sub_cancel,
      List.take_left' rfl, List.drop_left' rfl, ih fun u hu => h u (by simp [hu])]
    rfl

/-- **The items of an encoded list are that list.** -/
theorem items_encode {ts : List Tlv} (h : ∀ t ∈ ts, t.value.length ≤ 253) :
    items (encode ts) = ts := by
  have happ := items_encode_append h []
  rwa [List.append_nil, show items [] = [] from rfl, List.append_nil] at happ

/-- **The longest prefix.** Complete items at the front of `data` are the first of
    its items. -/
theorem prefix_items {ts : List Tlv} (h : ∀ t ∈ ts, t.value.length ≤ 253) {data : Bytes}
    (hp : encode ts <+: data) : ts <+: items data := by
  obtain ⟨rest, rfl⟩ := hp
  rw [items_encode_append h]
  exact List.prefix_append _ _

/-- What is behind the items of `data`. -/
def leftover (data : Bytes) : Bytes := data.drop (encode (items data)).length

theorem encode_items_append_leftover (data : Bytes) : encode (items data) ++ leftover data = data :=
  List.prefix_iff_eq_append.mp (encode_items data).2

/-- What is behind complete items ends where it ended without them. -/
theorem leftover_encode_append {ts : List Tlv} (h : ∀ t ∈ ts, t.value.length ≤ 253) (rest : Bytes) :
    leftover (encode ts ++ rest) = leftover rest := by
  rw [leftover, items_encode_append h, leftover, encode_append, List.length_append,
    ← List.drop_drop, List.drop_left' rfl]

/-! ## Items by type -/

/-- The last item of a kind. -/
def lastItem (p : Tlv → Bool) (ts : List Tlv) : Option Tlv := (ts.filter p).getLast?

theorem lastItem_snoc (p : Tlv → Bool) (ts : List Tlv) (t : Tlv) :
    lastItem p (ts ++ [t]) = if p t then some t else lastItem p ts := by
  rw [lastItem, List.filter_append]
  by_cases h : p t
  · simp [h]
  · simp [h, lastItem]

/-- Items of distinct types are reordered: each type keeps its sequence. -/
def SameByType (ts us : List Tlv) : Prop := ∀ k : UInt8, ts.filter (·.typ = k) = us.filter (·.typ = k)

/-- Items of one type are the same in the same order. -/
theorem SameByType.filter_eq {ts us : List Tlv} (h : SameByType ts us) (k : UInt8) (q : Tlv → Bool) :
    ts.filter (fun t => t.typ = k ∧ q t) = us.filter (fun t => t.typ = k ∧ q t) := by
  have hsplit : ∀ l : List Tlv, l.filter (fun t => t.typ = k ∧ q t) =
      (l.filter (·.typ = k)).filter q := by
    intro l
    rw [List.filter_filter]
    congr 1
    funext t
    simp [Bool.and_comm]
  rw [hsplit, hsplit, h k]

/-- Neighbours of distinct types may be swapped. -/
theorem sameByType_swap {t u : Tlv} (h : t.typ ≠ u.typ) (ts us : List Tlv) :
    SameByType (ts ++ t :: u :: us) (ts ++ u :: t :: us) := by
  intro k
  rw [List.filter_append, List.filter_append]
  congr 1
  by_cases ht : t.typ = k
  · have hu : u.typ ≠ k := fun hu => h (ht.trans hu.symm)
    simp [ht, hu]
  · simp [List.filter_cons, ht]

theorem SameByType.symm {ts us : List Tlv} (h : SameByType ts us) : SameByType us ts := by
  intro k
  exact (h k).symm

theorem SameByType.append {ts us : List Tlv} (h : SameByType ts us) (vs : List Tlv) :
    SameByType (ts ++ vs) (us ++ vs) := by
  intro k
  rw [List.filter_append, List.filter_append, h k]

theorem SameByType.mem_iff {ts us : List Tlv} (h : SameByType ts us) (t : Tlv) : t ∈ ts ↔ t ∈ us := by
  have hk := congrArg (t ∈ ·) (h t.typ)
  simpa using hk

end Iwand.Wire
