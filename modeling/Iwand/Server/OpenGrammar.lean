import Iwand.Server.Protocol

/-!
# What `parseOpenPacket` accepts

The OPEN is the unauthenticated entry point of the server. Its parser folds a
`switch` over items that the sender chose; here the accepted packets are
described without the fold.

* `OpenGrammar`, `requestOf`: the accepted packets, and what they ask for.
* `parseOpenPacket_iff`: the parser accepts exactly these.
* `parseOpenPacket_reorder`, `parseOpenPacket_insert`: order between types and
  foreign items do not matter.
* `open_grammar`: the three together.
-/

namespace Iwand.Server

open Go
open Wire (lastItem lastItem_snoc SameByType)

/-! ## The grammar -/

/-- The last item of a type. -/
def lastOf (k : UInt8) (ts : List Wire.Tlv) : Option Wire.Tlv := lastItem (·.typ = k) ts

/-- The last non-empty item of type 8. -/
def lastFlag (ts : List Wire.Tlv) : Option Wire.Tlv :=
  lastItem (fun t => t.typ = 8 ∧ t.value ≠ []) ts

/-- The MTU of the last item of type 3. -/
def openMtu (ts : List Wire.Tlv) : UInt16 :=
  (lastOf 3 ts).elim defaultMTU fun t => be16 (t.value.getD 0 0) (t.value.getD 1 0)

/-- An item whose length fits its type. -/
def Sized (t : Wire.Tlv) : Prop :=
  (t.typ = 2 → t.value.length = 16) ∧ (t.typ = 3 → 2 ≤ t.value.length)

/-- An OPEN with the items `ts`. -/
structure OpenGrammar (packet : Bytes) (ts : List Wire.Tlv) : Prop where
  length : 24 ≤ packet.length
  typ : packet.getD 0 0 = 0x13
  signed : Wire.Signed packet
  /-- The tail is a concatenation of complete items. -/
  tail : packet.drop 24 = Wire.encode ts
  complete : ∀ t ∈ ts, t.value.length ≤ 253
  sized : ∀ t ∈ ts, Sized t
  username : ∃ t, lastOf 1 ts = some t ∧ t.value ≠ []
  password : ∃ t ∈ ts, t.typ = 2
  mtu : 46 ≤ openMtu ts ∧ openMtu ts ≤ 1600

/-- The request of an OPEN with the flag byte `flag` and the items `ts`: every
    field is that of the last item of its type. -/
def requestOf (flag : UInt8) (ts : List Wire.Tlv) : OpenRequest where
  username := (lastOf 1 ts).elim [] (·.value)
  passwordBlock := (lastOf 2 ts).elim (Vector.replicate 16 0) fun t => toArr 16 t.value
  mtu := openMtu ts
  encrypt := (lastFlag ts).elim (flag ≠ 0) fun t => t.value.getD 0 0 ≠ 0

/-- `hasPassword` after the items. -/
def hasPassword (ts : List Wire.Tlv) : Bool := ts.any (·.typ = 2)

/-! ## The loop over the items -/

theorem lastOf_snoc (k : UInt8) (ts : List Wire.Tlv) (t : Wire.Tlv) :
    lastOf k (ts ++ [t]) = if t.typ = k then some t else lastOf k ts := by
  rw [lastOf, lastItem_snoc]
  simp only [decide_eq_true_eq]
  rfl

theorem lastFlag_snoc (ts : List Wire.Tlv) (t : Wire.Tlv) :
    lastFlag (ts ++ [t]) = if t.typ = 8 ∧ t.value ≠ [] then some t else lastFlag ts := by
  rw [lastFlag, lastItem_snoc]
  simp only [decide_eq_true_eq]
  rfl

theorem hasPassword_snoc (ts : List Wire.Tlv) (t : Wire.Tlv) :
    hasPassword (ts ++ [t]) = (hasPassword ts || decide (t.typ = 2)) := by
  simp [hasPassword]

/-- One item of the right length: the state stays that of the items so far. -/
theorem openItem_requestOf (flag : UInt8) (ts : List Wire.Tlv) {t : Wire.Tlv} (h : Sized t) :
    openItem (requestOf flag ts, hasPassword ts) t =
      .ok (requestOf flag (ts ++ [t]), hasPassword (ts ++ [t])) := by
  simp only [requestOf, openMtu, lastOf_snoc, lastFlag_snoc, hasPassword_snoc, openItem]
  split
  · rename_i h1
    simp [h1]
  · rename_i h2
    rw [if_neg (by simp [h.1 h2])]
    simp [h2]
  · rename_i h3
    have hlen := h.2 h3
    obtain ⟨a, b, rest, hv⟩ : ∃ a b rest, t.value = a :: b :: rest := by
      rcases hvalue : t.value with _ | ⟨a, _ | ⟨b, rest⟩⟩
      · simp [hvalue] at hlen
      · simp [hvalue] at hlen
      · exact ⟨a, b, rest, rfl⟩
    rw [if_neg (by omega), hv, slice_eq (by omega) (by simp), bind_ok, idx_eq (by simp), bind_ok,
      idx_eq (by simp), bind_ok]
    simp [h3, hv]
    rfl
  · rename_i h8
    rcases hv : t.value with _ | ⟨b, rest⟩
    · simp [h8]
    · rw [if_pos (by simp), idx_eq (by simp), bind_ok]
      simp [h8, hv]
      rfl
  · rename_i h1 h2 h3 h8
    simp [eq_false h1, eq_false h2, eq_false h3, eq_false h8]

/-- Any other item is an error. -/
theorem sized_of_openItem {st st' : OpenRequest × Bool} {t : Wire.Tlv}
    (h : openItem st t = .ok st') : Sized t := by
  simp only [openItem] at h
  split at h
  · rename_i h1
    exact ⟨fun h2 => by simp [h1] at h2, fun h3 => by simp [h1] at h3⟩
  · rename_i h2
    obtain ⟨hlen, -⟩ := of_check h
    exact ⟨fun _ => by simpa using hlen, fun h3 => by simp [h2] at h3⟩
  · rename_i h3
    obtain ⟨hlen, -⟩ := of_check h
    exact ⟨fun h2 => by simp [h3] at h2, fun _ => by omega⟩
  · rename_i h8
    exact ⟨fun h2 => by simp [h8] at h2, fun h3 => by simp [h8] at h3⟩
  · rename_i h1 h2 h3 h8
    exact ⟨fun h => absurd h h2, fun h => absurd h h3⟩

/-- **The loop** succeeds exactly on items of the right lengths, and then its state
    is that of the last items. -/
theorem openItems_iff (flag : UInt8) (ts : List Wire.Tlv) (st : OpenRequest × Bool) :
    ts.foldlM openItem (requestOf flag [], hasPassword []) = .ok st ↔
      (∀ t ∈ ts, Sized t) ∧ st = (requestOf flag ts, hasPassword ts) := by
  induction ts using List.reverseRecOn generalizing st with
  | nil =>
    simp only [List.foldlM_nil, List.not_mem_nil, false_implies, implies_true, true_and]
    exact ⟨fun h => (Except.ok.inj h).symm, fun h => congrArg Except.ok h.symm⟩
  | append_singleton ts t ih =>
    rw [List.foldlM_append]
    constructor
    · intro h
      obtain ⟨mid, hmid, hlast⟩ := bind_eq_ok h
      obtain ⟨hsized, rfl⟩ := (ih mid).mp hmid
      rw [List.foldlM_cons] at hlast
      obtain ⟨st', hst, hnil⟩ := bind_eq_ok hlast
      obtain rfl := Except.ok.inj hnil
      have ht := sized_of_openItem hst
      rw [openItem_requestOf flag ts ht] at hst
      refine ⟨?_, (Except.ok.inj hst).symm⟩
      intro u hu
      rcases List.mem_append.mp hu with hu | hu
      · exact hsized u hu
      · rwa [List.mem_singleton.mp hu]
    · rintro ⟨hsized, rfl⟩
      have hts := (ih _).mpr ⟨fun u hu => hsized u (by simp [hu]), rfl⟩
      rw [hts, bind_ok, List.foldlM_cons, openItem_requestOf flag ts (hsized t (by simp)), bind_ok]
      rfl

/-! ## The parser -/

/-- The parser behind the header and the signature. -/
def parseTail (flag : UInt8) (tail : Bytes) : Go OpenRequest := do
  let tlvs ← parseTLVs tail
  let st ← tlvs.foldlM openItem (requestOf flag [], hasPassword [])
  openChecks st.1 st.2

theorem parseOpenPacket_tail {packet : Bytes} (h24 : 24 ≤ packet.length) :
    parseOpenPacket packet =
      if packet.getD 0 0 ≠ packetOpen then fail "not an OPEN packet"
      else if Wire.Signed packet then parseTail (packet.getD 1 0) (packet.drop 24)
      else fail "invalid OPEN signature" :=
  parseOpenPacket_eq h24

theorem openChecks_iff (request request' : OpenRequest) (b : Bool) :
    openChecks request b = .ok request' ↔
      request.username ≠ [] ∧ b = true ∧ (46 ≤ request.mtu ∧ request.mtu ≤ 1600) ∧
        request' = request := by
  unfold openChecks
  constructor
  · intro h
    obtain ⟨hname, h⟩ := of_check h
    obtain ⟨hpass, h⟩ := of_check h
    obtain ⟨hmtu, h⟩ := of_check h
    simp only [not_or, UInt16.not_lt, gt_iff_lt] at hmtu
    exact ⟨hname, by simpa using hpass, hmtu, (Except.ok.inj h).symm⟩
  · rintro ⟨hname, rfl, hmtu, rfl⟩
    rw [if_neg hname, if_neg (by simp), if_neg]
    simp only [not_or, UInt16.not_lt, gt_iff_lt]
    exact hmtu

theorem username_requestOf (flag : UInt8) (ts : List Wire.Tlv) :
    (requestOf flag ts).username ≠ [] ↔ ∃ t, lastOf 1 ts = some t ∧ t.value ≠ [] := by
  simp only [requestOf]
  cases lastOf 1 ts <;> simp

theorem parseTail_iff (flag : UInt8) (tail : Bytes) (request : OpenRequest) :
    parseTail flag tail = .ok request ↔ ∃ ts, tail = Wire.encode ts ∧
      (∀ t ∈ ts, t.value.length ≤ 253) ∧ (∀ t ∈ ts, Sized t) ∧
      (∃ t, lastOf 1 ts = some t ∧ t.value ≠ []) ∧ (∃ t ∈ ts, t.typ = 2) ∧
      (46 ≤ openMtu ts ∧ openMtu ts ≤ 1600) ∧ request = requestOf flag ts := by
  have hpass : ∀ ts, hasPassword ts = true ↔ ∃ t ∈ ts, t.typ = 2 := fun ts => by simp [hasPassword]
  constructor
  · intro h
    obtain ⟨ts, hts, h⟩ := bind_eq_ok h
    obtain ⟨st, hst, h⟩ := bind_eq_ok h
    obtain ⟨htail, hcomplete⟩ := (parseTLVs_ok_iff tail ts).mp hts
    obtain ⟨hsized, rfl⟩ := (openItems_iff flag ts st).mp hst
    obtain ⟨hname, hp, hmtu, hreq⟩ := (openChecks_iff _ _ _).mp h
    exact ⟨ts, htail, hcomplete, hsized, (username_requestOf flag ts).mp hname, (hpass ts).mp hp,
      hmtu, hreq⟩
  · rintro ⟨ts, rfl, hcomplete, hsized, hname, hp, hmtu, rfl⟩
    rw [parseTail, parseTLVs_encode hcomplete, bind_ok, (openItems_iff flag ts _).mpr ⟨hsized, rfl⟩,
      bind_ok]
    exact (openChecks_iff _ _ _).mpr
      ⟨(username_requestOf flag ts).mpr hname, (hpass ts).mpr hp, hmtu, rfl⟩

/-- **The parser accepts exactly the grammar**, with the last value of each type. -/
theorem parseOpenPacket_iff (packet : Bytes) (request : OpenRequest) :
    parseOpenPacket packet = .ok request ↔
      ∃ ts, OpenGrammar packet ts ∧ request = requestOf (packet.getD 1 0) ts := by
  by_cases h24 : 24 ≤ packet.length
  swap
  · rw [parseOpenPacket, if_pos (by simp; omega)]
    refine ⟨fun h => (by cases h), ?_⟩
    rintro ⟨ts, hg, -⟩
    exact absurd hg.length h24
  rw [parseOpenPacket_tail h24]
  constructor
  · intro h
    obtain ⟨htyp, h⟩ := of_check h
    by_cases hsig : Wire.Signed packet
    swap
    · rw [if_neg hsig] at h
      cases h
    rw [if_pos hsig] at h
    obtain ⟨ts, htail, hcomplete, hsized, hname, hp, hmtu, hreq⟩ := (parseTail_iff _ _ _).mp h
    exact ⟨ts, ⟨h24, by simpa using htyp, hsig, htail, hcomplete, hsized, hname, hp, hmtu⟩, hreq⟩
  · rintro ⟨ts, hg, rfl⟩
    rw [if_neg (by simpa using hg.typ), if_pos hg.signed]
    exact (parseTail_iff _ _ _).mpr ⟨ts, hg.tail, hg.complete, hg.sized, hg.username, hg.password,
      hg.mtu, rfl⟩

/-! ## Order and foreign items -/

section

variable {ts us : List Wire.Tlv}

theorem SameByType.lastOf_eq (h : SameByType ts us) (k : UInt8) : lastOf k ts = lastOf k us := by
  rw [lastOf, lastItem, h k]
  rfl

theorem SameByType.lastFlag_eq (h : SameByType ts us) : lastFlag ts = lastFlag us := by
  have hfilter := h.filter_eq 8 fun t => decide (t.value ≠ [])
  simp only [decide_eq_true_eq] at hfilter
  rw [lastFlag, lastItem, hfilter]
  rfl

theorem SameByType.requestOf_eq (h : SameByType ts us) (flag : UInt8) :
    requestOf flag ts = requestOf flag us := by
  unfold requestOf openMtu
  rw [SameByType.lastOf_eq h, SameByType.lastOf_eq h, SameByType.lastOf_eq h,
    SameByType.lastFlag_eq h]

/-- What the parser accepts does not depend on the order between types. -/
theorem parseTail_reorder (hts : ∀ t ∈ ts, t.value.length ≤ 253) (hus : ∀ t ∈ us, t.value.length ≤ 253)
    (h : SameByType ts us) (flag : UInt8) (rest : Bytes) {request : OpenRequest}
    (hok : parseTail flag (Wire.encode ts ++ rest) = .ok request) :
    parseTail flag (Wire.encode us ++ rest) = .ok request := by
  obtain ⟨ws, htail, hcomplete, hsized, hname, hpass, hmtu, rfl⟩ := (parseTail_iff _ _ _).mp hok
  -- the items of the tail, and what is behind `ts`
  have hws : ws = ts ++ Wire.items rest := by
    rw [← Wire.items_encode hcomplete, ← htail, Wire.items_encode_append hts]
  have hrest : rest = Wire.encode (Wire.items rest) := by
    rw [hws, Wire.encode_append] at htail
    exact List.append_cancel_left htail
  subst hws
  have hsame := h.append (Wire.items rest)
  refine (parseTail_iff _ _ _).mpr ⟨us ++ Wire.items rest, ?_, ?_, ?_, ?_, ?_, ?_, ?_⟩
  · rw [Wire.encode_append, ← hrest]
  · intro t ht
    rcases List.mem_append.mp ht with ht | ht
    · exact hus t ht
    · exact (Wire.encode_items rest).1 t ht
  · exact fun t ht => hsized t ((hsame.mem_iff t).mpr ht)
  · rwa [← SameByType.lastOf_eq hsame]
  · obtain ⟨t, ht, h2⟩ := hpass
    exact ⟨t, (hsame.mem_iff t).mp ht, h2⟩
  · rwa [openMtu, ← SameByType.lastOf_eq hsame]
  · exact SameByType.requestOf_eq hsame flag

/-- An item of a type that the `switch` does not know. -/
def Foreign (t : Wire.Tlv) : Prop := t.typ ≠ 1 ∧ t.typ ≠ 2 ∧ t.typ ≠ 3 ∧ t.typ ≠ 8

theorem foldlM_foreign (h : ∀ t ∈ us, Foreign t) (st : OpenRequest × Bool) :
    us.foldlM openItem st = .ok st := by
  induction us with
  | nil => rfl
  | cons t us ih =>
    obtain ⟨request, b⟩ := st
    obtain ⟨h1, h2, h3, h8⟩ := h t (by simp)
    rw [List.foldlM_cons, openItem_other h1 h2 h3, encryptItem, if_neg h8, bind_ok,
      ih fun u hu => h u (by simp [hu])]

/-- Foreign items change nothing, not even the error. -/
theorem parseTail_insert (hts : ∀ t ∈ ts, t.value.length ≤ 253) (hus : ∀ t ∈ us, t.value.length ≤ 253)
    (h : ∀ t ∈ us, Foreign t) (flag : UInt8) (rest : Bytes) :
    parseTail flag (Wire.encode ts ++ (Wire.encode us ++ rest)) =
      parseTail flag (Wire.encode ts ++ rest) := by
  have htlvs : ∀ tail, parseTLVs (Wire.encode ts ++ tail) =
      tailCheck (Wire.leftover tail) (ts ++ Wire.items tail) := by
    intro tail
    rw [parseTLVs_eq, Wire.leftover_encode_append hts, Wire.items_encode_append hts]
  rw [parseTail, parseTail, htlvs, htlvs, Wire.leftover_encode_append hus,
    Wire.items_encode_append hus, tailCheck, tailCheck]
  split_ifs
  · have hloop : ∀ st, (us ++ Wire.items rest).foldlM openItem st =
        (Wire.items rest).foldlM openItem st := by
      intro st
      rw [List.foldlM_append, foldlM_foreign h, bind_ok]
    rw [bind_ok, bind_ok, List.foldlM_append, List.foldlM_append]
    simp only [hloop]
  · rfl
  · rfl

end

/-- Behind 24 bytes of header and signature, only the tail varies. -/
theorem parseOpenPacket_append {hdr : Bytes} (h : hdr.length = 24) (tail : Bytes) :
    parseOpenPacket (hdr ++ tail) =
      if hdr.getD 0 0 ≠ packetOpen then fail "not an OPEN packet"
      else if Wire.Signed hdr then parseTail (hdr.getD 1 0) tail
      else fail "invalid OPEN signature" := by
  have hsig : Wire.Signed (hdr ++ tail) ↔ Wire.Signed hdr := by
    have htake : (hdr ++ tail).take 8 = hdr.take 8 := List.take_append_of_le_length (by omega)
    have hdrop : ((hdr ++ tail).drop 8).take 16 = (hdr.drop 8).take 16 := by
      rw [List.drop_append_of_le_length (by omega),
        List.take_append_of_le_length (by rw [List.length_drop]; omega)]
    rw [Wire.Signed, Wire.Signed, htake, hdrop]
    simp [h]
  rw [parseOpenPacket_tail (by simp [h]), List.getD_append _ _ _ _ (by omega),
    List.getD_append _ _ _ _ (by omega), List.drop_left' h]
  simp only [hsig]

theorem toOption_eq {α : Type} {x y : Go α} (h : ∀ a, x = .ok a ↔ y = .ok a) :
    x.toOption = y.toOption := by
  cases x with
  | ok a => rw [(h a).mp rfl]
  | error e =>
    cases y with
    | ok b => exact absurd ((h b).mpr rfl) (by simp)
    | error e' => rfl

/-- **`parseOpenPacket` accepts exactly its grammar, last value wins.** Reordering
    items of distinct types never changes whether the packet is accepted, nor the
    request; inserting items of other types never changes the result. -/
theorem open_grammar :
    (∀ packet request, parseOpenPacket packet = .ok request ↔
      ∃ ts, OpenGrammar packet ts ∧ request = requestOf (packet.getD 1 0) ts) ∧
    (∀ (hdr : Bytes) (ts us : List Wire.Tlv) (rest : Bytes), hdr.length = 24 →
      (∀ t ∈ ts, t.value.length ≤ 253) → (∀ t ∈ us, t.value.length ≤ 253) → SameByType ts us →
      (parseOpenPacket (hdr ++ (Wire.encode ts ++ rest))).toOption =
        (parseOpenPacket (hdr ++ (Wire.encode us ++ rest))).toOption) ∧
    (∀ (hdr : Bytes) (ts us : List Wire.Tlv) (rest : Bytes), hdr.length = 24 →
      (∀ t ∈ ts, t.value.length ≤ 253) → (∀ t ∈ us, t.value.length ≤ 253) →
      (∀ t ∈ us, Foreign t) →
      parseOpenPacket (hdr ++ (Wire.encode ts ++ (Wire.encode us ++ rest))) =
        parseOpenPacket (hdr ++ (Wire.encode ts ++ rest))) := by
  refine ⟨parseOpenPacket_iff, ?_, ?_⟩
  · intro hdr ts us rest hhdr hts hus hsame
    apply toOption_eq
    intro request
    rw [parseOpenPacket_append hhdr, parseOpenPacket_append hhdr]
    split_ifs
    · exact Iff.rfl
    · exact ⟨parseTail_reorder hts hus hsame _ rest, parseTail_reorder hus hts hsame.symm _ rest⟩
    · exact Iff.rfl
  · intro hdr ts us rest hhdr hts hus hforeign
    rw [parseOpenPacket_append hhdr, parseOpenPacket_append hhdr,
      parseTail_insert hts hus hforeign]

/-- A signed header with the two items swapped, and a foreign item in front. -/
theorem open_grammar_swap :
    let hdr := Wire.signedHeader packetOpen 0 (Vector.replicate 2 0) (Vector.replicate 4 0)
    (parseOpenPacket (hdr ++ (Wire.encode [⟨1, [97]⟩, ⟨3, [5, 120]⟩] ++ []))).toOption =
      (parseOpenPacket (hdr ++ (Wire.encode [⟨3, [5, 120]⟩, ⟨1, [97]⟩] ++ []))).toOption ∧
    parseOpenPacket (hdr ++ (Wire.encode [⟨1, [97]⟩] ++ (Wire.encode [⟨9, []⟩] ++ []))) =
      parseOpenPacket (hdr ++ (Wire.encode [⟨1, [97]⟩] ++ [])) := by
  intro hdr
  refine ⟨?_, ?_⟩
  · apply open_grammar.2.1 hdr [⟨1, [97]⟩, ⟨3, [5, 120]⟩] [⟨3, [5, 120]⟩, ⟨1, [97]⟩] [] (by simp [hdr])
    · simp
    · simp
    · exact Wire.sameByType_swap (by decide) [] []
  · apply open_grammar.2.2 hdr [⟨1, [97]⟩] [⟨9, []⟩] [] (by simp [hdr])
    · simp
    · simp
    · simp [Foreign]

/-- The error text does depend on the order: of two items of wrong lengths, the
    first is reported. -/
theorem parseOpenPacket_error_order :
    let hdr := Wire.signedHeader packetOpen 0 (Vector.replicate 2 0) (Vector.replicate 4 0)
    SameByType [⟨2, []⟩, ⟨3, []⟩] [⟨3, []⟩, ⟨2, []⟩] ∧
      parseOpenPacket (hdr ++ Wire.encode [⟨2, []⟩, ⟨3, []⟩]) =
        fail "invalid password TLV length 0" ∧
      parseOpenPacket (hdr ++ Wire.encode [⟨3, []⟩, ⟨2, []⟩]) = fail "invalid MTU TLV length 0" ∧
      parseOpenPacket (hdr ++ Wire.encode [⟨2, []⟩, ⟨3, []⟩]) ≠
        parseOpenPacket (hdr ++ Wire.encode [⟨3, []⟩, ⟨2, []⟩]) := by
  intro hdr
  have h23 : parseOpenPacket (hdr ++ Wire.encode [⟨2, []⟩, ⟨3, []⟩]) =
      fail "invalid password TLV length 0" := by
    rw [parseOpenPacket_encode _ _ _ (by simp)]
    rfl
  have h32 : parseOpenPacket (hdr ++ Wire.encode [⟨3, []⟩, ⟨2, []⟩]) =
      fail "invalid MTU TLV length 0" := by
    rw [parseOpenPacket_encode _ _ _ (by simp)]
    rfl
  refine ⟨Wire.sameByType_swap (by decide) [] [], h23, h32, ?_⟩
  · rw [h23, h32]
    intro h
    have hmsg : "invalid password TLV length 0" = "invalid MTU TLV length 0" :=
      Fault.err.inj (Except.error.inj h)
    revert hmsg
    decide

end Iwand.Server
