import Iwand.Common.Go

/-!
# Addresses and IPv4 packets

The part of `net/netip` that the server uses, by its documentation, and the
model of `server/ip.go`.

* `parseIPv4Packet_ok_iff`: what `parseIPv4Packet` accepts and returns.
* `IPv4.WellFormed.trim`: the accepted packet is itself well formed.
-/

namespace Iwand.Server

open Go

/-! ## `netip.Addr` -/

/-- `netip.Addr`: the zero value, an IPv4 address, or an IPv6 address with its
    zone. -/
inductive Addr where
  | zero
  | v4 (a : Vector UInt8 4)
  | v6 (a : Vector UInt8 16) (zone : Bytes)
deriving DecidableEq

namespace Addr

/-- `Is4`. -/
def is4 : Addr → Bool
  | v4 _ => true
  | _ => false

/-- `IsUnspecified`: `0.0.0.0` or `::`. -/
def isUnspecified (a : Addr) : Bool :=
  a = v4 (Vector.replicate 4 0) ∨ a = v6 (Vector.replicate 16 0) []

/-- `As4`: an IPv4 address or an IPv4-mapped IPv6 address. -/
def as4 : Addr → Go (Vector UInt8 4)
  | v4 a => .ok a
  | v6 a _ =>
    if a.toList.take 12 = List.replicate 10 0 ++ [0xff, 0xff] then .ok (toArr 4 (a.toList.drop 12))
    else .error (.panic .as4)
  | zero => .error (.panic .as4)

/-- The decimal digits of a byte. -/
def decimal (b : UInt8) : Bytes :=
  let digit (n : ℕ) : UInt8 := UInt8.ofNat (48 + n)
  if 100 ≤ b then [digit (b.toNat / 100), digit (b.toNat / 10 % 10), digit (b.toNat % 10)]
  else if 10 ≤ b then [digit (b.toNat / 10), digit (b.toNat % 10)]
  else [digit b.toNat]

/-- `String` of an IPv4 address. -/
def string4 (a : Vector UInt8 4) : Bytes :=
  let dot : UInt8 := 46
  decimal a[0] ++ dot :: (decimal a[1] ++ dot :: (decimal a[2] ++ dot :: decimal a[3]))

theorem is4_iff {a : Addr} : a.is4 = true ↔ ∃ v, a = v4 v := by
  cases a <;> simp [is4]

end Addr

/-! ## IPv4 packets -/

/-- `ipv4Packet`. -/
structure Ipv4Packet where
  packet : Bytes
  source : Addr
  destination : Addr

/-- `parseIPv4Packet` (lines 16–47). -/
def parseIPv4Packet (payload : Bytes) : Go Ipv4Packet :=
  if payload.length < 20 then fail "short IPv4 packet"
  else do
    let b0 ← idx payload 0
    if b0 >>> 4 ≠ 4 then fail "not an IPv4 packet"
    else
      let ihl := (b0 &&& 0x0f).toNat * 4
      if ihl < 20 then fail ("invalid IPv4 IHL " ++ toString ihl)
      else if payload.length < ihl then fail "truncated IPv4 header"
      else
        let length ← slice payload 2 4
        let totalLength := (be16 (← idx length 0) (← idx length 1)).toNat
        if totalLength < ihl then fail ("invalid IPv4 total length " ++ toString totalLength)
        else if totalLength > payload.length then
          fail ("truncated IPv4 payload: total=" ++ toString totalLength ++
            " len=" ++ toString payload.length)
        else
          let source ← slice payload 12 16
          let destination ← slice payload 16 20
          return { packet := ← slice payload 0 totalLength
                   source := .v4 (toArr 4 source)
                   destination := .v4 (toArr 4 destination) }

namespace IPv4

/-- The header length in bytes. -/
def headerLength (p : Bytes) : ℕ := (p.getD 0 0 &&& 0x0f).toNat * 4

/-- The total-length field. -/
def totalLength (p : Bytes) : ℕ := (be16 (p.getD 2 0) (p.getD 3 0)).toNat

/-- The source address. -/
def source (p : Bytes) : Addr := .v4 (toArr 4 ((p.take 16).drop 12))

/-- The destination address. -/
def destination (p : Bytes) : Addr := .v4 (toArr 4 ((p.take 20).drop 16))

/-- `p` starts with a complete IPv4 packet. -/
structure WellFormed (p : Bytes) : Prop where
  twenty : 20 ≤ p.length
  version : p.getD 0 0 >>> 4 = 4
  header : 20 ≤ headerLength p
  total : headerLength p ≤ totalLength p
  complete : totalLength p ≤ p.length

instance (p : Bytes) : Decidable (WellFormed p) :=
  decidable_of_iff (20 ≤ p.length ∧ p.getD 0 0 >>> 4 = 4 ∧ 20 ≤ headerLength p ∧
      headerLength p ≤ totalLength p ∧ totalLength p ≤ p.length)
    ⟨fun ⟨h1, h2, h3, h4, h5⟩ => ⟨h1, h2, h3, h4, h5⟩,
      fun ⟨h1, h2, h3, h4, h5⟩ => ⟨h1, h2, h3, h4, h5⟩⟩

end IPv4

section

variable {p : Bytes}

theorem getD_of_lt {i : ℕ} (h : i < p.length) : p.getD i 0 = p[i] := List.getD_eq_getElem _ _ h

/-- `parseIPv4Packet` on a packet of at least 20 bytes: the checks, one after
    the other. -/
theorem parseIPv4Packet_steps (h20 : 20 ≤ p.length) :
    parseIPv4Packet p =
      if p.getD 0 0 >>> 4 ≠ 4 then fail "not an IPv4 packet"
      else if IPv4.headerLength p < 20 then
        fail ("invalid IPv4 IHL " ++ toString (IPv4.headerLength p))
      else if p.length < IPv4.headerLength p then fail "truncated IPv4 header"
      else if IPv4.totalLength p < IPv4.headerLength p then
        fail ("invalid IPv4 total length " ++ toString (IPv4.totalLength p))
      else if IPv4.totalLength p > p.length then
        fail ("truncated IPv4 payload: total=" ++ toString (IPv4.totalLength p) ++
          " len=" ++ toString p.length)
      else .ok ⟨p.take (IPv4.totalLength p), IPv4.source p, IPv4.destination p⟩ := by
  have hfield : (p.take 4).drop 2 = [p.getD 2 0, p.getD 3 0] := by
    rw [getD_of_lt (by omega), getD_of_lt (by omega), List.drop_take,
      List.drop_eq_getElem_cons (by omega), List.drop_eq_getElem_cons (by omega)]
    rfl
  have h0 : idx p 0 = .ok (p.getD 0 0) := by
    rw [idx_eq (by omega), getD_of_lt (by omega)]
  rw [parseIPv4Packet, if_neg (by omega), h0, bind_ok, slice_eq (by omega) (by omega), hfield,
    slice_eq (by omega) (by omega), slice_eq (by omega) (by omega)]
  simp only [bind_ok, idx_eq (b := [p.getD 2 0, p.getD 3 0]) (i := 0) (by simp),
    idx_eq (b := [p.getD 2 0, p.getD 3 0]) (i := 1) (by simp)]
  show (if _ then _ else if _ then _ else if _ then _ else if IPv4.totalLength p < _ then _
    else if IPv4.totalLength p > _ then _ else (slice p 0 (IPv4.totalLength p) >>= _)) = _
  by_cases htotal : IPv4.totalLength p > p.length
  · simp only [if_pos htotal]
    rfl
  · rw [slice_eq (by omega) (by omega)]
    rfl

/-- **A well-formed packet is accepted** and trimmed to its total length. -/
theorem parseIPv4Packet_eq (h : IPv4.WellFormed p) :
    parseIPv4Packet p = .ok ⟨p.take (IPv4.totalLength p), IPv4.source p, IPv4.destination p⟩ := by
  obtain ⟨h20, hv, hh, ht, hc⟩ := h
  rw [parseIPv4Packet_steps h20, if_neg (by simpa using hv), if_neg (by omega), if_neg (by omega),
    if_neg (by omega), if_neg (by omega)]

/-- Everything else is an error. -/
theorem parseIPv4Packet_fail (h : ¬ IPv4.WellFormed p) : ∃ msg, parseIPv4Packet p = fail msg := by
  by_cases h20 : p.length < 20
  · exact ⟨_, if_pos h20⟩
  rw [parseIPv4Packet_steps (by omega)]
  split_ifs with h1 h2 h3 h4 h5
  · exact ⟨_, rfl⟩
  · exact ⟨_, rfl⟩
  · exact ⟨_, rfl⟩
  · exact ⟨_, rfl⟩
  · exact ⟨_, rfl⟩
  · exact absurd ⟨by omega, by simpa using h1, by omega, by omega, by omega⟩ h

theorem parseIPv4Packet_ok_iff {r : Ipv4Packet} :
    parseIPv4Packet p = .ok r ↔ IPv4.WellFormed p ∧
      r = ⟨p.take (IPv4.totalLength p), IPv4.source p, IPv4.destination p⟩ := by
  by_cases h : IPv4.WellFormed p
  · rw [parseIPv4Packet_eq h]
    simp [h, eq_comm]
  · obtain ⟨msg, hmsg⟩ := parseIPv4Packet_fail h
    rw [hmsg]
    simp [h, fail]

/-- `p` is a complete IPv4 packet and nothing else. -/
structure IPv4.Complete (p : Bytes) : Prop extends IPv4.WellFormed p where
  length : IPv4.totalLength p = p.length

/-- A packet with bytes behind its end has the fields of the trimmed packet. -/
theorem IPv4.WellFormed.trim (h : IPv4.WellFormed p) :
    IPv4.Complete (p.take (IPv4.totalLength p)) ∧
      IPv4.source (p.take (IPv4.totalLength p)) = IPv4.source p ∧
      IPv4.destination (p.take (IPv4.totalLength p)) = IPv4.destination p := by
  obtain ⟨h20, hv, hh, ht, hc⟩ := h
  have hget : ∀ i < 20, (p.take (IPv4.totalLength p)).getD i 0 = p.getD i 0 := by
    intro i hi
    rw [List.getD_eq_getElem?_getD, List.getD_eq_getElem?_getD, List.getElem?_take_of_lt (by omega)]
  have hhl : IPv4.headerLength (p.take (IPv4.totalLength p)) = IPv4.headerLength p := by
    rw [IPv4.headerLength, hget 0 (by omega), IPv4.headerLength]
  have htl : IPv4.totalLength (p.take (IPv4.totalLength p)) = IPv4.totalLength p := by
    rw [IPv4.totalLength, hget 2 (by omega), hget 3 (by omega), IPv4.totalLength]
  have hlen : (p.take (IPv4.totalLength p)).length = IPv4.totalLength p := by
    rw [List.length_take]
    omega
  refine ⟨⟨⟨by omega, by rw [hget 0 (by omega)]; exact hv, by omega, by omega, by omega⟩,
    by omega⟩, ?_, ?_⟩
  · rw [IPv4.source, List.take_take, min_eq_left (by omega), IPv4.source]
  · rw [IPv4.destination, List.take_take, min_eq_left (by omega), IPv4.destination]

end

end Iwand.Server
