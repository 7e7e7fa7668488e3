import Freelan.NetworkAddressIo

/-! # `ip_network_address`: the union of the two families

`ip_network_address` is a `boost::variant` of an IPv4 and an IPv6 network address. Its
`operator<<` writes the active value; its `operator>>` tries IPv6 and then IPv4, in two blocks
that differ only in the family (`tryExtract`). Each block clears the stream when its family's
parse fails, the last one too, so a failed union parse hands back a stream with failbit clear.
`extract_insert` reads back every printed value, of either family, whose IPv6 address has scope
id 0: a printed IPv4 address has no colon, so the IPv6 attempt turns it down without reading
anything. A nonzero scope id is printed after `%`, where `read_ip_address` stops, and such a text
is not read back (`extract_insert_scope`). The same holds of every text
the IPv4 parse reads (`extract_of_extract_v4`), so trying IPv6 first never hides an IPv4 network.
`extract_of_inetPton` reads every text `inet_pton` accepts, printed by `to_string` or not, with
its family, and `extract_ofList_cases` shows that the union never reads part of a text.
-/

namespace Freelan

/-- `ipv4_network_address`. -/
abbrev Ipv4NetworkAddress := BaseIpNetworkAddress addressV4

/-- `ipv6_network_address`. -/
abbrev Ipv6NetworkAddress := BaseIpNetworkAddress addressV6

/-- `ip_network_address`: `boost::variant<ipv4_network_address, ipv6_network_address>`. -/
inductive IpNetworkAddress where
  | v4 (ina : Ipv4NetworkAddress)
  | v6 (ina : Ipv6NetworkAddress)
deriving DecidableEq

namespace IpNetworkAddress

/-- `operator<<(std::ostream&, const ip_network_address&)`: `ip_network_address_output_visitor`
writes the active value. -/
def insert (os : List Char) : IpNetworkAddress → List Char
  | v4 ina => ina.insert os
  | v6 ina => ina.insert os

/-- One block of the union's `operator>>`,
`if (is) { X ina; if (is >> ina) { value = ina; return is; } is.clear(); }`: `.inl` is the
`return`, `.inr` the stream the code after the block sees. -/
def tryExtract (F : Family) (wrap : BaseIpNetworkAddress F → IpNetworkAddress) (is : IStream) :
    Except Exception ((IStream × IpNetworkAddress) ⊕ IStream) :=
  if is.fail then pure (.inr is)
  else do
    let r ← BaseIpNetworkAddress.extract F is BaseIpNetworkAddress.null
    pure (if r.1.fail then .inr r.1.clear else .inl (r.1, wrap r.2))

/-- `operator>>(std::istream&, ip_network_address&)`: IPv6 first, then IPv4. -/
def extract (is : IStream) (value : IpNetworkAddress) :
    Except Exception (IStream × IpNetworkAddress) := do
  match ← tryExtract addressV6 v6 is with
  | .inl r => pure r
  | .inr is =>
    match ← tryExtract addressV4 v4 is with
    | .inl r => pure r
    | .inr is => pure (is, value)

/-- `ip_network_address_has_address_visitor`: the probe's family is checked before `to_v4()` or
`to_v6()`, which throw on the other family. -/
def hasAddress (ina : IpNetworkAddress) (addr : Address) : Except Exception Bool :=
  match ina with
  | v4 ina => if addr.isV4 then (ina.hasAddress ·) <$> addr.toV4 else pure false
  | v6 ina => if addr.isV6 then (ina.hasAddress ·) <$> addr.toV6 else pure false

/-- Containment as the spec puts it: a network of the probe's family that contains it. -/
def contains : IpNetworkAddress → Address → Bool
  | v4 ina, .v4 a => ina.hasAddress a
  | v6 ina, .v6 a => ina.hasAddress a
  | _, _ => false

theorem hasAddress_eq_contains (ina : IpNetworkAddress) (addr : Address) :
    ina.hasAddress addr = .ok (ina.contains addr) := by
  cases ina <;> cases addr <;> rfl

/-! ## Reading -/

@[simp] theorem tryExtract_of_fail {F : Family} {wrap : BaseIpNetworkAddress F → IpNetworkAddress}
    {is : IStream} (h : is.fail = true) : tryExtract F wrap is = .ok (.inr is) := by
  simp [tryExtract, h]; rfl

theorem tryExtract_ok {F : Family} {wrap : BaseIpNetworkAddress F → IpNetworkAddress}
    {is is' : IStream} {ina : BaseIpNetworkAddress F} (h : is.fail = false)
    (he : BaseIpNetworkAddress.extract F is BaseIpNetworkAddress.null = .ok (is', ina)) :
    tryExtract F wrap is = .ok (if is'.fail then .inr is'.clear else .inl (is', wrap ina)) := by
  simp [tryExtract, h, he]

theorem tryExtract_eq_ok {F : Family} {wrap : BaseIpNetworkAddress F → IpNetworkAddress}
    {is : IStream} {res : (IStream × IpNetworkAddress) ⊕ IStream} (hf : is.fail = false)
    (h : tryExtract F wrap is = .ok res) :
    ∃ r, BaseIpNetworkAddress.extract F is BaseIpNetworkAddress.null = .ok r ∧
      res = if r.1.fail then .inr r.1.clear else .inl (r.1, wrap r.2) := by
  cases he : BaseIpNetworkAddress.extract F is BaseIpNetworkAddress.null with
  | error e => simp [tryExtract, hf, he] at h
  | ok r => exact ⟨r, rfl, Except.ok.inj ((tryExtract_ok hf he).symm.trans h).symm⟩

/-- Every printed value is read back, with its family, when an IPv6 address has scope id 0. -/
theorem extract_insert_union {u : IpNetworkAddress} (hu : ∀ ina, u = .v6 ina → ina.address.scopeId = 0)
    (value : IpNetworkAddress) :
    extract (IStream.ofList (u.insert [])) value = .ok (⟨[], true, false⟩, u) := by
  have hread {F : Family} {v : BaseIpNetworkAddress F} (hv : F.Rereads v.address) :
      BaseIpNetworkAddress.extract F (IStream.ofList (v.insert [])) BaseIpNetworkAddress.null =
        .ok (⟨[], true, false⟩, v) := by
    simpa using BaseIpNetworkAddress.extract_insert_append hv BaseIpNetworkAddress.null
      (show ∀ c ∈ ([] : List Char).head?, c.isDigit = false by simp)
  cases u with
  | v6 ina => simp [extract, insert, tryExtract_ok rfl (hread (addressV6_rereads (hu ina rfl)))]; rfl
  | v4 ina =>
    have hv6 : BaseIpNetworkAddress.extract addressV6 (IStream.ofList (ina.insert []))
        BaseIpNetworkAddress.null = .ok (⟨ina.insert [], false, true⟩, BaseIpNetworkAddress.null) := by
      have := BaseIpNetworkAddress.extract_of_fromString_none
        (isAddressV6Char_of_toString_v4 ina.address)
        (show ∀ c ∈ ('/' :: Nat.toDigits 10 ina.prefixLength.toNat).head?,
          addressV6.isAddressChar c = false by simpa using addressV6.isAddressChar_slash)
        (addressV6_fromString_toString_v4 ina.address) BaseIpNetworkAddress.null
      simpa [BaseIpNetworkAddress.insert] using this
    simp [extract, insert, tryExtract_ok rfl hv6, IStream.clear]
    rw [show (⟨ina.insert [], false, false⟩ : IStream) = IStream.ofList (ina.insert []) from rfl,
      tryExtract_ok rfl (hread (addressV4_rereads ina.address))]
    rfl

theorem tryExtract_fail {F : Family} {wrap : BaseIpNetworkAddress F → IpNetworkAddress}
    {is : IStream} {r : (IStream × IpNetworkAddress) ⊕ IStream} (h : tryExtract F wrap is = .ok r) :
    Sum.elim (fun p => p.1.fail) IStream.fail r = is.fail := by
  unfold tryExtract at h
  split at h
  · cases h; rfl
  · rename_i hf
    cases he : BaseIpNetworkAddress.extract F is BaseIpNetworkAddress.null with
    | error e => simp [he] at h
    | ok p =>
      simp only [he, ok_bind] at h
      split at h <;> cases h <;> simp_all

/-- The union's `operator>>` hands back failbit as it found it: a failed parse is never
reported through the stream. -/
theorem extract_fail_eq {is is' : IStream} {value v : IpNetworkAddress}
    (h : extract is value = .ok (is', v)) : is'.fail = is.fail := by
  unfold extract at h
  cases h6 : tryExtract addressV6 v6 is with
  | error e => simp [h6] at h
  | ok r6 =>
    have f6 := tryExtract_fail h6
    simp only [h6, ok_bind] at h
    cases r6 with
    | inl p => cases h; exact f6
    | inr is1 =>
      cases h4 : tryExtract addressV4 v4 is1 with
      | error e => simp [h4] at h
      | ok r4 =>
        have f4 := tryExtract_fail h4
        simp only [h4, ok_bind] at h
        cases r4 <;> cases h <;> simp_all

/-- The text `10.0.0.0/8`, read to its end: the stream changes, failbit stays clear. -/
theorem extract_fail_eq_ten :
    extract (IStream.ofList "10.0.0.0/8".toList) (.v6 BaseIpNetworkAddress.null) =
        .ok (⟨[], true, false⟩, .v4 ⟨⟨[10, 0, 0, 0], rfl⟩, 8⟩) ∧
      (⟨[], true, false⟩ : IStream).fail = (IStream.ofList "10.0.0.0/8".toList).fail :=
  have h : extract (IStream.ofList "10.0.0.0/8".toList) (.v6 BaseIpNetworkAddress.null) =
      .ok (⟨[], true, false⟩, .v4 ⟨⟨[10, 0, 0, 0], rfl⟩, 8⟩) := rfl
  ⟨h, extract_fail_eq h⟩

/-- On a text neither family reads, the union's `operator>>` returns with failbit clear and the
value unchanged; on a stream with eofbit set and failbit clear it throws. -/
theorem extract_failure_unreported (value : IpNetworkAddress) :
    extract (IStream.ofList ['x']) value = .ok (IStream.ofList ['x'], value) ∧
      ∃ e, extract ⟨[], true, false⟩ value = .error e := by
  constructor
  · have h6 := BaseIpNetworkAddress.extract_of_fromString_none
      (show ∀ c ∈ ([] : List Char), addressV6.isAddressChar c = true by simp)
      (show ∀ c ∈ ['x'].head?, addressV6.isAddressChar c = false by decide) rfl
      BaseIpNetworkAddress.null
    have h4 := BaseIpNetworkAddress.extract_of_fromString_none
      (show ∀ c ∈ ([] : List Char), addressV4.isAddressChar c = true by simp)
      (show ∀ c ∈ ['x'].head?, addressV4.isAddressChar c = false by decide) rfl
      BaseIpNetworkAddress.null
    simp only [List.nil_append] at h6 h4
    simp [extract, tryExtract_ok rfl h6, IStream.clear]
    rw [show (⟨['x'], false, false⟩ : IStream) = IStream.ofList ['x'] from rfl,
      tryExtract_ok rfl h4]
    rfl
  · obtain ⟨e, he⟩ := BaseIpNetworkAddress.extract_eof_of_fromString_nil (F := addressV6) rfl []
      BaseIpNetworkAddress.null
    exact ⟨e, by simp [extract, tryExtract, he]⟩

theorem extract_of_v4_run {run t : List Char} (hv4 : ∀ c ∈ run, isAddressV4Char c = true)
    {is' : IStream} {ina : Ipv4NetworkAddress}
    (h : BaseIpNetworkAddress.extract addressV4 (IStream.ofList (run ++ '/' :: t))
      BaseIpNetworkAddress.null = .ok (is', ina)) (hf : is'.fail = false) (value : IpNetworkAddress) :
    extract (IStream.ofList (run ++ '/' :: t)) value = .ok (is', .v4 ina) := by
  have h6 := BaseIpNetworkAddress.extract_of_fromString_none
    (fun c hc => isAddressV6Char_of_isAddressV4Char (hv4 c hc))
    (show ∀ c ∈ ('/' :: t).head?, addressV6.isAddressChar c = false by
      simpa using addressV6.isAddressChar_slash)
    (addressV6_fromString_of_isAddressV4Char hv4) BaseIpNetworkAddress.null
  simp [extract, tryExtract_ok rfl h6, IStream.clear]
  rw [show (⟨run ++ '/' :: t, false, false⟩ : IStream) = IStream.ofList (run ++ '/' :: t) from rfl,
    tryExtract_ok rfl h, hf]
  rfl

/-- Whenever the IPv4 `operator>>` reads a network address from a fresh stream, the union's
`operator>>` reads the same one: the IPv6 attempt, tried first, stops at the same `/` and turns
down the digits and dots before it without reading them. -/
theorem extract_of_extract_v4 {s : List Char} {is' : IStream} {ina : Ipv4NetworkAddress}
    (h : BaseIpNetworkAddress.extract addressV4 (IStream.ofList s) BaseIpNetworkAddress.null =
      .ok (is', ina)) (hf : is'.fail = false) (value : IpNetworkAddress) :
    extract (IStream.ofList s) value = .ok (is', .v4 ina) := by
  rcases readIpAddressPrefixLength_spec (F := addressV4) [] [] (IStream.good_ofList s) with
    ⟨-, -, -, -, -, hrest, hrun⟩ | ⟨hf4, -⟩
  · have hv4 : ∀ c ∈ (readIpAddressPrefixLength addressV4 (IStream.ofList s) [] []).2.1,
        isAddressV4Char c = true := fun c hc => List.mem_takeWhile_imp (hrun ▸ hc)
    rw [show s = _ from hrest] at h ⊢
    exact extract_of_v4_run hv4 h hf value
  · simp [BaseIpNetworkAddress.extract, hf4] at h
    rw [← h.1, hf4] at hf
    cases hf

theorem extract_of_extract_v4_ten :
    BaseIpNetworkAddress.extract addressV4 (IStream.ofList "10.0.0.0/8".toList)
        BaseIpNetworkAddress.null = .ok (⟨[], true, false⟩, ⟨⟨[10, 0, 0, 0], rfl⟩, 8⟩) ∧
      (⟨[], true, false⟩ : IStream).fail = false ∧
      extract (IStream.ofList "10.0.0.0/8".toList) (.v6 BaseIpNetworkAddress.null) =
        .ok (⟨[], true, false⟩, .v4 ⟨⟨[10, 0, 0, 0], rfl⟩, 8⟩) :=
  ⟨rfl, rfl, extract_of_extract_v4 (s := "10.0.0.0/8".toList) rfl rfl _⟩

theorem tryExtract_ofList {F : Family} {wrap : BaseIpNetworkAddress F → IpNetworkAddress}
    {s : List Char} {res : (IStream × IpNetworkAddress) ⊕ IStream}
    (h : tryExtract F wrap (IStream.ofList s) = .ok res) :
    res = .inr (IStream.ofList s) ∨
      ∃ is' ip ds a, res = .inl (is', wrap ⟨a, (decimalNumber 0 ds).toUInt32⟩) ∧
        is'.fail = false ∧ s = ip ++ '/' :: (ds ++ is'.rest) ∧ F.fromString ip = some a ∧
        ds ≠ [] ∧ (∀ c ∈ ds, c.isDigit = true) ∧ decimalNumber 0 ds < 2 ^ 32 := by
  obtain ⟨⟨is', v⟩, he, rfl⟩ := tryExtract_eq_ok rfl h
  rcases BaseIpNetworkAddress.extract_ofList_ok he with
    ⟨hf, hrest, -⟩ | ⟨hf, ip, ds, a, hs, -, ha, hne, hd, hv, rfl⟩
  · left
    simp only [hf, if_true, Sum.inr.injEq]
    exact congrArg (fun r => IStream.mk r false false) hrest
  · exact .inr ⟨is', ip, ds, a, by simp [hf], hf, hs, ha, hne, hd, hv⟩

/-- The union's `operator>>` on a fresh stream never reads part of a text: when it does not
throw, it reads a whole network address of one family, IPv6 tried first, from an address
`from_string` accepts, `/` and digits; or it reads nothing, leaving the stream exactly as it
was, failbit clear, and the value unchanged. -/
theorem extract_ofList_cases {s : List Char} {value v : IpNetworkAddress} {is' : IStream}
    (h : extract (IStream.ofList s) value = .ok (is', v)) :
    (is' = IStream.ofList s ∧ v = value) ∨
      (is'.fail = false ∧ ∃ ip ds, s = ip ++ '/' :: (ds ++ is'.rest) ∧ ds ≠ [] ∧
        (∀ c ∈ ds, c.isDigit = true) ∧ decimalNumber 0 ds < 2 ^ 32 ∧
        ((∃ a, addressV6.fromString ip = some a ∧ v = .v6 ⟨a, (decimalNumber 0 ds).toUInt32⟩) ∨
          (∃ a, addressV4.fromString ip = some a ∧ v = .v4 ⟨a, (decimalNumber 0 ds).toUInt32⟩))) := by
  unfold extract at h
  cases h6 : tryExtract addressV6 v6 (IStream.ofList s) with
  | error e => simp [h6] at h
  | ok r6 =>
    simp only [h6, ok_bind] at h
    rcases tryExtract_ofList h6 with rfl | ⟨is6, ip, ds, a, rfl, hf, hs, ha, hne, hd, hv⟩
    · cases h4 : tryExtract addressV4 v4 (IStream.ofList s) with
      | error e => simp [h4] at h
      | ok r4 =>
        simp only [h4, ok_bind] at h
        rcases tryExtract_ofList h4 with rfl | ⟨is4, ip, ds, a, rfl, hf, hs, ha, hne, hd, hv⟩
        · have h' : (Except.ok (IStream.ofList s, value) : Except Exception _) = .ok (is', v) := h
          exact .inl (Prod.mk.inj (Except.ok.inj h').symm)
        · obtain ⟨rfl, rfl⟩ := Prod.mk.inj (Except.ok.inj h)
          exact .inr ⟨hf, ip, ds, hs, hne, hd, hv, .inr ⟨a, ha, rfl⟩⟩
    · obtain ⟨rfl, rfl⟩ := Prod.mk.inj (Except.ok.inj h)
      exact .inr ⟨hf, ip, ds, hs, hne, hd, hv, .inl ⟨a, ha, rfl⟩⟩

/-- The text `10.0.0.0/8`, read into an IPv6 value. -/
theorem extract_ofList_cases_ten :
    extract (IStream.ofList "10.0.0.0/8".toList) (.v6 BaseIpNetworkAddress.null) =
        .ok (⟨[], true, false⟩, .v4 ⟨⟨[10, 0, 0, 0], rfl⟩, 8⟩) ∧
      (((⟨[], true, false⟩ : IStream) = IStream.ofList "10.0.0.0/8".toList ∧
          IpNetworkAddress.v4 ⟨⟨[10, 0, 0, 0], rfl⟩, 8⟩ = .v6 BaseIpNetworkAddress.null) ∨
        ((⟨[], true, false⟩ : IStream).fail = false ∧ ∃ ip ds,
          "10.0.0.0/8".toList = ip ++ '/' :: (ds ++ (⟨[], true, false⟩ : IStream).rest) ∧ ds ≠ [] ∧
          (∀ c ∈ ds, c.isDigit = true) ∧ decimalNumber 0 ds < 2 ^ 32 ∧
          ((∃ a, addressV6.fromString ip = some a ∧
              IpNetworkAddress.v4 ⟨⟨[10, 0, 0, 0], rfl⟩, 8⟩ = .v6 ⟨a, (decimalNumber 0 ds).toUInt32⟩) ∨
            (∃ a, addressV4.fromString ip = some a ∧
              IpNetworkAddress.v4 ⟨⟨[10, 0, 0, 0], rfl⟩, 8⟩ = .v4 ⟨a, (decimalNumber 0 ds).toUInt32⟩)))) :=
  have h : extract (IStream.ofList "10.0.0.0/8".toList) (.v6 BaseIpNetworkAddress.null) =
      .ok (⟨[], true, false⟩, .v4 ⟨⟨[10, 0, 0, 0], rfl⟩, 8⟩) := rfl
  have hcases := extract_ofList_cases h
  ⟨h, hcases⟩

theorem extract_of_extract_v6 {is is' : IStream} {ina : Ipv6NetworkAddress} (hf0 : is.fail = false)
    (h : BaseIpNetworkAddress.extract addressV6 is BaseIpNetworkAddress.null = .ok (is', ina))
    (hf : is'.fail = false) (value : IpNetworkAddress) : extract is value = .ok (is', .v6 ina) := by
  simp [extract, tryExtract_ok hf0 h, hf]
  rfl

/-- Every text glibc's `inet_pton` accepts, of either family and whether or not `to_string`
prints the address so (leading zeros in a word, `::` anywhere, an embedded IPv4 address),
followed by `/`, a prefix length that fits in `unsigned int` and anything but a digit, is read by
the union's `operator>>` with its family: `read_ip_address` takes the whole address, since
`inet_pton` accepts only address characters. -/
theorem extract_of_inetPton {addr ds rest : List Char} (hne : ds ≠ [])
    (hd : ∀ c ∈ ds, c.isDigit = true) (hs : ∀ c ∈ rest.head?, c.isDigit = false)
    (hv : decimalNumber 0 ds < 2 ^ 32) (value : IpNetworkAddress) :
    (∀ a, inetPton4 addr = some a → extract (IStream.ofList (addr ++ '/' :: (ds ++ rest))) value =
        .ok (⟨rest, rest.isEmpty, false⟩, .v4 ⟨a, (decimalNumber 0 ds).toUInt32⟩)) ∧
      (∀ a, inetPton6 addr = some a → extract (IStream.ofList (addr ++ '/' :: (ds ++ rest))) value =
        .ok (⟨rest, rest.isEmpty, false⟩, .v6 ⟨⟨a, 0⟩, (decimalNumber 0 ds).toUInt32⟩)) := by
  constructor
  · intro a ha
    have hp := isAddressV4Char_of_inetPton4 ha
    have h4 : addressV4.fromString addr = some a := by
      show inetPton4 (cString addr) = some a
      rw [cString_of_forall fun c hc h0 => by subst h0; exact absurd (hp _ hc) (by decide), ha]
    exact extract_of_v4_run hp (BaseIpNetworkAddress.extract_text hp h4 hne hd hs hv _) rfl value
  · intro a ha
    have hp := isAddressV6Char_of_inetPton6 ha
    have h6 : addressV6.fromString addr = some ⟨a, 0⟩ := by
      rw [addressV6_fromString, addressV6FromString_of_isAddressV6Char hp, ha]; rfl
    exact extract_of_extract_v6 rfl (BaseIpNetworkAddress.extract_text hp h6 hne hd hs hv _) rfl value

/-- `0::1/64`, which `to_string` prints as `::1/64`. -/
theorem extract_of_inetPton_zero_one :
    ['6', '4'] ≠ [] ∧ (∀ c ∈ ['6', '4'], c.isDigit = true) ∧
      (∀ c ∈ ([] : List Char).head?, c.isDigit = false) ∧ decimalNumber 0 ['6', '4'] < 2 ^ 32 ∧
      inetPton6 "0::1".toList = some ⟨[0, 0, 0, 0, 0, 0, 0, 0, 0, 0, 0, 0, 0, 0, 0, 1], rfl⟩ ∧
      extract (IStream.ofList ("0::1".toList ++ '/' :: (['6', '4'] ++ []))) (.v4 BaseIpNetworkAddress.null) =
        .ok (⟨[], true, false⟩, .v6 ⟨⟨⟨[0, 0, 0, 0, 0, 0, 0, 0, 0, 0, 0, 0, 0, 0, 0, 1], rfl⟩, 0⟩, 64⟩) :=
  have h6 : inetPton6 "0::1".toList = some ⟨[0, 0, 0, 0, 0, 0, 0, 0, 0, 0, 0, 0, 0, 0, 0, 1], rfl⟩ := rfl
  ⟨by decide, by decide, by decide, by decide, h6,
    (extract_of_inetPton (by decide) (by decide) (by decide) (by decide) _).2 _ h6⟩

end IpNetworkAddress

/-! ## Looking for an address in a list -/

/-- `has_address(NetworkAddressIterator, NetworkAddressIterator, const AddressType&)` over the
elements from `begin` to `end`, with the `has_address` overload the element type selects. -/
def hasAddressRange {N A : Type} (hasAddress : N → A → Except Exception Bool) :
    List N → A → Except Exception Bool
  | [], _ => pure false
  | ina :: L, addr => do
    if ← hasAddress ina addr then pure true else hasAddressRange hasAddress L addr

theorem hasAddressRange_of_ok {N A : Type} {f : N → A → Except Exception Bool} {g : N → A → Bool}
    (hf : ∀ n a, f n a = .ok (g n a)) (L : List N) (a : A) :
    hasAddressRange f L a = .ok (L.any (g · a)) := by
  induction L with
  | nil => rfl
  | cons n L ih =>
    simp only [hasAddressRange, hf, ok_bind, List.any_cons]
    cases g n a
    · exact ih
    · rfl

theorem any_perm {N : Type} {p : N → Bool} {L L' : List N} (h : L.Perm L') : L.any p = L'.any p :=
  Bool.eq_iff_iff.2 (by simp only [List.any_eq_true, h.mem_iff])

/-- `has_address` over a list of unions or of one family's network addresses never throws, is
true exactly when an element of the probe's family contains the probe, and so does not depend on
the order of the list. -/
theorem hasAddressRange_any {F : Family} (L L' : List IpNetworkAddress)
    (M M' : List (BaseIpNetworkAddress F)) (addr : Address) (a : F.Addr) :
    hasAddressRange IpNetworkAddress.hasAddress L addr = .ok (L.any (·.contains addr)) ∧
      hasAddressRange (fun n a => pure (n.hasAddress a)) M a = .ok (M.any (·.hasAddress a)) ∧
      (L.Perm L' → hasAddressRange IpNetworkAddress.hasAddress L addr =
        hasAddressRange IpNetworkAddress.hasAddress L' addr) ∧
      (M.Perm M' → hasAddressRange (fun n a => pure (n.hasAddress a)) M a =
        hasAddressRange (fun n a => pure (n.hasAddress a)) M' a) := by
  have hL := hasAddressRange_of_ok IpNetworkAddress.hasAddress_eq_contains
  have hM := hasAddressRange_of_ok (f := fun (n : BaseIpNetworkAddress F) a => pure (n.hasAddress a))
    (fun _ _ => rfl)
  refine ⟨hL L addr, hM M a, fun h => ?_, fun h => ?_⟩
  · rw [hL, hL, any_perm h]
  · rw [hM, hM, any_perm h]

/-- An IPv4 and an IPv6 network in both orders, probed with an IPv6 address; two IPv4 networks
in both orders, probed with an IPv4 address. -/
theorem hasAddressRange_any_swap :
    hasAddressRange IpNetworkAddress.hasAddress
        [.v4 BaseIpNetworkAddress.null, .v6 BaseIpNetworkAddress.null] (.v6 ⟨Bytes.zero 16, 0⟩) =
      hasAddressRange IpNetworkAddress.hasAddress
        [.v6 BaseIpNetworkAddress.null, .v4 BaseIpNetworkAddress.null] (.v6 ⟨Bytes.zero 16, 0⟩) ∧
    hasAddressRange (fun (n : Ipv4NetworkAddress) a => pure (n.hasAddress a))
        [⟨Bytes.zero 4, 8⟩, ⟨Bytes.zero 4, 16⟩] (Bytes.zero 4) =
      hasAddressRange (fun (n : Ipv4NetworkAddress) a => pure (n.hasAddress a))
        [⟨Bytes.zero 4, 16⟩, ⟨Bytes.zero 4, 8⟩] (Bytes.zero 4) :=
  let h := hasAddressRange_any [.v4 BaseIpNetworkAddress.null, .v6 BaseIpNetworkAddress.null]
    [.v6 BaseIpNetworkAddress.null, .v4 BaseIpNetworkAddress.null]
    [(⟨Bytes.zero 4, 8⟩ : Ipv4NetworkAddress), ⟨Bytes.zero 4, 16⟩]
    [⟨Bytes.zero 4, 16⟩, ⟨Bytes.zero 4, 8⟩] (.v6 ⟨Bytes.zero 16, 0⟩) (Bytes.zero 4)
  ⟨h.2.2.1 (List.Perm.swap _ _ []), h.2.2.2 (List.Perm.swap _ _ [])⟩

/-- `operator>>` reads back what `operator<<` wrote: every IPv4 network address, every IPv6
network address whose address has scope id 0, and every union value of those, with the family
of the value written. -/
theorem extract_insert (v4 v4' : Ipv4NetworkAddress) (v6 v6' : Ipv6NetworkAddress)
    (h6 : v6.address.scopeId = 0) (u u' : IpNetworkAddress)
    (hu : ∀ ina, u = .v6 ina → ina.address.scopeId = 0) :
    BaseIpNetworkAddress.extract addressV4 (IStream.ofList (v4.insert [])) v4' =
        .ok (⟨[], true, false⟩, v4) ∧
      BaseIpNetworkAddress.extract addressV6 (IStream.ofList (v6.insert [])) v6' =
        .ok (⟨[], true, false⟩, v6) ∧
      IpNetworkAddress.extract (IStream.ofList (u.insert [])) u' = .ok (⟨[], true, false⟩, u) := by
  have hnil : ∀ c ∈ ([] : List Char).head?, c.isDigit = false := by simp
  refine ⟨?_, ?_, IpNetworkAddress.extract_insert_union hu u'⟩
  · simpa using BaseIpNetworkAddress.extract_insert_append (addressV4_rereads v4.address) v4' hnil
  · simpa using BaseIpNetworkAddress.extract_insert_append (addressV6_rereads h6) v6' hnil

/-- The null values `0.0.0.0/0` and `::/0`, and the union value of `::/0`. -/
theorem extract_insert_null :
    (BaseIpNetworkAddress.null : Ipv6NetworkAddress).address.scopeId = 0 ∧
      (∀ ina, IpNetworkAddress.v6 BaseIpNetworkAddress.null = .v6 ina → ina.address.scopeId = 0) ∧
      BaseIpNetworkAddress.extract addressV4
          (IStream.ofList ((BaseIpNetworkAddress.null : Ipv4NetworkAddress).insert []))
          BaseIpNetworkAddress.null = .ok (⟨[], true, false⟩, BaseIpNetworkAddress.null) ∧
      BaseIpNetworkAddress.extract addressV6
          (IStream.ofList ((BaseIpNetworkAddress.null : Ipv6NetworkAddress).insert []))
          BaseIpNetworkAddress.null = .ok (⟨[], true, false⟩, BaseIpNetworkAddress.null) ∧
      IpNetworkAddress.extract
          (IStream.ofList ((IpNetworkAddress.v6 BaseIpNetworkAddress.null).insert []))
          (.v4 BaseIpNetworkAddress.null) =
        .ok (⟨[], true, false⟩, .v6 BaseIpNetworkAddress.null) :=
  have hu : ∀ ina, IpNetworkAddress.v6 BaseIpNetworkAddress.null = .v6 ina →
      ina.address.scopeId = 0 := fun _ h => by cases h; rfl
  ⟨rfl, hu, extract_insert BaseIpNetworkAddress.null _ BaseIpNetworkAddress.null _ rfl _ _ hu⟩

/-- An IPv6 network address whose address has a nonzero scope id is not read back:
`2001:db8::1` with scope id 3 and prefix length 64 is written `2001:db8::1%3/64`; the family's
`operator>>` stops at `%`, sets failbit and keeps the old value, and the union's hands the whole
text back unread with the old value. -/
theorem extract_insert_scope :
    (⟨⟨⟨[32, 1, 13, 184, 0, 0, 0, 0, 0, 0, 0, 0, 0, 0, 0, 1], rfl⟩, 3⟩, 64⟩ :
        Ipv6NetworkAddress).insert [] = "2001:db8::1%3/64".toList ∧
      BaseIpNetworkAddress.extract addressV6 (IStream.ofList "2001:db8::1%3/64".toList)
          BaseIpNetworkAddress.null =
        .ok (⟨"2001:db8::1%3/64".toList, false, true⟩, BaseIpNetworkAddress.null) ∧
      IpNetworkAddress.extract (IStream.ofList "2001:db8::1%3/64".toList)
          (.v4 BaseIpNetworkAddress.null) =
        .ok (IStream.ofList "2001:db8::1%3/64".toList, .v4 BaseIpNetworkAddress.null) :=
  ⟨rfl, rfl, rfl⟩

end Freelan
