import Freelan.InetV6RoundTrip
import Freelan.Decimal

/-! # The two families

`address_v4` and `address_v6` as the `AddressType` of `base_ip_network_address`: `to_string` is
`inet_ntop`, `from_string` hands `str.c_str()` to `inet_pton`, and the address characters are
those `read_ip_address<AddressType>` reads. An `address_v6` with a nonzero scope id prints it
after `%`, which is no address character: `addressV4_rereads` and `addressV6_rereads` read back
every IPv4 address and every IPv6 address of scope id 0 from its text.
The union parse tries IPv6 first, so `addressV6_fromString_of_isAddressV4Char` records that the
IPv6 parser turns down every run of IPv4 address characters, although they are IPv6 address
characters too; no text is an address of both families (`fromString_v4_or_v6_eq_none`).
-/

namespace Freelan

theorem isXDigit_of_isDigit {c : Char} (h : c.isDigit = true) : isXDigit c = true := by
  simp only [Char.isDigit, Bool.and_eq_true, decide_eq_true_eq] at h
  have h1 : 48 ≤ c.toNat := h.1
  have h2 : c.toNat ≤ 57 := h.2
  simp [isXDigit, hexDigitValue, h1, h2]

theorem isXDigit_of_mem_toDigits {w : Nat} {c : Char} (h : c ∈ Nat.toDigits 16 w) :
    isXDigit c = true := by
  obtain ⟨d, hd, rfl⟩ := mem_toDigits (by decide) h
  simp [isXDigit, (digitChar_lt_sixteen d hd).1]

theorem mem_groups {ws : List Nat} {c : Char} (h : c ∈ groups ws) : isXDigit c = true ∨ c = ':' := by
  simp only [groups, List.mem_flatMap, List.mem_cons] at h
  obtain ⟨w, -, rfl | h⟩ := h
  exacts [.inr rfl, .inl (isXDigit_of_mem_toDigits h)]

theorem mem_joinColon {ws : List Nat} {c : Char} (h : c ∈ joinColon ws) :
    isXDigit c = true ∨ c = ':' := by
  cases ws with
  | nil => simp [joinColon] at h
  | cons w ws =>
    rw [joinColon, List.mem_append] at h
    exact h.elim (.inl ∘ isXDigit_of_mem_toDigits) mem_groups

theorem ne_nul_of_mem_inetNtop4 {l : List UInt8} {c : Char} (h : c ∈ inetNtop4 l) : c ≠ '\x00' := by
  rcases mem_inetNtop4 h with h | rfl
  · rintro rfl; simp at h
  · decide

/-- Modelled from the spec: the characters `read_ip_address<address_v4>` reads (the function is
declared in `stream_operations.hpp`; its definition is not part of the source): the digits and
dots of the dotted-decimal form. -/
def isAddressV4Char (c : Char) : Bool := c.isDigit || c = '.'

/-- Modelled from the spec: the characters `read_ip_address<address_v6>` reads: hexadecimal
digits, colons, and the dots of an embedded IPv4 address. -/
def isAddressV6Char (c : Char) : Bool := isXDigit c || c = ':' || c = '.'

theorem isAddressV6Char_of_mem_inetNtop6 {src : List UInt8} {c : Char} (h : c ∈ inetNtop6 src) :
    isAddressV6Char c = true := by
  have hv4 : c ∈ inetNtop4 (src.drop 12) → isAddressV6Char c = true := fun h4 => by
    rcases mem_inetNtop4 h4 with h4 | h4 <;> simp [isAddressV6Char, isXDigit_of_isDigit, h4]
  have hv6 : isXDigit c = true ∨ c = ':' → isAddressV6Char c = true := by
    rintro (h6 | h6) <;> simp [isAddressV6Char, h6]
  cases hbest : ntop6Best (ntop6Words src) with
  | none => exact hv6 (mem_joinColon (inetNtop6_of_none hbest ▸ h))
  | some r =>
    cases henc : ntop6Encapsulated (ntop6Words src) (some r) with
    | false =>
      rw [inetNtop6_of_some hbest henc] at h
      simp only [List.mem_append, List.mem_cons] at h
      rcases h with h | h | h | h
      · exact hv6 (mem_joinColon h)
      · exact hv6 (.inr h)
      · exact hv6 (mem_groups h)
      · split at h <;> simp at h
        exact hv6 (.inr h)
    | true =>
      obtain ⟨r', -, -, h56⟩ := inetNtop6_of_encapsulated (by rw [hbest]; exact henc)
      rcases h56 with ⟨-, ht⟩ | ⟨-, -, ht⟩ <;>
        simp only [ht, List.mem_cons, List.mem_append] at h
      · rcases h with h | h | h
        exacts [hv6 (.inr h), hv6 (.inr h), hv4 h]
      · rcases h with h | h | h | h | h
        exacts [hv6 (.inr h), hv6 (.inr h), hv6 (.inl (isXDigit_of_mem_toDigits h)),
          hv6 (.inr h), hv4 h]

/-- `address_v4`: `to_string` is `inet_ntop4`, `from_string` is `inet_pton4` on the C string. -/
def addressV4 : Family where
  Addr := AddressV4
  width := 4
  toBytes a := a
  any := Bytes.zero 4
  toString a := inetNtop4 a.toList
  fromString s := inetPton4 (cString s)
  isAddressChar := isAddressV4Char
  isAddressChar_slash := rfl

theorem addressV4_rereads (a : AddressV4) : addressV4.Rereads a where
  fromString_toString := by
    show inetPton4 (cString (inetNtop4 a.toList)) = some a
    rw [cString_of_forall fun _ => ne_nul_of_mem_inetNtop4]
    exact inetPton4_inetNtop4 a
  isAddressChar_toString c hc := by
    rcases mem_inetNtop4 hc with h | h <;> simp [addressV4, isAddressV4Char, h]

/-- `max_addr_v6_str_len`, the longest address text boost copies out of a text with a scope
id. -/
def maxAddrV6StrLen : Nat := 256

/-- `address_v6::to_string()`: `inet_ntop6` on the bytes, then, for a nonzero scope id, `%` and
the scope id as `sprintf ("%lu")` writes it. For a link-local address boost first asks
`if_indextoname` for an interface name; the host modelled has none. -/
def addressV6ToString (a : AddressV6) : List Char :=
  inetNtop6 a.bytes.toList ++ if a.scopeId = 0 then [] else '%' :: Nat.toDigits 10 a.scopeId.toNat

/-- `address_v6::from_string()`: boost's `inet_pton` on the C string. The text before the first
`%` goes to `inet_pton6`, and is refused when longer than `max_addr_v6_str_len`; the scope id
is 0 without `%`, and otherwise what `atoi` reads after it, as an `unsigned long`. For a
link-local address boost first asks `if_nametoindex`, which finds no interface on the host
modelled. -/
def addressV6FromString (str : List Char) : Option AddressV6 :=
  let src := cString str
  if '%' ∈ src then
    let addr := src.takeWhile (· ≠ '%')
    if addr.length > maxAddrV6StrLen then none
    else (inetPton6 addr).map fun b =>
      ⟨b, (atoi (src.dropWhile (· ≠ '%')).tail % 2 ^ 64).toNat.toUInt64⟩
  else (inetPton6 src).map fun b => ⟨b, 0⟩

/-- `address_v6`: its `to_bytes()` leaves out the scope id. -/
def addressV6 : Family where
  Addr := AddressV6
  width := 16
  toBytes a := a.bytes
  any := ⟨Bytes.zero 16, 0⟩
  toString := addressV6ToString
  fromString := addressV6FromString
  isAddressChar := isAddressV6Char
  isAddressChar_slash := rfl

@[simp] theorem addressV6_toString : addressV6.toString = addressV6ToString := rfl

@[simp] theorem addressV6_fromString : addressV6.fromString = addressV6FromString := rfl

theorem addressV6FromString_of_not_mem {s : List Char} (h : '%' ∉ cString s) :
    addressV6FromString s = (inetPton6 (cString s)).map fun b => ⟨b, 0⟩ := by
  simp [addressV6FromString, h]

theorem addressV6FromString_eq_none {s : List Char} (h : ':' ∉ cString s) :
    addressV6FromString s = none := by
  dsimp only [addressV6FromString]
  split_ifs
  · rfl
  · rw [inetPton6_eq_none_of_colon_not_mem fun hc => h ((List.takeWhile_sublist _).subset hc)]; rfl
  · rw [inetPton6_eq_none_of_colon_not_mem h]; rfl

theorem addressV6FromString_of_isAddressV6Char {s : List Char}
    (h : ∀ c ∈ s, isAddressV6Char c = true) :
    addressV6FromString s = (inetPton6 s).map fun b => ⟨b, 0⟩ := by
  have hc : cString s = s := cString_of_forall fun c hc h0 => by
    subst h0; exact absurd (h _ hc) (by decide)
  have hnp : '%' ∉ cString s := by rw [hc]; exact fun hp => absurd (h _ hp) (by decide)
  rw [addressV6FromString_of_not_mem hnp, hc]

theorem addressV6_rereads {a : AddressV6} (h : a.scopeId = 0) : addressV6.Rereads a := by
  have htext : addressV6ToString a = inetNtop6 a.bytes.toList := by simp [addressV6ToString, h]
  have hchars : ∀ c ∈ addressV6ToString a, isAddressV6Char c = true := fun c hc =>
    isAddressV6Char_of_mem_inetNtop6 (htext ▸ hc)
  constructor
  · rw [addressV6_fromString, addressV6_toString, addressV6FromString_of_isAddressV6Char hchars,
      htext, inetPton6_inetNtop6]
    cases a; cases h; rfl
  · rw [addressV6_toString]; exact hchars

theorem isAddressV6Char_of_isAddressV4Char {c : Char} (h : isAddressV4Char c = true) :
    isAddressV6Char c = true := by
  simp only [isAddressV4Char, Bool.or_eq_true, decide_eq_true_eq] at h
  rcases h with h | rfl <;> simp [isAddressV6Char, isXDigit_of_isDigit, *]

/-! ## What `inet_pton` accepts is made of address characters

So `read_ip_address` never stops inside a text `from_string` accepts: the run of address
characters it reads takes all of it. -/

theorem isAddressV4Char_of_inetPton4 {src : List Char} {a : AddressV4} (h : inetPton4 src = some a) :
    ∀ c ∈ src, isAddressV4Char c = true := fun c hc => by
  simpa [isAddressV4Char] using inetPton4_chars h c hc

theorem isAddressV6Char_of_inetPton6Loop : ∀ {src : List Char} {s s' : InetPton6State},
    inetPton6Loop src s = some s' → src <:+ s.curtok → ∀ c ∈ src, isAddressV6Char c = true
  | [], _, _, _, _ => fun _ h => absurd h (List.not_mem_nil _)
  | ch :: src, s, _, h, hsuf => by
    simp only [inetPton6Loop] at h
    split at h
    · next hd =>
      split_ifs at h
      refine List.forall_mem_cons.2 ⟨?_, isAddressV6Char_of_inetPton6Loop h
        ((List.suffix_cons ch src).trans hsuf)⟩
      simp [isAddressV6Char, isXDigit, hd]
    · by_cases hcolon : ch = ':'
      · rw [if_pos hcolon] at h
        have hc : isAddressV6Char ch = true := by simp [isAddressV6Char, hcolon]
        split_ifs at h
        all_goals
          exact List.forall_mem_cons.2 ⟨hc, isAddressV6Char_of_inetPton6Loop h (List.suffix_refl src)⟩
      · rw [if_neg hcolon] at h
        split_ifs at h
        split at h
        · next a ha =>
          intro c hc
          exact isAddressV6Char_of_isAddressV4Char (isAddressV4Char_of_inetPton4 ha c (hsuf.subset hc))
        · cases h

theorem isAddressV6Char_of_inetPton6 {src : List Char} {a : Bytes 16} (h : inetPton6 src = some a) :
    ∀ c ∈ src, isAddressV6Char c = true := by
  have hloop {t : List Char} (ht : (inetPton6Loop t ⟨[], none, t, 0, 0⟩).bind inetPton6Finish = some a) :
      ∀ c ∈ t, isAddressV6Char c = true :=
    isAddressV6Char_of_inetPton6Loop (Option.bind_eq_some.1 ht).choose_spec.1 (List.suffix_refl t)
  simp only [inetPton6, Option.bind_eq_bind] at h
  split at h
  · cases h
  · split at h
    · exact List.forall_mem_cons.2 ⟨rfl, hloop h⟩
    · cases h
  · exact hloop h

theorem addressV6_fromString_of_isAddressV4Char {s : List Char}
    (h : ∀ c ∈ s, isAddressV4Char c = true) : addressV6.fromString s = none :=
  addressV6FromString_eq_none fun hc => by
    simpa [isAddressV4Char] using h _ ((List.takeWhile_sublist _).subset hc)

theorem addressV6_fromString_toString_v4 (a : AddressV4) :
    addressV6.fromString (addressV4.toString a) = none :=
  addressV6_fromString_of_isAddressV4Char (addressV4_rereads a).isAddressChar_toString

/-- No text is an address of both families: `inet_pton4` refuses a colon, and `inet_pton6`
needs one. -/
theorem fromString_v4_or_v6_eq_none (s : List Char) :
    addressV4.fromString s = none ∨ addressV6.fromString s = none := by
  by_cases h : ':' ∈ cString s
  · exact .inl (inetPton4_eq_none_of_colon_mem h)
  · exact .inr (addressV6FromString_eq_none h)

theorem isAddressV6Char_of_toString_v4 (a : AddressV4) :
    ∀ c ∈ addressV4.toString a, addressV6.isAddressChar c = true := fun c hc =>
  isAddressV6Char_of_isAddressV4Char ((addressV4_rereads a).isAddressChar_toString c hc)

end Freelan
