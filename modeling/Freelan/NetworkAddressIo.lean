import Freelan.Stream
import Freelan.NetworkAddress
import Freelan.Families
import Freelan.Decimal

/-! # Reading and writing `base_ip_network_address`

`read_ip_address_prefix_length` reads an address, `/` and a prefix length, and on each failure
puts back what it read and sets failbit. `operator>>` then builds the value with `from_string`
and `boost::lexical_cast<unsigned int>`, which throw. `readIpAddressPrefixLength_spec` is what
the reader does to a good stream; `extract_insert_append` reads back what `operator<<` wrote,
for every family whose `from_string` undoes its `to_string`, and `extract_text` reads every
address text `from_string` accepts. For IPv4 the text is canonical the other way round too:
`extract_v4_eq_insert` finds what `operator<<` writes in every text the IPv4 `operator>>` reads.

The reader only runs on a good stream (`if (is.good())`), while `operator>>` only asks whether
failbit is set. On a stream with eofbit set and failbit clear the reader reads nothing and
`operator>>` goes on with two empty strings, which both conversions reject.
-/

namespace Freelan

/-- `read_ip_address_prefix_length<AddressType>`. -/
def readIpAddressPrefixLength (F : Family) (is : IStream) (ipAddress prefixLength : List Char) :
    IStream × List Char × List Char :=
  if is.good then
    let addr := readIpAddress F is ipAddress
    if addr.1.fail then (addr.1, addr.2, prefixLength)
    else
      let slash := addr.1.peekIs '/'
      if slash.1 then
        let len := readPrefixLength slash.2.ignore prefixLength
        if len.1.fail then ((putback len.1 (addr.2 ++ ['/'])).setFail, addr.2, len.2)
        else (len.1, addr.2, len.2)
      else ((putback slash.2 addr.2).setFail, addr.2, prefixLength)
  else (is, ipAddress, prefixLength)

section spec
variable {F : Family} {is : IStream}

/-- What `read_ip_address_prefix_length` does to a good stream: it reads an address that
`from_string` accepts, the longest run of address characters, then `/`, and the longest run of
digits after it, one digit or more; or it sets failbit and leaves every character unread. -/
theorem readIpAddressPrefixLength_spec (ip pl : List Char) (h : is.good = true) :
    let r := readIpAddressPrefixLength F is ip pl
    (r.1.fail = false ∧ (F.fromString r.2.1).isSome = true ∧ r.2.2 ≠ [] ∧
      (∀ c ∈ r.2.2, c.isDigit = true) ∧ (∀ c ∈ r.1.rest.head?, c.isDigit = false) ∧
      is.rest = r.2.1 ++ '/' :: (r.2.2 ++ r.1.rest) ∧ r.2.1 = is.rest.takeWhile F.isAddressChar) ∨
    (r.1.fail = true ∧ r.1.rest = is.rest) := by
  obtain ⟨hrun, ⟨hok, haddr⟩ | ⟨-, hfail, hrest⟩⟩ := readIpAddress_spec (F := F) (s := ip) h
  · have hf : (readIpAddress F is ip).1.fail = false := by rw [haddr]; exact (IStream.good_iff.1 h).2
    have hsplit : is.rest = (readIpAddress F is ip).2 ++ (readIpAddress F is ip).1.rest := by
      rw [hrun, haddr, IStream.rest_skipWhile, List.takeWhile_append_dropWhile]
    simp only [readIpAddressPrefixLength, h, hf, if_true, Bool.false_eq_true, if_false]
    obtain ⟨hrest, -, hslash⟩ := IStream.peekIs_spec (readIpAddress F is ip).1 '/'
    by_cases hs : ((readIpAddress F is ip).1.peekIs '/').1 = true
    · obtain ⟨hg, hhead⟩ := hslash hs
      obtain ⟨t, ht⟩ := List.head?_eq_some_iff.1 hhead
      rw [IStream.peekIs_cons '/' hg ht, if_pos rfl, IStream.ignore_cons hg ht]
      obtain ⟨hds, ⟨hne, hlen⟩ | ⟨hfail, hrest'⟩⟩ := readPrefixLength_spec (s := pl)
        (show ({ (readIpAddress F is ip).1 with rest := t } : IStream).good = true from hg)
      · rw [if_neg (by rw [hlen]; simp [hf])]
        refine .inl ⟨by rw [hlen]; exact hf, hok, hne, fun c hc => ?_, ?_, ?_, hrun⟩
        · rw [hds] at hc; exact List.mem_takeWhile_imp hc
        · rw [hlen]; exact head?_dropWhile t
        · rw [hsplit, ht, hds, hlen]; simp
      · rw [if_pos hfail]
        exact .inr ⟨rfl, by simp [hrest', hsplit, ht]⟩
    · simp only [hs, Bool.false_eq_true, if_false]
      exact .inr ⟨rfl, by simp [hrest, hsplit]⟩
  · exact .inr (by simp [readIpAddressPrefixLength, h, hfail, hrest])

theorem readIpAddressPrefixLength_text {addr ds rest ip pl : List Char} {a : F.Addr}
    (hp : ∀ c ∈ addr, F.isAddressChar c = true) (ha : F.fromString addr = some a) (hne : ds ≠ [])
    (hd : ∀ c ∈ ds, c.isDigit = true) (hs : ∀ c ∈ rest.head?, c.isDigit = false) :
    readIpAddressPrefixLength F (IStream.ofList (addr ++ '/' :: (ds ++ rest))) ip pl =
      (⟨rest, rest.isEmpty, false⟩, addr, ds) := by
  have hslash : ∀ c ∈ ('/' :: (ds ++ rest)).head?, F.isAddressChar c = false := by
    simp [F.isAddressChar_slash]
  have hg : ∀ s : List Char, IStream.good ⟨s, false, false⟩ = true := fun _ => rfl
  simp only [readIpAddressPrefixLength, IStream.ofList, hg, if_true, readIpAddress_run hp hslash ha, List.isEmpty_cons, Bool.false_eq_true, if_false]
  rw [IStream.peekIs_cons '/' (hg _) rfl, if_pos rfl, IStream.ignore_cons (hg _) rfl]
  simp [readPrefixLength_run hne hd hs]

end spec

/-- `AddressType::from_string`, which throws `boost::system::system_error` on a text that is
not an address. -/
def Family.fromStringOrThrow (F : Family) (s : List Char) : Except Exception (F.Addr) :=
  match F.fromString s with
  | some a => .ok a
  | none => .error .systemError

namespace BaseIpNetworkAddress

/-- `operator>>(std::istream&, base_ip_network_address<AddressType>&)`: the stream after it and
the value; the constructor's arguments are taken left to right. -/
def extract (F : Family) (is : IStream) (value : BaseIpNetworkAddress F) :
    Except Exception (IStream × BaseIpNetworkAddress F) :=
  let r := readIpAddressPrefixLength F is [] []
  if r.1.fail then .ok (r.1, value)
  else do
    let address ← F.fromStringOrThrow r.2.1
    let prefixLength ← lexicalCastUInt r.2.2
    pure (r.1, ⟨address, prefixLength⟩)

/-- `operator<<(std::ostream&, const base_ip_network_address<AddressType>&)`: the output so far,
then the address, `/` and the prefix length in decimal. -/
def insert {F : Family} (os : List Char) (value : BaseIpNetworkAddress F) : List Char :=
  os ++ F.toString value.address ++ '/' :: Nat.toDigits 10 value.prefixLength.toNat

variable {F : Family}

/-- `operator>>` reads back what `operator<<` wrote, whatever follows it but a digit, when the
address reads back from its text. -/
theorem extract_insert_append {v : BaseIpNetworkAddress F} (hv : F.Rereads v.address)
    (v' : BaseIpNetworkAddress F) {rest : List Char} (hs : ∀ c ∈ rest.head?, c.isDigit = false) :
    extract F (IStream.ofList (insert [] v ++ rest)) v' = .ok (⟨rest, rest.isEmpty, false⟩, v) := by
  have htext : insert [] v ++ rest =
      F.toString v.address ++ '/' :: (Nat.toDigits 10 v.prefixLength.toNat ++ rest) := by
    simp [insert]
  simp only [extract, htext, readIpAddressPrefixLength_text hv.isAddressChar_toString
    hv.fromString_toString (toDigits_ne_nil (by decide) _) (fun _ => isDigit_of_mem_toDigits) hs]
  simp [Family.fromStringOrThrow, hv.fromString_toString, lexicalCastUInt_toDigits]

theorem extract_text {addr ds rest : List Char} {a : F.Addr}
    (hp : ∀ c ∈ addr, F.isAddressChar c = true) (ha : F.fromString addr = some a) (hne : ds ≠ [])
    (hd : ∀ c ∈ ds, c.isDigit = true) (hs : ∀ c ∈ rest.head?, c.isDigit = false)
    (hv : decimalNumber 0 ds < 2 ^ 32) (value : BaseIpNetworkAddress F) :
    extract F (IStream.ofList (addr ++ '/' :: (ds ++ rest))) value =
      .ok (⟨rest, rest.isEmpty, false⟩, ⟨a, (decimalNumber 0 ds).toUInt32⟩) := by
  simp only [extract, readIpAddressPrefixLength_text hp ha hne hd hs, Family.fromStringOrThrow, ha,
    lexicalCastUInt_digits hne hd, if_pos hv]
  rfl

theorem extract_of_fromString_none {run rest : List Char} (hp : ∀ c ∈ run, F.isAddressChar c = true)
    (hs : ∀ c ∈ rest.head?, F.isAddressChar c = false) (ha : F.fromString run = none)
    (value : BaseIpNetworkAddress F) :
    extract F (IStream.ofList (run ++ rest)) value = .ok (⟨run ++ rest, rest.isEmpty, true⟩, value) := by
  simp [extract, readIpAddressPrefixLength, IStream.ofList, IStream.good, readIpAddress_run_none hp hs ha]

/-- From a good stream, `operator>>` reads an address, `/` and the digits after it, and builds
the value from them; or it sets failbit and leaves the value and every character as they were.
It throws only when the digits overflow `unsigned int`. -/
theorem extract_good_cases (s : List Char) (value : BaseIpNetworkAddress F) :
    (∃ ip ds a is', s = ip ++ '/' :: (ds ++ is'.rest) ∧ is'.fail = false ∧
      F.fromString ip = some a ∧ ds ≠ [] ∧ (∀ c ∈ ds, c.isDigit = true) ∧
      (∀ c ∈ is'.rest.head?, c.isDigit = false) ∧
      (decimalNumber 0 ds < 2 ^ 32 ∧
          extract F (IStream.ofList s) value = .ok (is', ⟨a, (decimalNumber 0 ds).toUInt32⟩) ∨
        2 ^ 32 ≤ decimalNumber 0 ds ∧ extract F (IStream.ofList s) value = .error .badLexicalCast)) ∨
    (∃ is', is'.fail = true ∧ is'.rest = s ∧ extract F (IStream.ofList s) value = .ok (is', value)) := by
  rcases readIpAddressPrefixLength_spec (F := F) [] [] (IStream.good_ofList s) with
    ⟨hf, hok, hne, hd, hs, hrest, -⟩ | ⟨hf, hrest⟩
  · obtain ⟨a, ha⟩ := Option.isSome_iff_exists.1 hok
    refine .inl ⟨_, _, a, _, hrest, hf, ha, hne, hd, hs, ?_⟩
    simp only [extract, hf, Bool.false_eq_true, if_false, Family.fromStringOrThrow, ha, ok_bind,
      lexicalCastUInt_digits hne hd]
    split_ifs with hv
    · exact .inl ⟨hv, rfl⟩
    · exact .inr ⟨Nat.le_of_not_lt hv, rfl⟩
  · exact .inr ⟨_, hf, hrest, by simp [extract, hf]⟩

theorem extract_ofList_ok {s : List Char} {value v : BaseIpNetworkAddress F} {is' : IStream}
    (h : extract F (IStream.ofList s) value = .ok (is', v)) :
    (is'.fail = true ∧ is'.rest = s ∧ v = value) ∨
      (is'.fail = false ∧ ∃ ip ds a, s = ip ++ '/' :: (ds ++ is'.rest) ∧
        ip = s.takeWhile F.isAddressChar ∧ F.fromString ip = some a ∧ ds ≠ [] ∧
        (∀ c ∈ ds, c.isDigit = true) ∧ decimalNumber 0 ds < 2 ^ 32 ∧
        v = ⟨a, (decimalNumber 0 ds).toUInt32⟩) := by
  rcases readIpAddressPrefixLength_spec (F := F) [] [] (IStream.good_ofList s) with
    ⟨hf, hok, hne, hd, -, hrest, hrun⟩ | ⟨hf, hrest⟩
  · obtain ⟨a, ha⟩ := Option.isSome_iff_exists.1 hok
    simp only [extract, hf, Bool.false_eq_true, if_false, Family.fromStringOrThrow, ha, ok_bind,
      lexicalCastUInt_digits hne hd] at h
    split_ifs at h with hv
    · obtain ⟨rfl, rfl⟩ := Prod.mk.inj (Except.ok.inj h)
      exact .inr ⟨hf, _, _, a, hrest, hrun, ha, hne, hd, hv, rfl⟩
    · cases h
  · simp only [extract, hf, if_true] at h
    obtain ⟨rfl, rfl⟩ := Prod.mk.inj (Except.ok.inj h)
    exact .inl ⟨hf, hrest, rfl⟩

/-- IPv4 network address text is canonical: whatever the IPv4 `operator>>` reads is the text
`operator<<` writes for the value it reads, but for leading zeros in the prefix length. -/
theorem extract_v4_eq_insert {s : List Char} {value v : BaseIpNetworkAddress addressV4}
    {is' : IStream} (h : extract addressV4 (IStream.ofList s) value = .ok (is', v))
    (hf : is'.fail = false) :
    ∃ n, s = addressV4.toString v.address ++
      '/' :: (List.replicate n '0' ++ Nat.toDigits 10 v.prefixLength.toNat ++ is'.rest) := by
  rcases extract_ofList_ok h with ⟨hf', -⟩ | ⟨-, ip, ds, a, hs, hrun, ha, hne, hd, hv, rfl⟩
  · rw [hf'] at hf; cases hf
  have hip : ∀ c ∈ ip, isAddressV4Char c = true := fun c hc => List.mem_takeWhile_imp (hrun ▸ hc)
  have ha' : inetPton4 ip = some a := by
    rw [← cString_of_forall (s := ip) fun c hc h0 => by subst h0; exact absurd (hip _ hc) (by decide)]
    exact ha
  obtain ⟨n, hn⟩ := eq_replicate_append_toDigits hne hd
  refine ⟨n, hs.trans ?_⟩
  rw [show addressV4.toString a = inetNtop4 a.toList from rfl, inetNtop4_inetPton4 ha',
    UInt32.toNat_ofNat_of_lt hv, ← hn]

/-- `10.0.0.1/08`, which `operator<<` writes back as `10.0.0.1/8`. -/
theorem extract_v4_eq_insert_zero :
    extract addressV4 (IStream.ofList "10.0.0.1/08".toList) null =
        .ok (⟨[], true, false⟩, ⟨⟨[10, 0, 0, 1], rfl⟩, 8⟩) ∧
      (⟨[], true, false⟩ : IStream).fail = false ∧
      ∃ n, "10.0.0.1/08".toList = addressV4.toString ⟨[10, 0, 0, 1], rfl⟩ ++
        '/' :: (List.replicate n '0' ++ Nat.toDigits 10 8 ++ []) :=
  have h : extract addressV4 (IStream.ofList "10.0.0.1/08".toList) null =
      .ok (⟨[], true, false⟩, ⟨⟨[10, 0, 0, 1], rfl⟩, 8⟩) := rfl
  have htext := extract_v4_eq_insert h rfl
  ⟨h, rfl, htext⟩

theorem extract_eof_of_fromString_nil (h : F.fromString [] = none) (s : List Char)
    (value : BaseIpNetworkAddress F) : ∃ e, extract F ⟨s, true, false⟩ value = .error e :=
  ⟨.systemError, by simp [extract, readIpAddressPrefixLength, IStream.good, Family.fromStringOrThrow, h]⟩

/-- Both families' `operator>>` throw on every stream with eofbit set and failbit clear, such as
the stream left by a read that ended with the end of the input. The reader hands over two empty
strings, and `from_string` and `lexical_cast` both throw on theirs, so the call throws in
whichever order the compiler evaluates the two arguments. -/
theorem extract_eof (s : List Char) (v4 : BaseIpNetworkAddress addressV4)
    (v6 : BaseIpNetworkAddress addressV6) :
    (∃ e, extract addressV4 ⟨s, true, false⟩ v4 = .error e) ∧
      (∃ e, extract addressV6 ⟨s, true, false⟩ v6 = .error e) ∧
      addressV4.fromStringOrThrow [] = .error .systemError ∧
      addressV6.fromStringOrThrow [] = .error .systemError ∧
      lexicalCastUInt [] = .error .badLexicalCast :=
  ⟨extract_eof_of_fromString_nil rfl s v4, extract_eof_of_fromString_nil rfl s v6, rfl, rfl, rfl⟩

end BaseIpNetworkAddress

end Freelan
