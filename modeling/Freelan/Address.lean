import Freelan.Digits

/-! # Addresses and address families

The library reads a `boost::asio::ip::address_v4` or `address_v6` only through `to_bytes()`,
`operator==`, `to_string()` and `from_string()`. An `address_v4` is its `bytes_type`, 4 bytes in
network order; an `address_v6` is its 16 bytes and its scope id, which `operator==` compares and
`to_string()` prints, but `to_bytes()` leaves out. `Family` is what the `AddressType` template
parameter brings to `base_ip_network_address`, together with the characters
`read_ip_address<AddressType>` reads.
-/

namespace Freelan

/-- The exceptions the modelled code can throw. -/
inductive Exception where
  /-- `std::runtime_error`, with the bytes of its message. -/
  | runtimeError (what : List UInt8)
  /-- `boost::system::system_error`, thrown by `from_string` on a text that is not an address. -/
  | systemError
  /-- `boost::bad_lexical_cast`. -/
  | badLexicalCast
  /-- `boost::asio::ip::bad_address_cast`, thrown by `to_v4` and `to_v6` on the other family. -/
  | badAddressCast
deriving DecidableEq, Repr

section except
variable {α β : Type} {e : Exception}

@[simp] theorem ok_bind (a : α) (f : α → Except Exception β) : (Except.ok a >>= f) = f a := rfl
@[simp] theorem error_bind (f : α → Except Exception β) : (Except.error e >>= f) = .error e := rfl
@[simp] theorem map_ok (a : α) (f : α → β) : f <$> (Except.ok a : Except Exception α) = .ok (f a) :=
  rfl
@[simp] theorem map_error (f : α → β) : f <$> (Except.error e : Except Exception α) = .error e := rfl

end except

/-- A `bytes_type`: `n` bytes in network order. -/
structure Bytes (n : Nat) where
  toList : List UInt8
  length_toList : toList.length = n
deriving DecidableEq

namespace Bytes
variable {n : Nat}

theorem ext {a b : Bytes n} (h : a.toList = b.toList) : a = b := by
  cases a; cases b; cases h; rfl

/-- The all-zero address, which a default-constructed `address_v4` or `address_v6` holds. -/
def zero (n : Nat) : Bytes n := ⟨List.replicate n 0, List.length_replicate _ _⟩

/-- The bytes of a C array of `n` bytes filled from a list; `none` if it is not `n` long. -/
def ofList? (l : List UInt8) : Option (Bytes n) :=
  if h : l.length = n then some ⟨l, h⟩ else none

@[simp] theorem ofList?_toList (a : Bytes n) : ofList? a.toList = some a := by
  simp [ofList?, a.length_toList]

theorem toList_of_ofList? {l : List UInt8} {a : Bytes n} (h : ofList? l = some a) : a.toList = l := by
  unfold ofList? at h
  split at h
  · cases h; rfl
  · cases h

end Bytes

/-- Bit `i` of a byte sequence, counted from the most significant bit of the first byte. -/
def bitAt (l : List UInt8) (i : Nat) : Bool := (l.getD (i / 8) 0).toNat.testBit (7 - i % 8)

theorem bitAt_cons_of_lt {x : UInt8} {l : List UInt8} {i : Nat} (h : i < 8) :
    bitAt (x :: l) i = x.toNat.testBit (7 - i) := by
  simp [bitAt, Nat.div_eq_of_lt h, Nat.mod_eq_of_lt h]

theorem bitAt_cons_add (x : UInt8) (l : List UInt8) (i : Nat) :
    bitAt (x :: l) (i + 8) = bitAt l i := by
  simp [bitAt, Nat.add_div_right]

/-- `address_v4`, as its `to_bytes()`. -/
abbrev AddressV4 := Bytes 4

/-- `address_v6`: its `to_bytes()` and its `scope_id()`, an `unsigned long`. -/
structure AddressV6 where
  bytes : Bytes 16
  scopeId : UInt64
deriving DecidableEq

/-- `boost::asio::ip::address`: an address of either family. -/
inductive Address where
  | v4 (a : AddressV4)
  | v6 (a : AddressV6)
deriving DecidableEq

namespace Address

def isV4 : Address → Bool
  | v4 _ => true
  | v6 _ => false

def isV6 : Address → Bool
  | v4 _ => false
  | v6 _ => true

/-- `to_v4()`. -/
def toV4 : Address → Except Exception AddressV4
  | v4 a => .ok a
  | v6 _ => .error .badAddressCast

/-- `to_v6()`. -/
def toV6 : Address → Except Exception AddressV6
  | v4 _ => .error .badAddressCast
  | v6 a => .ok a

end Address

/-- What `base_ip_network_address` takes from its `AddressType`: the type with its `operator==`,
`to_bytes()` and the width of `bytes_type`, the default-constructed address, `to_string` and
`from_string`, and the characters `read_ip_address<AddressType>` reads, of which `/` is not
one. -/
structure Family where
  Addr : Type
  [decEq : DecidableEq Addr]
  width : Nat
  toBytes : Addr → Bytes width
  any : Addr
  toString : Addr → List Char
  fromString : List Char → Option Addr
  isAddressChar : Char → Bool
  isAddressChar_slash : isAddressChar '/' = false

attribute [instance] Family.decEq

/-- What reading back the printed address `a` needs: `from_string` undoes `to_string` on it, and
the text is made of address characters. -/
structure Family.Rereads (F : Family) (a : F.Addr) : Prop where
  fromString_toString : F.fromString (F.toString a) = some a
  isAddressChar_toString : ∀ c ∈ F.toString a, F.isAddressChar c = true

end Freelan
