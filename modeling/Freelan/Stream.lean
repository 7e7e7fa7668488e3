import Freelan.Address

/-! # Input streams and the readers of `stream_operations.hpp`

A `std::istream` as the parsers see it: the characters not read yet, eofbit and failbit (badbit
is never set by the modelled code). `putback`, `read_ip_address` and `read_prefix_length` are
declared in `stream_operations.hpp`, but their definitions are not part of the source, so they
are modelled from the spec: the readers take the longest run of the characters they accept, and a
failed read puts back what it read, so that the input position is where it was before. The
lemmas here state each reader's effect once; the parsers' proofs never unfold them.
-/

namespace Freelan

/-- An input stream: the unread characters, eofbit and failbit. -/
structure IStream where
  rest : List Char
  eof : Bool
  fail : Bool
deriving DecidableEq, Repr

namespace IStream

/-- A `std::istringstream` over a text, with nothing read yet. -/
def ofList (s : List Char) : IStream := ⟨s, false, false⟩

/-- `good()`: neither eofbit nor failbit is set. -/
def good (is : IStream) : Bool := !is.eof && !is.fail

/-- `setstate(std::ios_base::failbit)`. -/
def setFail (is : IStream) : IStream := { is with fail := true }

/-- `clear()`. -/
def clear (is : IStream) : IStream := { is with eof := false, fail := false }

/-- `peek()`: the next character, left unread. At the end of the input it sets eofbit; on a
stream that is not good its sentry sets failbit. -/
def peek (is : IStream) : Option Char × IStream :=
  if is.good then
    match is.rest with
    | [] => (none, { is with eof := true })
    | c :: _ => (some c, is)
  else (none, is.setFail)

/-- `ignore()`: reads one character and drops it. -/
def ignore (is : IStream) : IStream :=
  if is.good then
    match is.rest with
    | [] => { is with eof := true }
    | _ :: rest => { is with rest := rest }
  else is.setFail

/-- The stream after reading the longest run of characters satisfying `p`, peeking before each
one, so that a run reaching the end of the input sets eofbit. -/
def skipWhile (p : Char → Bool) (is : IStream) : IStream :=
  { is with rest := is.rest.dropWhile p, eof := (is.rest.dropWhile p).isEmpty }

@[simp] theorem good_ofList (s : List Char) : (ofList s).good = true := rfl
@[simp] theorem fail_setFail (is : IStream) : is.setFail.fail = true := rfl
@[simp] theorem rest_setFail (is : IStream) : is.setFail.rest = is.rest := rfl
@[simp] theorem fail_clear (is : IStream) : is.clear.fail = false := rfl
@[simp] theorem rest_clear (is : IStream) : is.clear.rest = is.rest := rfl
@[simp] theorem fail_skipWhile (p : Char → Bool) (is : IStream) : (is.skipWhile p).fail = is.fail :=
  rfl
@[simp] theorem rest_skipWhile (p : Char → Bool) (is : IStream) :
    (is.skipWhile p).rest = is.rest.dropWhile p := rfl

theorem good_iff {is : IStream} : is.good = true ↔ is.eof = false ∧ is.fail = false := by
  simp [good]

theorem good_skipWhile {p : Char → Bool} {is : IStream} (h : is.fail = false) :
    (is.skipWhile p).good = !(is.rest.dropWhile p).isEmpty := by
  simp [good, skipWhile, h]

theorem ignore_cons {is : IStream} {c : Char} {rest : List Char} (h : is.good = true)
    (hr : is.rest = c :: rest) : is.ignore = { is with rest := rest } := by
  simp [ignore, h, hr]

/-- `is.good() && is.peek() == c`, as C++ evaluates it: `peek()` only runs on a good stream. -/
def peekIs (is : IStream) (c : Char) : Bool × IStream :=
  if is.good then (is.peek.1 == some c, is.peek.2) else (false, is)

theorem peekIs_cons {is : IStream} {d : List Char} (c : Char) (h : is.good = true)
    (hr : is.rest = c :: d) : is.peekIs c = (true, is) := by
  simp [peekIs, peek, h, hr]

theorem peekIs_spec (is : IStream) (c : Char) :
    (is.peekIs c).2.rest = is.rest ∧ (is.peekIs c).2.fail = is.fail ∧
      ((is.peekIs c).1 = true → is.good = true ∧ is.rest.head? = some c) := by
  unfold peekIs peek
  split
  · split <;> simp_all
  · simp_all

end IStream

/-- Modelled from the spec: `putback(is, str)` (declared in `stream_operations.hpp`; its
definition is not part of the source) puts `str` back in front of the unread characters, which
restores the input position from before `str` was read. -/
def putback (is : IStream) (str : List Char) : IStream := { is with rest := str ++ is.rest }

@[simp] theorem rest_putback (is : IStream) (str : List Char) :
    (putback is str).rest = str ++ is.rest := rfl
@[simp] theorem fail_putback (is : IStream) (str : List Char) :
    (putback is str).fail = is.fail := rfl

/-- Modelled from the spec: `read_ip_address<AddressType>` (declared in `stream_operations.hpp`;
its definition is not part of the source). On a good stream it reads the longest run of the
family's address characters; it keeps the run when `from_string` accepts it, and otherwise puts
it back and sets failbit. On a stream that is not good it reads nothing. -/
def readIpAddress (F : Family) (is : IStream) (ipAddress : List Char) : IStream × List Char :=
  if is.good then
    let run := is.rest.takeWhile F.isAddressChar
    let is := is.skipWhile F.isAddressChar
    if (F.fromString run).isSome then (is, run) else ((putback is run).setFail, run)
  else (is, ipAddress)

/-- Modelled from the spec: `read_prefix_length<AddressType>` (declared in
`stream_operations.hpp`; its definition is not part of the source). On a good stream it reads the
longest run of decimal digits, and sets failbit when there is none. The spec gives both families
the same grammar, a non-negative decimal integer, so the family does not enter. -/
def readPrefixLength (is : IStream) (prefixLength : List Char) : IStream × List Char :=
  if is.good then
    let run := is.rest.takeWhile Char.isDigit
    let is := is.skipWhile Char.isDigit
    if run.isEmpty then ((putback is run).setFail, run) else (is, run)
  else (is, prefixLength)

theorem takeWhile_dropWhile_append {p : Char → Bool} {run rest : List Char}
    (hp : ∀ c ∈ run, p c = true) (hs : ∀ c ∈ rest.head?, p c = false) :
    (run ++ rest).takeWhile p = run ∧ (run ++ rest).dropWhile p = rest := by
  cases rest with
  | nil => simpa using hp
  | cons c rest =>
    have hc : p c = false := hs c rfl
    simp [List.takeWhile_append_of_pos hp, List.dropWhile_append_of_pos hp, hc]

theorem head?_dropWhile {p : Char → Bool} (l : List Char) :
    ∀ c ∈ (l.dropWhile p).head?, p c = false := fun c hc => by
  have := List.head?_dropWhile_not p l
  rwa [Option.mem_def.1 hc] at this

section readers
variable {F : Family} {is : IStream} {s : List Char}

theorem readIpAddress_run {run rest : List Char} {a : F.Addr}
    (hp : ∀ c ∈ run, F.isAddressChar c = true) (hs : ∀ c ∈ rest.head?, F.isAddressChar c = false)
    (ha : F.fromString run = some a) :
    readIpAddress F ⟨run ++ rest, false, false⟩ s = (⟨rest, rest.isEmpty, false⟩, run) := by
  obtain ⟨h1, h2⟩ := takeWhile_dropWhile_append hp hs
  simp [readIpAddress, IStream.good, IStream.skipWhile, h1, h2, ha]

theorem readIpAddress_run_none {run rest : List Char}
    (hp : ∀ c ∈ run, F.isAddressChar c = true) (hs : ∀ c ∈ rest.head?, F.isAddressChar c = false)
    (ha : F.fromString run = none) :
    readIpAddress F ⟨run ++ rest, false, false⟩ s = (⟨run ++ rest, rest.isEmpty, true⟩, run) := by
  obtain ⟨h1, h2⟩ := takeWhile_dropWhile_append hp hs
  simp [readIpAddress, IStream.good, IStream.skipWhile, h1, h2, ha, putback, IStream.setFail]

theorem readPrefixLength_run {run rest : List Char} (hne : run ≠ [])
    (hp : ∀ c ∈ run, c.isDigit = true) (hs : ∀ c ∈ rest.head?, c.isDigit = false) :
    readPrefixLength ⟨run ++ rest, false, false⟩ s = (⟨rest, rest.isEmpty, false⟩, run) := by
  obtain ⟨h1, h2⟩ := takeWhile_dropWhile_append hp hs
  simp [readPrefixLength, IStream.good, IStream.skipWhile, h1, h2, hne]

/-- What `read_ip_address` does to a good stream: it reads a run of address characters that
`from_string` accepts and leaves the rest, or it fails and leaves every character unread. -/
theorem readIpAddress_spec (h : is.good = true) :
    let r := readIpAddress F is s
    r.2 = is.rest.takeWhile F.isAddressChar ∧
      ((F.fromString r.2).isSome ∧ r.1 = is.skipWhile F.isAddressChar ∨
        (F.fromString r.2).isSome = false ∧ r.1.fail = true ∧ r.1.rest = is.rest) := by
  simp only [readIpAddress, h, if_true]
  split <;> simp_all

/-- What `read_prefix_length` does to a good stream: it reads one or more digits and leaves the
rest, or it fails and leaves every character unread. -/
theorem readPrefixLength_spec (h : is.good = true) :
    let r := readPrefixLength is s
    r.2 = is.rest.takeWhile Char.isDigit ∧
      (r.2 ≠ [] ∧ r.1 = is.skipWhile Char.isDigit ∨ r.1.fail = true ∧ r.1.rest = is.rest) := by
  simp only [readPrefixLength, h, if_true]
  split <;> simp_all

end readers

end Freelan
