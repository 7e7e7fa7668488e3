import Freelan.InetV4

/-! # rapidjson as the client uses it

`values_to_json` drives a `rapidjson::Writer` over a `StringBuffer`, and `json_to_values` reads
the text back with `rapidjson::Document::Parse<0>` (no flags: no encoding validation). Both are
modelled on bytes, since a `std::string` holds any bytes. The writer escapes `"`, `\` and every
control byte, `\u00XX` for those without a short escape; the reader undoes every escape, `\u0000`
included, so a string survives the JSON text whole (`parseStringChars_writeChars`). What cuts
strings short is the client's use of `GetString()` as a C string, in `Client.lean`.
-/

namespace Freelan

/-- The bytes of an ASCII text. -/
def asciiBytes (s : String) : List UInt8 := s.toList.map fun c => c.toNat.toUInt8

/-- A `const char*` read as a C string: the bytes up to the first NUL. -/
def cBytes (s : List UInt8) : List UInt8 := s.takeWhile (· ≠ 0)

theorem cBytes_of_forall {s : List UInt8} (h : ∀ c ∈ s, c ≠ 0) : cBytes s = s :=
  List.takeWhile_eq_self_iff.2 fun c hc => by simpa using h c hc

theorem zero_not_mem_cBytes (s : List UInt8) : 0 ∉ cBytes s := fun h => by
  unfold cBytes at h
  simpa using List.mem_takeWhile_imp h

/-! ## Writing -/

/-- The short escapes of rapidjson's writer: backspace, tab, newline, form feed, carriage
return, as the letters `b t n f r`. -/
def shortEscapes : List (UInt8 × UInt8) := [(8, 98), (9, 116), (10, 110), (12, 102), (13, 114)]

/-- The writer's `escape` table: `"` and `\` escape as themselves, the other bytes below `0x20`
by a short escape or `u`; every other byte is written as it is. -/
def escapeOf (c : UInt8) : Option UInt8 :=
  if c = 34 ∨ c = 92 then some c
  else if c < 32 then some ((shortEscapes.lookup c).getD 117)
  else none

/-- `hexDigits[d]`, from `"0123456789ABCDEF"`. -/
def hexDigitByte (d : UInt8) : UInt8 := if d < 10 then 48 + d else 55 + d

/-- The bytes `WriteString` writes for one byte of a string. -/
def writeChar (c : UInt8) : List UInt8 :=
  match escapeOf c with
  | none => [c]
  | some e => if e = 117 then [92, 117, 48, 48, hexDigitByte (c >>> 4), hexDigitByte (c &&& 15)]
    else [92, e]

/-- `WriteString`: a string between quotes, each byte written by `writeChar`. -/
def writeString (s : List UInt8) : List UInt8 := 34 :: s.flatMap writeChar ++ [34]

/-- A `rapidjson::Writer` over a `StringBuffer`: the output so far and, for each open object,
innermost first, the number of values written in it. -/
structure Writer where
  os : List UInt8
  levels : List Nat

namespace Writer

/-- `Prefix`, the separator before a value: inside an object, `:` after a name and `,` before
every later name. -/
def separate (w : Writer) : Writer :=
  match w.levels with
  | [] => w
  | n :: ls => ⟨w.os ++ (if n = 0 then [] else if n % 2 = 0 then [44] else [58]), (n + 1) :: ls⟩

/-- `StartObject()`. -/
def startObject (w : Writer) : Writer := ⟨w.separate.os ++ [123], 0 :: w.separate.levels⟩

/-- `String(str, length)`. -/
def string (w : Writer) (s : List UInt8) : Writer :=
  ⟨w.separate.os ++ writeString s, w.separate.levels⟩

/-- `EndObject()`. -/
def endObject (w : Writer) : Writer := ⟨w.os ++ [125], w.levels.tail⟩

end Writer

/-! ## Reading -/

/-- The reader's table of short escapes: the byte each escape letter stands for. -/
def unescapeTable : List (UInt8 × UInt8) :=
  [(34, 34), (92, 92), (47, 47), (98, 8), (102, 12), (110, 10), (114, 13), (116, 9)]

/-- The value of a hexadecimal digit byte, of either case. -/
def hexByteValue (b : UInt8) : Option Nat := hexDigitValue (Char.ofNat b.toNat)

@[simp] theorem hexByteValue_zero : hexByteValue 0 = none := rfl

/-- `ParseHex4`: four hexadecimal digits. -/
def hex4 (a b c d : UInt8) : Option Nat := do
  let a ← hexByteValue a
  let b ← hexByteValue b
  let c ← hexByteValue c
  let d ← hexByteValue d
  pure (((a * 16 + b) * 16 + c) * 16 + d)

/-- `UTF8::Encode`. -/
def utf8Encode (cp : Nat) : List UInt8 :=
  if cp ≤ 0x7F then [cp.toUInt8]
  else if cp ≤ 0x7FF then [(0xC0 ||| (cp >>> 6)).toUInt8, (0x80 ||| (cp &&& 0x3F)).toUInt8]
  else if cp ≤ 0xFFFF then
    [(0xE0 ||| (cp >>> 12)).toUInt8, (0x80 ||| ((cp >>> 6) &&& 0x3F)).toUInt8,
      (0x80 ||| (cp &&& 0x3F)).toUInt8]
  else
    [(0xF0 ||| (cp >>> 18)).toUInt8, (0x80 ||| ((cp >>> 12) &&& 0x3F)).toUInt8,
      (0x80 ||| ((cp >>> 6) &&& 0x3F)).toUInt8, (0x80 ||| (cp &&& 0x3F)).toUInt8]

/-- The four hexadecimal digits at the front of a text. -/
def hex4At : List UInt8 → Option Nat
  | a :: b :: c :: d :: _ => hex4 a b c d
  | _ => none

/-- After `\u`: the code point's UTF-8 bytes and the input after the escape. A high surrogate
takes a second `\u` escape with a low surrogate. -/
def unicodeEscape (s : List UInt8) : Option (List UInt8 × List UInt8) := do
  let cp ← hex4At s
  let s := s.drop 4
  if 0xD800 ≤ cp ∧ cp ≤ 0xDBFF then
    if s.take 2 = [92, 117] then
      let cp2 ← hex4At (s.drop 2)
      if 0xDC00 ≤ cp2 ∧ cp2 ≤ 0xDFFF then
        some (utf8Encode ((((cp - 0xD800) <<< 10) ||| (cp2 - 0xDC00)) + 0x10000), s.drop 6)
      else none
    else none
  else some (utf8Encode cp, s)

/-- One step of `ParseStringToStream`: `some (none, rest)` at the closing quote, and
`some (some bytes, rest)` for a byte or an escape and the bytes it stands for. The end of the
input is the C string's NUL, a missing quotation mark; an unescaped byte below `0x20` is an
error too. -/
def stringStep : List UInt8 → Option (Option (List UInt8) × List UInt8)
  | [] => none
  | c :: rest =>
    if c = 34 then some (none, rest)
    else if c = 92 then
      match rest with
      | [] => none
      | e :: rest =>
        if e = 117 then (unicodeEscape rest).map fun r => (some r.1, r.2)
        else (unescapeTable.lookup e).map fun b => (some [b], rest)
    else if c < 32 then none
    else some (some [c], rest)

theorem length_unicodeEscape {s rest bs : List UInt8} (h : unicodeEscape s = some (bs, rest)) :
    rest.length ≤ s.length := by
  unfold unicodeEscape at h
  obtain ⟨cp, -, h⟩ := Option.bind_eq_some.1 h
  split at h
  · obtain ⟨-, h⟩ := Option.ite_none_right_eq_some.1 h
    obtain ⟨cp2, -, h⟩ := Option.bind_eq_some.1 h
    obtain ⟨-, h⟩ := Option.ite_none_right_eq_some.1 h
    rw [← (Prod.mk.inj_iff.1 (Option.some.inj h)).2, List.length_drop, List.length_drop]
    omega
  · rw [← (Prod.mk.inj_iff.1 (Option.some.inj h)).2, List.length_drop]
    omega

theorem length_stringStep {s rest : List UInt8} {x : Option (List UInt8)}
    (h : stringStep s = some (x, rest)) : rest.length < s.length := by
  match s, h with
  | c :: t, h =>
    rw [List.length_cons, Nat.lt_succ_iff]
    simp only [stringStep] at h
    split at h
    · cases h; exact le_rfl
    split at h
    · split at h
      · cases h
      · split at h
        · obtain ⟨r, hr, hrr⟩ := Option.map_eq_some'.1 h
          cases hrr
          exact (length_unicodeEscape hr).trans (Nat.le_succ _)
        · obtain ⟨r, -, hrr⟩ := Option.map_eq_some'.1 h
          cases hrr
          exact Nat.le_succ _
    split at h
    · cases h
    · cases h; exact le_rfl

/-- `ParseStringToStream` after the opening quote: the string's bytes and the input after the
closing quote. -/
def parseStringChars (s : List UInt8) : Option (List UInt8 × List UInt8) :=
  match h : stringStep s with
  | none => none
  | some (none, rest) => some ([], rest)
  | some (some bs, rest) =>
    have := length_stringStep h
    (parseStringChars rest).map fun r => (bs ++ r.1, r.2)
termination_by s.length

/-- `SkipWhitespace`: spaces, newlines, carriage returns and tabs. -/
def skipWs (s : List UInt8) : List UInt8 := s.dropWhile fun b => b = 32 || b = 10 || b = 13 || b = 9

/-- A value of a `rapidjson::Document`. A number keeps its text: the client only asks whether a
value is a string. -/
inductive JsonValue where
  | null
  | bool (b : Bool)
  | number (text : List UInt8)
  | string (s : List UInt8)
  | array (vs : List JsonValue)
  | object (ms : List (List UInt8 × JsonValue))

/-- The digits at the front of a text. -/
def digitRun (s : List UInt8) : List UInt8 := s.takeWhile fun b => 48 ≤ b && b ≤ 57

/-- `ParseNumber`'s grammar: `-`? (`0` | a nonzero digit and digits) (`.` digits)?
(`e` or `E`, a sign?, digits)?; the text and the input after it. -/
def parseNumber (s : List UInt8) : Option (List UInt8 × List UInt8) :=
  let (sign, s) := if s.head? = some 45 then ([45], s.tail) else ([], s)
  let int := if s.head? = some 48 then [48] else digitRun s
  if int = [] then none
  else
    let s := s.drop int.length
    let frac := if s.head? = some 46 then some (46 :: digitRun s.tail) else none
    if frac = some [46] then none
    else
      let s := s.drop (frac.getD []).length
      let exp := if s.head? = some 101 ∨ s.head? = some 69 then
          let t := s.tail
          let sgn := if t.head? = some 43 ∨ t.head? = some 45 then t.take 1 else []
          some (s.take 1 ++ sgn ++ digitRun (t.drop sgn.length), sgn.length)
        else none
      match exp with
      | some (e, n) =>
        if e.length = 1 + n then none
        else some (sign ++ int ++ frac.getD [] ++ e, s.drop e.length)
      | none => some (sign ++ int ++ frac.getD [], s)

mutual

/-- `ParseValue`, with fuel for the nesting. -/
def parseValue : Nat → List UInt8 → Option (JsonValue × List UInt8)
  | 0, _ => none
  | n + 1, s =>
    match s with
    | [] => none
    | c :: rest =>
      if c = 123 then
        let rest := skipWs rest
        if rest.head? = some 125 then some (.object [], rest.tail) else parseMembers n rest []
      else if c = 91 then
        let rest := skipWs rest
        if rest.head? = some 93 then some (.array [], rest.tail) else parseElements n rest []
      else if c = 34 then (parseStringChars rest).map fun r => (.string r.1, r.2)
      else if s.take 4 = asciiBytes "null" then some (.null, s.drop 4)
      else if s.take 4 = asciiBytes "true" then some (.bool true, s.drop 4)
      else if s.take 5 = asciiBytes "false" then some (.bool false, s.drop 5)
      else (parseNumber s).map fun r => (.number r.1, r.2)

/-- `ParseObject` from its first member: name, `:`, value, then `,` and the next member or `}`;
`acc` holds the members read, last first. -/
def parseMembers : Nat → List UInt8 → List (List UInt8 × JsonValue) →
    Option (JsonValue × List UInt8)
  | 0, _, _ => none
  | n + 1, s, acc =>
    match s with
    | c :: rest =>
      if c = 34 then
        match parseStringChars rest with
        | none => none
        | some (name, rest) =>
          let rest := skipWs rest
          if rest.head? = some 58 then
            match parseValue n (skipWs rest.tail) with
            | none => none
            | some (v, rest) =>
              let rest := skipWs rest
              if rest.head? = some 44 then parseMembers n (skipWs rest.tail) ((name, v) :: acc)
              else if rest.head? = some 125 then some (.object ((name, v) :: acc).reverse, rest.tail)
              else none
          else none
      else none
    | [] => none

/-- `ParseArray` from its first element. -/
def parseElements : Nat → List UInt8 → List JsonValue → Option (JsonValue × List UInt8)
  | 0, _, _ => none
  | n + 1, s, acc =>
    match parseValue n s with
    | none => none
    | some (v, rest) =>
      let rest := skipWs rest
      if rest.head? = some 44 then parseElements n (skipWs rest.tail) (v :: acc)
      else if rest.head? = some 93 then some (.array (v :: acc).reverse, rest.tail)
      else none

end

/-- `Document::Parse<0>` of a C string: one value between whitespace, `none` when
`HasParseError()`. -/
def parseDocument (s : List UInt8) : Option JsonValue :=
  let s := skipWs s
  if s = [] then none
  else
    match parseValue (s.length + 1) s with
    | some (v, rest) => if skipWs rest = [] then some v else none
    | none => none

/-! ## Reading back what the writer wrote -/

theorem hex4_escape : ∀ n < 32,
    hex4 48 48 (hexDigitByte (n.toUInt8 >>> (4 : UInt8))) (hexDigitByte (n.toUInt8 &&& (15 : UInt8))) =
      some n := by
  decide

theorem unescape_shortEscapes : ∀ n < 32, ((shortEscapes.lookup n.toUInt8).all fun e =>
    e != 117 && unescapeTable.lookup e == some n.toUInt8) = true := by
  decide

theorem writeChar_cases (c : UInt8) :
    (writeChar c = [c] ∧ c ≠ 34 ∧ c ≠ 92 ∧ ¬ c < 32) ∨
    (writeChar c = [92, c] ∧ (c = 34 ∨ c = 92)) ∨
    (∃ e, writeChar c = [92, e] ∧ e ≠ 117 ∧ unescapeTable.lookup e = some c) ∨
    (∃ x y, writeChar c = [92, 117, 48, 48, x, y] ∧ hex4 48 48 x y = some c.toNat ∧
      c.toNat < 32) := by
  by_cases hq : c = 34 ∨ c = 92
  · exact .inr (.inl ⟨by rcases hq with rfl | rfl <;> rfl, hq⟩)
  by_cases hc : c < 32
  · have hn : c.toNat < 32 := hc
    have hshort := unescape_shortEscapes c.toNat hn
    rw [toNat_toUInt8] at hshort
    cases hs : shortEscapes.lookup c with
    | none =>
      have hhex := hex4_escape c.toNat hn
      rw [toNat_toUInt8] at hhex
      exact .inr (.inr (.inr ⟨_, _, by simp [writeChar, escapeOf, hq, hc, hs], hhex, hn⟩))
    | some e =>
      rw [hs] at hshort
      simp only [Option.all_some, Bool.and_eq_true, bne_iff_ne, ne_eq, beq_iff_eq] at hshort
      exact .inr (.inr (.inl ⟨e, by simp [writeChar, escapeOf, hq, hc, hs, hshort.1], hshort⟩))
  · simp only [not_or] at hq
    exact .inl ⟨by simp [writeChar, escapeOf, hq, hc], hq.1, hq.2, hc⟩

theorem stringStep_backslash_u (rest : List UInt8) :
    stringStep (92 :: 117 :: rest) = (unicodeEscape rest).map fun r => (some r.1, r.2) := rfl

theorem unicodeEscape_of_lt {s : List UInt8} {cp : Nat} (h : hex4At s = some cp) (hcp : cp < 0xD800) :
    unicodeEscape s = some (utf8Encode cp, s.drop 4) := by
  simp only [unicodeEscape, h, Option.bind_eq_bind, Option.some_bind,
    if_neg (show ¬ (0xD800 ≤ cp ∧ cp ≤ 0xDBFF) by omega)]

theorem utf8Encode_of_le {cp : Nat} (h : cp ≤ 0x7F) : utf8Encode cp = [cp.toUInt8] := if_pos h

theorem stringStep_writeChar (c : UInt8) (t : List UInt8) :
    stringStep (writeChar c ++ t) = some (some [c], t) := by
  rcases writeChar_cases c with ⟨hw, h34, h92, hc⟩ | ⟨hw, hq⟩ | ⟨e, hw, he, hl⟩ |
    ⟨x, y, hw, hhex, hn⟩ <;> rw [hw]
  · simp [stringStep, h34, h92, hc]
  · rcases hq with rfl | rfl <;> rfl
  · simp [stringStep, he, hl]
  · simp only [List.cons_append, List.nil_append]
    rw [stringStep_backslash_u, unicodeEscape_of_lt (s := 48 :: 48 :: x :: y :: t) hhex (by omega),
      utf8Encode_of_le (by omega), toNat_toUInt8]
    rfl

theorem parseStringChars_of_close {s rest : List UInt8} (h : stringStep s = some (none, rest)) :
    parseStringChars s = some ([], rest) := by
  rw [parseStringChars]
  split <;> simp_all

theorem parseStringChars_of_bytes {s rest bs : List UInt8} (h : stringStep s = some (some bs, rest)) :
    parseStringChars s = (parseStringChars rest).map fun r => (bs ++ r.1, r.2) := by
  rw [parseStringChars]
  split <;> simp_all

/-- A written string reads back whole, whatever its bytes. -/
theorem parseStringChars_writeChars (s rest : List UInt8) :
    parseStringChars (s.flatMap writeChar ++ 34 :: rest) = some (s, rest) := by
  induction s with
  | nil => exact parseStringChars_of_close (by simp [stringStep])
  | cons c s ih =>
    rw [List.flatMap_cons, List.append_assoc,
      parseStringChars_of_bytes (stringStep_writeChar c _), ih]
    rfl

/-- A member as the writer writes it: the name, `:` and the value. -/
def memberText (e : List UInt8 × List UInt8) : List UInt8 := writeString e.1 ++ 58 :: writeString e.2

/-- The members of an object as the writer writes them, separated by `,`. -/
def membersText : List (List UInt8 × List UInt8) → List UInt8
  | [] => []
  | e :: es => memberText e ++ es.flatMap (44 :: memberText ·)

theorem writer_member (os : List UInt8) (k : Nat) (e : List UInt8 × List UInt8) :
    ((Writer.mk os [2 * k]).string e.1).string e.2 =
      ⟨os ++ (if k = 0 then [] else [44]) ++ memberText e, [2 * k + 2]⟩ := by
  rcases Nat.eq_zero_or_pos k with rfl | hk
  · simp [Writer.string, Writer.separate, memberText]
  · simp [Writer.string, Writer.separate, memberText, show k ≠ 0 by omega, show 2 * k ≠ 0 by omega,
      show 2 * k + 1 ≠ 0 by omega, Nat.add_mod]

theorem writer_members (es : List (List UInt8 × List UInt8)) :
    ∀ (os : List UInt8) (k : Nat), 0 < k →
      es.foldl (fun (w : Writer) e => (w.string e.1).string e.2) ⟨os, [2 * k]⟩ =
        ⟨os ++ es.flatMap (44 :: memberText ·), [2 * (k + es.length)]⟩ := by
  induction es with
  | nil => intro os k _; simp
  | cons e es ih =>
    intro os k hk
    rw [List.foldl_cons, writer_member, if_neg (by omega), show 2 * k + 2 = 2 * (k + 1) by omega,
      ih _ _ (by omega)]
    simp [Nat.add_assoc, Nat.add_comm 1]

/-- `StartObject`, a `String` for each name and value, `EndObject`. -/
theorem writer_object (es : List (List UInt8 × List UInt8)) :
    (es.foldl (fun w e => (w.string e.1).string e.2) (Writer.startObject ⟨[], []⟩)).endObject.os =
      123 :: membersText es ++ [125] := by
  cases es with
  | nil => rfl
  | cons e es =>
    have h0 : Writer.startObject ⟨[], []⟩ = ⟨[123], [2 * 0]⟩ := rfl
    rw [List.foldl_cons, h0, writer_member, if_pos rfl, show 2 * 0 + 2 = 2 * 1 from rfl,
      writer_members _ _ _ (by omega)]
    simp [Writer.endObject, membersText]

@[simp] theorem skipWs_quote (s : List UInt8) : skipWs (34 :: s) = 34 :: s := rfl
@[simp] theorem skipWs_colon (s : List UInt8) : skipWs (58 :: s) = 58 :: s := rfl
@[simp] theorem skipWs_comma (s : List UInt8) : skipWs (44 :: s) = 44 :: s := rfl
@[simp] theorem skipWs_open (s : List UInt8) : skipWs (123 :: s) = 123 :: s := rfl
@[simp] theorem skipWs_close (s : List UInt8) : skipWs (125 :: s) = 125 :: s := rfl
@[simp] theorem skipWs_nil : skipWs [] = [] := rfl

/-- A member of the document built from a name and a string. -/
def stringMember (e : List UInt8 × List UInt8) : List UInt8 × JsonValue := (e.1, .string e.2)

theorem parseValue_writeString (n : Nat) (s rest : List UInt8) :
    parseValue (n + 1) (34 :: (s.flatMap writeChar ++ 34 :: rest)) = some (.string s, rest) := by
  rw [parseValue]
  simp [parseStringChars_writeChars]

theorem skipWs_memberText (e : List UInt8 × List UInt8) (s : List UInt8) :
    skipWs (memberText e ++ s) = memberText e ++ s := by
  simp [memberText, writeString]

theorem parseMembers_memberText_comma (n : Nat) (e : List UInt8 × List UInt8) (s : List UInt8)
    (acc : List (List UInt8 × JsonValue)) :
    parseMembers (n + 2) (memberText e ++ 44 :: s) acc =
      parseMembers (n + 1) (skipWs s) (stringMember e :: acc) := by
  simp only [memberText, writeString, List.cons_append, List.append_assoc, List.singleton_append]
  rw [parseMembers]
  simp [parseStringChars_writeChars, parseValue_writeString, stringMember]

theorem parseMembers_memberText_close (n : Nat) (e : List UInt8 × List UInt8) (s : List UInt8)
    (acc : List (List UInt8 × JsonValue)) :
    parseMembers (n + 2) (memberText e ++ 125 :: s) acc =
      some (.object (stringMember e :: acc).reverse, s) := by
  simp only [memberText, writeString, List.cons_append, List.append_assoc, List.singleton_append]
  rw [parseMembers]
  simp [parseStringChars_writeChars, parseValue_writeString, stringMember]

theorem parseMembers_membersText (rest : List UInt8) :
    ∀ (es : List (List UInt8 × List UInt8)) (e : List UInt8 × List UInt8)
      (acc : List (List UInt8 × JsonValue)) (n : Nat), es.length < n →
      parseMembers (n + 1) (memberText e ++ es.flatMap (44 :: memberText ·) ++ 125 :: rest) acc =
        some (.object (acc.reverse ++ (e :: es).map stringMember), rest) := by
  intro es
  induction es with
  | nil =>
    intro e acc n hn
    obtain ⟨m, rfl⟩ : ∃ m, n = m + 1 := ⟨n - 1, by omega⟩
    simp [parseMembers_memberText_close]
  | cons e' es ih =>
    intro e acc n hn
    obtain ⟨m, rfl⟩ : ∃ m, n = m + 1 := ⟨n - 1, by omega⟩
    rw [List.flatMap_cons, List.append_assoc, List.append_assoc, List.cons_append,
      parseMembers_memberText_comma, skipWs_memberText, ← List.append_assoc,
      ih e' _ m (Nat.lt_of_succ_lt_succ hn)]
    simp

theorem length_le_flatMap_memberText (es : List (List UInt8 × List UInt8)) :
    es.length ≤ (es.flatMap (44 :: memberText ·)).length := by
  induction es with
  | nil => simp
  | cons e es ih =>
    simp only [List.flatMap_cons, List.length_cons, List.length_append]
    omega

theorem parseValue_open (n : Nat) (s : List UInt8) (h : (skipWs s).head? ≠ some 125) :
    parseValue (n + 1) (123 :: s) = parseMembers n (skipWs s) [] := by
  rw [parseValue]
  simp [h]

/-- The object the writer wrote parses back as the document holding its members, as strings. -/
theorem parseDocument_object (es : List (List UInt8 × List UInt8)) :
    parseDocument (123 :: membersText es ++ [125]) = some (.object (es.map stringMember)) := by
  cases es with
  | nil => rfl
  | cons e es =>
    have hlen := length_le_flatMap_memberText es
    have hskip : skipWs (memberText e ++ es.flatMap (44 :: memberText ·) ++ [125]) =
        memberText e ++ es.flatMap (44 :: memberText ·) ++ [125] := by
      rw [List.append_assoc, skipWs_memberText]
    have hhead : (memberText e ++ es.flatMap (44 :: memberText ·) ++ [125]).head? = some 34 := rfl
    rw [parseDocument, List.cons_append, skipWs_open, if_neg (List.cons_ne_nil _ _),
      List.length_cons, membersText, parseValue_open _ _ (by rw [hskip, hhead]; decide), hskip,
      List.length_append, List.length_append, List.length_singleton,
      parseMembers_membersText [] es e [] _ (by omega)]
    simp

/-- The writer never writes a NUL: a NUL byte goes out as its escape. -/
@[simp] theorem zero_not_mem_writeChar (c : UInt8) : 0 ∉ writeChar c := by
  rcases writeChar_cases c with ⟨hw, -, -, hc⟩ | ⟨hw, hq⟩ | ⟨e, hw, -, hl⟩ | ⟨x, y, hw, hhex, -⟩ <;>
    rw [hw]
  · rintro (_ | ⟨_, ⟨⟩⟩)
    exact hc (by decide)
  · rcases hq with rfl | rfl <;> decide
  · rintro (_ | ⟨_, _ | ⟨_, ⟨⟩⟩⟩)
    cases (show unescapeTable.lookup 0 = none from rfl) ▸ hl
  · simp only [List.mem_cons, List.mem_singleton, List.not_mem_nil, or_false]
    rintro (h | h | h | h | rfl | rfl) <;> first | cases h | simp [hex4] at hhex

theorem zero_not_mem_object (es : List (List UInt8 × List UInt8)) :
    0 ∉ 123 :: membersText es ++ [125] := by
  cases es <;> simp [membersText, memberText, writeString]

end Freelan
