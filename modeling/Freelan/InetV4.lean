import Freelan.Address

/-! # IPv4 text: `inet_ntop4` and `inet_pton4`

`address_v4::to_string` and `address_v4::from_string` go through glibc's `inet_ntop` and
`inet_pton`. The printer writes four decimal octets; the parser reads them back with its checks
for leading zeros, octets above 255 and more than four octets. `inetPton4_inetNtop4` runs the
parser over each printed octet by strong induction on its value. The checks make the text
canonical: `inetNtop4_inetPton4` prints every accepted text back as it was, from the invariant
`Pton4Read` of the parser's loop.
-/

namespace Freelan

/-- `std::string::c_str()` as a C function reads it: the text up to the first NUL. -/
def cString (s : List Char) : List Char := s.takeWhile (· ≠ '\x00')

theorem cString_of_forall {s : List Char} (h : ∀ c ∈ s, c ≠ '\x00') : cString s = s :=
  List.takeWhile_eq_self_iff.2 fun c hc => by simpa using h c hc

/-- glibc's `inet_ntop4`: `sprintf(tmp, "%u.%u.%u.%u", src[0], src[1], src[2], src[3])`. -/
def inetNtop4 (src : List UInt8) : List Char :=
  let u (i : Nat) := Nat.toDigits 10 (src.getD i 0).toNat
  u 0 ++ '.' :: u 1 ++ '.' :: u 2 ++ '.' :: u 3

/-- The variables of `inet_pton4`'s loop: `saw_digit`, `octets`, the octets before `tp`, and
`*tp`. -/
structure InetPton4State where
  sawDigit : Bool
  octets : Nat
  done : List Nat
  cur : Nat
deriving DecidableEq

/-- One character of `inet_pton4`'s loop; `none` is its `return 0`. -/
def inetPton4Step (s : InetPton4State) (ch : Char) : Option InetPton4State :=
  if ch.isDigit then
    let new := s.cur * 10 + decimalValue ch
    if s.sawDigit && s.cur == 0 then none
    else if new > 255 then none
    else if !s.sawDigit then
      if s.octets + 1 > 4 then none
      else some { s with cur := new, octets := s.octets + 1, sawDigit := true }
    else some { s with cur := new }
  else if ch = '.' && s.sawDigit then
    if s.octets = 4 then none
    else some { s with done := s.done ++ [s.cur], cur := 0, sawDigit := false }
  else none

/-- glibc's `inet_pton4` over the whole text; `none` when it returns 0. -/
def inetPton4 (src : List Char) : Option AddressV4 := do
  let s ← src.foldlM inetPton4Step ⟨false, 0, [], 0⟩
  if s.octets < 4 then none
  else Bytes.ofList? ((s.done ++ [s.cur]).map Nat.toUInt8)

/-! ## Reading back a printed address -/

theorem inetPton4Step_first {k d : Nat} {done : List Nat} (hk : k < 4) (hd : d < 10) :
    inetPton4Step ⟨false, k, done, 0⟩ (Nat.digitChar d) = some ⟨true, k + 1, done, d⟩ := by
  obtain ⟨h1, h2, -⟩ := digitChar_lt_ten d hd
  simp [inetPton4Step, h1, h2, show d ≤ 255 by omega, show ¬ 4 < k + 1 by omega]

theorem inetPton4Step_next {k d c : Nat} {done : List Nat} (hc : 0 < c) (hd : d < 10)
    (h : c * 10 + d ≤ 255) :
    inetPton4Step ⟨true, k, done, c⟩ (Nat.digitChar d) = some ⟨true, k, done, c * 10 + d⟩ := by
  obtain ⟨h1, h2, -⟩ := digitChar_lt_ten d hd
  simp [inetPton4Step, h1, h2, h, Nat.pos_iff_ne_zero.1 hc]

theorem inetPton4Step_dot {k c : Nat} {done : List Nat} (hk : k ≠ 4) :
    inetPton4Step ⟨true, k, done, c⟩ '.' = some ⟨false, k, done ++ [c], 0⟩ := by
  simp [inetPton4Step, hk]

theorem foldlM_inetPton4Step_octet {k : Nat} {done : List Nat} (hk : k < 4) {n : Nat}
    (hn : n ≤ 255) :
    (Nat.toDigits 10 n).foldlM inetPton4Step ⟨false, k, done, 0⟩ = some ⟨true, k + 1, done, n⟩ := by
  induction n using Nat.strong_induction_on with
  | _ n ih =>
    rcases Nat.lt_or_ge n 10 with h | h
    · simp [toDigits_of_lt h, inetPton4Step_first hk h]
    · rw [toDigits_of_le (by decide) h, List.foldlM_append, ih (n / 10) (by omega) (by omega)]
      simp only [Option.pure_def, Option.bind_eq_bind, Option.some_bind, List.foldlM_cons,
        List.foldlM_nil]
      rw [inetPton4Step_next (by omega) (Nat.mod_lt _ (by decide)) (by omega)]
      simp only [Option.some_bind]
      congr 3
      omega

theorem toNat_toUInt8 (b : UInt8) : b.toNat.toUInt8 = b :=
  UInt8.toNat.inj (UInt8.toNat_ofNat_of_lt b.toNat_lt_size)

/-- `from_string` undoes `to_string` on every IPv4 address. -/
theorem inetPton4_inetNtop4 (a : AddressV4) : inetPton4 (inetNtop4 a.toList) = some a := by
  obtain ⟨l, hl⟩ := a
  match l, hl with
  | [b0, b1, b2, b3], _ =>
    have hb : ∀ b : UInt8, b.toNat ≤ 255 := fun b => Nat.le_of_lt_succ b.toNat_lt_size
    simp only [inetPton4, inetNtop4, List.getD_cons_zero, List.getD_cons_succ, List.foldlM_append,
      List.foldlM_cons, foldlM_inetPton4Step_octet (by decide : 0 < 4) (hb b0), Option.pure_def,
      Option.bind_eq_bind, Option.some_bind, inetPton4Step_dot (by decide : 1 ≠ 4),
      foldlM_inetPton4Step_octet (by decide : 1 < 4) (hb b1), inetPton4Step_dot (by decide : 2 ≠ 4),
      foldlM_inetPton4Step_octet (by decide : 2 < 4) (hb b2), inetPton4Step_dot (by decide : 3 ≠ 4),
      foldlM_inetPton4Step_octet (by decide : 3 < 4) (hb b3)]
    simp [Bytes.ofList?, toNat_toUInt8]

/-! ## What the parser accepts -/

theorem inetPton4Step_char {st st' : InetPton4State} {ch : Char} (h : inetPton4Step st ch = some st') :
    ch.isDigit = true ∨ ch = '.' := by
  unfold inetPton4Step at h
  split at h
  · exact .inl ‹_›
  · split at h
    · exact .inr (by simp_all)
    · cases h

theorem foldlM_inetPton4Step_chars : ∀ {src : List Char} {st st' : InetPton4State},
    src.foldlM inetPton4Step st = some st' → ∀ c ∈ src, c.isDigit = true ∨ c = '.'
  | [], _, _, _ => fun _ h => absurd h (List.not_mem_nil _)
  | ch :: _, st, _, h => by
    rw [List.foldlM_cons] at h
    obtain ⟨st1, h1, h2⟩ := Option.bind_eq_some.1 h
    exact List.forall_mem_cons.2 ⟨inetPton4Step_char h1, foldlM_inetPton4Step_chars h2⟩

theorem inetPton4_chars {src : List Char} {a : AddressV4} (h : inetPton4 src = some a) :
    ∀ c ∈ src, c.isDigit = true ∨ c = '.' :=
  foldlM_inetPton4Step_chars (Option.bind_eq_some.1 h).choose_spec.1

theorem inetPton4_eq_none_of_colon_mem {src : List Char} (h : ':' ∈ src) : inetPton4 src = none :=
  Option.eq_none_iff_forall_not_mem.2 fun _ ha => by simpa using inetPton4_chars ha ':' h

/-! ## Every accepted text is the printed one -/

/-- The finished octets, printed, each with the dot after it. -/
def dottedOctets (done : List Nat) : List Char := done.flatMap fun n => Nat.toDigits 10 n ++ ['.']

/-- What `inet_pton4` has read when its loop is in state `s`: the finished octets, each printed
with its dot, then the octet in `*tp` printed, once a digit of it was seen. The leading-zero
check keeps `*tp` printed as it was read. -/
def Pton4Read (s : InetPton4State) (text : List Char) : Prop :=
  (∀ n ∈ s.done, n ≤ 255) ∧ s.cur ≤ 255 ∧ s.octets ≤ 4 ∧
    if s.sawDigit then s.octets = s.done.length + 1 ∧ text = dottedOctets s.done ++ Nat.toDigits 10 s.cur
    else s.octets = s.done.length ∧ s.octets < 4 ∧ s.cur = 0 ∧ text = dottedOctets s.done

theorem pton4Read_init : Pton4Read ⟨false, 0, [], 0⟩ [] :=
  ⟨fun _ h => absurd h (List.not_mem_nil _), by decide, by decide, by decide⟩

theorem pton4Read_step {s s' : InetPton4State} {text : List Char} {ch : Char}
    (hs : Pton4Read s text) (h : inetPton4Step s ch = some s') : Pton4Read s' (text ++ [ch]) := by
  obtain ⟨hdone, hcur, hoct, hst⟩ := hs
  by_cases hd : ch.isDigit = true
  · rw [inetPton4Step, if_pos hd] at h
    obtain ⟨hd10, hch⟩ := digitChar_decimalValue hd
    cases hsd : s.sawDigit
    · simp only [hsd, Bool.false_eq_true, if_false] at hst
      obtain ⟨hlen, -, h0, rfl⟩ := hst
      simp only [hsd, h0, Bool.false_and, Bool.false_eq_true, if_false, Bool.not_false, if_true] at h
      split_ifs at h
      cases h
      dsimp only [Pton4Read]
      exact ⟨hdone, by omega, by omega, by simp [hlen, toDigits_of_lt hd10, hch]⟩
    · simp only [hsd, if_true] at hst
      obtain ⟨hlen, rfl⟩ := hst
      simp only [hsd, Bool.true_and, beq_iff_eq, Bool.not_true, Bool.false_eq_true, if_false] at h
      split_ifs at h with h0
      cases h
      dsimp only [Pton4Read]
      refine ⟨hdone, by omega, hoct, by simp [hsd, hlen], ?_⟩
      rw [toDigits_mul_ten_add (Nat.pos_of_ne_zero h0) hd10, hch, List.append_assoc]
  · rw [inetPton4Step, if_neg hd] at h
    split at h
    · next hdot =>
      simp only [Bool.and_eq_true, decide_eq_true_eq] at hdot
      obtain ⟨rfl, hsd⟩ := hdot
      simp only [hsd, if_true] at hst
      obtain ⟨hlen, rfl⟩ := hst
      split_ifs at h with h4
      cases h
      dsimp only [Pton4Read]
      refine ⟨fun n hn => ?_, by decide, hoct, by simp [dottedOctets, hlen]; omega⟩
      rcases List.mem_append.1 hn with hn | hn
      exacts [hdone n hn, List.mem_singleton.1 hn ▸ hcur]
    · cases h

theorem pton4Read_foldlM : ∀ {src text : List Char} {s s' : InetPton4State}, Pton4Read s text →
    src.foldlM inetPton4Step s = some s' → Pton4Read s' (text ++ src)
  | [], _, _, _, hs, h => by cases h; simpa using hs
  | _ :: _, _, _, _, hs, h => by
    rw [List.foldlM_cons] at h
    obtain ⟨s1, h1, h2⟩ := Option.bind_eq_some.1 h
    simpa using pton4Read_foldlM (pton4Read_step hs h1) h2

theorem toNat_toUInt8_of_le {n : Nat} (h : n ≤ 255) : n.toUInt8.toNat = n :=
  UInt8.toNat_ofNat_of_lt (Nat.lt_of_le_of_lt h (by decide))

/-- IPv4 text is canonical: every text `inet_pton4` accepts is the text `inet_ntop4` prints for
the address it reads. -/
theorem inetNtop4_inetPton4 {src : List Char} {a : AddressV4} (h : inetPton4 src = some a) :
    inetNtop4 a.toList = src := by
  obtain ⟨s, hs, ha⟩ := Option.bind_eq_some.1 h
  obtain ⟨hdone, hcur, hoct, hst⟩ := pton4Read_foldlM pton4Read_init hs
  split at ha
  · cases ha
  · cases hsd : s.sawDigit
    · simp only [hsd, Bool.false_eq_true, if_false] at hst
      omega
    · simp only [hsd, if_true, List.nil_append] at hst
      obtain ⟨hlen, rfl⟩ := hst
      have h3 : s.done.length = 3 := by omega
      rw [inetNtop4, Bytes.toList_of_ofList? ha]
      generalize s.done = done at hdone h3 ⊢
      match done, h3 with
      | [d0, d1, d2], _ =>
        simp [dottedOctets, toNat_toUInt8_of_le, hcur, hdone]

theorem mem_inetNtop4 {src : List UInt8} {c : Char} (h : c ∈ inetNtop4 src) :
    c.isDigit = true ∨ c = '.' := by
  simp only [inetNtop4, List.mem_append, List.mem_cons] at h
  have hd : ∀ n, c ∈ Nat.toDigits 10 n → c.isDigit = true := fun n hc => by
    obtain ⟨d, hd, rfl⟩ := mem_toDigits (by decide) hc
    exact (digitChar_lt_ten d hd).1
  rcases h with ((h | h | h) | h | h) | h | h <;> first | exact .inr h | exact .inl (hd _ h)

end Freelan
