import Mathlib.Data.Nat.Digits

/-! # Digits

The address texts and the prefix length are written with `printf`'s `%u` and `%x` and with
`operator<<` on an `unsigned int`, all of which write `Nat.toDigits`; the C parsers read the
digits back with `isdigit` and glibc's `hex_digit_value`. This file unfolds `Nat.toDigits` one
digit at a time and gives the digit characters their values, so that each parser's proof can
run it over a printed number by strong induction.
-/

namespace Freelan

/-- glibc's `hex_digit_value`: the value of a hexadecimal digit of either case (the codes of
`'0'`-`'9'`, `'a'`-`'f'` and `'A'`-`'F'` are 48-57, 97-102 and 65-70). -/
def hexDigitValue (c : Char) : Option Nat :=
  if 48 ≤ c.toNat ∧ c.toNat ≤ 57 then some (c.toNat - 48)
  else if 97 ≤ c.toNat ∧ c.toNat ≤ 102 then some (c.toNat - 97 + 10)
  else if 65 ≤ c.toNat ∧ c.toNat ≤ 70 then some (c.toNat - 65 + 10)
  else none

theorem hexDigitValue_lt {c : Char} {d : Nat} (h : hexDigitValue c = some d) : d < 16 := by
  unfold hexDigitValue at h
  split at h
  · cases h; omega
  · split at h
    · cases h; omega
    · split at h
      · cases h; omega
      · cases h

/-- `isxdigit`. -/
def isXDigit (c : Char) : Bool := (hexDigitValue c).isSome

/-- The value of a decimal digit, as `c - '0'`. -/
def decimalValue (c : Char) : Nat := c.toNat - 48

theorem digitChar_lt_ten : ∀ d < 10,
    (Nat.digitChar d).isDigit = true ∧ decimalValue (Nat.digitChar d) = d ∧
      hexDigitValue (Nat.digitChar d) = some d := by
  decide

theorem digitChar_decimalValue {c : Char} (h : c.isDigit = true) :
    decimalValue c < 10 ∧ Nat.digitChar (decimalValue c) = c := by
  simp only [Char.isDigit, Bool.and_eq_true, decide_eq_true_eq] at h
  have h1 : 48 ≤ c.toNat := h.1
  have h2 : c.toNat ≤ 57 := h.2
  refine ⟨by unfold decimalValue; omega, ?_⟩
  rw [← Char.ofNat_toNat c, decimalValue]
  generalize c.toNat = n at *
  interval_cases n <;> rfl

theorem digitChar_lt_sixteen : ∀ d < 16,
    hexDigitValue (Nat.digitChar d) = some d ∧ Nat.digitChar d ≠ ':' ∧ Nat.digitChar d ≠ '.' ∧
      Nat.digitChar d ≠ '/' := by
  decide

section toDigits
variable {b : Nat}

theorem div_lt_self_of_div_ne_zero (hb : 2 ≤ b) {n : Nat} (h : n / b ≠ 0) : n / b < n :=
  Nat.div_lt_self (Nat.pos_of_ne_zero fun h0 => h (by rw [h0, Nat.zero_div])) (by omega)

theorem toDigitsCore_append (hb : 2 ≤ b) :
    ∀ {fuel n : Nat} (ds : List Char), n < fuel →
      Nat.toDigitsCore b fuel n ds = Nat.toDigitsCore b fuel n [] ++ ds
  | 0, _, _, h => absurd h (Nat.not_lt_zero _)
  | fuel + 1, n, ds, h => by
    simp only [Nat.toDigitsCore]
    split
    · rfl
    next hq =>
      have : n / b < fuel := by have := div_lt_self_of_div_ne_zero hb hq; omega
      rw [toDigitsCore_append hb _ this, toDigitsCore_append hb [_] this]
      simp

theorem toDigitsCore_fuel (hb : 2 ≤ b) :
    ∀ {f g n : Nat} (ds : List Char), n < f → n < g →
      Nat.toDigitsCore b f n ds = Nat.toDigitsCore b g n ds
  | 0, _, _, _, h, _ => absurd h (Nat.not_lt_zero _)
  | _, 0, _, _, _, h => absurd h (Nat.not_lt_zero _)
  | f + 1, g + 1, n, ds, hf, hg => by
    simp only [Nat.toDigitsCore]
    split
    · rfl
    next hq =>
      have := div_lt_self_of_div_ne_zero hb hq
      exact toDigitsCore_fuel hb _ (by omega) (by omega)

theorem toDigits_of_lt {n : Nat} (h : n < b) : Nat.toDigits b n = [Nat.digitChar n] := by
  simp [Nat.toDigits, Nat.toDigitsCore, Nat.mod_eq_of_lt h, Nat.div_eq_of_lt h]

theorem toDigits_of_le (hb : 2 ≤ b) {n : Nat} (h : b ≤ n) :
    Nat.toDigits b n = Nat.toDigits b (n / b) ++ [Nat.digitChar (n % b)] := by
  have hpos : n / b ≠ 0 := by
    have := (Nat.le_div_iff_mul_le (by omega)).2 (by omega : 1 * b ≤ n); omega
  have hlt : n / b < n := div_lt_self_of_div_ne_zero hb hpos
  conv_lhs => rw [Nat.toDigits, Nat.toDigitsCore]
  simp only [hpos, if_false]
  rw [toDigitsCore_append hb _ hlt, toDigitsCore_fuel hb [] hlt (Nat.lt_succ_self _)]
  rfl

theorem toDigits_mul_ten_add {n d : Nat} (hn : 0 < n) (hd : d < 10) :
    Nat.toDigits 10 (n * 10 + d) = Nat.toDigits 10 n ++ [Nat.digitChar d] := by
  rw [toDigits_of_le (by decide) (by omega), show (n * 10 + d) / 10 = n by omega,
    show (n * 10 + d) % 10 = d by omega]

theorem toDigits_ne_nil (hb : 2 ≤ b) (n : Nat) : Nat.toDigits b n ≠ [] := by
  rcases Nat.lt_or_ge n b with h | h
  · simp [toDigits_of_lt h]
  · simp [toDigits_of_le hb h]

theorem mem_toDigits (hb : 2 ≤ b) {n : Nat} {c : Char} (h : c ∈ Nat.toDigits b n) :
    ∃ d < b, c = Nat.digitChar d := by
  induction n using Nat.strong_induction_on with
  | _ n ih =>
    rcases Nat.lt_or_ge n b with hn | hn
    · rw [toDigits_of_lt hn, List.mem_singleton] at h; exact ⟨n, hn, h⟩
    · rw [toDigits_of_le hb hn, List.mem_append, List.mem_singleton] at h
      rcases h with h | h
      · exact ih _ (div_lt_self_of_div_ne_zero hb (by
          have := (Nat.le_div_iff_mul_le (by omega)).2 (by omega : 1 * b ≤ n); omega)) h
      · exact ⟨n % b, Nat.mod_lt _ (by omega), h⟩

theorem length_toDigits_le (hb : 2 ≤ b) {n k : Nat} (hk : 0 < k) (h : n < b ^ k) :
    (Nat.toDigits b n).length ≤ k := by
  induction k generalizing n with
  | zero => omega
  | succ k ih =>
    rcases Nat.lt_or_ge n b with hn | hn
    · simp [toDigits_of_lt hn]
    · have hk' : 0 < k := Nat.pos_of_ne_zero fun h0 => by subst h0; simp at h; omega
      rw [toDigits_of_le hb hn, List.length_append, List.length_singleton]
      have := ih hk' (Nat.div_lt_of_lt_mul (by rwa [Nat.mul_comm, ← Nat.pow_succ]))
      omega

end toDigits

end Freelan
