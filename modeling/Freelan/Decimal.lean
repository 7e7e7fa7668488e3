import Freelan.Address

/-! # Decimal text

The numbers the code reads and writes in decimal: `boost::lexical_cast<unsigned int>`, which
reads a prefix length and a server's version, and glibc's `atoi`, which boost's `inet_pton`
wrapper applies to the scope id after `%`. `lexicalCastUInt_toDigits` reads back every number
`%u` prints.
-/

namespace Freelan

/-- The value of decimal digits, accumulated as `v * 10 + digit`. -/
def decimalNumber (v : Nat) (ds : List Char) : Nat := ds.foldl (fun v c => v * 10 + decimalValue c) v

theorem decimalNumber_append (v : Nat) (ds ds' : List Char) :
    decimalNumber v (ds ++ ds') = decimalNumber (decimalNumber v ds) ds' :=
  List.foldl_append ..

theorem decimalNumber_toDigits (n : Nat) : decimalNumber 0 (Nat.toDigits 10 n) = n := by
  induction n using Nat.strong_induction_on with
  | _ n ih =>
    rcases Nat.lt_or_ge n 10 with h | h
    · simp [toDigits_of_lt h, decimalNumber, (digitChar_lt_ten n h).2.1]
    · rw [toDigits_of_le (by decide) h, decimalNumber_append, ih _ (by omega)]
      simp [decimalNumber, (digitChar_lt_ten _ (Nat.mod_lt n (by decide))).2.1]
      omega

theorem isDigit_of_mem_toDigits {n : Nat} {c : Char} (h : c ∈ Nat.toDigits 10 n) :
    c.isDigit = true := by
  obtain ⟨d, hd, rfl⟩ := mem_toDigits (by decide) h
  exact (digitChar_lt_ten d hd).1

theorem toDigits_decimalNumber : ∀ {v : Nat} {ds : List Char}, 0 < v → (∀ c ∈ ds, c.isDigit = true) →
    Nat.toDigits 10 (decimalNumber v ds) = Nat.toDigits 10 v ++ ds
  | _, [], _, _ => by simp [decimalNumber]
  | v, c :: cs, hv, hd => by
    obtain ⟨h10, hc⟩ := digitChar_decimalValue (hd c (List.mem_cons_self _ _))
    rw [show decimalNumber v (c :: cs) = decimalNumber (v * 10 + decimalValue c) cs from rfl,
      toDigits_decimalNumber (by omega) fun x hx => hd x (List.mem_cons_of_mem _ hx),
      toDigits_mul_ten_add hv h10, hc, List.append_assoc, List.singleton_append]

theorem eq_replicate_append_toDigits : ∀ {ds : List Char}, ds ≠ [] → (∀ c ∈ ds, c.isDigit = true) →
    ∃ n, ds = List.replicate n '0' ++ Nat.toDigits 10 (decimalNumber 0 ds)
  | [], hne, _ => absurd rfl hne
  | c :: cs, _, hd => by
    obtain ⟨h10, hc⟩ := digitChar_decimalValue (hd c (List.mem_cons_self _ _))
    have hcs : ∀ x ∈ cs, x.isDigit = true := fun x hx => hd x (List.mem_cons_of_mem _ hx)
    have hstep : decimalNumber 0 (c :: cs) = decimalNumber (decimalValue c) cs := by
      simp [decimalNumber]
    rcases Nat.eq_zero_or_pos (decimalValue c) with h0 | hpos
    · have hc0 : c = '0' := by rw [← hc, h0]; rfl
      cases cs with
      | nil => exact ⟨0, by rw [hstep, h0, hc0]; rfl⟩
      | cons c' cs' =>
        obtain ⟨n, hn⟩ := eq_replicate_append_toDigits (List.cons_ne_nil _ _) hcs
        refine ⟨n + 1, ?_⟩
        rw [hstep, h0, List.replicate_succ, List.cons_append, ← hn, hc0]
    · refine ⟨0, ?_⟩
      rw [hstep, toDigits_decimalNumber hpos hcs, toDigits_of_lt h10, hc]
      rfl

/-- `boost::lexical_cast<unsigned int>`: an optional sign, then one or more decimal digits whose
value fits in 32 bits; a minus sign negates modulo `2^32`. Anything else throws
`bad_lexical_cast`. -/
def lexicalCastUInt (s : List Char) : Except Exception UInt32 :=
  let (neg, ds) : Bool × List Char := match s with
    | '-' :: ds => (true, ds)
    | '+' :: ds => (false, ds)
    | ds => (false, ds)
  if ds ≠ [] ∧ ds.all Char.isDigit ∧ decimalNumber 0 ds < 2 ^ 32 then
    let v := (decimalNumber 0 ds).toUInt32
    .ok (if neg then 0 - v else v)
  else .error .badLexicalCast

theorem lexicalCastUInt_digits {ds : List Char} (hne : ds ≠ []) (hd : ∀ c ∈ ds, c.isDigit) :
    lexicalCastUInt ds = if decimalNumber 0 ds < 2 ^ 32 then .ok (decimalNumber 0 ds).toUInt32
      else .error .badLexicalCast := by
  obtain ⟨c, cs, rfl⟩ := List.exists_cons_of_ne_nil hne
  have hc := hd c (List.mem_cons_self _ _)
  have hsign : c ≠ '-' ∧ c ≠ '+' := ⟨fun h => by simp [h] at hc, fun h => by simp [h] at hc⟩
  simp only [lexicalCastUInt]
  split <;> simp_all
  rw [if_neg (by omega)]

theorem lexicalCastUInt_toDigits (p : UInt32) : lexicalCastUInt (Nat.toDigits 10 p.toNat) = .ok p := by
  rw [lexicalCastUInt_digits (toDigits_ne_nil (by decide) _) fun _ => isDigit_of_mem_toDigits,
    decimalNumber_toDigits, if_pos (show p.toNat < 2 ^ 32 from p.toNat_lt_size)]
  exact congrArg _ (UInt32.toNat.inj (UInt32.toNat_ofNat_of_lt p.toNat_lt_size))

/-- The white space of the C locale, as `isspace` tests it. -/
def isCSpace (c : Char) : Bool :=
  c = ' ' || c = '\t' || c = '\n' || c = '\x0b' || c = '\x0c' || c = '\r'

/-- glibc's `atoi`, `(int) strtol (nptr, NULL, 10)`: white space skipped, an optional sign and
the longest run of decimal digits, 0 when there is none; `strtol` saturates at the bounds of a
64-bit `long`, and the conversion to `int` keeps the low 32 bits. -/
def atoi (s : List Char) : Int :=
  let (neg, ds) : Bool × List Char := match s.dropWhile isCSpace with
    | '-' :: ds => (true, ds)
    | '+' :: ds => (false, ds)
    | ds => (false, ds)
  let v : Int := decimalNumber 0 (ds.takeWhile Char.isDigit)
  let l : Int := if neg then max (-v) (-2 ^ 63) else min v (2 ^ 63 - 1)
  if l % 2 ^ 32 < 2 ^ 31 then l % 2 ^ 32 else l % 2 ^ 32 - 2 ^ 32

end Freelan
