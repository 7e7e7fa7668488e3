import Freelan.InetV6

/-! # `inet_pton6` reads back what `inet_ntop6` writes

The parser is run over each of the three shapes of a printed address. A word is read as a run of
at most four hexadecimal digits (`inetPton6Loop_digits`); a colon after a word stores it, a
colon after nothing marks the `::` (`inetPton6Loop_colon_store`, `inetPton6Loop_colon_mark`);
a dot hands the whole current token to `inet_pton4`. `inetPton6Loop_joinColon` chains these
over words joined by colons. A text without a colon is never an IPv6 address
(`inetPton6_eq_none_of_colon_not_mem`), which is what lets the union parse fall back to IPv4.
-/

namespace Freelan

/-- The bytes `inet_pton6` stores for words, high byte first. -/
def wordBytes (ws : List Nat) : List UInt8 := ws.flatMap fun w => [(w >>> 8).toUInt8, w.toUInt8]

@[simp] theorem wordBytes_nil : wordBytes [] = [] := rfl

@[simp] theorem wordBytes_cons (w : Nat) (ws : List Nat) :
    wordBytes (w :: ws) = (w >>> 8).toUInt8 :: w.toUInt8 :: wordBytes ws := rfl

theorem wordBytes_append (ws ws' : List Nat) : wordBytes (ws ++ ws') = wordBytes ws ++ wordBytes ws' :=
  List.flatMap_append ..

@[simp] theorem length_wordBytes (ws : List Nat) : (wordBytes ws).length = 2 * ws.length := by
  induction ws with
  | nil => rfl
  | cons w ws ih => simp [ih]; omega

theorem wordBytes_replicate_zero (n : Nat) : wordBytes (List.replicate n 0) = List.replicate (2 * n) 0 := by
  induction n with
  | zero => rfl
  | succ n ih => simp [List.replicate_succ, ih, Nat.mul_succ]; rfl

/-- The value of hexadecimal digits, as `val <<= 4; val |= digit` accumulates it. -/
def hexValue (v : Nat) (ds : List Char) : Nat := ds.foldl (fun v c => v * 16 + (hexDigitValue c).getD 0) v

theorem hexValue_append (v : Nat) (ds ds' : List Char) :
    hexValue v (ds ++ ds') = hexValue (hexValue v ds) ds' :=
  List.foldl_append ..

theorem hexValue_toDigits (w : Nat) : hexValue 0 (Nat.toDigits 16 w) = w := by
  induction w using Nat.strong_induction_on with
  | _ w ih =>
    rcases Nat.lt_or_ge w 16 with h | h
    · simp [toDigits_of_lt h, hexValue, (digitChar_lt_sixteen w h).1]
    · rw [toDigits_of_le (by decide) h, hexValue_append, ih _ (by omega)]
      simp [hexValue, (digitChar_lt_sixteen _ (Nat.mod_lt w (by decide))).1]
      omega

theorem inetPton6Loop_digits (tp : List UInt8) (cp : Option Nat) (ct rest : List Char) :
    ∀ (ds : List Char) (x v : Nat), (∀ c ∈ ds, (hexDigitValue c).isSome) →
      x + ds.length ≤ 4 → v < 16 ^ x →
      inetPton6Loop (ds ++ rest) ⟨tp, cp, ct, x, v⟩ =
        inetPton6Loop rest ⟨tp, cp, ct, x + ds.length, hexValue v ds⟩
  | [], x, v, _, _, _ => rfl
  | c :: ds, x, v, hds, hlen, hv => by
    obtain ⟨d, hd⟩ := Option.isSome_iff_exists.1 (hds c (List.mem_cons_self _ _))
    have hd16 := hexDigitValue_lt hd
    simp only [List.length_cons] at hlen
    have hv' : v * 16 + d < 16 ^ (x + 1) := by rw [Nat.pow_succ]; omega
    have h4 : 16 ^ (x + 1) ≤ 16 ^ 4 := Nat.pow_le_pow_right (by decide) (by omega)
    rw [List.cons_append, inetPton6Loop, hd]
    simp only [show x ≠ 4 by omega, if_false, show ¬ v * 16 + d > 0xffff by omega]
    rw [inetPton6Loop_digits tp cp ct rest ds (x + 1) _ (fun c hc => hds c (List.mem_cons_of_mem _ hc))
      (by omega) hv']
    rw [show x + 1 + ds.length = x + (ds.length + 1) by omega]
    simp [hexValue, hd]

theorem inetPton6Loop_word (tp : List UInt8) (cp : Option Nat) (ct rest : List Char) {w : Nat}
    (hw : w < 0x10000) :
    inetPton6Loop (Nat.toDigits 16 w ++ rest) ⟨tp, cp, ct, 0, 0⟩ =
      inetPton6Loop rest ⟨tp, cp, ct, (Nat.toDigits 16 w).length, w⟩ := by
  rw [inetPton6Loop_digits tp cp ct rest _ 0 0 (fun c hc => ?_)
    (by simpa using length_toDigits_le (by decide) (by decide : 0 < 4) hw) (by decide),
    Nat.zero_add, hexValue_toDigits]
  obtain ⟨d, hd, rfl⟩ := mem_toDigits (by decide) hc
  simp [(digitChar_lt_sixteen d hd).1]

theorem inetPton6Loop_colon_store {tp : List UInt8} {cp : Option Nat} {ct rest : List Char}
    {x v : Nat} (hx : 0 < x) (hrest : rest ≠ []) (htp : tp.length + 2 ≤ 16) :
    inetPton6Loop (':' :: rest) ⟨tp, cp, ct, x, v⟩ =
      inetPton6Loop rest ⟨tp ++ [(v >>> 8).toUInt8, v.toUInt8], cp, rest, 0, 0⟩ := by
  simp [inetPton6Loop, hexDigitValue, show x ≠ 0 by omega, hrest, show ¬ 16 < tp.length + 2 by omega]

theorem inetPton6Loop_colon_mark {tp : List UInt8} {ct rest : List Char} {v : Nat} :
    inetPton6Loop (':' :: rest) ⟨tp, none, ct, 0, v⟩ =
      inetPton6Loop rest ⟨tp, some tp.length, rest, 0, v⟩ := by
  simp [inetPton6Loop, hexDigitValue]

theorem inetPton6Loop_dot {s : InetPton6State} {rest : List Char} (htp : s.tp.length + 4 ≤ 16) :
    inetPton6Loop ('.' :: rest) s =
      (inetPton4 s.curtok).map fun a => { s with tp := s.tp ++ a.toList, xdigitsSeen := 0 } := by
  simp only [inetPton6Loop, hexDigitValue]
  simp only [show ¬ ('0' ≤ '.' ∧ '.' ≤ '9') by decide, show ¬ ('a' ≤ '.' ∧ '.' ≤ 'f') by decide,
    show ¬ ('A' ≤ '.' ∧ '.' ≤ 'F') by decide, if_false, show ('.' = ':') = False by decide,
    htp, decide_True, Bool.and_true]
  cases inetPton4 s.curtok <;> rfl

theorem toDigits_ne_nil_16 (w : Nat) : Nat.toDigits 16 w ≠ [] := toDigits_ne_nil (by decide) w

theorem inetPton6Loop_joinColon (cp : Option Nat) (rest : List Char) :
    ∀ (ws : List Nat) (w : Nat) (tp : List UInt8) (ct : List Char), (∀ u ∈ w :: ws, u < 0x10000) →
      tp.length + 2 * ws.length ≤ 16 →
      ∃ ct', inetPton6Loop (Nat.toDigits 16 w ++ groups ws ++ rest) ⟨tp, cp, ct, 0, 0⟩ =
        inetPton6Loop rest ⟨tp ++ wordBytes (w :: ws).dropLast, cp, ct',
          (Nat.toDigits 16 (ws.getLastD w)).length, ws.getLastD w⟩
  | [], w, tp, ct, hw, _ => ⟨ct, by simpa using inetPton6Loop_word tp cp ct rest (hw w (by simp))⟩
  | w' :: ws, w, tp, ct, hw, htp => by
    simp only [List.length_cons] at htp
    obtain ⟨ct', h⟩ := inetPton6Loop_joinColon cp rest ws w' (tp ++ [(w >>> 8).toUInt8, w.toUInt8])
      (Nat.toDigits 16 w' ++ groups ws ++ rest) (fun u hu => hw u (List.mem_cons_of_mem _ hu))
      (by simp; omega)
    refine ⟨ct', ?_⟩
    rw [groups_cons, List.append_assoc, List.cons_append, inetPton6Loop_word _ _ _ _ (hw w (by simp)),
      inetPton6Loop_colon_store (List.length_pos.2 (toDigits_ne_nil_16 w))
        (by simp [toDigits_ne_nil_16]) (by omega), h]
    rw [List.getLastD_cons]
    simp [List.dropLast_cons₂]

/-! ## The words of an address -/

theorem word_hi (hi lo : UInt8) : ((hi.toNat * 256 + lo.toNat) >>> 8).toUInt8 = hi := by
  have : lo.toNat < 256 := lo.toNat_lt_size
  rw [Nat.shiftRight_eq_div_pow, show (hi.toNat * 256 + lo.toNat) / 2 ^ 8 = hi.toNat by omega]
  exact toNat_toUInt8 hi

theorem word_lo (hi lo : UInt8) : (hi.toNat * 256 + lo.toNat).toUInt8 = lo := by
  have : lo.toNat < 256 := lo.toNat_lt_size
  exact UInt8.toNat.inj (show (hi.toNat * 256 + lo.toNat) % 256 = lo.toNat by omega)

theorem wordBytes_words : ∀ (k : Nat) (src : List UInt8), src.length = 2 * k →
    wordBytes ((List.range k).map fun i =>
      (src.getD (2 * i) 0).toNat * 256 + (src.getD (2 * i + 1) 0).toNat) = src
  | 0, [], _ => rfl
  | k + 1, hi :: lo :: src, h => by
    have hs : src.length = 2 * k := by simp only [List.length_cons] at h; omega
    rw [List.range_succ_eq_map, List.map_cons, List.map_map, wordBytes_cons]
    simp only [Function.comp_def, show ∀ i, 2 * (i + 1) = 2 * i + 1 + 1 from fun i => by omega,
      List.getD_cons_succ, List.getD_cons_zero, Nat.mul_zero, Nat.zero_add, word_hi, word_lo,
      wordBytes_words k src hs]
  | 0, _ :: _, h => by simp at h
  | _ + 1, [], h => by simp at h
  | _ + 1, [_], h => by simp at h; omega

theorem wordBytes_ntop6Words {src : List UInt8} (h : src.length = 16) :
    wordBytes (ntop6Words src) = src :=
  wordBytes_words 8 src h

theorem ntop6Words_lt (src : List UInt8) : ∀ w ∈ ntop6Words src, w < 0x10000 := by
  intro w hw
  simp only [ntop6Words, List.mem_map, List.mem_range] at hw
  obtain ⟨i, -, rfl⟩ := hw
  have h1 : (src.getD (2 * i) 0).toNat < 256 := UInt8.toNat_lt_size _
  have h2 : (src.getD (2 * i + 1) 0).toNat < 256 := UInt8.toNat_lt_size _
  omega

theorem take_wordBytes : ∀ (W : List Nat) (k : Nat), (wordBytes W).take (2 * k) = wordBytes (W.take k)
  | [], _ => by simp
  | _ :: _, 0 => rfl
  | w :: W, k + 1 => by
    rw [show 2 * (k + 1) = 2 * k + 1 + 1 by omega]
    simp [take_wordBytes W k]

theorem wordBytes_dropLast : ∀ (w : Nat) (ws : List Nat),
    wordBytes (w :: ws).dropLast ++ [((ws.getLastD w) >>> 8).toUInt8, (ws.getLastD w).toUInt8] =
      wordBytes (w :: ws)
  | _, [] => rfl
  | w, w' :: ws => by
    rw [List.dropLast_cons₂, List.getLastD_cons, wordBytes_cons, List.cons_append, List.cons_append,
      wordBytes_dropLast w' ws, wordBytes_cons w]

theorem take_drop_eq_replicate {W : List Nat} {b l : Nat} (hbl : b + l ≤ W.length)
    (hz : ∀ j, b ≤ j → j < b + l → W.getD j 1 = 0) : (W.drop b).take l = List.replicate l 0 := by
  refine List.ext_getElem (by rw [List.length_take, List.length_drop, List.length_replicate]; omega)
    fun i h1 _ => ?_
  have hi : i < l ∧ b + i < W.length := by rw [List.length_take, List.length_drop] at h1; omega
  simp only [List.getElem_take, List.getElem_drop, List.getElem_replicate]
  have := hz (b + i) (by omega) (by omega)
  rwa [List.getD_eq_getElem?_getD, List.getElem?_eq_getElem (by omega), Option.getD_some] at this

/-! ## The three shapes -/

theorem inetPton6_of_head {text : List Char} {c : Char} (h : text.head? = some c) (hc : c ≠ ':') :
    inetPton6 text = (inetPton6Loop text ⟨[], none, text, 0, 0⟩).bind inetPton6Finish := by
  match text, h with
  | c' :: rest, h =>
    cases h
    simp only [inetPton6]
    split
    · rename_i heq; cases heq
    · rename_i heq; simp only [List.cons.injEq] at heq; exact absurd heq.1 hc
    · rfl

theorem inetPton6_colon_colon (rest : List Char) :
    inetPton6 (':' :: ':' :: rest) =
      (inetPton6Loop (':' :: rest) ⟨[], none, ':' :: rest, 0, 0⟩).bind inetPton6Finish := by
  simp [inetPton6]

theorem head?_toDigits_16 (w : Nat) (rest : List Char) :
    ∃ c, (Nat.toDigits 16 w ++ rest).head? = some c ∧ c ≠ ':' := by
  obtain ⟨c, cs, hcs⟩ := List.exists_cons_of_ne_nil (toDigits_ne_nil_16 w)
  obtain ⟨d, hd, rfl⟩ := mem_toDigits (by decide) (hcs ▸ List.mem_cons_self c cs : c ∈ Nat.toDigits 16 w)
  exact ⟨_, by simp [hcs], (digitChar_lt_sixteen d hd).2.1⟩

theorem inetPton6Finish_pending {tp : List UInt8} {ct : List Char} {x v : Nat} (hx : 0 < x)
    (h : tp.length = 14) :
    inetPton6Finish ⟨tp, none, ct, x, v⟩ = Bytes.ofList? (tp ++ [(v >>> 8).toUInt8, v.toUInt8]) := by
  simp [inetPton6Finish, hx, h]

/-- Eight words joined by colons read back as their bytes. -/
theorem inetPton6_joinColon {W : List Nat} (hW : W.length = 8) (hlt : ∀ w ∈ W, w < 0x10000) :
    inetPton6 (joinColon W) = Bytes.ofList? (wordBytes W) := by
  obtain _ | ⟨w, ws⟩ := W
  · cases hW
  obtain ⟨c, hc, hc'⟩ := head?_toDigits_16 w (groups ws)
  rw [joinColon, inetPton6_of_head hc hc', ← List.append_nil (_ ++ _)]
  obtain ⟨ct', h⟩ := inetPton6Loop_joinColon none [] ws w [] _ hlt (by simp at hW ⊢; omega)
  rw [h, inetPton6Loop, Option.some_bind,
    inetPton6Finish_pending (List.length_pos.2 (toDigits_ne_nil_16 _)) (by simp at hW ⊢; omega),
    List.nil_append, wordBytes_dropLast]

theorem groups_append_trailing (D : List Nat) :
    groups D ++ (if D = [] then [':'] else []) = ':' :: joinColon D := by
  cases D <;> simp [joinColon]

theorem inetPton6Finish_gap_pending {tp : List UInt8} {c : Nat} {ct : List Char} {x v : Nat}
    (hx : 0 < x) (h : tp.length + 2 < 16) :
    inetPton6Finish ⟨tp, some c, ct, x, v⟩ =
      Bytes.ofList? (pton6Expand (tp ++ [(v >>> 8).toUInt8, v.toUInt8]) c) := by
  simp [inetPton6Finish, hx, show ¬ 16 < tp.length + 2 by omega, show tp.length + 2 ≠ 16 by omega]

theorem inetPton6Finish_gap {tp : List UInt8} {c : Nat} {ct : List Char} {v : Nat}
    (h : tp.length ≠ 16) :
    inetPton6Finish ⟨tp, some c, ct, 0, v⟩ = Bytes.ofList? (pton6Expand tp c) := by
  simp [inetPton6Finish, h]

theorem inetPton6_after_gap (tp : List UInt8) (ct : List Char) {D : List Nat}
    (hD : ∀ w ∈ D, w < 0x10000) (hlen : tp.length + 2 * D.length < 16) :
    (inetPton6Loop (joinColon D) ⟨tp, some tp.length, ct, 0, 0⟩).bind inetPton6Finish =
      Bytes.ofList? (pton6Expand (tp ++ wordBytes D) tp.length) := by
  obtain _ | ⟨d, D'⟩ := D
  · simp only [joinColon, inetPton6Loop, Option.some_bind, wordBytes_nil, List.append_nil]
    exact inetPton6Finish_gap (by omega)
  · simp only [List.length_cons] at hlen
    rw [joinColon, ← List.append_nil (_ ++ _)]
    obtain ⟨ct', h⟩ := inetPton6Loop_joinColon (some tp.length) [] D' d tp ct hD (by omega)
    rw [h, inetPton6Loop, Option.some_bind, inetPton6Finish_gap_pending
      (List.length_pos.2 (toDigits_ne_nil_16 _)) (by simp; omega), List.append_assoc,
      wordBytes_dropLast]

theorem inetPton6Loop_before_gap {ct R : List Char} (w : Nat) (P' : List Nat)
    (hP : ∀ u ∈ w :: P', u < 0x10000) (hlen : 2 * P'.length ≤ 14) :
    inetPton6Loop (joinColon (w :: P') ++ ':' :: ':' :: R) ⟨[], none, ct, 0, 0⟩ =
      inetPton6Loop R ⟨wordBytes (w :: P'), some (wordBytes (w :: P')).length, R, 0, 0⟩ := by
  rw [joinColon]
  obtain ⟨ct', h⟩ := inetPton6Loop_joinColon none (':' :: ':' :: R) P' w [] ct hP (by simp; omega)
  rw [h, inetPton6Loop_colon_store (List.length_pos.2 (toDigits_ne_nil_16 _)) (by simp)
    (by simp; omega), List.nil_append, wordBytes_dropLast, inetPton6Loop_colon_mark]

theorem pton6Expand_gap (P D : List Nat) (l : Nat) (h : P.length + l + D.length = 8) :
    pton6Expand (wordBytes P ++ wordBytes D) (2 * P.length) =
      wordBytes (P ++ List.replicate l 0 ++ D) := by
  simp only [pton6Expand, List.length_append, length_wordBytes, wordBytes_append,
    wordBytes_replicate_zero]
  rw [List.take_left' (by simp), List.drop_left' (by simp)]
  congr 3
  omega

/-- A printed address with a compressed run reads back as its bytes. -/
theorem inetPton6_compressed {W : List Nat} (hW : W.length = 8) (hlt : ∀ w ∈ W, w < 0x10000)
    {b l : Nat} (hl : 1 ≤ l) (hbl : b + l ≤ 8) (hz : ∀ j, b ≤ j → j < b + l → W.getD j 1 = 0) :
    inetPton6 (joinColon (W.take b) ++ ':' ::
        (groups (W.drop (b + l)) ++ if b + l = 8 then [':'] else [])) =
      Bytes.ofList? (wordBytes W) := by
  have hD : W.drop (b + l) = [] ↔ b + l = 8 := by simp [List.drop_eq_nil_iff, hW]; omega
  have hsplit : W = W.take b ++ List.replicate l 0 ++ W.drop (b + l) := by
    rw [← take_drop_eq_replicate (by omega) hz, List.append_assoc,
      ← List.drop_drop, List.take_append_drop, List.take_append_drop]
  have hPD := congrArg List.length hsplit
  simp only [List.length_append, List.length_replicate, hW] at hPD
  have hlt' : ∀ w ∈ W.drop (b + l), w < 0x10000 := fun w hw => hlt w (List.mem_of_mem_drop hw)
  simp only [← hD]
  rw [groups_append_trailing]
  conv_rhs => rw [hsplit]
  rw [← pton6Expand_gap _ _ l (by omega)]
  obtain ⟨P, hPe⟩ : ∃ P, W.take b = P := ⟨_, rfl⟩
  rw [hPe] at hPD ⊢
  obtain _ | ⟨w, P'⟩ := P
  · rw [joinColon, List.nil_append, inetPton6_colon_colon, inetPton6Loop_colon_mark]
    simpa using inetPton6_after_gap [] _ hlt' (by rw [List.length_nil] at hPD ⊢; omega)
  · obtain ⟨c, hc, hc'⟩ := head?_toDigits_16 w (groups P' ++ ':' :: ':' :: joinColon (W.drop (b + l)))
    have hP : ∀ u ∈ w :: P', u < 0x10000 := fun u hu => hlt u (List.mem_of_mem_take (hPe ▸ hu))
    rw [List.length_cons] at hPD
    rw [inetPton6_of_head (by simpa [joinColon] using hc) hc',
      inetPton6Loop_before_gap w P' hP (by omega)]
    have := inetPton6_after_gap (wordBytes (w :: P')) (joinColon (W.drop (b + l))) hlt'
      (by rw [length_wordBytes, List.length_cons]; omega)
    simpa using this

theorem inetPton6Loop_dotted {o : Nat} {rest ct : List Char} {tp : List UInt8} {cp : Option Nat}
    {v4 : AddressV4} (ho : o < 10 ^ 4) (hct : inetPton4 ct = some v4) (htp : tp.length + 4 ≤ 16) :
    inetPton6Loop (Nat.toDigits 10 o ++ '.' :: rest) ⟨tp, cp, ct, 0, 0⟩ =
      some ⟨tp ++ v4.toList, cp, ct, 0, hexValue 0 (Nat.toDigits 10 o)⟩ := by
  rw [inetPton6Loop_digits tp cp ct _ _ 0 0 (fun c hc => ?_)
    (by simpa using length_toDigits_le (by decide) (by decide : 0 < 4) ho) (by decide),
    inetPton6Loop_dot htp, hct]
  · rfl
  · obtain ⟨d, hd, rfl⟩ := mem_toDigits (by decide) hc
    simp [(digitChar_lt_ten d hd).2.2]

theorem inetNtop4_eq (l : List UInt8) :
    ∃ rest, inetNtop4 l = Nat.toDigits 10 (l.getD 0 0).toNat ++ '.' :: rest :=
  ⟨_, by simp only [inetNtop4, List.append_assoc, List.cons_append]; rfl⟩

theorem inetPton6Loop_inetNtop4 (v4 : AddressV4) (tp : List UInt8) (cp : Option Nat)
    (htp : tp.length + 4 ≤ 16) :
    ∃ v, inetPton6Loop (inetNtop4 v4.toList) ⟨tp, cp, inetNtop4 v4.toList, 0, 0⟩ =
      some ⟨tp ++ v4.toList, cp, inetNtop4 v4.toList, 0, v⟩ := by
  obtain ⟨rest, hr⟩ := inetNtop4_eq v4.toList
  have ho : (v4.toList.getD 0 0).toNat < 10 ^ 4 := by
    have := (v4.toList.getD 0 0).toNat_lt_size; simp only [UInt8.size] at this; omega
  have hct := inetPton4_inetNtop4 v4
  rw [hr] at hct ⊢
  exact ⟨_, inetPton6Loop_dotted ho hct htp⟩

/-- `::` then an IPv4 address: an IPv4-compatible address. -/
theorem inetPton6_compat (v4 : AddressV4) :
    inetPton6 (':' :: ':' :: inetNtop4 v4.toList) = Bytes.ofList? (List.replicate 12 0 ++ v4.toList) := by
  obtain ⟨v, h⟩ := inetPton6Loop_inetNtop4 v4 [] (some 0) (by simp)
  rw [inetPton6_colon_colon, inetPton6Loop_colon_mark, List.length_nil, h, Option.some_bind,
    inetPton6Finish_gap (by simp [v4.length_toList])]
  simp [pton6Expand, v4.length_toList]

/-- `::ffff:` then an IPv4 address: an IPv4-mapped address. -/
theorem inetPton6_mapped (v4 : AddressV4) :
    inetPton6 (':' :: ':' :: (Nat.toDigits 16 0xffff ++ ':' :: inetNtop4 v4.toList)) =
      Bytes.ofList? (List.replicate 10 0 ++ [255, 255] ++ v4.toList) := by
  obtain ⟨v, h⟩ := inetPton6Loop_inetNtop4 v4 [255, 255] (some 0) (by simp)
  obtain ⟨c, cs, hcs⟩ := List.exists_cons_of_ne_nil (toDigits_ne_nil (b := 10) (by decide)
    (v4.toList.getD 0 0).toNat)
  obtain ⟨rest, hr⟩ := inetNtop4_eq v4.toList
  rw [inetPton6_colon_colon, inetPton6Loop_colon_mark, List.length_nil,
    inetPton6Loop_word _ _ _ _ (by decide),
    inetPton6Loop_colon_store (List.length_pos.2 (toDigits_ne_nil (by decide) _))
      (by rw [hr, hcs]; simp) (by simp)]
  rw [show [((0xffff : Nat) >>> 8).toUInt8, (0xffff : Nat).toUInt8] = ([255, 255] : List UInt8) from rfl,
    List.nil_append, h, Option.some_bind, inetPton6Finish_gap (by simp [v4.length_toList])]
  simp [pton6Expand, v4.length_toList]

theorem toList_eq_take_append {a : Bytes 16} {P : List Nat}
    (h : (ntop6Words a.toList).take 6 = P) : wordBytes P ++ a.toList.drop 12 = a.toList := by
  have : a.toList.take 12 = wordBytes P := by
    calc a.toList.take 12 = (wordBytes (ntop6Words a.toList)).take (2 * 6) := by
          rw [wordBytes_ntop6Words a.length_toList]
      _ = wordBytes P := by rw [take_wordBytes, h]
  rw [← this, List.take_append_drop]

/-- `from_string` undoes `to_string` on every IPv6 address. -/
theorem inetPton6_inetNtop6 (a : Bytes 16) : inetPton6 (inetNtop6 a.toList) = some a := by
  have hbytes := wordBytes_ntop6Words a.length_toList
  have hW := length_ntop6Words a.toList
  have hlt := ntop6Words_lt a.toList
  cases hbest : ntop6Best (ntop6Words a.toList) with
  | none => rw [inetNtop6_of_none hbest, inetPton6_joinColon hW hlt, hbytes, Bytes.ofList?_toList]
  | some r =>
    obtain ⟨⟨hle, hz⟩, hlen⟩ := ntop6Best_isZeroRun hbest
    rw [hW] at hle
    cases henc : ntop6Encapsulated (ntop6Words a.toList) (some r) with
    | false =>
      rw [inetNtop6_of_some hbest henc, inetPton6_compressed hW hlt (by omega) hle hz, hbytes,
        Bytes.ofList?_toList]
    | true =>
      obtain ⟨r', hr', h0, h56⟩ := inetNtop6_of_encapsulated (by rw [hbest]; exact henc)
      rw [hbest] at hr'
      cases hr'
      let v4 : AddressV4 := ⟨a.toList.drop 12, by simp [a.length_toList]⟩
      have h5 := take_drop_eq_replicate (by omega) hz
      rw [h0, List.drop_zero] at h5
      rcases h56 with ⟨h6, htext⟩ | ⟨h5', hw5, htext⟩
      · rw [h6] at h5
        have hlist : List.replicate 12 0 ++ v4.toList = a.toList := by
          have := toList_eq_take_append h5
          rwa [wordBytes_replicate_zero] at this
        rw [htext, show inetNtop4 (a.toList.drop 12) = inetNtop4 v4.toList from rfl, inetPton6_compat,
          hlist, Bytes.ofList?_toList]
      · rw [h5'] at h5
        have h6 : (ntop6Words a.toList).take 6 = List.replicate 5 0 ++ [0xffff] := by
          rw [List.getD_eq_getElem?_getD, List.getElem?_eq_getElem (by simp), Option.getD_some] at hw5
          rw [List.take_succ, h5, List.getElem?_eq_getElem (by simp), hw5]
          rfl
        have hlist : List.replicate 10 0 ++ [255, 255] ++ v4.toList = a.toList := by
          have := toList_eq_take_append h6
          rwa [wordBytes_append, wordBytes_replicate_zero] at this
        rw [htext, show inetNtop4 (a.toList.drop 12) = inetNtop4 v4.toList from rfl, inetPton6_mapped,
          hlist, Bytes.ofList?_toList]

/-! ## Texts without a colon -/

theorem inetPton6Finish_of_colon_not_mem : ∀ {src : List Char} {s s' : InetPton6State},
    ':' ∉ src → s.tp = [] → s.colonp = none → inetPton6Loop src s = some s' →
      inetPton6Finish s' = none
  | [], s, s', _, htp, hcp, h => by
    cases h
    simp only [inetPton6Finish, htp, hcp, Bytes.ofList?]
    split <;> simp
  | ch :: src, s, s', hsrc, htp, hcp, h => by
    simp only [List.mem_cons, not_or] at hsrc
    simp only [inetPton6Loop] at h
    split at h
    · split_ifs at h
      exact inetPton6Finish_of_colon_not_mem hsrc.2 (by exact htp) (by exact hcp) h
    · rw [if_neg (Ne.symm hsrc.1)] at h
      split_ifs at h
      split at h <;> cases h
      simp [inetPton6Finish, htp, hcp, Bytes.ofList?, Bytes.length_toList]

/-- A text without a colon is not an IPv6 address; a printed IPv4 address is one. -/
theorem inetPton6_eq_none_of_colon_not_mem {src : List Char} (h : ':' ∉ src) :
    inetPton6 src = none := by
  match src, h with
  | [], _ => rfl
  | ':' :: _, h => simp at h
  | c :: rest, h =>
    rw [inetPton6_of_head (show (c :: rest).head? = some c from rfl) (fun hc => h (hc ▸ List.mem_cons_self _ _))]
    cases hl : inetPton6Loop (c :: rest) ⟨[], none, c :: rest, 0, 0⟩ with
    | none => rfl
    | some s => exact inetPton6Finish_of_colon_not_mem h rfl rfl hl

end Freelan
