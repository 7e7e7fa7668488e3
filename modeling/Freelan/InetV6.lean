import Freelan.InetV4

/-! # IPv6 text: `inet_ntop6` and `inet_pton6`

`address_v6::to_string` and `address_v6::from_string` go through glibc's `inet_ntop6` and
`inet_pton6`. The printer cuts the address into eight 16-bit words, finds the first longest run
of two or more zero words and writes it as `::`; an address whose first five words are zero
and sixth is `ffff`, or whose first six words are zero (and seventh is not), ends in a dotted
IPv4 address. This file gives the models and the three shapes the printed text takes
(`inetNtop6_of_none`, `inetNtop6_of_some`, `inetNtop6_of_encapsulated`).
-/

namespace Freelan

/-- The eight words of an IPv6 address: `words[i / 2] = (src[i] << 8) | src[i + 1]`. -/
def ntop6Words (src : List UInt8) : List Nat :=
  (List.range 8).map fun i => (src.getD (2 * i) 0).toNat * 256 + (src.getD (2 * i + 1) 0).toNat

/-- A run of zero words, `cur` and `best` in `inet_ntop6` (`base == -1` is `none`). -/
structure ZeroRun where
  base : Nat
  len : Nat
deriving DecidableEq

/-- `if (best.base == -1 || cur.len > best.len) best = cur;` for a run `cur` that has ended. -/
def ntop6Keep (cur best : Option ZeroRun) : Option ZeroRun :=
  match cur, best with
  | some c, some b => if c.len > b.len then some c else some b
  | some c, none => some c
  | none, b => b

/-- The first loop of `inet_ntop6` over the words from index `i` on, then the check of the last
run. -/
def ntop6FindRun : List Nat → Nat → Option ZeroRun → Option ZeroRun → Option ZeroRun
  | [], _, cur, best => ntop6Keep cur best
  | w :: ws, i, cur, best =>
    if w = 0 then
      ntop6FindRun ws (i + 1) (match cur with | none => some ⟨i, 1⟩ | some c => some ⟨c.base, c.len + 1⟩) best
    else ntop6FindRun ws (i + 1) none (ntop6Keep cur best)

/-- The run `inet_ntop6` compresses: the first longest run of zero words, if it has two words
or more (`if (best.base != -1 && best.len < 2) best.base = -1;`). -/
def ntop6Best (words : List Nat) : Option ZeroRun :=
  (ntop6FindRun words 0 none none).filter (2 ≤ ·.len)

/-- `i >= best.base && i < (best.base + best.len)`, false when there is no run. -/
def inRun (best : Option ZeroRun) (i : Nat) : Bool :=
  match best with
  | some r => r.base ≤ i && i < r.base + r.len
  | none => false

/-- `best.base == 0 && (best.len == 6 || (best.len == 5 && words[5] == 0xffff))`: the address
is printed with an embedded IPv4 address. -/
def ntop6Encapsulated (words : List Nat) (best : Option ZeroRun) : Bool :=
  match best with
  | some r => r.base == 0 && (r.len == 6 || (r.len == 5 && words.getD 5 0 == 0xffff))
  | none => false

/-- The printing loop of `inet_ntop6` over the words from index `i` on; it stops after an
embedded IPv4 address. -/
def ntop6Print (src : List UInt8) (enc : Bool) (best : Option ZeroRun) :
    List Nat → Nat → List Char
  | [], _ => []
  | w :: ws, i =>
    if inRun best i then
      (if best.map (·.base) = some i then [':'] else []) ++ ntop6Print src enc best ws (i + 1)
    else
      let sep := if i ≠ 0 then [':'] else []
      if i = 6 && enc then sep ++ inetNtop4 (src.drop 12)
      else sep ++ Nat.toDigits 16 w ++ ntop6Print src enc best ws (i + 1)

/-- glibc's `inet_ntop6`. -/
def inetNtop6 (src : List UInt8) : List Char :=
  let words := ntop6Words src
  let best := ntop6Best words
  ntop6Print src (ntop6Encapsulated words best) best words 0 ++
    if best.map (fun r => r.base + r.len) = some 8 then [':'] else []

/-- The variables of `inet_pton6`'s loop: the bytes before `tp`, `colonp` (as an offset),
`curtok` (the text from it to the end), `xdigits_seen` and `val`. -/
structure InetPton6State where
  tp : List UInt8
  colonp : Option Nat
  curtok : List Char
  xdigitsSeen : Nat
  val : Nat

/-- The loop of `inet_pton6`: `none` is `return 0`; after an embedded IPv4 address it stops
(`break`) with the rest of the text read by `inet_pton4`. -/
def inetPton6Loop : List Char → InetPton6State → Option InetPton6State
  | [], s => some s
  | ch :: src, s =>
    match hexDigitValue ch with
    | some digit =>
      if s.xdigitsSeen = 4 then none
      else
        -- `val <<= 4; val |= digit;`
        let val := s.val * 16 + digit
        if val > 0xffff then none
        else inetPton6Loop src { s with val := val, xdigitsSeen := s.xdigitsSeen + 1 }
    | none =>
      if ch = ':' then
        if s.xdigitsSeen = 0 then
          if s.colonp.isSome then none
          else inetPton6Loop src { s with curtok := src, colonp := some s.tp.length }
        else if src = [] then none
        else if s.tp.length + 2 > 16 then none
        else
          let tp := s.tp ++ [(s.val >>> 8).toUInt8, s.val.toUInt8]
          inetPton6Loop src { s with curtok := src, xdigitsSeen := 0, val := 0, tp := tp }
      else if ch = '.' && s.tp.length + 4 ≤ 16 then
        match inetPton4 s.curtok with
        | some a => some { s with tp := s.tp ++ a.toList, xdigitsSeen := 0 }
        | none => none
      else none

/-- `:: would expand to a zero-width field` apart, `memmove (endp - n, colonp, n)` and
`memset (colonp, 0, endp - n - colonp)`. -/
def pton6Expand (tp : List UInt8) (colonp : Nat) : List UInt8 :=
  tp.take colonp ++ List.replicate (16 - tp.length) 0 ++ tp.drop colonp

/-- The end of `inet_pton6` after its loop: the last word, the `::` expansion and the check
that sixteen bytes were written. -/
def inetPton6Finish (s : InetPton6State) : Option (Bytes 16) := do
  let tp ← if s.xdigitsSeen > 0 then
      if s.tp.length + 2 > 16 then none else some (s.tp ++ [(s.val >>> 8).toUInt8, s.val.toUInt8])
    else some s.tp
  let tp ← match s.colonp with
    | some colonp => if tp.length = 16 then none else some (pton6Expand tp colonp)
    | none => some tp
  Bytes.ofList? tp

/-- glibc's `inet_pton6` over the whole text; `none` when it returns 0. -/
def inetPton6 (src : List Char) : Option (Bytes 16) := do
  let src ← match src with
    | [] => none
    | ':' :: rest => if rest.head? = some ':' then some rest else none
    | _ => some src
  let s ← inetPton6Loop src ⟨[], none, src, 0, 0⟩
  inetPton6Finish s

/-! ## The shapes of a printed address -/

/-- Words written each after a colon, `:w:w...`. -/
def groups (ws : List Nat) : List Char := ws.flatMap fun w => ':' :: Nat.toDigits 16 w

/-- Words joined by colons, `w:w:...`. -/
def joinColon : List Nat → List Char
  | [] => []
  | w :: ws => Nat.toDigits 16 w ++ groups ws

@[simp] theorem groups_nil : groups [] = [] := rfl

@[simp] theorem groups_cons (w : Nat) (ws : List Nat) :
    groups (w :: ws) = ':' :: (Nat.toDigits 16 w ++ groups ws) := rfl

@[simp] theorem length_ntop6Words (src : List UInt8) : (ntop6Words src).length = 8 := by
  simp [ntop6Words]

/-- The words `base, ..., base + len - 1` exist and are zero. -/
def IsZeroRun (ws : List Nat) (r : ZeroRun) : Prop :=
  r.base + r.len ≤ ws.length ∧ ∀ j, r.base ≤ j → j < r.base + r.len → ws.getD j 1 = 0

theorem ntop6Keep_eq_some {cur best : Option ZeroRun} {r : ZeroRun}
    (h : ntop6Keep cur best = some r) : cur = some r ∨ best = some r := by
  unfold ntop6Keep at h
  split at h
  · split at h <;> simp_all
  · exact .inl h
  · exact .inr h

theorem ntop6FindRun_isZeroRun (W : List Nat) :
    ∀ (ws : List Nat) (i : Nat) (cur best : Option ZeroRun), W.drop i = ws →
      (∀ c, cur = some c → c.base + c.len = i ∧ IsZeroRun W c) →
      (∀ b, best = some b → IsZeroRun W b) →
      ∀ r, ntop6FindRun ws i cur best = some r → IsZeroRun W r
  | [], i, cur, best, _, hcur, hbest, r, h => by
    rcases ntop6Keep_eq_some h with h | h
    exacts [(hcur r h).2, hbest r h]
  | w :: ws, i, cur, best, hws, hcur, hbest, r, h => by
    have hi : i < W.length := by
      by_contra hle; rw [List.drop_eq_nil_of_le (by omega)] at hws; cases hws
    have hw : W.getD i 1 = w := by
      rw [List.getD_eq_getElem?_getD, ← Nat.add_zero i, ← List.getElem?_drop, hws,
        List.getElem?_cons_zero, Option.getD_some]
    have hws' : W.drop (i + 1) = ws := by rw [← List.drop_drop, hws]; rfl
    simp only [ntop6FindRun] at h
    split at h
    · next hw0 =>
      refine ntop6FindRun_isZeroRun W ws (i + 1) _ best hws' ?_ hbest r h
      intro c hc
      cases cur with
      | none =>
        cases hc
        refine ⟨rfl, show i + 1 ≤ W.length by omega, fun j hj hj' => ?_⟩
        rw [show j = i by dsimp at hj hj'; omega, hw, hw0]
      | some c' =>
        cases hc
        obtain ⟨hb, hlen, hz⟩ := hcur c' rfl
        refine ⟨by dsimp; omega, by dsimp; omega, fun j hj hj' => ?_⟩
        dsimp at hj hj'
        rcases Nat.lt_or_ge j i with hj'' | hj''
        · exact hz j hj (by omega)
        · rw [show j = i by omega, hw, hw0]
    · refine ntop6FindRun_isZeroRun W ws (i + 1) none _ hws' (by simp) ?_ r h
      intro b hb
      rcases ntop6Keep_eq_some hb with hb | hb
      exacts [(hcur b hb).2, hbest b hb]

theorem ntop6Best_isZeroRun {W : List Nat} {r : ZeroRun} (h : ntop6Best W = some r) :
    IsZeroRun W r ∧ 2 ≤ r.len := by
  rw [ntop6Best, Option.filter_eq_some] at h
  exact ⟨ntop6FindRun_isZeroRun W W 0 none none rfl (by simp) (by simp) r h.1, by simpa using h.2⟩

section print
variable (src : List UInt8) (enc : Bool) (best : Option ZeroRun)

theorem ntop6Print_append_out (henc : enc = false) :
    ∀ (ws rest : List Nat) {i : Nat}, 1 ≤ i → (∀ k < ws.length, inRun best (i + k) = false) →
      ntop6Print src enc best (ws ++ rest) i = groups ws ++ ntop6Print src enc best rest (i + ws.length)
  | [], _, _, _, _ => rfl
  | w :: ws, rest, i, hi, hrun => by
    have h0 := hrun 0 (Nat.succ_pos _)
    simp only [Nat.add_zero] at h0
    have h6 : (decide (i = 6) && enc) = false := by simp [henc]
    rw [List.cons_append, ntop6Print]
    simp only [h0, Bool.false_eq_true, if_false, h6,
      show i ≠ 0 by omega, ne_eq, not_false_eq_true, if_true, List.singleton_append,
      groups_cons, List.length_cons, List.append_assoc, List.cons_append]
    rw [ntop6Print_append_out henc ws rest (by omega) fun k hk => by
      rw [show i + 1 + k = i + (k + 1) by omega]; exact hrun (k + 1) (Nat.succ_lt_succ hk)]
    rw [show i + 1 + ws.length = i + (ws.length + 1) by omega]
    rfl

theorem ntop6Print_append_inside {r : ZeroRun} (hbest : best = some r) :
    ∀ (ws rest : List Nat) {k : Nat}, 1 ≤ k → k + ws.length ≤ r.len →
      ntop6Print src enc best (ws ++ rest) (r.base + k) =
        ntop6Print src enc best rest (r.base + k + ws.length)
  | [], _, _, _, _ => rfl
  | w :: ws, rest, k, hk, hlen => by
    simp only [List.length_cons] at hlen
    have hin : inRun best (r.base + k) = true := by simp [inRun, hbest]; omega
    have hb : (best.map (·.base) = some (r.base + k)) = False := by simp [hbest]; omega
    rw [List.cons_append, ntop6Print]
    simp only [hin, if_true, hb, if_false, List.nil_append]
    rw [show r.base + k + 1 = r.base + (k + 1) by omega,
      ntop6Print_append_inside hbest ws rest (by omega) (by omega)]
    simp only [List.length_cons]; congr 1; omega

theorem ntop6Print_append_run {r : ZeroRun} (hbest : best = some r) (ws rest : List Nat)
    (hlen : ws.length = r.len) (hpos : 0 < r.len) :
    ntop6Print src enc best (ws ++ rest) r.base = ':' :: ntop6Print src enc best rest (r.base + r.len) := by
  obtain _ | ⟨w, ws⟩ := ws
  · simp at hlen; omega
  · have hin : inRun best r.base = true := by simp [inRun, hbest, hpos]
    have hb : best.map (·.base) = some r.base := by simp [hbest]
    rw [List.cons_append, ntop6Print]
    simp only [hin, if_true, hb, List.singleton_append]
    rw [ntop6Print_append_inside src enc best hbest ws rest (k := 1) le_rfl (by simp at hlen; omega)]
    simp only [List.length_cons] at hlen
    congr 2; omega

theorem ntop6Print_zero (w : Nat) (rest : List Nat) (h : inRun best 0 = false) :
    ntop6Print src enc best (w :: rest) 0 = Nat.toDigits 16 w ++ ntop6Print src enc best rest 1 := by
  simp [ntop6Print, h]

end print

theorem ntop6Words_eq_cons (src : List UInt8) :
    ∃ w ws, ntop6Words src = w :: ws ∧ ws.length = 7 := by
  refine ⟨_, _, rfl, by simp [ntop6Words, List.range_succ]⟩

/-- With no run to compress, the eight words are written joined by colons. -/
theorem inetNtop6_of_none {src : List UInt8} (h : ntop6Best (ntop6Words src) = none) :
    inetNtop6 src = joinColon (ntop6Words src) := by
  obtain ⟨w, ws, hW, hlen⟩ := ntop6Words_eq_cons src
  rw [hW] at h
  simp only [inetNtop6, hW, h, Option.map_none', reduceCtorEq, if_false, List.append_nil]
  rw [show ntop6Encapsulated (w :: ws) none = false from rfl, ntop6Print_zero src false none w ws rfl,
    ← List.append_nil ws, ntop6Print_append_out src false none rfl ws [] le_rfl fun _ _ => rfl]
  simp [joinColon, ntop6Print]

theorem inRun_some_of_lt {r : ZeroRun} {i : Nat} (h : i < r.base) : inRun (some r) i = false := by
  simp [inRun]; omega

theorem inRun_some_of_ge {r : ZeroRun} {i : Nat} (h : r.base + r.len ≤ i) :
    inRun (some r) i = false := by
  simp [inRun]; omega

theorem ntop6Print_after_run (src : List UInt8) {enc : Bool} {r : ZeroRun} (henc : enc = false)
    (D : List Nat) (hr : 0 < r.base + r.len) :
    ntop6Print src enc (some r) D (r.base + r.len) = groups D := by
  rw [← List.append_nil D, ntop6Print_append_out src enc _ henc D [] (by omega)
    fun k _ => inRun_some_of_ge (by omega)]
  simp [ntop6Print]

/-- With a run to compress and no embedded IPv4 address: the words before the run joined by
colons, `::`, the words after it each after a colon (and one more colon when the run ends the
address). -/
theorem inetNtop6_of_some {src : List UInt8} {r : ZeroRun}
    (h : ntop6Best (ntop6Words src) = some r)
    (henc : ntop6Encapsulated (ntop6Words src) (some r) = false) :
    inetNtop6 src = joinColon ((ntop6Words src).take r.base) ++ ':' ::
      (groups ((ntop6Words src).drop (r.base + r.len)) ++
        if r.base + r.len = 8 then [':'] else []) := by
  obtain ⟨⟨hle, -⟩, hlen⟩ := ntop6Best_isZeroRun h
  simp only [inetNtop6, h, henc, Option.map_some', Option.some.injEq]
  suffices hprint : ∀ W : List Nat, W.length = 8 → r.base + r.len ≤ 8 →
      ntop6Print src false (some r) W 0 = joinColon (W.take r.base) ++ ':' :: groups (W.drop (r.base + r.len)) by
    rw [hprint _ (length_ntop6Words src) (by simpa using hle)]; simp
  intro W hW hle
  have hsplit : W.drop r.base = (W.drop r.base).take r.len ++ W.drop (r.base + r.len) := by
    rw [← List.drop_drop, List.take_append_drop]
  have hrun := ntop6Print_append_run src false (some r) rfl ((W.drop r.base).take r.len)
    (W.drop (r.base + r.len)) (by rw [List.length_take, List.length_drop]; omega) (by omega)
  rw [← hsplit, ntop6Print_after_run src rfl _ (by omega)] at hrun
  rcases Nat.eq_zero_or_pos r.base with h0 | h0
  · rw [h0] at hrun
    simp only [h0, List.take_zero, List.drop_zero, Nat.zero_add] at hrun ⊢
    simpa [joinColon] using hrun
  · obtain ⟨w, W', rfl⟩ : ∃ w W', W = w :: W' := by
      cases W with
      | nil => simp at hW
      | cons w W' => exact ⟨w, W', rfl⟩
    obtain ⟨b, hb⟩ : ∃ b, r.base = b + 1 := ⟨r.base - 1, by omega⟩
    have hW' : W' = W'.take b ++ W'.drop b := (List.take_append_drop _ _).symm
    rw [ntop6Print_zero src false (some r) w W' (inRun_some_of_lt h0), hW',
      ntop6Print_append_out src false _ rfl _ _ le_rfl fun k hk => inRun_some_of_lt (by
        rw [List.length_take] at hk; omega)]
    simp only [hb, List.take_succ_cons, List.drop_succ_cons, joinColon, List.append_assoc] at hrun ⊢
    rw [List.length_take_of_le (by simp at hW; omega), Nat.add_comm 1 b, hrun]
    simp [Nat.add_right_comm b 1]

/-- With an embedded IPv4 address: `::` and the dotted address, with `ffff:` between them for
an IPv4-mapped address. -/
theorem inetNtop6_of_encapsulated {src : List UInt8}
    (h : ntop6Encapsulated (ntop6Words src) (ntop6Best (ntop6Words src)) = true) :
    ∃ r, ntop6Best (ntop6Words src) = some r ∧ r.base = 0 ∧
      ((r.len = 6 ∧ inetNtop6 src = ':' :: ':' :: inetNtop4 (src.drop 12)) ∨
        (r.len = 5 ∧ (ntop6Words src).getD 5 0 = 0xffff ∧
          inetNtop6 src = ':' :: ':' :: (Nat.toDigits 16 0xffff ++ ':' :: inetNtop4 (src.drop 12)))) := by
  cases hbest : ntop6Best (ntop6Words src) with
  | none => rw [hbest] at h; cases h
  | some r =>
    rw [hbest] at h
    refine ⟨r, rfl, ?_⟩
    have henc := h
    simp only [ntop6Encapsulated, Bool.and_eq_true, beq_iff_eq, Bool.or_eq_true] at h
    obtain ⟨h0, h56⟩ := h
    refine ⟨h0, ?_⟩
    simp only [inetNtop6, hbest, henc, Option.map_some', Option.some.injEq]
    have hW := length_ntop6Words src
    generalize ntop6Words src = W at hW h56 ⊢
    match W, hW with
    | [w0, w1, w2, w3, w4, w5, w6, w7], _ =>
      rcases h56 with h6 | ⟨h5, hw5⟩
      · exact .inl ⟨h6, by simp [ntop6Print, inRun, h0, h6]⟩
      · refine .inr ⟨h5, hw5, ?_⟩
        simp only [List.getD_cons_succ, List.getD_cons_zero] at hw5
        simp [ntop6Print, inRun, h0, h5, hw5]

end Freelan
