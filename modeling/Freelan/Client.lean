import Freelan.Json

/-! # The client's flat JSON codec

`values_to_json` writes a `client::values_type` as a JSON object of strings, passing each
string with its length; `json_to_values` parses the text and copies each member back through
`GetString()`, a `const char*`, into `std::string`, which stops at the first NUL. The text in
between keeps every byte (`parseDocument_valuesToJson`), so the codec round-trips exactly the maps
with no NUL byte in a key or a value (`jsonToValues_valuesToJson`); a NUL cuts the string short
(`jsonToValues_valuesToJson_nul`), and two keys that agree up to a NUL become one.
-/

namespace Freelan

/-- `std::string`'s `operator<`: lexicographic, comparing `char`s as `unsigned char`. -/
def keyLt : List UInt8 → List UInt8 → Bool
  | [], [] => false
  | [], _ :: _ => true
  | _ :: _, [] => false
  | a :: as, b :: bs => a < b || (a = b && keyLt as bs)

section keyLt

theorem uint8_lt_iff {x y : UInt8} : x < y ↔ x.toNat < y.toNat := Iff.rfl

@[simp] theorem keyLt_irrefl : ∀ a : List UInt8, keyLt a a = false
  | [] => rfl
  | a :: as => by simp [keyLt, keyLt_irrefl as]

theorem keyLt_trans : ∀ {a b c : List UInt8}, keyLt a b = true → keyLt b c = true →
    keyLt a c = true
  | [], _ :: _, _ :: _, _, _ => rfl
  | x :: as, y :: bs, z :: cs, h1, h2 => by
    simp only [keyLt, Bool.or_eq_true, decide_eq_true_eq, Bool.and_eq_true] at h1 h2 ⊢
    rcases h1 with h1 | ⟨rfl, h1⟩ <;> rcases h2 with h2 | ⟨rfl, h2⟩
    · exact .inl (UInt8.lt_trans h1 h2)
    · exact .inl h1
    · exact .inl h2
    · exact .inr ⟨rfl, keyLt_trans h1 h2⟩
  | [], [], _, h, _ => by simp [keyLt] at h
  | _ :: _, [], _, h, _ => by simp [keyLt] at h
  | _, _ :: _, [], _, h => by simp [keyLt] at h

theorem keyLt_total : ∀ {a b : List UInt8}, keyLt a b = false → keyLt b a = false → a = b
  | [], [], _, _ => rfl
  | [], _ :: _, h, _ => by simp [keyLt] at h
  | _ :: _, [], _, h => by simp [keyLt] at h
  | x :: as, y :: bs, h1, h2 => by
    simp only [keyLt, Bool.or_eq_false_iff, decide_eq_false_iff_not, Bool.and_eq_false_iff,
      uint8_lt_iff] at h1 h2
    have hxy : x = y := UInt8.toNat.inj (by omega)
    subst hxy
    simp only [not_true_eq_false, false_or] at h1 h2
    rw [keyLt_total h1.2 h2.2]

end keyLt

/-! ## The map -/

/-- `values[key] = value` on a map's entries: the key's entry replaced, or a new one in its
place in the order. -/
def insertEntry (k v : List UInt8) :
    List (List UInt8 × List UInt8) → List (List UInt8 × List UInt8)
  | [] => [(k, v)]
  | e :: es =>
    if keyLt k e.1 then (k, v) :: e :: es
    else if k = e.1 then (k, v) :: es
    else e :: insertEntry k v es

theorem mem_insertEntry {k v : List UInt8} :
    ∀ {es : List (List UInt8 × List UInt8)} {x}, x ∈ insertEntry k v es → x = (k, v) ∨ x ∈ es
  | [], _, h => by simpa [insertEntry] using h
  | e :: es, x, h => by
    unfold insertEntry at h
    simp only [List.mem_cons]
    split_ifs at h <;> simp only [List.mem_cons] at h
    · exact h
    · exact h.imp_right .inr
    · rcases h with h | h
      · exact .inr (.inl h)
      · exact (mem_insertEntry h).imp_right .inr

theorem pairwise_insertEntry (k v : List UInt8) :
    ∀ {es : List (List UInt8 × List UInt8)}, es.Pairwise (fun a b => keyLt a.1 b.1 = true) →
      (insertEntry k v es).Pairwise fun a b => keyLt a.1 b.1 = true
  | [], _ => by simp [insertEntry]
  | e :: es, h => by
    obtain ⟨he, hes⟩ := List.pairwise_cons.1 h
    unfold insertEntry
    split_ifs with hlt heq
    · exact List.Pairwise.cons (fun x hx => by
        rcases List.mem_cons.1 hx with rfl | hx
        exacts [hlt, keyLt_trans hlt (he x hx)]) h
    · subst heq; exact List.Pairwise.cons he hes
    · have hgt : keyLt e.1 k = true := by
        cases hk : keyLt e.1 k
        · exact absurd (keyLt_total (by simpa using hlt) hk) heq
        · rfl
      refine List.Pairwise.cons (fun x hx => ?_) (pairwise_insertEntry k v hes)
      rcases mem_insertEntry hx with rfl | hx
      exacts [hgt, he x hx]

/-- Modelled from the spec: `client::values_type` (declared in `client.hpp`, which is not part of
the source), a map from strings to strings; as a `std::map`, its entries in increasing key
order. -/
@[ext] structure ValuesType where
  entries : List (List UInt8 × List UInt8)
  sorted : entries.Pairwise fun a b => keyLt a.1 b.1 = true
deriving DecidableEq

namespace ValuesType

/-- The empty map, as `values.clear()` leaves it. -/
def empty : ValuesType := ⟨[], List.Pairwise.nil⟩

/-- `values[key] = value`. -/
def insert (values : ValuesType) (k v : List UInt8) : ValuesType :=
  ⟨insertEntry k v values.entries, pairwise_insertEntry k v values.sorted⟩

end ValuesType

/-! ## Lookup -/

/-- The value of the first entry with key `k`. -/
def findEntry (k : List UInt8) : List (List UInt8 × List UInt8) → Option (List UInt8)
  | [] => none
  | e :: es => if e.1 = k then some e.2 else findEntry k es

theorem findEntry_append (k : List UInt8) (es es' : List (List UInt8 × List UInt8)) :
    findEntry k (es ++ es') = (findEntry k es).or (findEntry k es') := by
  induction es with
  | nil => rfl
  | cons e es ih => by_cases h : e.1 = k <;> simp [findEntry, h, ih]

theorem mem_of_findEntry {k v : List UInt8} :
    ∀ {es : List (List UInt8 × List UInt8)}, findEntry k es = some v → (k, v) ∈ es
  | (k0, v0) :: es, h => by
    unfold findEntry at h
    split at h
    · next hk => cases h; cases hk; exact .head _
    · exact .tail _ (mem_of_findEntry h)

theorem findEntry_of_lt {k : List UInt8} {es : List (List UInt8 × List UInt8)}
    (h : ∀ e ∈ es, keyLt k e.1 = true) : findEntry k es = none := by
  cases hf : findEntry k es with
  | none => rfl
  | some v => simpa using h _ (mem_of_findEntry hf)

theorem findEntry_of_lt_head {k : List UInt8} {e : List UInt8 × List UInt8}
    {l : List (List UInt8 × List UInt8)} (hs : (e :: l).Pairwise (fun a b => keyLt a.1 b.1 = true))
    (hlt : keyLt k e.1 = true) : findEntry k (e :: l) = none :=
  findEntry_of_lt fun x hx => by
    rcases List.mem_cons.1 hx with rfl | hx
    exacts [hlt, keyLt_trans hlt (List.rel_of_pairwise_cons hs hx)]

theorem findEntry_insertEntry (k v k' : List UInt8) :
    ∀ es : List (List UInt8 × List UInt8),
      findEntry k' (insertEntry k v es) = if k = k' then some v else findEntry k' es
  | [] => rfl
  | (k0, v0) :: es => by
    unfold insertEntry
    dsimp only
    by_cases hlt : keyLt k k0 = true
    · rw [if_pos hlt]; rfl
    by_cases heq : k = k0
    · subst heq
      rw [if_neg hlt, if_pos rfl]
      by_cases h : k = k' <;> simp [findEntry, h]
    · rw [if_neg hlt, if_neg heq, findEntry, findEntry, findEntry_insertEntry k v k' es]
      by_cases h : k0 = k'
      · subst h; simp [heq]
      · simp [h]

theorem eq_of_findEntry : ∀ {l l' : List (List UInt8 × List UInt8)},
    l.Pairwise (fun a b => keyLt a.1 b.1 = true) → l'.Pairwise (fun a b => keyLt a.1 b.1 = true) →
      (∀ k, findEntry k l = findEntry k l') → l = l'
  | [], [], _, _, _ => rfl
  | [], e :: _, _, _, h => by simpa [findEntry] using (h e.1).symm
  | e :: _, [], _, _, h => by simpa [findEntry] using h e.1
  | e :: l, e' :: l', hs, hs', h => by
    obtain ⟨he, hl⟩ := List.pairwise_cons.1 hs
    obtain ⟨he', hl'⟩ := List.pairwise_cons.1 hs'
    have h1 : findEntry e.1 (e' :: l') = some e.2 := by rw [← h]; simp [findEntry]
    have h2 : findEntry e'.1 (e :: l) = some e'.2 := by rw [h]; simp [findEntry]
    have hkey : e.1 = e'.1 := keyLt_total
      (Bool.eq_false_iff.2 fun hlt => by rw [findEntry_of_lt_head hs' hlt] at h1; cases h1)
      (Bool.eq_false_iff.2 fun hlt => by rw [findEntry_of_lt_head hs hlt] at h2; cases h2)
    have hval : e.2 = e'.2 := (by simpa [findEntry, hkey] using h1 : e'.2 = e.2).symm
    refine congrArg₂ _ (Prod.ext hkey hval) (eq_of_findEntry hl hl' fun k => ?_)
    by_cases hk : e.1 = k
    · subst hk
      rw [findEntry_of_lt he, findEntry_of_lt (hkey ▸ he')]
    · simpa [findEntry, hk, ← hkey] using h k

namespace ValuesType

/-- `values.find(key)`: the value stored under `key`, if there is one. -/
def find (values : ValuesType) (k : List UInt8) : Option (List UInt8) := findEntry k values.entries

@[simp] theorem find_empty (k : List UInt8) : empty.find k = none := rfl

theorem find_insert (values : ValuesType) (k v k' : List UInt8) :
    (values.insert k v).find k' = if k = k' then some v else values.find k' :=
  findEntry_insertEntry k v k' values.entries

theorem ext_find {a b : ValuesType} (h : ∀ k, a.find k = b.find k) : a = b :=
  ValuesType.ext (eq_of_findEntry a.sorted b.sorted h)

/-- Inserting entries one after another: a key's value is the last one inserted under it. -/
theorem find_foldl_insert (k : List UInt8) :
    ∀ (es : List (List UInt8 × List UInt8)) (values : ValuesType),
      (es.foldl (fun v e => v.insert e.1 e.2) values).find k =
        (findEntry k es.reverse).or (values.find k)
  | [], _ => rfl
  | e :: es, values => by
    rw [List.foldl_cons, find_foldl_insert k es, find_insert, List.reverse_cons, findEntry_append,
      Option.or_assoc]
    by_cases h : e.1 = k <;> simp [findEntry, h]

end ValuesType

/-! ## The codec -/

/-- `values_to_json`: the object the writer builds, one `String` for each key and value, taken
back from `GetString()` as a C string. -/
def valuesToJson (values : ValuesType) : List UInt8 :=
  cBytes (values.entries.foldl (fun w e => (w.string e.1).string e.2)
    (Writer.startObject ⟨[], []⟩)).endObject.os

/-- One pass of `json_to_values`'s loop over the members: `values[name] = value`, both taken
from `GetString()` as C strings, or the exception for a value that is not a string. -/
def jsonMember (values : ValuesType) (m : List UInt8 × JsonValue) : Except Exception ValuesType :=
  match m.2 with
  | .string value => .ok (values.insert (cBytes m.1) (cBytes value))
  | _ => .error (.runtimeError (asciiBytes "JSON document parse error: values must be strings (" ++
      cBytes m.1 ++ asciiBytes ")."))

/-- `json_to_values`: the map it fills, or the exception it throws. -/
def jsonToValues (json : List UInt8) : Except Exception ValuesType :=
  match parseDocument (cBytes json) with
  | none => .error (.runtimeError (asciiBytes "JSON syntax parse error."))
  | some (.object ms) => ms.foldlM jsonMember ValuesType.empty
  | some _ => .error (.runtimeError (asciiBytes "JSON document parse error: root must be an object."))

/-! ## Reading back what `values_to_json` wrote -/

theorem insertEntry_of_lt (k v : List UInt8) :
    ∀ {es : List (List UInt8 × List UInt8)}, (∀ e ∈ es, keyLt e.1 k = true) →
      insertEntry k v es = es ++ [(k, v)]
  | [], _ => rfl
  | e :: es, h => by
    have hlt := h e (List.mem_cons_self _ _)
    have hgt : keyLt k e.1 = false := by
      cases hk : keyLt k e.1
      · rfl
      · simpa using keyLt_trans hlt hk
    have hne : k ≠ e.1 := by rintro rfl; simp at hlt
    rw [insertEntry, if_neg (by simp [hgt]), if_neg hne,
      insertEntry_of_lt k v fun x hx => h x (List.mem_cons_of_mem _ hx)]
    rfl

/-- Inserting a map's entries in their order, after smaller keys, rebuilds it. -/
theorem foldl_insert_sorted (es : List (List UInt8 × List UInt8)) :
    ∀ values : ValuesType, (values.entries ++ es).Pairwise (fun a b => keyLt a.1 b.1 = true) →
      (es.foldl (fun v e => v.insert e.1 e.2) values).entries = values.entries ++ es := by
  induction es with
  | nil => simp
  | cons e es ih =>
    intro values h
    have hlt : ∀ x ∈ values.entries, keyLt x.1 e.1 = true := fun x hx =>
      List.pairwise_append.1 h |>.2.2 x hx e (List.mem_cons_self _ _)
    rw [List.foldl_cons, ih _ (by simpa [ValuesType.insert, insertEntry_of_lt _ _ hlt] using h)]
    simp [ValuesType.insert, insertEntry_of_lt _ _ hlt]

theorem valuesToJson_eq (values : ValuesType) :
    valuesToJson values = 123 :: membersText values.entries ++ [125] := by
  rw [valuesToJson, writer_object, cBytes_of_forall]
  rintro c hc rfl
  exact zero_not_mem_object _ hc

theorem foldlM_jsonMember (es : List (List UInt8 × List UInt8)) :
    ∀ values : ValuesType, (es.map stringMember).foldlM jsonMember values =
      .ok (es.foldl (fun v e => v.insert (cBytes e.1) (cBytes e.2)) values) := by
  induction es with
  | nil => intro; rfl
  | cons e es ih => intro values; simp [jsonMember, stringMember, ih]

theorem jsonMember_not_string {values : ValuesType} {name : List UInt8} {v : JsonValue}
    (hv : ∀ s, v ≠ .string s) :
    jsonMember values (name, v) = .error (.runtimeError
      (asciiBytes "JSON document parse error: values must be strings (" ++ cBytes name ++
        asciiBytes ").")) := by
  unfold jsonMember
  split
  · exact absurd ‹_› (hv _)
  · rfl

/-- `json_to_values`'s loop throws exactly when a member's value is not a string, and the
message names the first such member, as a C string. -/
theorem foldlM_jsonMember_error (e : Exception) :
    ∀ (ms : List (List UInt8 × JsonValue)) (values : ValuesType),
      ms.foldlM jsonMember values = .error e ↔
        ∃ pre name v post, ms = pre ++ (name, v) :: post ∧ (∀ m ∈ pre, ∃ s, m.2 = .string s) ∧
          (∀ s, v ≠ .string s) ∧
          e = .runtimeError (asciiBytes "JSON document parse error: values must be strings (" ++
            cBytes name ++ asciiBytes ").")
  | [], values => by
    refine ⟨(nomatch ·), fun ⟨pre, _, _, _, h, _⟩ => ?_⟩
    cases pre <;> cases h
  | (name, v) :: ms, values => by
    rw [List.foldlM_cons]
    by_cases hv : ∃ s, v = .string s
    · obtain ⟨s, rfl⟩ := hv
      rw [show jsonMember values (name, .string s) = .ok _ from rfl, ok_bind,
        foldlM_jsonMember_error e ms]
      constructor
      · rintro ⟨pre, name', v', post, rfl, hpre, hv', he⟩
        refine ⟨(name, .string s) :: pre, name', v', post, rfl, ?_, hv', he⟩
        rintro m (_ | ⟨_, hm⟩)
        exacts [⟨s, rfl⟩, hpre m hm]
      · rintro ⟨_ | ⟨p, pre⟩, name', v', post, hms, hpre, hv', he⟩
        · cases hms; exact absurd rfl (hv' s)
        · cases hms
          exact ⟨pre, name', v', post, rfl, fun m hm => hpre m (List.mem_cons_of_mem _ hm), hv', he⟩
    · have hv' : ∀ s, v ≠ .string s := fun s h => hv ⟨s, h⟩
      rw [jsonMember_not_string hv', error_bind]
      constructor
      · rintro ⟨⟩
        exact ⟨[], name, v, ms, rfl, nofun, hv', rfl⟩
      · rintro ⟨_ | ⟨p, pre⟩, name', v', post, hms, hpre, -, rfl⟩
        · cases hms; rfl
        · cases hms
          exact absurd (hpre _ (List.mem_cons_self _ _)) hv

theorem jsonToValues_valuesToJson_eq (values : ValuesType) :
    jsonToValues (valuesToJson values) =
      .ok (values.entries.foldl (fun v e => v.insert (cBytes e.1) (cBytes e.2)) .empty) := by
  rw [jsonToValues, valuesToJson_eq, cBytes_of_forall (fun c hc h0 => zero_not_mem_object _ (h0 ▸ hc)),
    parseDocument_object]
  exact foldlM_jsonMember _ _

/-- The text `values_to_json` writes is a document rapidjson parses back whole: every key and
value as it was, NUL bytes included. -/
theorem parseDocument_valuesToJson (values : ValuesType) :
    parseDocument (valuesToJson values) = some (.object (values.entries.map stringMember)) := by
  rw [valuesToJson_eq, parseDocument_object]

theorem jsonToValues_valuesToJson_nul :
    jsonToValues (valuesToJson (ValuesType.empty.insert [107] [97, 0, 98])) =
        .ok (ValuesType.empty.insert [107] [97]) ∧
      jsonToValues (valuesToJson ((ValuesType.empty.insert [97, 0, 98] [49]).insert [97, 0, 99] [50])) =
        .ok (ValuesType.empty.insert [97] [50]) := by
  rw [jsonToValues_valuesToJson_eq, jsonToValues_valuesToJson_eq]
  exact ⟨rfl, rfl⟩

/-- A map none of whose keys and values holds a NUL byte. -/
def NulFree (values : ValuesType) : Prop := ∀ e ∈ values.entries, 0 ∉ e.1 ∧ 0 ∉ e.2

theorem nulFree_foldl_insert_cBytes (es : List (List UInt8 × List UInt8)) :
    ∀ values : ValuesType, NulFree values →
      NulFree (es.foldl (fun v e => v.insert (cBytes e.1) (cBytes e.2)) values) := by
  induction es with
  | nil => exact fun _ h => h
  | cons e es ih =>
    refine fun values h => ih _ fun x hx => ?_
    rcases mem_insertEntry hx with rfl | hx
    exacts [⟨zero_not_mem_cBytes _, zero_not_mem_cBytes _⟩, h x hx]

theorem foldl_insert_cBytes {values : ValuesType} (h : NulFree values) :
    values.entries.foldl (fun v e => v.insert (cBytes e.1) (cBytes e.2)) ValuesType.empty = values := by
  have hc : ∀ e ∈ values.entries, cBytes e.1 = e.1 ∧ cBytes e.2 = e.2 := fun e he =>
    ⟨cBytes_of_forall fun c hc h0 => (h e he).1 (h0 ▸ hc),
      cBytes_of_forall fun c hc h0 => (h e he).2 (h0 ▸ hc)⟩
  rw [List.foldl_ext _ (fun v e => v.insert e.1 e.2) _ fun v e he => by rw [(hc e he).1, (hc e he).2]]
  ext1
  exact foldl_insert_sorted _ _ values.sorted

/-- The codec round-trips a map exactly when no key or value holds a NUL byte. -/
theorem jsonToValues_valuesToJson (values : ValuesType) :
    jsonToValues (valuesToJson values) = .ok values ↔ NulFree values := by
  rw [jsonToValues_valuesToJson_eq]
  constructor
  · intro h
    rw [← Except.ok.inj h]
    exact nulFree_foldl_insert_cBytes _ _ nofun
  · intro h
    rw [foldl_insert_cBytes h]

/-! ## What `json_to_values` accepts -/

theorem foldlM_jsonMember_ok :
    ∀ {ms : List (List UInt8 × JsonValue)} {acc values : ValuesType},
      ms.foldlM jsonMember acc = .ok values →
        ∃ es : List (List UInt8 × List UInt8), ms = es.map stringMember ∧
          values = es.foldl (fun v e => v.insert (cBytes e.1) (cBytes e.2)) acc
  | [], _, _, h => ⟨[], rfl, (Except.ok.inj h).symm⟩
  | (name, v) :: ms, acc, values, h => by
    rw [List.foldlM_cons] at h
    by_cases hv : ∃ s, v = .string s
    · obtain ⟨s, rfl⟩ := hv
      rw [show jsonMember acc (name, .string s) = .ok _ from rfl, ok_bind] at h
      obtain ⟨es, rfl, rfl⟩ := foldlM_jsonMember_ok h
      exact ⟨(name, s) :: es, rfl, rfl⟩
    · rw [jsonMember_not_string fun s h => hv ⟨s, h⟩, error_bind] at h
      cases h

/-- `json_to_values` fills a map exactly when the text, up to its first NUL, is a JSON object
whose values are all strings; each key then holds the value of the last member with that name,
names and values cut at their first NUL, and no other key is in the map. -/
theorem jsonToValues_eq_ok_iff (json : List UInt8) (values : ValuesType) :
    jsonToValues json = .ok values ↔
      ∃ es : List (List UInt8 × List UInt8),
        parseDocument (cBytes json) = some (.object (es.map stringMember)) ∧
        ∀ k, values.find k = findEntry k (es.map fun e => (cBytes e.1, cBytes e.2)).reverse := by
  have hfind (es : List (List UInt8 × List UInt8)) (k : List UInt8) :
      (es.foldl (fun v e => v.insert (cBytes e.1) (cBytes e.2)) ValuesType.empty).find k =
        findEntry k (es.map fun e => (cBytes e.1, cBytes e.2)).reverse := by
    have := ValuesType.find_foldl_insert k (es.map fun e => (cBytes e.1, cBytes e.2)) .empty
    rw [List.foldl_map, ValuesType.find_empty, Option.or_none] at this
    exact this
  constructor
  · intro h
    unfold jsonToValues at h
    split at h
    · cases h
    · next ms hp =>
      obtain ⟨es, rfl, rfl⟩ := foldlM_jsonMember_ok h
      exact ⟨es, hp, hfind es⟩
    · cases h
  · rintro ⟨es, hp, hv⟩
    rw [jsonToValues, hp]
    exact (foldlM_jsonMember es _).trans
      (congrArg _ (ValuesType.ext_find fun k => (hfind es k).trans (hv k).symm))

end Freelan
