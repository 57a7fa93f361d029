import NodeBackend.Json.NumberText
import NodeBackend.Json.Parse
import NodeBackend.Json.Text

namespace json

/-! String literals. -/

theorem isHighSurrogate_toNat (c : Char) : isHighSurrogate c.toNat = false := by
  have hvalid : c.toNat < 0xD800 ∨ 0xDFFF < c.toNat ∧ c.toNat < 0x110000 := c.valid
  simp only [isHighSurrogate, Bool.and_eq_false_iff, decide_eq_false_iff_not]
  omega

theorem isLowSurrogate_toNat (c : Char) : isLowSurrogate c.toNat = false := by
  have hvalid : c.toNat < 0xD800 ∨ 0xDFFF < c.toNat ∧ c.toNat < 0x110000 := c.valid
  simp only [isLowSurrogate, Bool.and_eq_false_iff, decide_eq_false_iff_not]
  omega

theorem unitChar_toNat (c : Char) : unitChar c.toNat = c := by
  simp [unitChar, isHighSurrogate_toNat, isLowSurrogate_toNat, Char.ofNat_toNat]

theorem decodeUnits_map_toNat (chars : List Char) : decodeUnits (chars.map Char.toNat) = chars := by
  induction chars with
  | nil => rfl
  | cons c rest ih =>
    cases rest with
    | nil => simp [decodeUnits, unitChar_toNat]
    | cons d rest =>
      simp only [List.map_cons] at ih ⊢
      simp [decodeUnits, isHighSurrogate_toNat, unitChar_toNat, ih]

theorem hexValue_digitChar {n : Nat} (hn : n < 16) : hexValue (Nat.digitChar n) = some n := by
  interval_cases n <;> rfl

theorem scanString_plain {c : Char} (rest : List Char) (hquote : c ≠ '"') (hback : c ≠ '\\')
    (hcontrol : ¬ c.toNat < 32) :
    scanString (c :: rest) = (scanString rest).map fun (units, after) => (c.toNat :: units, after) := by
  rw [scanString.eq_def]
  split
  all_goals first
    | rename_i h; exact absurd (List.cons.inj h).1 hquote
    | rename_i h; exact absurd (List.cons.inj h).1 hback
    | skip
  · rename_i h
    cases h
  · rename_i h
    obtain ⟨rfl, rfl⟩ := List.cons.inj h
    rw [if_neg hcontrol]

theorem scanString_escapeChar (c : Char) (rest : List Char) :
    scanString (escapeChar c ++ rest) =
      (scanString rest).map fun (units, after) => (c.toNat :: units, after) := by
  have hcode (n : Nat) (h : c.toNat = n) : c = Char.ofNat n := by rw [← h, Char.ofNat_toNat]
  unfold escapeChar
  by_cases hquote : c = '"'
  · subst hquote
    rfl
  rw [if_neg hquote]
  by_cases hback : c = '\\'
  · subst hback
    rfl
  rw [if_neg hback]
  split_ifs with h8 h9 h10 h12 h13 hcontrol
  · rw [hcode 8 h8]
    rfl
  · rw [hcode 9 h9]
    rfl
  · rw [hcode 10 h10]
    rfl
  · rw [hcode 12 h12]
    rfl
  · rw [hcode 13 h13]
    rfl
  · have hhigh := hexValue_digitChar (show c.toNat / 16 < 16 by omega)
    have hlow := hexValue_digitChar (show c.toNat % 16 < 16 by omega)
    have hzero : hexValue '0' = some 0 := rfl
    have hunit : hexUnit '0' '0' (Nat.digitChar (c.toNat / 16)) (Nat.digitChar (c.toNat % 16)) =
        some c.toNat := by
      simp only [hexUnit, hzero, hhigh, hlow, Option.bind_eq_bind, Option.bind_some]
      congr 1
      omega
    simp only [List.cons_append, List.nil_append, scanString, hunit]
  · exact scanString_plain rest hquote hback hcontrol

theorem scanString_flatMap (chars rest : List Char) :
    scanString (chars.flatMap escapeChar ++ '"' :: rest) = some (chars.map Char.toNat, rest) := by
  induction chars with
  | nil => rfl
  | cons c chars ih =>
    rw [List.flatMap_cons, List.append_assoc, scanString_escapeChar, ih]
    rfl

theorem scanString_stringText (s : String) (rest : List Char) :
    ∃ quoted, stringText s ++ rest = '"' :: quoted ∧
      scanString quoted = some (s.toList.map Char.toNat, rest) := by
  refine ⟨s.toList.flatMap escapeChar ++ '"' :: rest, ?_, scanString_flatMap s.toList rest⟩
  simp [stringText]

theorem ofList_decodeUnits (s : String) :
    String.ofList (decodeUnits (s.toList.map Char.toNat)) = s := by
  rw [decodeUnits_map_toNat, String.ofList_toList]

/-! Heads of texts. -/

/-- A character that no white space, closing bracket or closing brace is. -/
def BeginsValue (c : Char) : Prop :=
  isSpace c = false ∧ c ≠ ']' ∧ c ≠ '}'

theorem beginsValue_of_isDigit {c : Char} (hc : c.isDigit = true) : BeginsValue c := by
  refine ⟨?_, ?_, ?_⟩
  · simp only [isSpace, Bool.or_eq_false_iff, decide_eq_false_iff_not]
    refine ⟨⟨⟨?_, ?_⟩, ?_⟩, ?_⟩ <;> rintro rfl <;> exact absurd hc (by simp)
  · rintro rfl
    exact absurd hc (by simp)
  · rintro rfl
    exact absurd hc (by simp)

theorem magnitudeText_head (n : Nat) (exponent : Int) :
    ∃ c tail, magnitudeText (Nat.toDigits 10 n) exponent = c :: tail ∧ c.isDigit = true := by
  have hall : ∀ c ∈ Nat.toDigits 10 n, c.isDigit = true := fun c hc => isDigit_of_mem_toDigits hc
  cases hdigits : Nat.toDigits 10 n with
  | nil => exact absurd hdigits Nat.toDigits_ne_nil
  | cons c tail =>
    have hc := hall c (by rw [hdigits]; exact List.mem_cons_self)
    simp only [magnitudeText]
    split_ifs with hwhole hpointed
    · exact ⟨c, _, rfl, hc⟩
    · obtain ⟨k, hk⟩ : ∃ k, (((c :: tail).length : Int) + exponent).toNat = k + 1 :=
        ⟨(((c :: tail).length : Int) + exponent).toNat - 1, by omega⟩
      exact ⟨c, _, by rw [hk]; rfl, hc⟩
    · exact ⟨'0', _, rfl, by simp⟩
    · exact ⟨c, _, rfl, hc⟩
    · exact ⟨c, _, rfl, hc⟩

theorem Number.toText_head (n : Number) :
    ∃ c tail, n.toText = c :: tail ∧ (c.isDigit = true ∨ c = '-') := by
  obtain ⟨c, tail, htext, hc⟩ := magnitudeText_head n.mantissa n.exponent
  cases hsign : n.negative with
  | true => exact ⟨'-', c :: tail, by simp [Number.toText, hsign, htext], Or.inr rfl⟩
  | false => exact ⟨c, tail, by simp [Number.toText, hsign, htext], Or.inl hc⟩

theorem Value.text_head (v : Value) : ∃ c tail, v.text = c :: tail ∧ BeginsValue c := by
  have hplain (c : Char) (h : isSpace c = false ∧ c ≠ ']' ∧ c ≠ '}') : BeginsValue c := h
  cases v with
  | null => exact ⟨_, _, rfl, hplain _ (by decide)⟩
  | bool b => cases b <;> exact ⟨_, _, rfl, hplain _ (by decide)⟩
  | num n =>
    obtain ⟨c, tail, htext, hc⟩ := n.toText_head
    refine ⟨c, tail, by rw [Value.text, htext], ?_⟩
    rcases hc with hdigit | rfl
    · exact beginsValue_of_isDigit hdigit
    · exact hplain _ (by decide)
  | str s => exact ⟨'"', _, by rw [Value.text]; rfl, hplain _ (by decide)⟩
  | arr items => exact ⟨'[', _, by rw [Value.text], hplain _ (by decide)⟩
  | obj fields => exact ⟨'{', _, by rw [Value.text], hplain _ (by decide)⟩

theorem skipSpace_of_not_isSpace {c : Char} (rest : List Char) (hc : isSpace c = false) :
    skipSpace (c :: rest) = c :: rest := by
  rw [skipSpace, hc]
  rfl

/-! Values. -/

theorem parseValue_number {fuel : Nat} {c : Char} (tail : List Char)
    (hc : c.isDigit = true ∨ c = '-') :
    parseValue (fuel + 1) (c :: tail) =
      (scanNumber (c :: tail)).map fun (n, after) => (.num n, after) := by
  have hspace : isSpace c = false := by
    rcases hc with hdigit | rfl
    · exact (beginsValue_of_isDigit hdigit).1
    · rfl
  have hne (d : Char) (hd : d.isDigit = false ∧ d ≠ '-') : c ≠ d := by
    rintro rfl
    rcases hc with hdigit | rfl
    · exact absurd hdigit (by simp [hd.1])
    · exact hd.2 rfl
  rw [parseValue, skipSpace_of_not_isSpace tail hspace]
  split
  all_goals first
    | rfl
    | rename_i h; exact absurd (List.cons.inj h).1 (hne _ (by simp))

/-- What the round trip says about one value, whatever follows it. -/
def Value.Reparses (v : Value) : Prop :=
  ∀ fuel rest, 2 * v.text.length + 1 ≤ fuel → EndsNumber rest →
    parseValue fuel (v.text ++ rest) = some (v.merged, rest)

theorem endsNumber_comma (rest : List Char) : EndsNumber (',' :: rest) :=
  endsNumber_cons rest (by simp)

theorem parseItems_itemsText {items : List Value} (hne : items ≠ [])
    (hitems : ∀ item ∈ items, item.Reparses) (fuel : Nat) (rest : List Char)
    (hfuel : 2 * (itemsText items).length + 2 ≤ fuel) :
    parseItems fuel (itemsText items ++ ']' :: rest) = some (items.map Value.merged, rest) := by
  induction items generalizing fuel with
  | nil => exact absurd rfl hne
  | cons item items ih =>
    obtain ⟨fuel, rfl⟩ : ∃ k, fuel = k + 1 := ⟨fuel - 1, by omega⟩
    have hitem := hitems item List.mem_cons_self
    cases items with
    | nil =>
      rw [itemsText] at hfuel ⊢
      have hparse := hitem fuel (']' :: rest) (by omega) (endsNumber_cons rest (by simp))
      simp only [parseItems, hparse,
        skipSpace_of_not_isSpace rest (show isSpace ']' = false by decide), List.map_cons, List.map_nil]
    | cons next items =>
      simp only [itemsText_cons_cons, List.length_append, List.length_cons] at hfuel
      rw [itemsText_cons_cons, List.append_assoc, List.cons_append]
      have hparse := hitem fuel (',' :: (itemsText (next :: items) ++ ']' :: rest)) (by omega)
        (endsNumber_comma _)
      have htail := ih (by simp) (fun v hv => hitems v (List.mem_cons_of_mem _ hv)) fuel (by omega)
      simp only [parseItems, hparse, htail, Option.map_some,
        skipSpace_of_not_isSpace _ (show isSpace ',' = false by decide), List.map_cons]

theorem parseFields_fieldsText {fields : List (String × Value)} (hne : fields ≠ [])
    (hfields : ∀ field ∈ fields, field.2.Reparses) (fuel : Nat) (rest : List Char)
    (hfuel : 2 * (fieldsText fields).length + 2 ≤ fuel) :
    parseFields fuel (fieldsText fields ++ '}' :: rest) =
      some (fields.map fun field => (field.1, field.2.merged), rest) := by
  induction fields generalizing fuel with
  | nil => exact absurd rfl hne
  | cons field fields ih =>
    obtain ⟨key, value⟩ := field
    obtain ⟨fuel, rfl⟩ : ∃ k, fuel = k + 1 := ⟨fuel - 1, by omega⟩
    have hvalue : value.Reparses := hfields (key, value) List.mem_cons_self
    cases fields with
    | nil =>
      simp only [fieldsText, List.length_append, List.length_cons] at hfuel
      obtain ⟨quoted, hquoted, hscan⟩ := scanString_stringText key (':' :: (value.text ++ '}' :: rest))
      have hparse := hvalue fuel ('}' :: rest) (by omega) (endsNumber_cons rest (by simp))
      rw [fieldsText, List.append_assoc, List.cons_append, hquoted]
      simp only [parseFields, skipSpace_of_not_isSpace _ (show isSpace '"' = false by decide), hscan,
        skipSpace_of_not_isSpace _ (show isSpace ':' = false by decide), hparse,
        skipSpace_of_not_isSpace rest (show isSpace '}' = false by decide), ofList_decodeUnits, List.map_cons,
        List.map_nil]
    | cons next fields =>
      simp only [fieldsText_cons_cons, List.length_append, List.length_cons] at hfuel
      obtain ⟨quoted, hquoted, hscan⟩ := scanString_stringText key
        (':' :: (value.text ++ ',' :: (fieldsText (next :: fields) ++ '}' :: rest)))
      have hparse := hvalue fuel (',' :: (fieldsText (next :: fields) ++ '}' :: rest)) (by omega)
        (endsNumber_comma _)
      have htail := ih (by simp) (fun f hf => hfields f (List.mem_cons_of_mem _ hf)) fuel (by omega)
      rw [fieldsText_cons_cons, List.append_assoc, List.cons_append, List.append_assoc,
        List.cons_append, hquoted]
      simp only [parseFields, skipSpace_of_not_isSpace _ (show isSpace '"' = false by decide), hscan,
        skipSpace_of_not_isSpace _ (show isSpace ':' = false by decide), hparse, htail,
        skipSpace_of_not_isSpace _ (show isSpace ',' = false by decide), ofList_decodeUnits,
        Option.map_some, List.map_cons]

theorem itemsText_head {items : List Value} (hne : items ≠ []) :
    ∃ c tail, itemsText items = c :: tail ∧ BeginsValue c := by
  match items with
  | [] => exact absurd rfl hne
  | [item] => simpa [itemsText] using item.text_head
  | item :: next :: items =>
    obtain ⟨c, tail, htext, hc⟩ := item.text_head
    exact ⟨c, tail ++ ',' :: itemsText (next :: items), by rw [itemsText_cons_cons, htext]; rfl, hc⟩

theorem fieldsText_head {fields : List (String × Value)} (hne : fields ≠ []) :
    ∃ tail, fieldsText fields = '"' :: tail := by
  match fields with
  | [] => exact absurd rfl hne
  | [(key, value)] => exact ⟨_, by rw [fieldsText, stringText]; rfl⟩
  | (key, value) :: next :: fields => exact ⟨_, by rw [fieldsText_cons_cons, stringText]; rfl⟩

theorem parseValue_arr {items : List Value} (hitems : ∀ item ∈ items, item.Reparses) :
    (Value.arr items).Reparses := by
  intro fuel rest hfuel _
  obtain ⟨fuel, rfl⟩ : ∃ k, fuel = k + 1 := ⟨fuel - 1, by omega⟩
  simp only [Value.text, List.length_cons, List.length_append, List.length_nil] at hfuel
  rw [Value.text, List.cons_append, List.append_assoc, List.singleton_append, parseValue,
    skipSpace_of_not_isSpace _ (show isSpace '[' = false by decide)]
  by_cases hne : items = []
  · subst hne
    rfl
  · obtain ⟨c, tail, htext, hspace, hbracket, _⟩ := itemsText_head hne
    have hparse := parseItems_itemsText hne hitems fuel rest (by omega)
    rw [htext, List.cons_append] at hparse ⊢
    simp only [skipSpace_of_not_isSpace _ hspace]
    split
    · rename_i h
      exact absurd (List.cons.inj h).1 hbracket
    · rw [hparse, Value.merged_arr]
      rfl

theorem parseValue_obj {fields : List (String × Value)} (hfields : ∀ field ∈ fields, field.2.Reparses) :
    (Value.obj fields).Reparses := by
  intro fuel rest hfuel _
  obtain ⟨fuel, rfl⟩ : ∃ k, fuel = k + 1 := ⟨fuel - 1, by omega⟩
  simp only [Value.text, List.length_cons, List.length_append, List.length_nil] at hfuel
  rw [Value.text, List.cons_append, List.append_assoc, List.singleton_append, parseValue,
    skipSpace_of_not_isSpace _ (show isSpace '{' = false by decide)]
  by_cases hne : fields = []
  · subst hne
    rfl
  · obtain ⟨tail, htext⟩ := fieldsText_head hne
    have hparse := parseFields_fieldsText hne hfields fuel rest (by omega)
    rw [htext, List.cons_append] at hparse ⊢
    simp only [skipSpace_of_not_isSpace _ (show isSpace '"' = false by decide)]
    change (parseFields fuel _).map _ = _
    rw [hparse, Option.map_some, Value.merged_obj]

/-- Parsing the text of a value gives the value with its repeated keys merged,
and stops exactly at its end. The induction is on the value; a number needs the
following character to know where it stops. -/
theorem parseValue_text (v : Value) : v.Reparses := by
  induction v with
  | null =>
    intro fuel rest hfuel _
    obtain ⟨fuel, rfl⟩ : ∃ k, fuel = k + 1 := ⟨fuel - 1, by omega⟩
    rfl
  | bool b =>
    intro fuel rest hfuel _
    obtain ⟨fuel, rfl⟩ : ∃ k, fuel = k + 1 := ⟨fuel - 1, by omega⟩
    cases b <;> rfl
  | num n =>
    intro fuel rest hfuel hrest
    obtain ⟨fuel, rfl⟩ : ∃ k, fuel = k + 1 := ⟨fuel - 1, by omega⟩
    obtain ⟨c, tail, htext, hc⟩ := n.toText_head
    have hscan := scanNumber_toText n hrest
    rw [Value.text, htext, List.cons_append] at *
    rw [parseValue_number _ hc, hscan]
    rfl
  | str s =>
    intro fuel rest hfuel _
    obtain ⟨fuel, rfl⟩ : ∃ k, fuel = k + 1 := ⟨fuel - 1, by omega⟩
    obtain ⟨quoted, hquoted, hscan⟩ := scanString_stringText s rest
    rw [Value.text, hquoted, parseValue,
      skipSpace_of_not_isSpace _ (show isSpace '"' = false by decide)]
    simp only [hscan, Option.map_some, ofList_decodeUnits, Value.merged]
  | arr items ih => exact parseValue_arr ih
  | obj fields ih => exact parseValue_obj ih

theorem parseText_text (v : Value) : parseText v.text = some v.merged := by
  have hparse := parseValue_text v (2 * v.text.length + 2) [] (by omega) endsNumber_nil
  rw [List.append_nil] at hparse
  simp [parseText, hparse, skipSpace]

theorem parse_stringify_merged (v : Value) : parse v.stringify = some v.merged := by
  rw [parse, Value.stringify, String.toList_ofList, parseText_text v]

/-- JSON.parse undoes JSON.stringify. -/
theorem parse_stringify (v : Value) (hkeys : v.KeysOnce) : parse v.stringify = some v := by
  rw [parse_stringify_merged, Value.merged_of_keysOnce hkeys]

/-- A text tells its value from all others. -/
theorem stringify_inj {v w : Value} (hv : v.KeysOnce) (hw : w.KeysOnce) (h : v.stringify = w.stringify) : v = w := by
  have hparse := parse_stringify v hv
  rw [h, parse_stringify w hw] at hparse
  exact (Option.some.inj hparse).symm

/-- Also with something behind it. -/
theorem text_append_inj {v w : Value} {rest rest' : List Char} (hv : v.KeysOnce) (hw : w.KeysOnce)
    (hrest : EndsNumber rest) (hrest' : EndsNumber rest') (h : v.text ++ rest = w.text ++ rest') :
    v = w ∧ rest = rest' := by
  have hparse := parseValue_text v (2 * (v.text.length + w.text.length) + 1) rest (by omega) hrest
  rw [h, parseValue_text w _ rest' (by omega) hrest', Value.merged_of_keysOnce hv,
    Value.merged_of_keysOnce hw] at hparse
  obtain ⟨rfl, rfl⟩ := Prod.mk.inj (Option.some.inj hparse)
  exact ⟨rfl, rfl⟩

theorem stringify_ne_empty {v : Value} (hkeys : v.KeysOnce) : v.stringify ≠ "" := by
  intro hempty
  have hparse := parse_stringify v hkeys
  rw [hempty] at hparse
  cases hparse

end json
