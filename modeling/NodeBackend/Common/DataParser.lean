import NodeBackend.Js.Value
import NodeBackend.Json.RawString

namespace node_backend.data_parser_helper

open js

def parseObjectToString (data : Value) : String :=
  data.stringify.getD ""

mutual

/-- What DataParserHelper.toString returns where it returns. Strings stand for
themselves, and arrays have a recursion of their own, only other objects go
through JSON.stringify. -/
def text (returnUndefined : Bool) : Value → String
  | .str s => s
  | .undefined => if returnUndefined then "undefined" else ""
  | .arr items => "[" ++ (parseArrayToString returnUndefined items ++ "]")
  | .null => "null"
  | .bool b => if b then "true" else "false"
  | .num n => String.ofList n.number.toText
  | .nonFinite n => n.toText
  | .date time => parseObjectToString (.date time)
  | .objectId hex => parseObjectToString (.objectId hex)
  | .obj fields => parseObjectToString (.obj fields)

/-- Texts of the items, joined by commas. -/
def parseArrayToString (returnUndefined : Bool) : List Value → String
  | [] => ""
  | [item] => text returnUndefined item
  | item :: rest => text returnUndefined item ++ ("," ++ parseArrayToString returnUndefined rest)

end

/-- DataParserHelper.toString. It converts every object it meets with String as
well, and throws where that does. -/
def toString (returnUndefined : Bool) (data : Value) : Except TypeError String :=
  if data.unprintable then .error cannotConvertToPrimitive else .ok (text returnUndefined data)

/-- DataParserHelper.toObject. A text that JSON.parse rejects reads as null. -/
def toObject (data : String) : Value :=
  match json.parse data with
  | some parsed => ofJson parsed
  | none => .null

theorem toObject_stringify {v : json.Value} (hproper : v.Proper) : toObject v.stringify = ofJson v := by
  rw [toObject, json.parse_stringify v hproper.keysOnce]

/-- A string that the encoder writes without quotes: one that stands for itself,
or is reached through arrays only. -/
inductive BareString : json.Value → Prop
  | str (s : String) : BareString (.str s)
  | item {items : List json.Value} {item : json.Value} (hmem : item ∈ items) (hitem : BareString item) :
      BareString (.arr items)

theorem bareString_arr_iff {items : List json.Value} :
    BareString (.arr items) ↔ ∃ item ∈ items, BareString item :=
  ⟨fun h => by cases h with | item hmem hitem => exact ⟨_, hmem, hitem⟩, fun ⟨_, hmem, hitem⟩ => .item hmem hitem⟩

theorem parseArrayToString_cons_cons (returnUndefined : Bool) (item next : Value) (rest : List Value) :
    parseArrayToString returnUndefined (item :: next :: rest) =
      text returnUndefined item ++ ("," ++ parseArrayToString returnUndefined (next :: rest)) := rfl

theorem parseObjectToString_ofJson {v : json.Value} (hproper : v.Proper) :
    parseObjectToString (ofJson v) = v.stringify := by
  rw [parseObjectToString, Value.stringify, toJson_ofJson hproper, Option.map_some, Option.getD_some]

theorem parseArrayToString_eq_itemsText (returnUndefined : Bool) {items : List json.Value}
    (hitems : ∀ item ∈ items, (text returnUndefined (ofJson item)).toList = item.text) :
    (parseArrayToString returnUndefined (items.map ofJson)).toList = json.itemsText items := by
  induction items with
  | nil => rfl
  | cons item rest ih =>
    have hitem := hitems item List.mem_cons_self
    have hrest := ih fun other hother => hitems other (List.mem_cons_of_mem _ hother)
    cases rest with
    | nil => exact hitem
    | cons next more =>
      rw [List.map_cons, List.map_cons, parseArrayToString_cons_cons, String.toList_append, hitem,
        String.toList_append, ← List.map_cons, hrest, json.itemsText_cons_cons]
      rfl

/-- Without a bare string the encoder writes what JSON.stringify writes. -/
theorem text_eq_text (returnUndefined : Bool) {v : json.Value} (hproper : v.Proper) (hbare : ¬ BareString v) :
    (text returnUndefined (ofJson v)).toList = v.text := by
  induction v with
  | null =>
    rw [ofJson, text, json.Value.text]
    decide
  | bool b =>
    rw [ofJson, text]
    cases b <;> decide
  | num n =>
    rw [ofJson, Value.ofNumber_of_finite (json.Value.proper_num_iff.mp hproper), text, String.toList_ofList,
      json.Value.text]
  | str s => exact absurd (.str s) hbare
  | arr items ih =>
    rw [json.Value.proper_arr_iff] at hproper
    have hitems : ∀ item ∈ items, (text returnUndefined (ofJson item)).toList = item.text :=
      fun item hitem => ih item hitem (hproper item hitem) fun h => hbare (.item hitem h)
    rw [ofJson, text, itemsOfJson_eq_map, String.toList_append, String.toList_append,
      parseArrayToString_eq_itemsText returnUndefined hitems, json.Value.text]
    rfl
  | obj fields ih =>
    have htext := congrArg String.toList (parseObjectToString_ofJson hproper)
    rw [json.Value.stringify, String.toList_ofList] at htext
    exact htext

/-- No parse of the encoder's text gives the value back. -/
def NotReread (returnUndefined : Bool) (v : json.Value) : Prop :=
  ∀ fuel rest after, json.EndsRaw rest →
    json.parseValue fuel ((text returnUndefined (ofJson v)).toList ++ rest) ≠ some (v, after)

theorem endsRaw_cons {c : Char} (rest : List Char) (hc : json.IsDelimiter c) : json.EndsRaw (c :: rest) := by
  intro d tail heq
  rw [← (List.cons.inj heq).1]
  exact hc

/-- One item that is not read back is enough to spoil the items around it. -/
theorem parseItems_ne_of_notReread (returnUndefined : Bool) {items : List json.Value}
    (hproper : ∀ item ∈ items, item.Proper)
    (hreread : ∀ item ∈ items, BareString item → NotReread returnUndefined item)
    (hbare : ∃ item ∈ items, BareString item) (fuel : Nat) (rest after : List Char) :
    json.parseItems fuel ((parseArrayToString returnUndefined (items.map ofJson)).toList ++ ']' :: rest) ≠
      some (items, after) := by
  induction items generalizing fuel with
  | nil => simp at hbare
  | cons item more ih =>
    intro hparse
    cases fuel with
    | zero => cases hparse
    | succ fuel =>
      obtain ⟨afterItem, hvalue, hmore⟩ := json.parseItems_eq_cons hparse
      cases more with
      | nil =>
        have hb : BareString item := by simpa using hbare
        exact hreread item List.mem_cons_self hb fuel _ _ (endsRaw_cons rest (Or.inr rfl)) hvalue
      | cons next more =>
        rw [List.map_cons, List.map_cons, parseArrayToString_cons_cons, String.toList_append, String.toList_append,
          ← List.map_cons, show ",".toList = [','] by simp, List.append_assoc, List.append_assoc,
          List.singleton_append] at hvalue
        by_cases hb : BareString item
        · exact hreread item List.mem_cons_self hb fuel _ _ (endsRaw_cons _ (Or.inl rfl)) hvalue
        · have hitem := hproper item List.mem_cons_self
          rw [text_eq_text returnUndefined hitem hb] at hvalue
          have heq := json.eq_of_parseValue_text hitem.keysOnce (json.endsNumber_comma _) hvalue
          obtain ⟨tail, htail, hrest⟩ := hmore (List.cons_ne_nil _ _)
          rw [(Prod.mk.inj heq).2, json.skipSpace_of_not_isSpace _ (by decide)] at htail
          rw [← (List.cons.inj htail).2] at hrest
          refine ih (fun other hother => hproper other (List.mem_cons_of_mem _ hother))
            (fun other hother => hreread other (List.mem_cons_of_mem _ hother)) ?_ fuel hrest
          obtain ⟨other, hother, hbareOther⟩ := hbare
          obtain rfl | htail := List.mem_cons.mp hother
          · exact absurd hbareOther hb
          · exact ⟨other, htail, hbareOther⟩

theorem notReread_of_bareString (returnUndefined : Bool) {v : json.Value} (hproper : v.Proper)
    (hbare : BareString v) : NotReread returnUndefined v := by
  induction v with
  | null => cases hbare
  | bool b => cases hbare
  | num n => cases hbare
  | obj fields => cases hbare
  | str s =>
    intro fuel rest after hrest
    rw [ofJson, text]
    exact json.parseValue_raw_ne_str fuel s hrest after
  | arr items ih =>
    intro fuel rest after hrest hparse
    rw [json.Value.proper_arr_iff] at hproper
    rw [bareString_arr_iff] at hbare
    rw [ofJson, text, itemsOfJson_eq_map, String.toList_append, String.toList_append,
      show "[".toList = ['['] by simp, show "]".toList = [']'] by simp, List.append_assoc, List.append_assoc,
      List.singleton_append, List.singleton_append] at hparse
    cases fuel with
    | zero => cases hparse
    | succ fuel =>
      have hne : items ≠ [] := by
        rintro rfl
        simp at hbare
      exact parseItems_ne_of_notReread returnUndefined hproper
        (fun item hitem => ih item hitem (hproper item hitem)) hbare fuel rest after
        (json.parseValue_eq_arr hne hparse)

theorem eq_of_map_eq {A B : Type} {f : A → B} {left right : List A}
    (hright : ∀ a ∈ right, ∀ other, f other = f a → other = a) (h : left.map f = right.map f) : left = right := by
  induction right generalizing left with
  | nil => exact List.map_eq_nil_iff.mp h
  | cons a rest ih =>
    obtain ⟨other, tail, rfl, hother, htail⟩ := List.map_eq_cons_iff.mp h
    rw [hright a List.mem_cons_self other hother, ih (fun b hb => hright b (List.mem_cons_of_mem _ hb)) htail]

/-- Only finite numbers are read as numbers that are finite. -/
theorem number_eq_of_ofNumber {n m : json.Number} (hfinite : n.isFinite = true)
    (h : Value.ofNumber m = Value.ofNumber n) : m = n := by
  rw [Value.ofNumber_of_finite hfinite, Value.ofNumber] at h
  split at h
  · exact congrArg Decimal.number (Value.num.inj h)
  · cases h

/-- A value of finite numbers is read from no other. -/
theorem ofJson_inj {v w : json.Value} (hproper : v.Proper) (h : ofJson w = ofJson v) : w = v := by
  induction v generalizing w with
  | null | bool _ | str _ =>
    cases w with
    | num m =>
      rw [ofJson, ofJson, Value.ofNumber] at h
      split at h <;> cases h
    | _ => cases h <;> rfl
  | num n =>
    have hfinite := json.Value.proper_num_iff.mp hproper
    cases w with
    | num m => rw [number_eq_of_ofNumber hfinite h]
    | _ =>
      rw [ofJson, ofJson, Value.ofNumber_of_finite hfinite] at h
      cases h
  | arr items ih =>
    rw [json.Value.proper_arr_iff] at hproper
    cases w with
    | num m =>
      rw [ofJson, ofJson, Value.ofNumber] at h
      split at h <;> cases h
    | arr others =>
      rw [ofJson, ofJson, itemsOfJson_eq_map, itemsOfJson_eq_map] at h
      have hitems := eq_of_map_eq (fun item hitem other => ih item hitem (hproper item hitem)) (Value.arr.inj h)
      rw [hitems]
    | _ => cases h
  | obj fields ih =>
    rw [json.Value.proper_obj_iff] at hproper
    cases w with
    | num m =>
      rw [ofJson, ofJson, Value.ofNumber] at h
      split at h <;> cases h
    | obj others =>
      rw [ofJson, ofJson, fieldsOfJson_eq_map, fieldsOfJson_eq_map] at h
      have hfields := eq_of_map_eq (fun field hfield other heq =>
        Prod.ext (Prod.mk.inj heq).1 (ih field hfield (hproper.2 field hfield) (Prod.mk.inj heq).2)) (Value.obj.inj h)
      rw [hfields]
    | _ => cases h

/-- The decoder undoes what the encoder returns exactly on the values without a
bare string. -/
theorem toObject_text_iff (returnUndefined : Bool) {v : json.Value} (hproper : v.Proper) :
    toObject (text returnUndefined (ofJson v)) = ofJson v ↔ ¬ BareString v := by
  constructor
  · intro h hbare
    rw [toObject] at h
    cases hparse : json.parse (text returnUndefined (ofJson v)) with
    | none =>
      rw [hparse] at h
      have hnull : json.Value.null = v := ofJson_inj hproper h
      rw [← hnull] at hbare
      cases hbare
    | some parsed =>
      rw [hparse] at h
      rw [ofJson_inj hproper h] at hparse
      obtain ⟨fuel, after, hvalue⟩ := json.parseValue_of_parse hparse
      have hnot := notReread_of_bareString returnUndefined hproper hbare fuel [] after
      rw [List.append_nil] at hnot
      exact hnot (fun c tail heq => by cases heq) hvalue
  · intro hbare
    have hparse : json.parse (text returnUndefined (ofJson v)) = some v := by
      rw [json.parse, text_eq_text returnUndefined hproper hbare, json.parseText_text,
        json.Value.merged_of_keysOnce hproper.keysOnce]
    rw [toObject, hparse]

/-- A value that the encoder keeps: outside of objects, that is the value itself
and what is reached through arrays only, it has no string, and no object with a
`toString` of its own. -/
def Kept (v : json.Value) : Prop :=
  ¬ BareString v ∧ (ofJson v).unprintable = false

theorem toString_of_printable (returnUndefined : Bool) {data : Value} (h : data.unprintable = false) :
    toString returnUndefined data = .ok (text returnUndefined data) := by
  rw [toString, h, if_neg Bool.false_ne_true]

theorem toString_of_unprintable (returnUndefined : Bool) {data : Value} (h : data.unprintable = true) :
    toString returnUndefined data = .error cannotConvertToPrimitive := by
  rw [toString, if_pos h]

theorem toObject_toString_iff (returnUndefined : Bool) {v : json.Value} (hproper : v.Proper) :
    (toString returnUndefined (ofJson v)).map toObject = .ok (ofJson v) ↔ Kept v := by
  rw [Kept, ← toObject_text_iff returnUndefined hproper]
  cases hprint : (ofJson v).unprintable with
  | false =>
    rw [toString_of_printable returnUndefined hprint]
    exact ⟨fun h => ⟨Except.ok.inj h, rfl⟩, fun h => congrArg Except.ok h.1⟩
  | true =>
    rw [toString_of_unprintable returnUndefined hprint]
    constructor
    · intro h
      cases h
    · intro h
      cases h.2

end node_backend.data_parser_helper
