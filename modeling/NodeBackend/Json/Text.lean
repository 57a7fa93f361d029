import NodeBackend.Json.Value

namespace json

/-- A character inside a string literal, escaped as JSON.stringify escapes it. -/
def escapeChar (c : Char) : List Char :=
  if c = '"' then ['\\', '"']
  else if c = '\\' then ['\\', '\\']
  else if c.toNat = 8 then ['\\', 'b']
  else if c.toNat = 9 then ['\\', 't']
  else if c.toNat = 10 then ['\\', 'n']
  else if c.toNat = 12 then ['\\', 'f']
  else if c.toNat = 13 then ['\\', 'r']
  else if c.toNat < 32 then
    ['\\', 'u', '0', '0', Nat.digitChar (c.toNat / 16), Nat.digitChar (c.toNat % 16)]
  else [c]

def stringText (s : String) : List Char :=
  '"' :: (s.toList.flatMap escapeChar ++ ['"'])

mutual

/-- Text of a value without any white space. -/
def Value.text : Value → List Char
  | .null => ['n', 'u', 'l', 'l']
  | .bool true => ['t', 'r', 'u', 'e']
  | .bool false => ['f', 'a', 'l', 's', 'e']
  | .num n => n.toText
  | .str s => stringText s
  | .arr items => '[' :: (itemsText items ++ [']'])
  | .obj fields => '{' :: (fieldsText fields ++ ['}'])

def itemsText : List Value → List Char
  | [] => []
  | [item] => item.text
  | item :: rest => item.text ++ ',' :: itemsText rest

def fieldsText : List (String × Value) → List Char
  | [] => []
  | [(key, value)] => stringText key ++ ':' :: value.text
  | (key, value) :: rest => stringText key ++ ':' :: (value.text ++ ',' :: fieldsText rest)

end

theorem itemsText_cons_cons (item next : Value) (rest : List Value) :
    itemsText (item :: next :: rest) = item.text ++ ',' :: itemsText (next :: rest) := rfl

theorem fieldsText_cons_cons (key : String) (value : Value) (next : String × Value)
    (rest : List (String × Value)) : fieldsText ((key, value) :: next :: rest) =
      stringText key ++ ':' :: (value.text ++ ',' :: fieldsText (next :: rest)) := rfl

/-- JSON.stringify on a tree of plain values. -/
def Value.stringify (v : Value) : String :=
  String.ofList v.text

end json
