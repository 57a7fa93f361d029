import NodeBackend.Json.Value

namespace json

def isSpace (c : Char) : Bool :=
  c = ' ' || c = '\t' || c = '\n' || c = '\r'

def skipSpace : List Char → List Char
  | [] => []
  | c :: rest => if isSpace c then skipSpace rest else c :: rest

def hexValue (c : Char) : Option Nat :=
  if c.isDigit then some (c.toNat - 48)
  else if 97 ≤ c.toNat ∧ c.toNat ≤ 102 then some (c.toNat - 87)
  else if 65 ≤ c.toNat ∧ c.toNat ≤ 70 then some (c.toNat - 55)
  else none

def hexUnit (a b c d : Char) : Option Nat := do
  let p ← hexValue a
  let q ← hexValue b
  let r ← hexValue c
  let s ← hexValue d
  some (4096 * p + 256 * q + 16 * r + s)

def simpleEscape (c : Char) : Option Nat :=
  if c = '"' then some 34
  else if c = '\\' then some 92
  else if c = '/' then some 47
  else if c = 'b' then some 8
  else if c = 'f' then some 12
  else if c = 'n' then some 10
  else if c = 'r' then some 13
  else if c = 't' then some 9
  else none

/-- Code points and escaped UTF-16 units of a string literal up to its closing
quote, and the text after the quote. -/
def scanString : List Char → Option (List Nat × List Char)
  | [] => none
  | '"' :: rest => some ([], rest)
  | '\\' :: 'u' :: a :: b :: c :: d :: rest =>
    match hexUnit a b c d with
    | none => none
    | some unit => (scanString rest).map fun (units, after) => (unit :: units, after)
  | '\\' :: c :: rest =>
    match simpleEscape c with
    | none => none
    | some unit => (scanString rest).map fun (units, after) => (unit :: units, after)
  | c :: rest =>
    if c.toNat < 32 then none
    else (scanString rest).map fun (units, after) => (c.toNat :: units, after)

def isHighSurrogate (unit : Nat) : Bool :=
  0xD800 ≤ unit && unit < 0xDC00

def isLowSurrogate (unit : Nat) : Bool :=
  0xDC00 ≤ unit && unit < 0xE000

/-- A unit on its own. A surrogate without its partner denotes no character and
reads as the replacement character, as it does once the text is encoded. -/
def unitChar (unit : Nat) : Char :=
  if isHighSurrogate unit || isLowSurrogate unit then Char.ofNat 0xFFFD else Char.ofNat unit

def decodeUnits : List Nat → List Char
  | [] => []
  | [unit] => [unitChar unit]
  | high :: low :: rest =>
    if isHighSurrogate high && isLowSurrogate low then
      Char.ofNat (0x10000 + 0x400 * (high - 0xD800) + (low - 0xDC00)) :: decodeUnits rest
    else unitChar high :: decodeUnits (low :: rest)

mutual

/-- The value at the head of a text, and the text after it. Every recursive
call uses up one unit of fuel. -/
def parseValue : Nat → List Char → Option (Value × List Char)
  | 0, _ => none
  | fuel + 1, text =>
    match skipSpace text with
    | '"' :: rest =>
      (scanString rest).map fun (units, after) => (.str (String.ofList (decodeUnits units)), after)
    | '[' :: rest =>
      match skipSpace rest with
      | ']' :: after => some (.arr [], after)
      | inside => (parseItems fuel inside).map fun (items, after) => (.arr items, after)
    | '{' :: rest =>
      match skipSpace rest with
      | '}' :: after => some (.obj [], after)
      | inside => (parseFields fuel inside).map fun (fields, after) => (.obj (setFields [] fields), after)
    | 'n' :: 'u' :: 'l' :: 'l' :: after => some (.null, after)
    | 't' :: 'r' :: 'u' :: 'e' :: after => some (.bool true, after)
    | 'f' :: 'a' :: 'l' :: 's' :: 'e' :: after => some (.bool false, after)
    | number => (scanNumber number).map fun (n, after) => (.num n, after)

/-- Items of a non-empty array up to its closing bracket. -/
def parseItems : Nat → List Char → Option (List Value × List Char)
  | 0, _ => none
  | fuel + 1, text =>
    match parseValue fuel text with
    | none => none
    | some (item, afterItem) =>
      match skipSpace afterItem with
      | ',' :: rest => (parseItems fuel rest).map fun (items, after) => (item :: items, after)
      | ']' :: after => some ([item], after)
      | _ => none

/-- Fields of a non-empty object up to its closing brace, as written. -/
def parseFields : Nat → List Char → Option (List (String × Value) × List Char)
  | 0, _ => none
  | fuel + 1, text =>
    match skipSpace text with
    | '"' :: quoted =>
      match scanString quoted with
      | none => none
      | some (units, afterKey) =>
        match skipSpace afterKey with
        | ':' :: valueText =>
          match parseValue fuel valueText with
          | none => none
          | some (value, afterValue) =>
            let field := (String.ofList (decodeUnits units), value)
            match skipSpace afterValue with
            | ',' :: rest => (parseFields fuel rest).map fun (fields, after) => (field :: fields, after)
            | '}' :: after => some ([field], after)
            | _ => none
        | _ => none
    | _ => none

end

/-- The value a whole text denotes, surrounded by white space at most. -/
def parseText (text : List Char) : Option Value :=
  match parseValue (2 * text.length + 2) text with
  | none => none
  | some (value, after) => if skipSpace after = [] then some value else none

/-- JSON.parse, `none` where it throws. -/
def parse (text : String) : Option Value :=
  parseText text.toList

end json
