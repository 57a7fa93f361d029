import NodeBackend.Regex.Matches

namespace regex

open js

def codeUnit (c : Char) : UInt16 :=
  UInt16.ofNat c.toNat

/-- The characters of a class, and what follows it. -/
def parseClass : List Char → Option (List (UInt16 × UInt16) × List Char)
  | [] => none
  | ']' :: rest => some ([], rest)
  | '\\' :: _ => none
  | first :: '-' :: ']' :: rest =>
    some ([(codeUnit first, codeUnit first), (codeUnit '-', codeUnit '-')], rest)
  | first :: '-' :: last :: rest => do
    let (ranges, rest) ← parseClass rest
    if last = '\\' ∨ last < first then none else some ((codeUnit first, codeUnit last) :: ranges, rest)
  | first :: rest => do
    let (ranges, rest) ← parseClass rest
    some ((codeUnit first, codeUnit first) :: ranges, rest)

/-- A dot, a class or a character that stands for itself. -/
def parseAtom : List Char → Option (Pattern × List Char)
  | '.' :: rest => some (.dot, rest)
  | '[' :: '^' :: _ => none
  | '[' :: rest => do
    let (ranges, rest) ← parseClass rest
    some (.oneOf ranges, rest)
  | c :: rest =>
    if c ∈ ['\\', '|', '(', ')', '*', '+', '?', '\x7b', '\x7d', '[', ']', '^', '$'] ∨ 65535 < c.toNat then none
    else some (.oneOf [(codeUnit c, codeUnit c)], rest)
  | [] => none

def decimalValue (digits : List Char) : Nat :=
  digits.foldl (fun value digit => value * 10 + (digit.toNat - 48)) 0

/-- The digits at the front, if there are any. -/
def parseDecimal (source : List Char) : Option (Nat × List Char) :=
  let digits := source.takeWhile Char.isDigit
  if digits = [] then none else some (decimalValue digits, source.dropWhile Char.isDigit)

/-- A star or two bounds behind an atom, if there are any. -/
def parseQuantifier (atom : Pattern) : List Char → Option (Pattern × List Char)
  | '*' :: rest => some (.repeated atom 0 none, rest)
  | '\x7b' :: rest => do
    let (least, rest) ← parseDecimal rest
    match rest with
    | ',' :: rest => do
      let (most, rest) ← parseDecimal rest
      match rest with
      | '\x7d' :: rest => if most < least then none else some (.repeated atom least (some most), rest)
      | _ => none
    | _ => none
  | rest => some (atom, rest)

/-- Terms up to the end of a pattern or of a lookahead. -/
def parseTerms : Nat → List Char → Option (Pattern × List Char)
  | 0, _ => none
  | fuel + 1, source =>
    match source with
    | [] => some (.empty, [])
    | ')' :: rest => some (.empty, ')' :: rest)
    | '^' :: rest => do
      let (more, rest) ← parseTerms fuel rest
      some (.seq .start more, rest)
    | '$' :: rest => do
      let (more, rest) ← parseTerms fuel rest
      some (.seq .finish more, rest)
    | '(' :: '?' :: '=' :: rest => do
      let (inner, rest) ← parseTerms fuel rest
      match rest with
      | ')' :: rest => do
        let (more, rest) ← parseTerms fuel rest
        some (.seq (.ahead inner) more, rest)
      | _ => none
    | source => do
      let (atom, rest) ← parseAtom source
      let (term, rest) ← parseQuantifier atom rest
      let (more, rest) ← parseTerms fuel rest
      some (.seq term more, rest)

/-- A regular expression without flags, by its source. -/
structure RegExp where
  source : String

/-- The pattern of a source, `none` for what the syntax here leaves out. -/
def RegExp.pattern (regex : RegExp) : Option Pattern :=
  match parseTerms (regex.source.toList.length + 1) regex.source.toList with
  | some (pattern, []) => some pattern
  | _ => none

def RegExp.test (regex : RegExp) (text : Units) : Bool :=
  regex.pattern.any fun pattern => pattern.test text

theorem RegExp.test_eq {regex : RegExp} {pattern : Pattern} (h : regex.pattern = some pattern) (text : Units) :
    regex.test text = pattern.test text := by
  rw [RegExp.test, h]
  rfl

end regex
