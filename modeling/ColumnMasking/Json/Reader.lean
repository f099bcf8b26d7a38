/-
ColumnMasking.Json.Reader — the JSON grammar, as a reader of characters.

The reader takes one value and the white space around it, and nothing
may follow. It is strict about the grammar: no comments, no trailing
commas, no leading zeros, no control characters within strings. A
`\u` escape is any four hexadecimal digits.

Each reading function gives what it read and the characters after it.
Values nest; the depth is bounded by the count of characters.
-/
import ColumnMasking.Json
import ColumnMasking.Text.Hex

namespace ColumnMasking.Json

/-- White space between the parts of a value. -/
def isSpace (c : Char) : Bool :=
  c = ' ' || c = '\n' || c = '\r' || c = '\t'

/-- The characters after white space. -/
def skipSpace (cs : List Char) : List Char := cs.dropWhile isSpace

/-! ## Strings -/

/-- The escape sequences of a single letter. -/
def simpleEscapes : List (Char × Nat) :=
  [(Char.ofNat 0x22, 0x22), (Char.ofNat 0x5C, 0x5C), ('/', 0x2F), ('b', 0x08), ('f', 0x0C),
   ('n', 0x0A), ('r', 0x0D), ('t', 0x09)]

/-- The number of four hexadecimal digits. -/
def fourDigits? (a b c d : Char) : Option UInt16 := do
  let values ← [a, b, c, d].mapM fun c =>
    if c.toNat < 128 then Hex.value? (UInt8.ofNat c.toNat) else none
  return UInt16.ofNat (values.foldl (fun n v => 16 * n + v) 0)

/-- The units of a string up to its closing quote. Control characters
stand for themselves if `controls` says so and are refused otherwise. -/
def readUnits (controls : Bool) : List Char → Option (List UInt16 × List Char)
  | [] => none
  | c :: rest =>
    if c = Char.ofNat 0x22 then some ([], rest)
    else if c = Char.ofNat 0x5C then
      match rest with
      | 'u' :: p :: q :: r :: s :: rest => do
        let u ← fourDigits? p q r s
        let (units, rest) ← readUnits controls rest
        return (u :: units, rest)
      | e :: rest => do
        let n ← simpleEscapes.lookup e
        let (units, rest) ← readUnits controls rest
        return (UInt16.ofNat n :: units, rest)
      | [] => none
    else if c.toNat < 0x20 ∧ controls = false then none
    else do
      let (units, rest) ← readUnits controls rest
      return (Utf16.encodeChar c ++ units, rest)

/-! ## Numbers -/

/-- The digits at the front, of which there has to be one. -/
def readDigits (cs : List Char) : Option (List Char × List Char) :=
  let digits := cs.takeWhile Char.isDigit
  if digits = [] then none else some (digits, cs.dropWhile Char.isDigit)

/-- A whole number without a sign: zero alone starts with a zero. -/
def readWhole : List Char → Option (List Char × List Char)
  | '0' :: rest =>
    match rest with
    | c :: _ => if c.isDigit then none else some (['0'], rest)
    | [] => some (['0'], [])
  | cs => readDigits cs

/-- The fraction at the front, if there is one. -/
def readFraction : List Char → Option (List Char × List Char)
  | '.' :: rest => (readDigits rest).map fun (digits, rest) => ('.' :: digits, rest)
  | cs => some ([], cs)

/-- The exponent at the front, if there is one. -/
def readExponent : List Char → Option (List Char × List Char)
  | c :: rest =>
    if c = 'e' ∨ c = 'E' then
      match rest with
      | s :: digits =>
        if s = '+' ∨ s = '-' then
          (readDigits digits).map fun (digits, rest) => (c :: s :: digits, rest)
        else (readDigits rest).map fun (digits, rest) => (c :: digits, rest)
      | [] => none
    else some ([], c :: rest)
  | [] => some ([], [])

/-- A number as it is written. -/
def readNumber (cs : List Char) : Option (Json × List Char) := do
  let (sign, cs) := match cs with
    | '-' :: rest => (['-'], rest)
    | cs => ([], cs)
  let (whole, cs) ← readWhole cs
  let (fraction, cs) ← readFraction cs
  let (exponent, cs) ← readExponent cs
  return (.number (String.ofList (sign ++ whole ++ fraction ++ exponent)), cs)

/-! ## Values -/

/-- What is left after the given word. -/
def afterWord? : (word cs : List Char) → Option (List Char)
  | [], cs => some cs
  | w :: word, c :: cs => if w = c then afterWord? word cs else none
  | _ :: _, [] => none

mutual

/-- A value, white space before it included, nested at most `depth`
deep. -/
def readValue : (depth : Nat) → List Char → Option (Json × List Char)
  | 0, _ => none
  | depth + 1, cs =>
    match skipSpace cs with
    | [] => none
    | c :: rest =>
      if c = Char.ofNat 0x22 then
        (readUnits false rest).map fun (units, rest) => (.string units, rest)
      else if c = '[' then
        match skipSpace rest with
        | ']' :: rest => some (.array [], rest)
        | cs => (readElements depth cs).map fun (elements, rest) => (.array elements, rest)
      else if c = '\x7b' then
        match skipSpace rest with
        | '\x7d' :: rest => some (.object [], rest)
        | cs => (readMembers depth cs).map fun (members, rest) => (.object members, rest)
      else if c = 'n' then (afterWord? ['u', 'l', 'l'] rest).map (.null, ·)
      else if c = 't' then (afterWord? ['r', 'u', 'e'] rest).map (.bool true, ·)
      else if c = 'f' then (afterWord? ['a', 'l', 's', 'e'] rest).map (.bool false, ·)
      else readNumber (c :: rest)

/-- The elements of an array up to its closing bracket. -/
def readElements : (depth : Nat) → List Char → Option (List Json × List Char)
  | 0, _ => none
  | depth + 1, cs => do
    let (value, cs) ← readValue depth cs
    match skipSpace cs with
    | ']' :: rest => return ([value], rest)
    | ',' :: rest =>
      let (values, rest) ← readElements depth rest
      return (value :: values, rest)
    | _ => none

/-- The members of an object up to its closing brace. -/
def readMembers : (depth : Nat) → List Char → Option (List (List UInt16 × Json) × List Char)
  | 0, _ => none
  | depth + 1, cs =>
    match skipSpace cs with
    | [] => none
    | c :: rest => do
      if c ≠ Char.ofNat 0x22 then none
      let (name, cs) ← readUnits false rest
      let cs ← afterWord? [':'] (skipSpace cs)
      let (value, cs) ← readValue depth cs
      match skipSpace cs with
      | '\x7d' :: rest => return ([(name, value)], rest)
      | ',' :: rest =>
        let (members, rest) ← readMembers depth rest
        return ((name, value) :: members, rest)
      | _ => none

end

/-- The value of a text that holds one value and nothing else. -/
def parse? (text : List Char) : Option Json := do
  let (value, rest) ← readValue (2 * text.length + 1) text
  if skipSpace rest = [] then some value else none

/-- The bytes of a text that holds a string or an array of bytes. The
string stands for its own bytes; it may hold control characters and
surrogates without their other half. -/
def parseBytes? (text : List Char) : Option Bytes :=
  match skipSpace text with
  | [] => none
  | c :: rest =>
    if c = Char.ofNat 0x22 then do
      let (units, rest) ← readUnits true rest
      if skipSpace rest = [] then some (Utf16.toBytes units) else none
    else (parse? text).bind bytes?

end ColumnMasking.Json
