import StockFlow.Json.Basic

/-! Reading JSON. Nothing may follow the value but blanks; control characters must be escaped in
strings; numbers have no leading zeros. -/
namespace StockFlow.Json

def isSpace (c : Char) : Bool := c == ' ' || c == '\t' || c == '\n' || c == '\r'

def skipSpaces (t : Text) : Text := t.dropWhile isSpace

/-- A character of a string, or half of one, given by its surrogate. -/
inductive Unit16 where
  | char (c : Char)
  | half (n : Nat)

/-- Puts halves together; each must have the other beside it. -/
def assemble : List Unit16 → Option Text
  | [] => some []
  | .char c :: units => (assemble units).map (c :: ·)
  | .half high :: .half low :: units =>
    if high < 0xDC00 ∧ 0xDC00 ≤ low then
      (assemble units).map
        (Char.ofNat (0x10000 + (high - 0xD800) * 0x400 + (low - 0xDC00)) :: ·)
    else none
  | .half _ :: _ => none

def hexDigit? (c : Char) : Option Nat :=
  if c.isDigit then some (c.toNat - '0'.toNat)
  else if 'a' ≤ c ∧ c ≤ 'f' then some (c.toNat - 'a'.toNat + 10)
  else if 'A' ≤ c ∧ c ≤ 'F' then some (c.toNat - 'A'.toNat + 10)
  else none

def unitOfHex? (a b c d : Char) : Option Unit16 := do
  let n := (((← hexDigit? a) * 16 + (← hexDigit? b)) * 16 + (← hexDigit? c)) * 16 + (← hexDigit? d)
  return if 0xD800 ≤ n ∧ n ≤ 0xDFFF then .half n else .char (Char.ofNat n)

def simpleEscape? : Char → Option Char
  | '"' => some '"'
  | '\\' => some '\\'
  | '/' => some '/'
  | 'b' => some '\x08'
  | 'f' => some '\x0c'
  | 'n' => some '\n'
  | 'r' => some '\r'
  | 't' => some '\t'
  | _ => none

/-- The units of a string after its opening quote, and what follows its closing quote. -/
def readUnits : Text → Option (List Unit16 × Text)
  | '"' :: rest => some ([], rest)
  | '\\' :: 'u' :: a :: b :: c :: d :: rest => do
    let unit ← unitOfHex? a b c d
    let (units, rest) ← readUnits rest
    return (unit :: units, rest)
  | '\\' :: c :: rest => do
    let c ← simpleEscape? c
    let (units, rest) ← readUnits rest
    return (.char c :: units, rest)
  | c :: rest =>
    if c.toNat < 0x20 ∨ c = '\\' then none
    else (readUnits rest).map fun (units, rest) => (.char c :: units, rest)
  | [] => none

def readString (t : Text) : Option (Option Text × Text) :=
  (readUnits t).map fun (units, rest) => (assemble units, rest)

/-- At least one digit. -/
def readDigits (t : Text) : Option (Text × Text) :=
  match t.takeWhile Char.isDigit with
  | [] => none
  | digits => some (digits, t.dropWhile Char.isDigit)

def readWhole : Text → Option (Text × Text)
  | '0' :: rest => some (['0'], rest)
  | t => readDigits t

def readFraction : Text → Option (Text × Text)
  | '.' :: rest => (readDigits rest).map fun (digits, rest) => ('.' :: digits, rest)
  | t => some ([], t)

def readExponent (t : Text) : Option (Text × Text) :=
  match t with
  | e :: rest =>
    if e = 'e' ∨ e = 'E' then
      let sign := (rest.take 1).filter fun c => c == '+' || c == '-'
      (readDigits (rest.drop sign.length)).map fun (digits, rest) => (e :: sign ++ digits, rest)
    else some ([], t)
  | [] => some ([], t)

def readNumber (t : Text) : Option (Text × Text) := do
  let sign := (t.take 1).filter (· == '-')
  let (whole, rest) ← readWhole (t.drop sign.length)
  let (fraction, rest) ← readFraction rest
  let (exponent, rest) ← readExponent rest
  return (sign ++ whole ++ fraction ++ exponent, rest)

/-- The words of the format. -/
def readWord (t : Text) : Option (Json × Text) :=
  [("null", null), ("true", bool true), ("false", bool false)].findSome? fun (word, value) =>
    (List.isPrefixOf? word.toList t).map fun rest => (value, rest)

mutual

/-- Reads one value. Each call inside another comes with less fuel. -/
def readValue : (fuel : Nat) → Text → Option (Json × Text)
  | 0, _ => none
  | fuel + 1, t =>
    match t with
    | '"' :: rest => (readString rest).map fun (contents, rest) => (string contents, rest)
    | '[' :: rest =>
      match skipSpaces rest with
      | ']' :: rest => some (array [], rest)
      | rest => (readItems fuel rest).map fun (items, rest) => (array items, rest)
    | '\x7b' :: rest =>
      match skipSpaces rest with
      | '\x7d' :: rest => some (object [], rest)
      | rest => (readMembers fuel rest).map fun (members, rest) => (object members, rest)
    | t =>
      match readWord t with
      | some read => some read
      | none => (readNumber t).map fun (spelling, rest) => (number spelling, rest)

/-- The items of an array from one of them on, through its closing bracket. -/
def readItems : (fuel : Nat) → Text → Option (List Json × Text)
  | 0, _ => none
  | fuel + 1, t => do
    let (item, rest) ← readValue fuel (skipSpaces t)
    match skipSpaces rest with
    | ',' :: rest =>
      let (items, rest) ← readItems fuel rest
      return (item :: items, rest)
    | ']' :: rest => return ([item], rest)
    | _ => none

/-- The members of an object from one of them on, through its closing brace. -/
def readMembers : (fuel : Nat) → Text → Option (List (Option Text × Json) × Text)
  | 0, _ => none
  | fuel + 1, t =>
    match skipSpaces t with
    | '"' :: rest => do
      let (key, rest) ← readString rest
      match skipSpaces rest with
      | ':' :: rest =>
        let (value, rest) ← readValue fuel (skipSpaces rest)
        match skipSpaces rest with
        | ',' :: rest =>
          let (members, rest) ← readMembers fuel rest
          return ((key, value) :: members, rest)
        | '\x7d' :: rest => return ([(key, value)], rest)
        | _ => none
      | _ => none
    | _ => none

end

/-- The value that the whole text spells. No call takes fuel twice without taking a character. -/
def parse? (t : Text) : Option Json :=
  match readValue (2 * t.length + 1) (skipSpaces t) with
  | some (value, rest) => if (skipSpaces rest).isEmpty then some value else none
  | none => none

end StockFlow.Json
