import LocalNames.Data

namespace LocalNames.Json

def isBlank (c : Char) : Bool := c = ' ' || c = '\t' || c = '\n' || c = '\x0d'

def skipBlanks (text : Text) : Text := text.dropWhile isBlank

def escaped? (c : Char) : Option Char :=
  if c = '"' || c = '\\' || c = '/' then some c else letterEscape? c

def charOfUnits? : Option Nat → Nat → Option Char
  | none, unit => charOfCode? unit
  | some high, low =>
    if 0xDC00 ≤ low ∧ low ≤ 0xDFFF then
      charOfCode? (0x10000 + (high - 0xD800) * 0x400 + (low - 0xDC00))
    else none

def isHighSurrogate (unit : Nat) : Bool := 0xD800 ≤ unit && unit ≤ 0xDBFF

/-- Where the reader of a string stands: outside escapes, behind a backslash, or before the last
`left` digits of a code unit. -/
inductive Mode where
  | plain
  | escape
  | code (left value : Nat)

def content? (high : Option Nat) (mode : Mode) : Text → Option (Text × Text)
  | [] => none
  | c :: rest =>
    match mode with
    | .plain =>
      if c = '\\' then content? high .escape rest
      else if high.isSome then none
      else if c = '"' then some ([], rest)
      else if c < ' ' then none
      else prepend c (content? none .plain rest)
    | .escape =>
      if c = 'u' then content? high (.code 4 0) rest
      else if high.isSome then none
      else (escaped? c).bind fun d ↦ prepend d (content? none .plain rest)
    | .code left value =>
      let value := value * 16 + digitValue c
      if !isHexDigit c then none
      else if 1 < left then content? high (.code (left - 1) value) rest
      else if high.isNone && isHighSurrogate value then content? (some value) .plain rest
      else (charOfUnits? high value).bind fun d ↦ prepend d (content? none .plain rest)

def isNumberChar (c : Char) : Bool :=
  c.isDigit || c = '+' || c = '-' || c = '.' || c = 'e' || c = 'E'

def dropSign (signs : Text) : Text → Text
  | c :: rest => if c ∈ signs then rest else c :: rest
  | [] => []

def isPart : Text → Bool
  | [] => true
  | _ :: digits => digits ≠ [] && digits.all Char.isDigit

/-- Numbers without fraction and exponent that fit in 64 bits are integers, except for `-0`. -/
def number? (literal : Text) : Option Data :=
  let magnitude := dropSign "-" literal
  let whole := magnitude.takeWhile Char.isDigit
  let rest := magnitude.drop whole.length
  let fraction := rest.takeWhile fun c ↦ c ≠ 'e' ∧ c ≠ 'E'
  let exponent := rest.drop fraction.length
  let n : Int := if magnitude = literal then fromDigits 10 whole else -(fromDigits 10 whole : Int)
  if whole = [] ∨ (whole.head? = some '0' ∧ whole.length ≠ 1) then none
  else if !(isPart fraction && (fraction = [] || fraction.head? = some '.')) then none
  else if !isPart (exponent.take 1 ++ dropSign "+-" (exponent.drop 1)) then none
  else if rest = [] ∧ -0x8000000000000000 ≤ n ∧ n < 0x10000000000000000 ∧ literal ≠ "-0" then
    some (.int n)
  else some (.real literal)

def word? (word : Text) (d : Data) (text : Text) : Option (Data × Text) :=
  if word.isPrefixOf text then some (d, text.drop word.length) else none

mutual

def value? : Nat → Text → Option (Data × Text)
  | 0, _ => none
  | fuel + 1, text =>
    match text with
    | '"' :: rest => (content? none .plain rest).map fun (content, rest) ↦ (.text content, rest)
    | '[' :: rest =>
      match skipBlanks rest with
      | ']' :: rest => some (.list [], rest)
      | rest => (elements? fuel rest).map fun (ds, rest) ↦ (.list ds, rest)
    | '\x7b' :: rest =>
      match skipBlanks rest with
      | '\x7d' :: rest => some (.record [], rest)
      | rest => (members? fuel rest).map fun (fs, rest) ↦
          (.record (fs.foldl (fun fields f ↦ Assoc.put f.1 f.2 fields) []), rest)
    | 'n' :: _ => word? "null" .null text
    | 't' :: _ => word? "true" (.bool true) text
    | 'f' :: _ => word? "false" (.bool false) text
    | _ =>
      let literal := text.takeWhile isNumberChar
      (number? literal).map fun d ↦ (d, text.drop literal.length)

def elements? : Nat → Text → Option (List Data × Text)
  | 0, _ => none
  | fuel + 1, text => do
    let (d, rest) ← value? fuel (skipBlanks text)
    match skipBlanks rest with
    | ']' :: rest => return ([d], rest)
    | ',' :: rest => (elements? fuel rest).map fun (ds, rest) ↦ (d :: ds, rest)
    | _ => none

def members? : Nat → Text → Option (List (Text × Data) × Text)
  | 0, _ => none
  | fuel + 1, text =>
    match skipBlanks text with
    | '"' :: rest => do
      let (name, rest) ← content? none .plain rest
      match skipBlanks rest with
      | ':' :: rest => do
        let (d, rest) ← value? fuel (skipBlanks rest)
        match skipBlanks rest with
        | '\x7d' :: rest => return ([(name, d)], rest)
        | ',' :: rest => (members? fuel rest).map fun (fs, rest) ↦ ((name, d) :: fs, rest)
        | _ => none
      | _ => none
    | _ => none

end

/-- The value that a JSON text describes. A value has at least as many characters as the reader has
steps nested in each other while it reads it, so the length of the text is fuel enough. -/
def read? (text : Text) : Option Data :=
  match value? (text.length + 1) (skipBlanks text) with
  | some (d, rest) => if (skipBlanks rest).isEmpty then some d else none
  | none => none

end LocalNames.Json
