namespace LocalNames

/-- Types, names and documents are read character by character, so texts are lists. -/
abbrev Text := List Char

instance : Coe String Text := ⟨String.toList⟩

def numeral (n : Nat) : Text := Nat.toDigits 10 n

def padded (width n : Nat) : Text :=
  List.replicate (width - (numeral n).length) '0' ++ numeral n

def isHexDigit (c : Char) : Bool :=
  c.isDigit || ('a' ≤ c && c ≤ 'f') || ('A' ≤ c && c ≤ 'F')

def digitValue (c : Char) : Nat :=
  if c.isDigit then c.toNat - '0'.toNat
  else if c.isLower then c.toNat - 'a'.toNat + 10
  else c.toNat - 'A'.toNat + 10

def fromDigits (base : Nat) (digits : Text) : Nat :=
  digits.foldl (fun n d ↦ n * base + digitValue d) 0

def charOfCode? (n : Nat) : Option Char :=
  if h : n.isValidChar then some (Char.ofNatAux n h) else none

def letterEscape? (c : Char) : Option Char :=
  if c = 'b' then some '\x08'
  else if c = 't' then some '\t'
  else if c = 'n' then some '\n'
  else if c = 'f' then some '\x0c'
  else if c = 'r' then some '\x0d'
  else none

def prepend (c : Char) : Option (Text × Text) → Option (Text × Text) :=
  Option.map fun (content, rest) ↦ (c :: content, rest)

end LocalNames
