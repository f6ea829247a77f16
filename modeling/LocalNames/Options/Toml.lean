import LocalNames.Options.Document
import LocalNames.Toml

namespace LocalNames

namespace Toml

def hexDigit (n : Nat) : Char :=
  if n < 10 then Char.ofNat ('0'.toNat + n) else Char.ofNat ('A'.toNat + (n - 10))

def escape (c : Char) : Text :=
  if c = '"' || c = '\\' then ['\\', c]
  else if c ≠ '\t' && isPrintable c then [c]
  else '\\' :: 'u' :: [3, 2, 1, 0].map fun i ↦ hexDigit (c.toNat / Nat.pow 16 i % 16)

def quote (text : Text) : Text := '"' :: text.flatMap escape ++ ['"']

def printKey (key : Text) : Text :=
  if key ≠ [] ∧ key.all isBareKeyChar then key else quote key

def printBool (b : Bool) : Text := if b then "true" else "false"

def printTexts (texts : List Text) : Text :=
  '[' :: List.intercalate ", " (texts.map quote) ++ [']']

end Toml

open Toml

def Seed.toToml (s : Seed) : Text :=
  "[[family]]\n" ++
  "key = " ++ quote s.key ++ "\n" ++
  "counter = " ++ numeral s.family.counter.toNat ++ "\n" ++
  "skip_zero = " ++ printBool s.family.plainFirst ++ "\n" ++
  "names = " ++ printTexts s.family.candidates ++ "\n\n"

namespace Options

def remapLine (remap : Text × Text) : Text :=
  printKey remap.1 ++ " = " ++ quote remap.2 ++ "\n"

def familiesToToml : List Seed → Text
  | [] => "family = []\n\n"
  | families => families.flatMap Seed.toToml

/-- The document that gives these options. TOML has no integers of more than 63 bits, so counters
beyond them cannot be written. -/
def toToml? (o : Options) : Option Text :=
  if o.families.all fun s ↦ s.family.counter < 0x8000000000000000 then
    some (familiesToToml o.families ++ "[remap]\n" ++ o.remaps.entries.flatMap remapLine)
  else none

def ofToml (text : Text) : Except Failure Options :=
  match (Toml.read? text).bind (Document.ofData? .atLeast) with
  | none => .error .unreadableOptions
  | some document => do
    document.toOptions.validate
    return document.toOptions

end Options

end LocalNames
