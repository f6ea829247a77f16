import LocalNames.Text

namespace LocalNames

/-- A supply of names. It goes round its candidates and numbers the rounds; with `plainFirst` the
first round carries no number. The counter has 64 bits, and zero follows its last number. -/
structure Family where
  candidates : List Text
  counter : UInt64 := 0
  plainFirst : Bool := false
deriving DecidableEq, Repr

namespace Family

def ofBase (base : Text) : Family := ⟨[base], 0, true⟩

def candidateAt (f : Family) (id : Nat) : Text :=
  f.candidates[id % f.candidates.length]?.getD []

/-- The name that goes with a number. A lone candidate is followed by the number itself. -/
def nameAt (f : Family) (id : Nat) : Text :=
  match f.candidates with
  | [only] => if id = 0 && f.plainFirst then only else only ++ numeral id
  | rotation =>
    if id < rotation.length && f.plainFirst then f.candidateAt id
    else f.candidateAt id ++ numeral (id / rotation.length)

def name (f : Family) : Text := f.nameAt f.counter.toNat

def advance (f : Family) : Family := { f with counter := f.counter + 1 }

def names (f : Family) : Nat → List Text
  | 0 => []
  | n + 1 => f.name :: f.advance.names n

def after (f : Family) : Nat → Family
  | 0 => f
  | n + 1 => f.advance.after n

end Family

end LocalNames
