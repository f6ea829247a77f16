import LocalNames.Toml.Value

namespace LocalNames.Toml

inductive Line where
  | table (key : Key)
  | element (key : Key)
  | entry (key : Key) (d : Data)

def endLine? (text : Text) : Option Text :=
  let text := skipBlanks text
  let rest := if text.head? = some '#' then text.dropWhile isPrintable else text
  match rest with
  | [] => some []
  | '\n' :: rest => some rest
  | _ => none

def line? : Text → Option (Line × Text)
  | '[' :: '[' :: text => do
    let (key, rest) ← key? text
    match rest with
    | ']' :: ']' :: rest => return (.element key, rest)
    | _ => none
  | '[' :: text => do
    let (key, rest) ← key? text
    match rest with
    | ']' :: rest => return (.table key, rest)
    | _ => none
  | text => (keyed? (value? (depthLimit - 1)) text).map fun (e, rest) ↦ (.entry e.1 e.2, rest)

def isVacant (text : Text) : Bool := text.head?.all fun c ↦ c = '\n' ∨ c = '#'

def linesIn? : Nat → Text → Option (List Line)
  | _, [] => some []
  | 0, _ => none
  | fuel + 1, text =>
    let text := skipBlanks text
    if isVacant text then do linesIn? fuel (← endLine? text)
    else do
      let (l, rest) ← line? text
      return l :: (← linesIn? fuel (← endLine? rest))

def lines? (text : Text) : Option (List Line) := linesIn? text.length text

structure Draft where
  fields : Fields := []
  current : List Text := []

namespace Draft

/-- Headers say where the entries after them go. An array of tables takes them in its last
element. -/
def add (draft : Draft) : Line → Option Draft
  | .table key => do
    return ⟨← Fields.openTable key draft.fields, key.path ++ [key.name]⟩
  | .element key => do
    return ⟨← Fields.openElement key draft.fields, key.path ++ [key.name]⟩
  | .entry key d => do
    let change := Fields.define key d
    return { draft with fields := ← Fields.modify false change draft.current .header draft.fields }

def ofLines? (lines : List Line) : Option Draft := lines.foldlM add {}

end Draft

def joinLineEnds : Text → Text
  | '\x0d' :: '\n' :: rest => '\n' :: joinLineEnds rest
  | c :: rest => c :: joinLineEnds rest
  | [] => []

def dropByteOrderMark : Text → Text
  | '\ufeff' :: rest => rest
  | text => text

/-- The record that a TOML 1.0 document describes. -/
def read? (text : Text) : Option Data := do
  let lines ← lines? (joinLineEnds (dropByteOrderMark text))
  let draft ← Draft.ofLines? lines
  return .record (fieldsToData draft.fields)

end LocalNames.Toml
