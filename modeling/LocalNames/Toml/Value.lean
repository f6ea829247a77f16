import LocalNames.Toml.Moment
import LocalNames.Toml.Number
import LocalNames.Toml.Quoted
import LocalNames.Toml.Tree

namespace LocalNames.Toml

def skipBlanks (text : Text) : Text := text.dropWhile isBlank

def skipLines (inComment : Bool) : Text → Text
  | [] => []
  | c :: rest =>
    if c = '\n' then skipLines false rest
    else if inComment then if isPrintable c then skipLines true rest else c :: rest
    else if c = '#' then skipLines true rest
    else if isBlank c then skipLines false rest
    else c :: rest

def isBareKeyChar (c : Char) : Bool := c.isAlphanum || c = '-' || c = '_'

def keyPart? (text : Text) : Option (Text × Text) :=
  (quotedLine? text).or <|
    let bare := text.takeWhile isBareKeyChar
    if bare = [] then none else some (bare, text.drop bare.length)

def depthLimit : Nat := 80

def keyParts? : Nat → Text → Option (List Text × Text)
  | 0, _ => none
  | fuel + 1, text => do
    let (part, rest) ← keyPart? (skipBlanks text)
    match skipBlanks rest with
    | '.' :: rest => (keyParts? fuel rest).map fun (parts, rest) ↦ (part :: parts, rest)
    | rest => return ([part], rest)

def key? (text : Text) : Option (Key × Text) := do
  let (parts, rest) ← keyParts? (depthLimit - 1) text
  return (⟨parts.dropLast, parts.getLast?.getD []⟩, rest)

def isTokenChar (c : Char) : Bool :=
  c.isAlphanum || c = '+' || c = '-' || c = '.' || c = '_' || c = ':'

def scalar? (token : Text) : Option Data :=
  if token = "true" then some (.bool true)
  else if token = "false" then some (.bool false)
  else if isFloat token then some (.real token)
  else ((integer? token).map Data.int).or ((Moment.read? token).map Moment.toData)

def tokenLength (text : Text) : Nat :=
  let length := (text.takeWhile isTokenChar).length
  match Date.read? (text.take length), text.drop length with
  | some (_, []), ' ' :: c :: rest =>
    if c.isDigit then length + 1 + ((c :: rest).takeWhile isTokenChar).length else length
  | _, _ => length

def flatValue? (text : Text) : Option (Data × Text) :=
  ((quoted? text).map fun (content, rest) ↦ (.text content, rest)).or <| do
    let length := tokenLength text
    return (← scalar? (text.take length), text.drop length)

section

variable (value? : Text → Option (Data × Text))

def elements? : Nat → Text → Option (List Data × Text)
  | 0, _ => none
  | fuel + 1, text =>
    match skipLines false text with
    | ']' :: rest => some ([], rest)
    | text => do
      let (d, rest) ← value? text
      match skipLines false rest with
      | ']' :: rest => return ([d], rest)
      | ',' :: rest => (elements? fuel rest).map fun (ds, rest) ↦ (d :: ds, rest)
      | _ => none

def keyed? (text : Text) : Option ((Key × Data) × Text) := do
  let (key, rest) ← key? text
  match rest with
  | '=' :: rest => (value? (skipBlanks rest)).map fun (d, rest) ↦ ((key, d), rest)
  | _ => none

def members? : Nat → Text → Option (List (Key × Data) × Text)
  | 0, _ => none
  | fuel + 1, text => do
    let (e, rest) ← keyed? value? text
    match skipBlanks rest with
    | '\x7d' :: rest => return ([e], rest)
    | ',' :: rest => (members? fuel rest).map fun (es, rest) ↦ (e :: es, rest)
    | _ => none

def inline? (text : Text) : Option (Data × Text) :=
  match skipBlanks text with
  | '\x7d' :: rest => some (.record [], rest)
  | text => do
    let (entries, rest) ← members? value? text.length text
    let fields ← Fields.ofInline entries
    return (.record (fieldsToData fields), rest)

end

/-- A value in which at most `depth` arrays and inline tables enclose each other. -/
def value? : Nat → Text → Option (Data × Text)
  | 0, text => flatValue? text
  | depth + 1, text =>
    match text with
    | '[' :: rest =>
      (elements? (value? depth) (rest.length + 1) rest).map fun (ds, rest) ↦ (.list ds, rest)
    | '\x7b' :: rest => inline? (value? depth) rest
    | _ => flatValue? text

end LocalNames.Toml
