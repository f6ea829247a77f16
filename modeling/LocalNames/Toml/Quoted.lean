import LocalNames.Text

namespace LocalNames.Toml

/-- The characters that comments and strings hold as they are: all but control characters, of which
only the tab is one of them. -/
def isPrintable (c : Char) : Bool := c = '\t' || (' ' ≤ c && c ≠ '\x7f')

def isBlank (c : Char) : Bool := c = ' ' || c = '\t'

def escaped? (c : Char) : Option Char :=
  if c = '"' || c = '\\' then some c else letterEscape? c

def closing (quote : Char) (text : Text) : Text × Text :=
  let extra := (text.takeWhile (· = quote)).take 2
  (extra, text.drop extra.length)

/-- Where the reader of a string stands: outside escapes, behind a backslash, before the last `left`
digits of a code point, or behind a backslash that joins lines. There blanks are dropped up to the
end of the line, and after it also line ends. -/
inductive Mode where
  | plain
  | escape
  | code (left value : Nat)
  | trailing
  | margin
deriving DecidableEq

def basicContent (multiline : Bool) (mode : Mode) : Text → Option (Text × Text)
  | [] => none
  | c :: rest =>
    match mode with
    | .escape =>
      if c = 'u' then basicContent multiline (.code 4 0) rest
      else if c = 'U' then basicContent multiline (.code 8 0) rest
      else if multiline && isBlank c then basicContent multiline .trailing rest
      else if multiline && c = '\n' then basicContent multiline .margin rest
      else
        match escaped? c with
        | some d => prepend d (basicContent multiline .plain rest)
        | none => none
    | .code left value =>
      let value := value * 16 + digitValue c
      if !isHexDigit c then none
      else if 1 < left then basicContent multiline (.code (left - 1) value) rest
      else
        match charOfCode? value with
        | some d => prepend d (basicContent multiline .plain rest)
        | none => none
    | .trailing =>
      if isBlank c then basicContent multiline .trailing rest
      else if c = '\n' then basicContent multiline .margin rest
      else none
    | .plain | .margin =>
      if mode = .margin && (isBlank c || c = '\n') then basicContent multiline .margin rest
      else if c = '\\' then basicContent multiline .escape rest
      else if c = '"' then
        if multiline then
          match rest with
          | '"' :: '"' :: after => some (closing '"' after)
          | _ => prepend c (basicContent multiline .plain rest)
        else some ([], rest)
      else if isPrintable c || (multiline && c = '\n') then
        prepend c (basicContent multiline .plain rest)
      else none

def literalContent (multiline : Bool) : Text → Option (Text × Text)
  | [] => none
  | c :: rest =>
    if c = '\'' then
      if multiline then
        match rest with
        | '\'' :: '\'' :: after => some (closing '\'' after)
        | _ => prepend c (literalContent multiline rest)
      else some ([], rest)
    else if isPrintable c || (multiline && c = '\n') then
      prepend c (literalContent multiline rest)
    else none

def trimLineEnd : Text → Text
  | '\n' :: rest => rest
  | text => text

def quotedLine? : Text → Option (Text × Text)
  | '"' :: rest => basicContent false .plain rest
  | '\'' :: rest => literalContent false rest
  | _ => none

def quoted? : Text → Option (Text × Text)
  | '"' :: '"' :: '"' :: rest => basicContent true .plain (trimLineEnd rest)
  | '\'' :: '\'' :: '\'' :: rest => literalContent true (trimLineEnd rest)
  | text => quotedLine? text

end LocalNames.Toml
