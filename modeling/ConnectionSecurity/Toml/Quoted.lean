import ConnectionSecurity.Text.Ascii
import ConnectionSecurity.Toml.Value

/-!
# Reading quoted text

Four forms: between double quotes, where a backslash begins an escape; between single quotes, where
it does not; and both with the quote written three times, where line breaks are allowed. Each reader
here starts behind the opening quote, takes one character at a time, and ends behind the closing
one.

A form with three quotes may end in up to five: the first two then belong to the text. A line break
right behind its opening is no part of it.
-/

namespace ConnectionSecurity.Toml

/-- A character that may stand as it is inside a text or a comment: a tab, or anything that is not
an ASCII control character. -/
def isPlain (c : Char) : Bool := c == '\t' || (0x20 ≤ c.toNat && c.toNat != 0x7f)

/-- A character that separates without ending a line. -/
def isSpace (c : Char) : Bool := c == ' ' || c == '\t'

/-- Put a character in front of what a reader has taken. -/
def push (c : Char) : Option (List Char × List Char) → Option (List Char × List Char) :=
  Option.map fun (text, rest) => (c :: text, rest)

/-! ## Escapes -/

/-- How far an escape has been read. -/
inductive Escape where
  | none
  /-- Behind the backslash. -/
  | begun
  /-- Inside a code with `left` more digits to come after the value so far. -/
  | code (left : Nat) (value : Nat)
  /-- Between a backslash and the line break it hides. -/
  | hiding
  /-- Behind the hidden line break. -/
  | hidden
deriving DecidableEq, Repr

/-- The character that a one-letter escape stands for. -/
def letterEscape? : Char → Option Char
  | 'b' => some '\x08'
  | 't' => some '\t'
  | 'n' => some '\n'
  | 'f' => some '\x0c'
  | 'r' => some '\r'
  | 'e' => some '\x1b'
  | '"' => some '"'
  | '\\' => some '\\'
  | _ => Option.none

/-- The number of digits behind a letter that begins a code. -/
def codeDigits? : Char → Option Nat
  | 'x' => some 2
  | 'u' => some 4
  | 'U' => some 8
  | _ => Option.none

/-- The character with a given code, if a code point has it and no surrogate does. -/
def ofCode? (n : Nat) : Option Char := if n.isValidChar then some (Char.ofNat n) else Option.none

/-! ## The four forms -/

/-- The rest of a text in double quotes. -/
def basicRest (state : Escape) : Reader (List Char)
  | [] => Option.none
  | c :: cs =>
    match state with
    | .begun =>
      match letterEscape? c, codeDigits? c with
      | some d, _ => push d (basicRest .none cs)
      | _, some n => basicRest (.code n 0) cs
      | _, _ => Option.none
    | .code left value =>
      match Text.hexDigit? c with
      | Option.none => Option.none
      | some d =>
        if left ≤ 1 then
          match ofCode? (value * 16 + d) with
          | some e => push e (basicRest .none cs)
          | Option.none => Option.none
        else basicRest (.code (left - 1) (value * 16 + d)) cs
    | _ =>
      if c == '"' then some ([], cs)
      else if c == '\\' then basicRest .begun cs
      else if isPlain c then push c (basicRest .none cs)
      else Option.none

/-- The rest of a text in single quotes. -/
def literalRest : Reader (List Char)
  | [] => Option.none
  | c :: cs =>
    if c == '\x27' then some ([], cs)
    else if isPlain c then push c (literalRest cs)
    else Option.none

/-- Whether a line ends here: at a line feed, or at a carriage return before one. -/
def endsLine (c : Char) (cs : List Char) : Bool :=
  c == '\n' || (c == '\r' && cs.head? == some '\n')

/-- What ends a text in triple quotes, seen behind the first of them: two more, and then up to two
that stand before the end. -/
def closing? (quote : Char) : Reader (List Char)
  | a :: b :: cs =>
    if a == quote && b == quote then
      let extra := (cs.take 2).takeWhile (· == quote)
      some (extra, cs.drop extra.length)
    else Option.none
  | _ => Option.none

/-- The rest of a text in triple double quotes. -/
def basicLinesRest (state : Escape) : Reader (List Char)
  | [] => Option.none
  | c :: cs =>
    match state with
    | .begun =>
      match letterEscape? c, codeDigits? c with
      | some d, _ => push d (basicLinesRest .none cs)
      | _, some n => basicLinesRest (.code n 0) cs
      | _, _ =>
        if c == '\n' then basicLinesRest .hidden cs
        else if isSpace c || endsLine c cs then basicLinesRest .hiding cs
        else Option.none
    | .code left value =>
      match Text.hexDigit? c with
      | Option.none => Option.none
      | some d =>
        if left ≤ 1 then
          match ofCode? (value * 16 + d) with
          | some e => push e (basicLinesRest .none cs)
          | Option.none => Option.none
        else basicLinesRest (.code (left - 1) (value * 16 + d)) cs
    | .hiding =>
      if c == '\n' then basicLinesRest .hidden cs
      else if isSpace c || endsLine c cs then basicLinesRest .hiding cs
      else Option.none
    | state =>
      if state == .hidden && (isSpace c || endsLine c cs) then basicLinesRest .hidden cs
      else if c == '"' then
        match closing? '"' cs with
        | some found => some found
        | Option.none => push c (basicLinesRest .none cs)
      else if c == '\\' then basicLinesRest .begun cs
      else if isPlain c || endsLine c cs then push c (basicLinesRest .none cs)
      else Option.none

/-- The rest of a text in triple single quotes. -/
def literalLinesRest : Reader (List Char)
  | [] => Option.none
  | c :: cs =>
    if c == '\x27' then
      match closing? '\x27' cs with
      | some found => some found
      | Option.none => push c (literalLinesRest cs)
    else if isPlain c || endsLine c cs then push c (literalLinesRest cs)
    else Option.none

/-- Text without a line break at its very beginning. -/
def dropLineBreak : List Char → List Char
  | '\n' :: cs => cs
  | '\r' :: '\n' :: cs => cs
  | cs => cs

def quoted : Reader String := fun cs =>
  Option.map (fun (text, rest) => (String.ofList text, rest)) <|
    match cs with
    | '"' :: '"' :: '"' :: rest => basicLinesRest .none (dropLineBreak rest)
    | '"' :: rest => basicRest .none rest
    | '\x27' :: '\x27' :: '\x27' :: rest => literalLinesRest (dropLineBreak rest)
    | '\x27' :: rest => literalRest rest
    | _ => Option.none

end ConnectionSecurity.Toml
