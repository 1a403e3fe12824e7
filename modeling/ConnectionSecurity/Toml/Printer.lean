import ConnectionSecurity.Toml.Document

/-!
# Writing a document

Every table is written as a block: its header, then one line for each value that is no table, then
the blocks of its tables, all in their own order. A header is left out when only tables stand under
it; the block of the whole document has none. An empty line separates blocks.

A text is written in the form that reads best: in double quotes if nothing has to be escaped, else
in single quotes, else in triple quotes of either kind, and only then with escapes.
-/

namespace ConnectionSecurity.Toml

/-! ## What a text contains -/

/-- A control character that only an escape can write. -/
def needsCode (c : Char) : Bool := (c.toNat < 0x20 && c != '\t' && c != '\n') || c.toNat == 0x7f

/-- The length of the longest run of a character, given the length of the run just before. -/
def longestRun (x : Char) (run : Nat) : List Char → Nat
  | [] => run
  | c :: cs => if c == x then longestRun x (run + 1) cs else max run (longestRun x 0 cs)

/-! ## Escaping -/

/-- Four hexadecimal digits in capitals. -/
def fourDigits (n : Nat) : List Char :=
  [n / 4096 % 16, n / 256 % 16, n / 16 % 16, n % 16].map fun d => d.digitChar.toUpper

/-- The written form of a character inside double quotes, the quote and the line break apart. -/
def escaped (c : Char) : List Char :=
  if c == '\x08' then ['\\', 'b']
  else if c == '\t' then ['\\', 't']
  else if c == '\x0c' then ['\\', 'f']
  else if c == '\r' then ['\\', 'r']
  else if c == '\\' then ['\\', '\\']
  else if needsCode c then '\\' :: 'u' :: fourDigits c.toNat
  else [c]

/-- The inside of a text in double quotes. -/
def basicInside : List Char → List Char
  | [] => []
  | c :: cs =>
    (if c == '\n' then ['\\', 'n'] else if c == '"' then ['\\', '"'] else escaped c)
      ++ basicInside cs

/-- The inside of a text in triple double quotes: line breaks stay, and of three quotes in a row
the third is escaped. `run` quotes stand just before. -/
def basicLinesInside (run : Nat) : List Char → List Char
  | [] => []
  | c :: cs =>
    if c == '\n' then '\n' :: basicLinesInside 0 cs
    else if c == '"' then
      if run < 2 then '"' :: basicLinesInside (run + 1) cs
      else '\\' :: '"' :: basicLinesInside 0 cs
    else escaped c ++ basicLinesInside 0 cs

/-! ## Texts and names -/

/-- How a text can be written. -/
inductive Quoting where
  | basic
  | literal
  | basicLines
  | literalLines
deriving DecidableEq, Repr

/-- The form that reads best. -/
def Quoting.of (cs : List Char) : Quoting :=
  let codes := cs.any needsCode
  let backslash := cs.contains '\\'
  let newline := cs.contains '\n'
  let doubles := longestRun '"' 0 cs
  let singles := longestRun '\x27' 0 cs
  if !codes && !backslash && doubles == 0 && !newline then .basic
  else if !codes && singles == 0 && !newline then .literal
  else if !codes && !backslash && doubles ≤ 2 then .basicLines
  else if !codes && singles ≤ 2 then .literalLines
  else if newline then .basicLines
  else .basic

/-- A text in a given form. A text with line breaks begins on a line of its own. -/
def Quoting.write (cs : List Char) : Quoting → List Char
  | .basic => '"' :: basicInside cs ++ ['"']
  | .literal => '\x27' :: cs ++ ['\x27']
  | .basicLines =>
    let opening := if cs.contains '\n' then ['"', '"', '"', '\n'] else ['"', '"', '"']
    opening ++ basicLinesInside 0 cs ++ ['"', '"', '"']
  | .literalLines =>
    let quotes := ['\x27', '\x27', '\x27']
    let opening := if cs.contains '\n' then quotes ++ ['\n'] else quotes
    opening ++ cs ++ quotes

def writeText (s : String) : List Char := (Quoting.of s.toList).write s.toList

/-- The written form of one part of a name: without quotes if it can be, and never in a form that
goes over lines. -/
def writePart (s : String) : List Char :=
  let cs := s.toList
  let codes := cs.any fun c => needsCode c || c == '\n'
  if !cs.isEmpty && cs.all isBare then cs
  else if !codes && !cs.contains '\\' && !cs.contains '"' then Quoting.basic.write cs
  else if !codes && !cs.contains '\x27' then Quoting.literal.write cs
  else Quoting.basic.write cs

def writeName (path : List String) : List Char := ['.'].intercalate (path.map writePart)

/-! ## Values and blocks -/

def writeInteger (n : Int) : List Char :=
  if n < 0 then '-' :: Nat.toDigits 10 n.natAbs else Nat.toDigits 10 n.natAbs

mutual

/-- The written form of a value that stands behind an equals sign. -/
def writeValue : Value → List Char
  | .text s => writeText s
  | .integer n => writeInteger n
  | .float s => s.toList
  | .boolean true => ['t', 'r', 'u', 'e']
  | .boolean false => ['f', 'a', 'l', 's', 'e']
  | .moment s => s.toList
  | .array [] => ['[', ']']
  | .array [v] => '[' :: writeValue v ++ [']']
  | .array (v :: w :: vs) => '[' :: '\n' :: writeItems (v :: w :: vs) ++ [']']
  | .table [] => ['\x7b', '\x7d']
  | .table (e :: es) => ['\x7b', ' '] ++ writeInline (e :: es) ++ ['\x7d']

/-- The items of an array, each on a line of its own. -/
def writeItems : List Value → List Char
  | [] => []
  | v :: vs => [' ', ' ', ' ', ' '] ++ writeValue v ++ [',', '\n'] ++ writeItems vs

/-- The lines of a table that stands inside a line. -/
def writeInline : List (String × Value) → List Char
  | [] => []
  | [(n, v)] => writePart n ++ [' ', '=', ' '] ++ writeValue v ++ [' ']
  | (n, v) :: e :: es => writePart n ++ [' ', '=', ' '] ++ writeValue v ++ [',', ' '] ++
      writeInline (e :: es)

end

def writeLines : List (String × Value) → List Char
  | [] => []
  | (n, v) :: es =>
    if v.isTable then writeLines es
    else writePart n ++ [' ', '=', ' '] ++ writeValue v ++ ['\n'] ++ writeLines es

def writeHeader (path : List String) : List Char := '[' :: writeName path ++ [']', '\n']

mutual

/-- The blocks of a table, its own first. A block with nothing in it is left out. -/
def blocks (path : List String) : Value → List (List Char)
  | .table entries =>
    let lines := writeLines entries
    let hidden := path.isEmpty || (lines.isEmpty && entries.any (·.2.isTable))
    let own := if hidden then lines else writeHeader path ++ lines
    (if own.isEmpty then [] else [own]) ++ blocksBelow path entries
  | _ => []

/-- The blocks of the tables among the entries of a table. -/
def blocksBelow (path : List String) : List (String × Value) → List (List Char)
  | [] => []
  | (n, v) :: es => blocks (path ++ [n]) v ++ blocksBelow path es

end

def print (entries : List (String × Value)) : String :=
  String.ofList (['\n'].intercalate (blocks [] (.table entries)))

end ConnectionSecurity.Toml
