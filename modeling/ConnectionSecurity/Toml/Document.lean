import ConnectionSecurity.Toml.Moment
import ConnectionSecurity.Toml.Number
import ConnectionSecurity.Toml.Quoted
import ConnectionSecurity.Toml.Table

/-!
# Reading a document

A document is a sequence of lines: a name with a value, a header that opens a table, or nothing. An
array and an inline table may go over several lines, with comments in them and a comma at the end.
`read?` either gives the whole table or refuses; it does not say why.
-/

namespace ConnectionSecurity.Toml

/-- How deep arrays and inline tables may nest. -/
def depthLimit : Nat := 80

/-- How many parts a dotted name may have. -/
def partLimit : Nat := 80

/-! ## Between the values -/

def skipSpace (cs : List Char) : List Char := cs.dropWhile isSpace

/-- Skip blanks, line breaks and comments. A comment holds plain characters only. -/
def skipGap (inComment : Bool) : List Char → Option (List Char)
  | [] => some []
  | c :: cs =>
    if c == '\n' then skipGap false cs
    else if c == '\r' then if cs.head? == some '\n' then skipGap inComment cs else none
    else if inComment then if isPlain c then skipGap true cs else none
    else if isSpace c then skipGap false cs
    else if c == '#' then skipGap true cs
    else some (c :: cs)

/-- Skip the end of a line, with a comment before it. -/
def skipLine (inComment : Bool) : List Char → Option (List Char)
  | [] => some []
  | c :: cs =>
    if c == '\n' then some cs
    else if c == '\r' then if cs.head? == some '\n' then skipLine inComment cs else none
    else if inComment then if isPlain c then skipLine true cs else none
    else if isSpace c then skipLine false cs
    else if c == '#' then skipLine true cs
    else none

/-- Read items as long as `another` finds, behind an item, that one more follows. -/
def chain (item : Reader α) (another : List Char → Option (List Char)) : Nat → Reader (List α)
  | 0, _ => none
  | fuel + 1, cs =>
    match item cs with
    | none => none
    | some (a, cs) =>
      match another cs with
      | none => some ([a], cs)
      | some cs => (chain item another fuel cs).map fun (as, cs) => (a :: as, cs)

/-- Items between an opening that was read already and `close`, with commas between them and
perhaps one at the end. -/
def listed (item : Reader α) (close : Char) : Reader (List α) := fun cs => do
  let cs ← skipGap false cs
  match cs with
  | [] => none
  | c :: rest =>
    if c == close then return ([], rest)
    let another (cs : List Char) : Option (List Char) := do
      match ← skipGap false cs with
      | ',' :: cs =>
        match ← skipGap false cs with
        | c :: cs => if c == close then none else some (c :: cs)
        | [] => none
      | _ => none
    let (items, cs) ← chain item another cs.length cs
    let cs ← skipGap false cs
    let cs ← match cs with
      | ',' :: cs => skipGap false cs
      | cs => some cs
    match cs with
    | c :: rest => if c == close then some (items, rest) else none
    | [] => none

/-! ## Names -/

/-- A character of a name without quotes. -/
def isBare (c : Char) : Bool := c.isAlphanum || c == '_' || c == '-'

/-- One part of a name. -/
def part : Reader String := fun cs =>
  match cs with
  | '"' :: rest => (basicRest .none rest).map fun (text, rest) => (String.ofList text, rest)
  | '\x27' :: rest => (literalRest rest).map fun (text, rest) => (String.ofList text, rest)
  | cs =>
    if (cs.takeWhile isBare).isEmpty then none
    else some (String.ofList (cs.takeWhile isBare), cs.dropWhile isBare)

def name : Reader (List String) := fun cs => do
  let another (cs : List Char) : Option (List Char) :=
    match skipSpace cs with
    | '.' :: cs => some (skipSpace cs)
    | _ => none
  let (parts, cs) ← chain part another cs.length cs
  if parts.length ≤ partLimit then some (parts, skipSpace cs) else none

/-! ## Values -/

/-- A character that a token without quotes may hold. -/
def isToken (c : Char) : Bool :=
  !(['=', ',', '[', ']', '{', '}', '#', ' ', '\t', '\n', '\r'].contains c)

/-- The value that a token without quotes writes. -/
def scalar? (token : List Char) : Option Value :=
  if token == ['t', 'r', 'u', 'e'] then some (.boolean true)
  else if token == ['f', 'a', 'l', 's', 'e'] then some (.boolean false)
  else
    match integer? token with
    | some n => some (.integer n)
    | none =>
      if isFloat token then some (.float (String.ofList token))
      else (moment? token).map fun normal => .moment (String.ofList normal)

/-- Read a token without quotes. A date goes on behind one blank if a digit follows. -/
def scalar : Reader Value := fun cs =>
  let token := cs.takeWhile isToken
  let rest := cs.dropWhile isToken
  let (token, rest) :=
    match date? token, rest with
    | some (_, []), ' ' :: d :: more =>
      if d.isDigit then
        (token ++ ' ' :: (d :: more).takeWhile isToken, (d :: more).dropWhile isToken)
      else (token, rest)
    | _, _ => (token, rest)
  (scalar? token).map fun v => (v, rest)

/-- A name, an equals sign and what `value` reads. -/
def line (value : Reader Value) : Reader (List String × Value) := fun cs => do
  let (path, cs) ← name cs
  match cs with
  | '=' :: cs =>
    let (v, cs) ← value (skipSpace cs)
    return ((path, v), cs)
  | _ => none

/-- Read a value in which arrays and inline tables nest at most `depth` deep. -/
def value : (depth : Nat) → Reader Value
  | 0 => fun cs =>
    match cs with
    | '[' :: _ => none
    | '\x7b' :: _ => none
    | '"' :: _ => (quoted cs).map fun (s, cs) => (.text s, cs)
    | '\x27' :: _ => (quoted cs).map fun (s, cs) => (.text s, cs)
    | cs => scalar cs
  | depth + 1 => fun cs =>
    match cs with
    | '[' :: cs => (listed (value depth) ']' cs).map fun (items, cs) => (.array items, cs)
    | '\x7b' :: cs => do
      let (lines, cs) ← listed (line (value depth)) '\x7d' cs
      let entries ← Entries.assignAll lines []
      return (.table (Draft.valuesOf entries), cs)
    | '"' :: _ => (quoted cs).map fun (s, cs) => (.text s, cs)
    | '\x27' :: _ => (quoted cs).map fun (s, cs) => (.text s, cs)
    | cs => scalar cs

/-! ## Lines of a document -/

/-- A line of a document. -/
inductive Statement where
  | header (array : Bool) (path : List String)
  | line (path : List String) (v : Value)

/-- Read a line that is not empty, up to where a comment or a line break has to follow. -/
def statement : Reader Statement := fun cs =>
  match cs with
  | '[' :: '[' :: cs => do
    match ← name (skipSpace cs) with
    | (path, ']' :: ']' :: cs) => some (.header true path, cs)
    | _ => none
  | '[' :: cs => do
    match ← name (skipSpace cs) with
    | (path, ']' :: cs) => some (.header false path, cs)
    | _ => none
  | cs => (line (value depthLimit) cs).map fun ((path, v), cs) => (.line path v, cs)

/-- Read the lines of a document. -/
def statements : Nat → List Char → Option (List Statement)
  | 0, _ => none
  | fuel + 1, cs =>
    match skipGap false cs with
    | none => none
    | some [] => some []
    | some cs =>
      match statement cs with
      | none => none
      | some (s, cs) =>
        match skipLine false cs with
        | none => none
        | some cs => (statements fuel cs).map (s :: ·)

/-- Add a line to a document whose last header is `path`. -/
def extend : (List String × Entries) → Statement → Option (List String × Entries)
  | (_, es), .header array path => (es.openTable array path).map fun es => (path, es)
  | (path, es), .line key v => (es.within (·.assign true v key) path).map fun es => (path, es)

/-- The entries of a document, or `none` if the text is no document. A byte order mark at its
beginning does not count. -/
def read? (text : String) : Option (List (String × Value)) := do
  let cs := match text.toList with
    | '\uFEFF' :: cs => cs
    | cs => cs
  let lines ← statements (cs.length + 1) cs
  let (_, es) ← lines.foldlM extend ([], [])
  return Draft.valuesOf es

end ConnectionSecurity.Toml
