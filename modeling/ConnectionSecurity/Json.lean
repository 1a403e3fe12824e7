/-!
# JSON values

Values without numbers, since nothing here has any, and their text on lines indented by two blanks.
-/

namespace ConnectionSecurity

/-- A value. The members of an object keep their order. -/
inductive Json where
  | text (s : String)
  | boolean (b : Bool)
  | array (items : List Json)
  | object (members : List (String × Json))
deriving Repr

namespace Json

/-- An object of the members that are there. -/
def ofMembers (members : List (String × Option Json)) : Json :=
  .object (members.filterMap fun (name, v) => v.map fun v => (name, v))

/-! ## Text -/

def escaped (c : Char) : List Char :=
  if c == '"' then ['\\', '"']
  else if c == '\\' then ['\\', '\\']
  else if c == '\n' then ['\\', 'n']
  else if c == '\r' then ['\\', 'r']
  else if c == '\t' then ['\\', 't']
  else if c == '\x08' then ['\\', 'b']
  else if c == '\x0c' then ['\\', 'f']
  else if c.toNat < 0x20 then
    ['\\', 'u', '0', '0', (c.toNat / 16).digitChar, (c.toNat % 16).digitChar]
  else [c]

def quoted (s : String) : List Char := '"' :: s.toList.flatMap escaped ++ ['"']

def newLine (depth : Nat) : List Char := '\n' :: List.replicate (2 * depth) ' '

mutual

/-- The text of a value inside `depth` others. -/
def write (depth : Nat) : Json → List Char
  | .text s => quoted s
  | .boolean true => ['t', 'r', 'u', 'e']
  | .boolean false => ['f', 'a', 'l', 's', 'e']
  | .array [] => ['[', ']']
  | .array (v :: vs) => '[' :: writeItems depth (v :: vs) ++ newLine depth ++ [']']
  | .object [] => ['\x7b', '\x7d']
  | .object (m :: ms) => '\x7b' :: writeMembers depth (m :: ms) ++ newLine depth ++ ['\x7d']

/-- The items of an array, each on a line of its own. -/
def writeItems (depth : Nat) : List Json → List Char
  | [] => []
  | v :: vs => newLine (depth + 1) ++ write (depth + 1) v ++
      (if vs.isEmpty then [] else [',']) ++ writeItems depth vs

/-- The members of an object, each on a line of its own. -/
def writeMembers (depth : Nat) : List (String × Json) → List Char
  | [] => []
  | (name, v) :: ms => newLine (depth + 1) ++ quoted name ++ [':', ' '] ++ write (depth + 1) v ++
      (if ms.isEmpty then [] else [',']) ++ writeMembers depth ms

end

def print (v : Json) : String := String.ofList (write 0 v)

end Json

end ConnectionSecurity
