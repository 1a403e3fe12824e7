import ConnectionSecurity.Text.Ascii

/-!
# Numbers as TOML writes them

An underscore may stand between two digits. A decimal number has no leading zero and may have a
sign; the other bases have a mark in front and no sign. A float has a fraction, an exponent or both,
and has to be in the range of double precision.
-/

namespace ConnectionSecurity.Toml

/-- The digits of a run, without the underscores between them; `none` if an underscore stands
anywhere else or the run is empty. -/
def digits? (isDigit : Char → Bool) : List Char → Option (List Char)
  | [] => none
  | [c] => if isDigit c then some [c] else none
  | c :: '_' :: cs => if isDigit c then (digits? isDigit cs).map (c :: ·) else none
  | c :: cs => if isDigit c then (digits? isDigit cs).map (c :: ·) else none

def ofDigits (base : Nat) (digits : List Char) : Nat :=
  digits.foldl (fun n c => n * base + (Text.hexDigit? c).getD 0) 0

/-- An optional sign and what follows it. -/
def signed : List Char → Bool × List Char
  | '+' :: cs => (false, cs)
  | '-' :: cs => (true, cs)
  | cs => (false, cs)

/-- Decimal digits without a leading zero. -/
def decimalDigits? (cs : List Char) : Option (List Char) :=
  match digits? Char.isDigit cs with
  | some ('0' :: _ :: _) => none
  | found => found

/-- The magnitudes that an integer may have: those of a signed or an unsigned number of 128 bits. -/
def inIntegerRange (n : Int) : Bool :=
  -(Nat.pow 2 127 : Int) ≤ n && n < (Nat.pow 2 128 : Int)

/-- The magnitude that a token without a sign writes to a given base. -/
def natural? (base : Nat) (isDigit : Char → Bool) (cs : List Char) : Option Int :=
  (digits? isDigit cs).map fun ds => (ofDigits base ds : Int)

def decimal? (token : List Char) : Option Int :=
  let (negative, cs) := signed token
  (decimalDigits? cs).map fun ds => if negative then -(ofDigits 10 ds : Int) else ofDigits 10 ds

def integer? (token : List Char) : Option Int :=
  Option.filter inIntegerRange <|
    match token with
    | '0' :: 'x' :: cs => natural? 16 Text.isHexDigit cs
    | '0' :: 'o' :: cs => natural? 8 (fun c => '0' ≤ c && c ≤ '7') cs
    | '0' :: 'b' :: cs => natural? 2 (fun c => c == '0' || c == '1') cs
    | cs => decimal? cs

/-- Whether `digits · 10 ^ exponent` is too large for double precision: at least half a unit in the
last place above the largest number. -/
def overflows (digits : List Char) (exponent : Int) : Bool :=
  let digits := digits.dropWhile (· == '0')
  let size := exponent + digits.length
  if digits.isEmpty || size < 300 then false
  else if 320 < size then true
  else
    let bound := Nat.pow 2 1024 - Nat.pow 2 970
    let n := ofDigits 10 digits
    if 0 ≤ exponent then decide (bound ≤ n * Nat.pow 10 exponent.toNat)
    else decide (bound * Nat.pow 10 (-exponent).toNat ≤ n)

/-- Whether a token writes a float in range. -/
def isFloat (token : List Char) : Bool :=
  let (_, cs) := signed token
  if cs == ['i', 'n', 'f'] || cs == ['n', 'a', 'n'] then true
  else
    let isE (c : Char) := c == 'e' || c == 'E'
    let mantissa := cs.takeWhile (!isE ·)
    let exponentPart := cs.dropWhile (!isE ·)
    let whole := mantissa.takeWhile (· != '.')
    let fractionPart := mantissa.dropWhile (· != '.')
    let fraction? := if fractionPart.isEmpty then some [] else digits? Char.isDigit (fractionPart.drop 1)
    let exponent? : Option Int :=
      if exponentPart.isEmpty then some 0
      else
        let (negative, ds) := signed (exponentPart.drop 1)
        (digits? Char.isDigit ds).map fun ds =>
          if negative then -(ofDigits 10 ds : Int) else ofDigits 10 ds
    match decimalDigits? whole, fraction?, exponent? with
    | some ds, some fs, some e =>
      !(fractionPart.isEmpty && exponentPart.isEmpty) && !overflows (ds ++ fs) (e - fs.length)
    | _, _, _ => false

end ConnectionSecurity.Toml
