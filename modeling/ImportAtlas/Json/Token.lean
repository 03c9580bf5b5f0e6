import ImportAtlas.Json.Value
/-!
# Tokens of JSON texts

A text is cut into tokens before it is read. Whether a faulty token matters
depends on who reads it: a value nobody asks for may hold half a surrogate pair
or a number no float can hold. So tokens keep what was written, and say what is
wrong with it only when they are read.
-/

namespace ImportAtlas.Json

/-- What is wrong with a text: it is no JSON, it has another shape than asked
for, or it ends too early. -/
inductive Fault
  | malformed
  | mismatch
  | unfinished
  deriving DecidableEq, Repr

/-- A piece of a text between quotes: a character, or the code unit a `\u`
escape stands for. -/
inductive Piece
  | char (c : Char)
  | unit (n : Nat)
  deriving DecidableEq, Repr

/-- A number as it is written. -/
inductive Numeral
  | natural (n : Nat)
  | negative (n : Nat)
  /-- A number with a fraction or an exponent, or too long for 64 bits; `huge` if
  it is beyond all floats. -/
  | fraction (huge : Bool)
  /-- No number; `atEnd` if only because the text ends. -/
  | broken (atEnd : Bool)
  deriving DecidableEq, Repr

inductive Token
  | openList
  | closeList
  | openObject
  | closeObject
  | comma
  | colon
  | null
  | bool (b : Bool)
  /-- A text, and what is wrong with its end. -/
  | text (pieces : List Piece) (fault : Option Fault)
  | number (n : Numeral)
  /-- The start of a word that is none. -/
  | brokenWord (fault : Fault)
  /-- A character no token starts with. -/
  | stray
  deriving DecidableEq, Repr

/-- The white space between tokens. -/
def isGap (c : Char) : Bool := c == ' ' || c == '\n' || c == '\t' || c == '\r'

def hexValue? (c : Char) : Option Nat :=
  if c.isDigit then some (c.toNat - 48)
  else if 'a' ≤ c && c ≤ 'f' then some (c.toNat - 87)
  else if 'A' ≤ c && c ≤ 'F' then some (c.toNat - 55)
  else none

/-- The value of four hexadecimal digits. -/
def fourHex? (a b c d : Char) : Option Nat := do
  let a ← hexValue? a
  let b ← hexValue? b
  let c ← hexValue? c
  let d ← hexValue? d
  return ((a * 16 + b) * 16 + c) * 16 + d

/-- The character a letter after a backslash stands for. -/
def escapedChar? (c : Char) : Option Char :=
  match c with
  | '"' => some '"'
  | '\\' => some '\\'
  | '/' => some '/'
  | 'b' => some '\x08'
  | 'f' => some '\x0c'
  | 'n' => some '\n'
  | 'r' => some '\r'
  | 't' => some '\t'
  | _ => none

/-- Why no four digits follow a `\u`: there are not even four bytes left, or they
are no digits. -/
def hexFault (cs : List Char) : Fault :=
  if (String.ofList (cs.take 4)).utf8ByteSize < 4 then .unfinished else .malformed

/-- Reads a text after its opening quote: its pieces, what is wrong with its
end, and what follows. `read` holds the pieces read so far, last first. -/
def lexText (read : List Piece) : List Char → List Piece × Option Fault × List Char
  | [] => (read.reverse, some .unfinished, [])
  | '"' :: rest => (read.reverse, none, rest)
  | '\\' :: 'u' :: a :: b :: c :: d :: rest =>
    match fourHex? a b c d with
    | some n => lexText (.unit n :: read) rest
    | none => (read.reverse, some (hexFault (a :: b :: c :: d :: rest)), [])
  | '\\' :: 'u' :: rest => (read.reverse, some (hexFault rest), [])
  | '\\' :: e :: rest =>
    match escapedChar? e with
    | some c => lexText (.char c :: read) rest
    | none => (read.reverse, some .malformed, [])
  | ['\\'] => (read.reverse, some .unfinished, [])
  | c :: rest => if c.toNat < 32 then (read.reverse, some .malformed, []) else lexText (.char c :: read) rest

/-- The value of a row of digits. -/
def decimalValue (digits : List Char) : Nat := digits.foldl (fun n c => n * 10 + (c.toNat - 48)) 0

/-- Whether `mantissa` times ten to the given power is beyond all floats. A power
above 308 is refused whatever it multiplies, unless that is nothing. -/
def isHuge (mantissa up down : Nat) : Bool :=
  mantissa != 0 &&
    (308 < up - down || (down ≤ up && Nat.pow 2 1024 - Nat.pow 2 970 ≤ mantissa * Nat.pow 10 (up - down)) ||
      (up < down && (Nat.pow 2 1024 - Nat.pow 2 970) * Nat.pow 10 (down - up) ≤ mantissa))

/-- The exponent of a number, after its `e`: the digits, whether it is negative,
and what follows; `none` with the rest if there are no digits. -/
def lexExponent (cs : List Char) : Except (List Char) (Bool × List Char × List Char) :=
  let (negative, cs) := match cs with
    | '+' :: cs => (false, cs)
    | '-' :: cs => (true, cs)
    | cs => (false, cs)
  let digits := cs.takeWhile Char.isDigit
  if digits.isEmpty then .error cs else .ok (negative, digits, cs.dropWhile Char.isDigit)

/-- A number after its whole part, whose digits are given. -/
def lexFraction (negative : Bool) (whole cs : List Char) : Numeral × List Char :=
  let scaled := fun (mantissa decimals : Nat) (cs : List Char) =>
    match cs with
    | 'e' :: cs | 'E' :: cs =>
      match lexExponent cs with
      | .error rest => (Numeral.broken rest.isEmpty, [])
      | .ok (down, digits, rest) =>
        let digits := digits.dropWhile (· = '0')
        let power := if 9 < digits.length then Nat.pow 10 9 else decimalValue digits
        (Numeral.fraction (if down then isHuge mantissa 0 (decimals + Nat.min power 400)
          else isHuge mantissa power decimals), rest)
    | cs => (.fraction (isHuge mantissa 0 decimals), cs)
  match cs with
  | '.' :: cs =>
    let decimals := cs.takeWhile Char.isDigit
    let rest := cs.dropWhile Char.isDigit
    if decimals.isEmpty then (.broken rest.isEmpty, [])
    else scaled (decimalValue (whole ++ decimals)) decimals.length rest
  | 'e' :: _ | 'E' :: _ => scaled (decimalValue whole) 0 cs
  | cs =>
    let n := decimalValue whole
    if Nat.pow 2 64 ≤ n then (.fraction (isHuge n 0 0), cs)
    else (if negative then .negative n else .natural n, cs)

/-- A number after its sign. -/
def lexNumber (negative : Bool) (cs : List Char) : Numeral × List Char :=
  let whole := cs.takeWhile Char.isDigit
  let rest := cs.dropWhile Char.isDigit
  match whole with
  | [] => (.broken rest.isEmpty, [])
  | '0' :: _ :: _ => (.broken false, [])
  | whole => lexFraction negative whole rest

/-- The rest of a word whose first letter is read, and what follows it. -/
def lexWord : List Char → List Char → Except Fault (List Char)
  | [], cs => .ok cs
  | _ :: _, [] => .error .unfinished
  | w :: ws, c :: cs => if w = c then lexWord ws cs else .error .malformed

/-- One token, from its first character, and what follows it. Nothing follows a
faulty token. -/
def lexToken (c : Char) (cs : List Char) : Token × List Char :=
  let word := fun (w : String) (t : Token) =>
    match lexWord w.toList cs with
    | .ok rest => (t, rest)
    | .error f => (.brokenWord f, [])
  match c with
  | '[' => (.openList, cs)
  | ']' => (.closeList, cs)
  | '\x7b' => (.openObject, cs)
  | '\x7d' => (.closeObject, cs)
  | ',' => (.comma, cs)
  | ':' => (.colon, cs)
  | 'n' => word "ull" .null
  | 't' => word "rue" (.bool true)
  | 'f' => word "alse" (.bool false)
  | '"' =>
    let (pieces, fault, rest) := lexText [] cs
    (.text pieces fault, rest)
  | '-' =>
    let (n, rest) := lexNumber true cs
    (.number n, rest)
  | c =>
    if c.isDigit then
      let (n, rest) := lexNumber false (c :: cs)
      (.number n, rest)
    else (.stray, [])

/-- The tokens of a text at most `fuel` characters long. -/
def lexFrom : Nat → List Char → List Token
  | 0, _ => []
  | fuel + 1, cs =>
    match cs.dropWhile isGap with
    | [] => []
    | c :: rest =>
      let (t, rest) := lexToken c rest
      t :: lexFrom fuel rest

def tokens (cs : List Char) : List Token := lexFrom (cs.length + 1) cs

/-- The characters that pieces of a text stand for. A code unit that is half of a
pair needs the other half right after it; `fault` is what is wrong with the end
of the text. -/
def decodePieces (fault : Option Fault) : List Piece → Except Fault (List Char)
  | [] => match fault with
    | none => .ok []
    | some f => .error f
  | .char c :: rest => (decodePieces fault rest).map (c :: ·)
  | .unit n :: rest =>
    if 0xDC00 ≤ n && n ≤ 0xDFFF then .error .malformed
    else if 0xD800 ≤ n && n ≤ 0xDBFF then
      match rest with
      | [] => .error (fault.getD .malformed)
      | .unit m :: rest =>
        if 0xDC00 ≤ m && m ≤ 0xDFFF then
          (decodePieces fault rest).map (Char.ofNat (0x10000 + (n - 0xD800) * 1024 + (m - 0xDC00)) :: ·)
        else .error .malformed
      | .char _ :: _ => .error .malformed
    else (decodePieces fault rest).map (Char.ofNat n :: ·)

end ImportAtlas.Json
