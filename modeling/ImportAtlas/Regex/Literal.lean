import ImportAtlas.Regex.Basic
import ImportAtlas.Text.Split
/-!
# Escapes

What a backslash stands for in a pattern: a character, a class of characters or
an assertion. Every reader here takes the pattern from where it stands and gives
what it read with what is left; `none` is a pattern that is not well formed.
-/

namespace ImportAtlas.Regex

/-- How the rest of a pattern is to be read. -/
structure Mode where
  ignoreCase : Bool := false
  multiLine : Bool := false
  /-- `.` also stands for a line feed. -/
  dotAll : Bool := false
  /-- A carriage return ends a line too. -/
  carriageReturn : Bool := false
  /-- Classes and cases are those of all scripts, not of ASCII alone. -/
  unicode : Bool := true
  /-- Blanks and comments in the pattern do not count. -/
  spaced : Bool := false
  deriving DecidableEq, Repr

/-- What a reader gives: a value and the rest of the pattern. -/
abbrev Reader (α : Type) := List Char → Option (α × List Char)

/-- Without blanks and `#` comments; `comment` is whether the text starts in a
comment. -/
def dropBlanks (comment : Bool) : List Char → List Char
  | [] => []
  | c :: cs =>
    if comment then dropBlanks (c != '\n') cs
    else if Text.isBlank c then dropBlanks false cs
    else if c = '#' then dropBlanks true cs
    else c :: cs

namespace Mode

/-- The pattern from the next character that counts. -/
def skip (m : Mode) (cs : List Char) : List Char := if m.spaced then dropBlanks false cs else cs

/-- The next character that counts after the one a range's hyphen is. Only a
single `#` is passed over here, not what follows it. -/
def peek (m : Mode) (cs : List Char) : Option Char :=
  if m.spaced then
    match cs.dropWhile Text.isBlank with
    | '#' :: rest => (rest.dropWhile Text.isBlank).head?
    | rest => rest.head?
  else cs.head?

end Mode

/-- The characters with a meaning of their own somewhere in a pattern. -/
def isMeta (c : Char) : Bool := "\\.+*?()|[]\x7b\x7d^$#&-~".toList.contains c

/-- Whether a backslash may stand before a character that needs none. -/
def mayEscape (c : Char) : Bool := isMeta c || (c.toNat < 128 && !c.isAlphanum && c != '<' && c != '>')

def hexDigit? (c : Char) : Option Nat :=
  if c.isDigit then some (c.toNat - 48)
  else if 'a' ≤ c && c ≤ 'f' then some (c.toNat - 87)
  else if 'A' ≤ c && c ≤ 'F' then some (c.toNat - 55)
  else none

def char? (n : Nat) : Option Char := if n.isValidChar then some (Char.ofNat n) else none

/-- Hexadecimal digits up to the closing brace. -/
def bracedHex (m : Mode) : Nat → Option Nat → Reader Char
  | 0, _, _ => none
  | fuel + 1, value, cs =>
    match m.skip cs with
    | [] => none
    | '\x7d' :: rest => (value.bind char?).map (·, m.skip rest)
    | c :: rest => (hexDigit? c).bind fun d => bracedHex m fuel (some (value.getD 0 * 16 + d)) rest

/-- Exactly `n` more hexadecimal digits. -/
def fixedHex (m : Mode) : Nat → Nat → Reader Char
  | 0, value, cs => (char? value).map (·, m.skip cs)
  | n + 1, value, cs =>
    match m.skip cs with
    | [] => none
    | c :: rest => (hexDigit? c).bind fun d => fixedHex m n (value * 16 + d) rest

/-- A character given by its code point; `digits` is how many there are without
braces. -/
def hex (m : Mode) (digits : Nat) (cs : List Char) : Option (Char × List Char) :=
  match m.skip cs with
  | '\x7b' :: rest => bracedHex m (rest.length + 1) none rest
  | rest => fixedHex m digits 0 rest

/-- The name of a property without what does not tell names apart: case,
spaces, hyphens, underscores and an `is` in front. -/
def looseName (name : List Char) : String :=
  let plain := fun (cs : List Char) =>
    (cs.filter fun c => c.toNat < 128 && c != ' ' && c != '_' && c != '-').map Char.toLower
  match name with
  | i :: s :: rest =>
    if (i == 'i' || i == 'I') && (s == 's' || s == 'S') then
      if plain rest = ['c'] then "isc" else String.ofList (plain rest)
    else String.ofList (plain name)
  | _ => String.ofList (plain name)

def categoryNamed? (name : String) : Option CharProperty :=
  if name = "any" then some .any
  else if name = "ascii" then some .ascii
  else if name = "assigned" then some .assigned
  else (Unicode.category? name).map fun _ => .category name

/-- The property of this name. Three short names stand for categories, though
properties have them too. -/
def propertyNamed? (name : String) : Option CharProperty :=
  if (Unicode.flag? name).isSome && !(["cf", "sc", "lc"].contains name) then some (.flag name)
  else
    match categoryNamed? name with
    | some p => some p
    | none => (Unicode.script? name).map fun _ => .script name

/-- The property with this value. -/
def propertyValued? (name value : String) : Option CharProperty :=
  if ["gc", "generalcategory"].contains name then categoryNamed? value
  else if ["sc", "script"].contains name then (Unicode.script? value).map fun _ => .script value
  else if ["scx", "scriptextensions"].contains name then (Unicode.script? value).map fun _ => .extended value
  else none

/-- The texts before and after the first place where `sep` stands. -/
def cutAt (sep : List Char) : List Char → Option (List Char × List Char)
  | [] => none
  | c :: cs =>
    match Text.dropStart? sep (c :: cs) with
    | some rest => some ([], rest)
    | none => (cutAt sep cs).map fun (a, b) => (c :: a, b)

/-- The property written between the braces of `\p`, and whether its complement
is meant. -/
def bracedProperty (name : List Char) : Option (CharProperty × Bool) :=
  let valued := fun (n v : List Char) => propertyValued? (looseName n) (looseName v)
  match cutAt ['!', '='] name, cutAt [':'] name, cutAt ['='] name with
  | some (n, v), _, _ => (valued n v).map (·, true)
  | _, some (n, v), _ => (valued n v).map (·, false)
  | _, _, some (n, v) => (valued n v).map (·, false)
  | _, _, _ => (propertyNamed? (looseName name)).map (·, false)

/-- The text up to the closing brace. -/
def braced (m : Mode) : Nat → Reader (List Char)
  | 0, _ => none
  | fuel + 1, cs =>
    match m.skip cs with
    | [] => none
    | '\x7d' :: rest => some ([], rest)
    | c :: rest => (braced m fuel rest).map fun (name, rest) => (c :: name, rest)

/-- A set, with case disregarded where the mode asks for it, then its complement
if `negated`. Outside Unicode a complement would hold bytes that are no
characters. -/
def Mode.close (m : Mode) (negated : Bool) (s : CharSet) : Option CharSet :=
  let s := if m.ignoreCase then (if m.unicode then .folded s else .foldedAscii s) else s
  if negated then (if m.unicode then some (.complement s) else none) else some s

/-- What follows `\p` or `\P`. -/
def property (m : Mode) (negated : Bool) (cs : List Char) : Option (CharSet × List Char) :=
  let close := fun (p : CharProperty) (negated : Bool) (rest : List Char) =>
    if m.unicode then (m.close negated (.property p)).map (·, rest) else none
  match m.skip cs with
  | [] => none
  | '\x7b' :: rest =>
    (braced m (rest.length + 1) rest).bind fun (name, rest) =>
      (bracedProperty name).bind fun (p, flipped) => close p (negated != flipped) rest
  | '\\' :: _ => none
  | c :: rest => (propertyNamed? (looseName [c])).bind fun p => close p negated (m.skip rest)

/-- The class of words, digits or spaces that a letter stands for: in capitals,
its complement. -/
def shorthand? (m : Mode) (c : Char) : Option CharSet :=
  let ascii : Option CharSet :=
    match c.toLower with
    | 'd' => some (.range '0' '9')
    | 's' => some (.ofRanges [('\t', '\r'), (' ', ' ')])
    | 'w' => some (.ofRanges [('0', '9'), ('A', 'Z'), ('_', '_'), ('a', 'z')])
    | _ => none
  let full : Option CharSet :=
    match c.toLower with
    | 'd' => some .digit
    | 's' => some .space
    | 'w' => some .word
    | _ => none
  if m.unicode then full.map fun s => if c.isUpper then .complement s else s
  else if c.isUpper then none else ascii

/-- What a backslash and what follows it stand for. -/
inductive Escape
  | char (c : Char)
  /-- A character written as `\xFF`: outside Unicode this is a byte. -/
  | byte (c : Char)
  | set (s : CharSet)
  | look (a : Assertion)

/-- The word edge written between the braces after `\b`, if a name stands
there. The outer `none` is a name that is unknown or not closed. -/
def namedEdge (m : Mode) (cs : List Char) : Option (Option (WordEdge × List Char)) :=
  let isNameChar := fun (c : Char) => c.isAlpha || c == '-'
  match m.skip cs with
  | [] => none
  | c :: rest =>
    if !isNameChar c then some none
    else
      (braced m (rest.length + 2) (c :: rest)).bind fun (name, rest) =>
        if name = "start".toList then some (some (.start, rest))
        else if name = "end".toList then some (some (.finish, rest))
        else if name = "start-half".toList then some (some (.startHalf, rest))
        else if name = "end-half".toList then some (some (.endHalf, rest))
        else none

def escape (m : Mode) : Reader Escape
  | [] => none
  | c :: rest =>
    let edge := fun (e : WordEdge) => Escape.look (.wordEdge e (!m.unicode))
    if c.isDigit then none
    else if c = 'x' then
      (hex m 2 rest).map fun (c, left) => (if (m.skip rest).head? = some '\x7b' then .char c else .byte c, left)
    else if c = 'u' then (hex m 4 rest).map fun (c, left) => (.char c, left)
    else if c = 'U' then (hex m 8 rest).map fun (c, left) => (.char c, left)
    else if c = 'p' || c = 'P' then (property m (c == 'P') rest).map fun (s, left) => (.set s, left)
    else if ['d', 's', 'w', 'D', 'S', 'W'].contains c then (shorthand? m c).map fun s => (.set s, rest)
    else if mayEscape c then some (.char c, rest)
    else
      match c with
      | 'a' => some (.char '\x07', rest)
      | 'f' => some (.char '\x0c', rest)
      | 't' => some (.char '\t', rest)
      | 'n' => some (.char '\n', rest)
      | 'r' => some (.char '\r', rest)
      | 'v' => some (.char '\x0b', rest)
      | 'A' => some (.look .textStart, rest)
      | 'z' => some (.look .textEnd, rest)
      | 'B' => some (edge .inside, rest)
      | '<' => some (edge .start, rest)
      | '>' => some (edge .finish, rest)
      | 'b' =>
        match rest with
        | '\x7b' :: inner =>
          (namedEdge m inner).map fun
            | some (e, left) => (edge e, left)
            | none => (edge .boundary, rest)
        | _ => some (edge .boundary, rest)
      | _ => none

end ImportAtlas.Regex
