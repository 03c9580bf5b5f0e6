import ImportAtlas.Source.Mark
/-!
# Literals

Texts between quotes, numbers, and regular expressions: where they end. Their
values do not matter, but faulty escapes do, for a text that holds one is no
literal.
-/

namespace ImportAtlas.Source

/-- Where in an escape a character stands. -/
inductive EscapePlace
  | outside
  /-- Right after the backslash. -/
  | start
  /-- Where so many digits are due. -/
  | digits (due : Nat)
  /-- After `\u`. -/
  | unicode
  /-- In `\u{…}`; `filled` if there is a digit. -/
  | braces (filled : Bool)

structure Quotes where
  close : Char
  /-- Lines may end between them, and `${` opens an expression. -/
  isTemplate : Bool

/-- What follows a text whose opening quote is read, and whether its closing
quote is read too; if not, the opening of an expression is. -/
def quotedFrom (q : Quotes) : EscapePlace → List Char → Option (Bool × List Char)
  | _, [] => none
  | .outside, '$' :: '\x7b' :: rest =>
    if q.isTemplate then some (false, rest) else quotedFrom q .outside ('\x7b' :: rest)
  | .outside, c :: rest =>
    if c = q.close then some (true, rest)
    else if c = '\\' then quotedFrom q .start rest
    else if q.isTemplate && c == nul then none
    else if !q.isTemplate && (c == '\n' || c == '\r') then none
    else quotedFrom q .outside rest
  | .start, '\r' :: '\n' :: rest => quotedFrom q .outside rest
  | .start, '?' :: '\n' :: rest => quotedFrom q .outside rest
  | .start, c :: rest =>
    quotedFrom q (if c = 'x' then .digits 2 else if c = 'u' then .unicode else .outside) rest
  | .digits due, c :: rest =>
    if isHexDigit c then quotedFrom q (if due ≤ 1 then .outside else .digits (due - 1)) rest else none
  | .unicode, c :: rest =>
    if c = '\x7b' then quotedFrom q (.braces false) rest
    else if isHexDigit c then quotedFrom q (.digits 3) rest
    else none
  | .braces filled, c :: rest =>
    if isHexDigit c then quotedFrom q (.braces true) rest
    else if c = '\x7d' && filled then quotedFrom q .outside rest
    else none

/-- What follows the text in single or double quotes that starts here. -/
def quoted? : List Char → Option (List Char)
  | c :: rest =>
    if c = '"' || c = '\'' then (quotedFrom ⟨c, false⟩ .outside rest).map (·.2) else none
  | [] => none

/-- What follows a row of digits whose first one is read. A low line may stand
between two digits. -/
def dropDigits (isDigit : Char → Bool) : List Char → List Char
  | '_' :: c :: rest => if isDigit c then dropDigits isDigit rest else '_' :: c :: rest
  | c :: rest => if isDigit c then dropDigits isDigit rest else c :: rest
  | [] => []

/-- What follows the row of digits that starts here. -/
def digits? (isDigit : Char → Bool) : List Char → Option (List Char)
  | c :: rest => if isDigit c then some (dropDigits isDigit rest) else none
  | [] => none

/-- What follows an exponent, if there is one. -/
def dropExponent (cs : List Char) : List Char :=
  match cs with
  | 'e' :: rest | 'E' :: rest =>
    let digits := match rest with
      | '+' :: rest | '-' :: rest => rest
      | rest => rest
    (digits? Char.isDigit digits).getD cs
  | _ => cs

/-- Whether the digits can stand before a fraction or exponent: no zero leads
them, or only one. -/
def isWholePart (cs : List Char) : Bool :=
  match cs with
  | '0' :: c :: _ => c != '0' && c != '_'
  | _ => true

/-- What follows the digits of a number in a base whose letter is read. -/
def basedNumber? (isDigit : Char → Bool) (cs : List Char) : Option (List Char) :=
  (digits? isDigit cs).map fun
    | 'n' :: rest => rest
    | rest => rest

/-- What follows the decimal number that starts here. -/
def decimal? (cs : List Char) : Option (List Char) :=
  match cs with
  | '.' :: rest => (digits? Char.isDigit rest).map dropExponent
  | cs =>
    (digits? Char.isDigit cs).map fun rest =>
      match rest with
      | 'n' :: rest => rest
      | '.' :: after =>
        if isWholePart (cs.take 2) then dropExponent ((digits? Char.isDigit after).getD after) else rest
      | rest => if isWholePart (cs.take 2) then dropExponent rest else rest

def number? (cs : List Char) : Option (List Char) :=
  let based :=
    match cs with
    | '0' :: c :: rest =>
      if c = 'x' || c = 'X' then basedNumber? isHexDigit rest
      else if c = 'b' || c = 'B' then basedNumber? (fun d => d == '0' || d == '1') rest
      else if c = 'o' || c = 'O' then basedNumber? (fun d => '0' ≤ d && d ≤ '7') rest
      else none
    | _ => none
  based.or (decimal? cs)

/-- What follows a regular expression whose opening slash is read; `inClass`
between brackets. -/
def patternFrom (inClass : Bool) : List Char → Option (List Char)
  | [] => none
  | '\\' :: c :: rest => if c = '\n' then none else patternFrom inClass rest
  | c :: rest =>
    if c = '\n' || c = '\\' then none
    else if c = '/' && !inClass then some rest
    else patternFrom (if c = '[' then true else if c = ']' then false else inClass) rest

/-- What follows the regular expression that starts here. -/
def pattern? : List Char → Option (List Char)
  | '/' :: rest =>
    if rest.head? = some '/' then none
    else (patternFrom false rest).map (·.dropWhile fun c => 'a' ≤ c && c ≤ 'z')
  | _ => none

namespace Reader

def quoted : Reader Unit := step fun cs => quoted? (dropGap cs)

def number : Reader Unit := step fun cs => number? (dropGap cs)

end Reader

end ImportAtlas.Source
