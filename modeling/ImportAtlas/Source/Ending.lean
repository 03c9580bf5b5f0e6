import ImportAtlas.Source.Dialect
import ImportAtlas.Source.Gap
/-!
# Where statements end

A statement ends at a semicolon, but the semicolon need not be written before a
closing brace, at the end of the text, and at the end of a line, unless the next
line could go on with the statement. `endsHere` says where.

The dialects differ: with types, a comment on the line hides the end of the line
after it.
-/

namespace ImportAtlas.Source

/-- What could go on after the end of a statement. -/
structure Ending where
  /-- An operator could follow. -/
  afterValue : Bool := false
  /-- The body of a function could follow. -/
  beforeBody : Bool := false
  deriving DecidableEq, Repr

/-- White space that a line is searched through for its end. -/
def isPlainSpace (c : Char) : Bool := c == ' ' || (9 ≤ c.toNat && c.toNat ≤ 13)

/-- The character that stands for the end of the text. -/
def nul : Char := '\x00'

/-- Where in a stretch of white space and comments a character stands. -/
inductive SpacePlace
  | plain
  /-- After a slash. -/
  | slash
  | line
  | block
  /-- After a star in a comment that ends with `*/`. -/
  | star

/-- Without the white space and comments at the front; none if a slash follows
that opens no comment. Unlike in `dropGap`, a line goes on until it is fed. -/
def dropSpaceFrom (lineEnd : Char → Bool) : SpacePlace → List Char → Option (List Char)
  | .slash, [] => none
  | _, [] => some []
  | .plain, c :: rest =>
    if isPlainSpace c then dropSpaceFrom lineEnd .plain rest
    else if c = '/' then dropSpaceFrom lineEnd .slash rest
    else some (c :: rest)
  | .slash, c :: rest =>
    if c = '/' then dropSpaceFrom lineEnd .line rest
    else if c = '*' then dropSpaceFrom lineEnd .block rest
    else none
  | .line, c :: rest =>
    if !lineEnd c then dropSpaceFrom lineEnd .line rest
    else if isPlainSpace c then dropSpaceFrom lineEnd .plain rest
    else some (c :: rest)
  | .block, c :: rest => dropSpaceFrom lineEnd (if c = '*' then .star else .block) rest
  | .star, c :: rest =>
    dropSpaceFrom lineEnd (if c = '/' then .plain else if c = '*' then .star else .block) rest

def isFeed (c : Char) : Bool := c == '\n'

/-- Line feeds and Unicode's separators. -/
def isFeedOrSeparator (c : Char) : Bool := c == '\n' || c.toNat == 0x2028 || c.toNat == 0x2029

/-- Whether a text starts with `in` or `instanceof`, as operators or as the start
of another word that no new statement is taken to start with. -/
def startsWithRelation (cs : List Char) : Bool :=
  let isOver := fun (rest : List Char) => match rest with
    | c :: _ => !c.isAlpha
    | [] => true
  match cs with
  | 'i' :: 'n' :: rest =>
    isOver rest ||
      (match Text.dropStart? "stanceof".toList rest with
      | some rest => isOver rest
      | none => false)
  | _ => false

/-- Whether a new statement may start with what the next line starts with, apart
from the characters that only one dialect treats so. -/
def startsStatement (cs : List Char) : Bool :=
  match cs with
  | '+' :: rest => rest.head? == some '+'
  | '-' :: rest => rest.head? == some '-'
  | '!' :: rest => rest.head? != some '='
  | c :: _ => !"`,:;*%><=?^|&/".toList.contains c && !startsWithRelation cs
  | [] => true

namespace Typed

/-- Whether a statement may end before the next line. -/
def endsBefore (e : Ending) (cs : List Char) : Bool :=
  match dropSpaceFrom isFeed .plain cs with
  | none => false
  | some cs =>
    match cs with
    | '.' :: _ => false
    | '\x7b' :: _ => !e.beforeBody
    | '(' :: _ | '[' :: _ => !e.afterValue
    | cs => startsStatement cs

/-- Whether a statement may end here. A closing brace that a colon follows ends a
pattern rather than a block. -/
def endsHere (e : Ending) : List Char → Bool
  | [] => true
  | c :: rest =>
    if c = nul then true
    else if c = '\x7d' then
      match rest.dropWhile isPlainSpace with
      | ':' :: _ => e.afterValue
      | _ => true
    else if c = '\n' then endsBefore e rest
    else if isPlainSpace c then endsHere e rest
    else false

end Typed

namespace Untyped

/-- Whether a statement may end before the next line. -/
def endsBefore (cs : List Char) : Bool :=
  match dropSpaceFrom isFeedOrSeparator .plain cs with
  | none => false
  | some cs =>
    match cs with
    | '.' :: rest => (rest.head?.map Char.isDigit).getD false
    | '(' :: _ | '[' :: _ => false
    | cs => startsStatement cs

/-- Where on a line that may end a statement a character stands. -/
inductive LinePlace
  | plain
  | slash
  | line
  /-- In a comment that ends with `*/`; `fed` if it goes over several lines. -/
  | block (fed : Bool)
  | star (fed : Bool)

/-- Whether a statement may end here. A comment over several lines ends a line
unless an operator could follow. -/
def endsFrom (e : Ending) : LinePlace → List Char → Bool
  | .plain, [] => true
  | .slash, [] => false
  | _, [] => !e.afterValue
  | .plain, c :: rest =>
    if c = nul || c = '\x7d' then true
    else if c = '/' then endsFrom e .slash rest
    else if isFeedOrSeparator c then endsBefore rest
    else if isPlainSpace c then endsFrom e .plain rest
    else false
  | .slash, c :: rest =>
    if c = '/' then endsFrom e .line rest
    else if c = '*' then endsFrom e (.block false) rest
    else false
  | .line, c :: rest =>
    if !isFeedOrSeparator c then endsFrom e .line rest
    else
      match dropSpaceFrom isFeedOrSeparator .plain (c :: rest) with
      | none => false
      | some next =>
        (!e.afterValue && next.head? != some ',' && next.head? != some '=') || next.head? == some '\x7d'
  | .block fed, c :: rest => endsFrom e (if c = '*' then .star fed else .block (fed || isFeedOrSeparator c)) rest
  | .star fed, c :: rest =>
    if c = '/' then
      match rest with
      | ',' :: _ | '=' :: _ => false
      | [] => fed && !e.afterValue
      | _ => if fed && !e.afterValue && rest.head? != some '/' then true else endsFrom e .plain rest
    else endsFrom e (if c = '*' then .star fed else .block (fed || isFeedOrSeparator c)) rest

/-- Whether a statement may end here. -/
def endsHere (e : Ending) (cs : List Char) : Bool := endsFrom e .plain cs

end Untyped

/-- Whether a statement may end here, though no semicolon is written. -/
def endsHere (d : Dialect) (e : Ending) (cs : List Char) : Bool :=
  if d.hasTypes then Typed.endsHere e cs else Untyped.endsHere e cs

end ImportAtlas.Source
