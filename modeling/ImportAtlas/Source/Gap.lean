import ImportAtlas.Text.Blank
/-!
# Between tokens

What may stand between two tokens: white space, comments, and, where an
expression or statement is about to start, the comments of markup.

`dropGap` takes all of it off the front of a text, `comment?` one comment.
-/

namespace ImportAtlas.Source

/-- White space between tokens: Unicode's, and three characters without width. -/
def isSpace (c : Char) : Bool := Text.isBlank c || c.toNat == 0xFEFF || c.toNat == 0x2060 || c.toNat == 0x200B

def isLineEnd (c : Char) : Bool := c == '\n' || c == '\r' || c.toNat == 0x2028 || c.toNat == 0x2029

/-- What follows the first `*/`. -/
def afterBlock : List Char → Option (List Char)
  | [] => none
  | '*' :: '/' :: rest => some rest
  | _ :: rest => afterBlock rest

/-- What follows the comment a text starts with. -/
def comment? : List Char → Option (List Char)
  | '/' :: '/' :: rest => some (rest.dropWhile (!isLineEnd ·))
  | '/' :: '*' :: rest => afterBlock rest
  | _ => none

/-- What follows the markup comment a text starts with: the rest of the line
after `<!--` or `-->`. -/
def markupComment? (cs : List Char) : Option (List Char) :=
  let line := fun (rest : List Char) => rest.dropWhile fun c => c != '\n' && c.toNat != 0x2028 && c.toNat != 0x2029
  match cs with
  | '<' :: '!' :: '-' :: '-' :: rest => some (line rest)
  | '-' :: '-' :: '>' :: rest => some (line rest)
  | _ => none

/-- Where in a gap a character stands. -/
inductive GapPlace
  | plain
  /-- In a comment that ends with the line. -/
  | line
  /-- In a comment between `/*` and `*/`; `start` is what stands before it. -/
  | block (start : List Char)

/-- Without the white space and comments at the front. A comment that is not
closed is none. -/
def dropGapFrom : GapPlace → List Char → List Char
  | .plain, '/' :: '/' :: rest => dropGapFrom .line rest
  | .plain, '/' :: '*' :: rest => dropGapFrom (.block ('/' :: '*' :: rest)) rest
  | .plain, c :: rest => if isSpace c then dropGapFrom .plain rest else c :: rest
  | .line, c :: rest => if isLineEnd c then dropGapFrom .plain rest else dropGapFrom .line rest
  | .block _, '*' :: '/' :: rest => dropGapFrom .plain rest
  | .block start, _ :: rest => dropGapFrom (.block start) rest
  | .block start, [] => start
  | _, [] => []

/-- Without the white space and comments at the front. -/
def dropGap (cs : List Char) : List Char := dropGapFrom .plain cs

/-- Without the white space and comments at the front, those of markup among
them; at most `n` of the latter. -/
def dropMarkupGap : Nat → List Char → List Char
  | 0, cs => dropGap cs
  | n + 1, cs =>
    match markupComment? (dropGap cs) with
    | some rest => dropMarkupGap n rest
    | none => dropGap cs

end ImportAtlas.Source
