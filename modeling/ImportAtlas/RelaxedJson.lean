import ImportAtlas.Text.Blank
/-!
# Relaxed JSON

JSON with comments, and with a comma allowed after the last item of a list or
object. `strict` takes both out and leaves the rest as it is.
-/

namespace ImportAtlas.RelaxedJson

/-- Where in a text a character stands. -/
inductive Place
  | plain
  | quoted
  /-- After a backslash between quotes. -/
  | escaped
  /-- After a slash that may open a comment. -/
  | slash
  | lineComment
  /-- In a comment between `/*` and `*/`; `star` if right after a star. -/
  | blockComment (star : Bool)
  deriving DecidableEq, Repr

/-- Without a comma that nothing but blanks follows, and without those blanks;
`written` is last first. -/
def dropComma (written : List Char) : List Char :=
  match written.dropWhile Text.isBlank with
  | ',' :: rest => rest
  | _ => written

/-- A character outside quotes and comments, added to what is written. -/
def put (written : List Char) (c : Char) : List Char :=
  if c = '\x7d' || c = ']' then c :: dropComma written else c :: written

/-- The text without comments and commas before a closing bracket. `written`
holds what is written so far, last first. -/
def strictFrom (written : List Char) : Place → List Char → List Char
  | .slash, [] => ('/' :: written).reverse
  | _, [] => written.reverse
  | place, c :: cs =>
    let plain := fun (written : List Char) =>
      if c = '"' then strictFrom (c :: written) .quoted cs
      else if c = '/' then strictFrom written .slash cs
      else strictFrom (put written c) .plain cs
    match place with
    | .plain => plain written
    | .quoted =>
      strictFrom (c :: written) (if c = '\\' then .escaped else if c = '"' then .plain else .quoted) cs
    | .escaped => strictFrom (c :: written) .quoted cs
    | .slash =>
      if c = '/' then strictFrom written .lineComment cs
      else if c = '*' then strictFrom written (.blockComment false) cs
      else plain ('/' :: written)
    | .lineComment => if c = '\n' then strictFrom (c :: written) .plain cs else strictFrom written .lineComment cs
    | .blockComment star =>
      if star && c = '/' then strictFrom written .plain cs else strictFrom written (.blockComment (c == '*')) cs

theorem strictFrom_nil {place : Place} (h : place ≠ .slash) (written : List Char) :
    strictFrom written place [] = written.reverse := by
  cases place <;> simp [strictFrom] at h ⊢

/-- The text without comments and without commas before a closing bracket. -/
def strict (cs : List Char) : List Char := strictFrom [] .plain cs

end ImportAtlas.RelaxedJson
