import ImportAtlas.Source.Brackets
/-!
# Markup

Elements of markup among expressions: a tag with attributes, and content up to a
closing tag, which need not have the same name. In texts, only an ampersand has
to belong to something: a character reference.
-/

namespace ImportAtlas.Source

open Reader

/-- What follows the character reference whose ampersand is read. -/
def reference? (cs : List Char) : Option (List Char) :=
  let ended := fun (least most : Nat) (isPart : Char → Bool) (cs : List Char) =>
    let name := cs.takeWhile isPart
    match cs.dropWhile isPart with
    | ';' :: rest => if least ≤ name.length && name.length ≤ most then some rest else none
    | _ => none
  match cs with
  | '#' :: 'x' :: rest | '#' :: 'X' :: rest => ended 1 6 isHexDigit rest
  | '#' :: rest => ended 1 5 Char.isDigit rest
  | rest => ended 1 30 Char.isAlpha rest

/-- A character that opens a character reference after an ampersand. -/
def opensReference (c : Char) : Bool := c == '#' || c.isAlpha

/-- What follows a text in quotes that is the value of an attribute, in at most
`n` stretches without ampersands. -/
def attributeText? (close : Char) : Nat → List Char → Option (List Char)
  | 0, _ => none
  | n + 1, cs =>
    match cs.dropWhile fun c => c != close && c != '&' with
    | '&' :: rest =>
      match rest with
      | c :: _ => if opensReference c then (reference? rest).bind (attributeText? close n) else attributeText? close n rest
      | [] => none
    | _ :: rest => some rest
    | [] => none

/-- What follows a piece of text between tags. White space is none if it starts
at the end of a line. -/
def markupText? (cs : List Char) : Option (List Char) :=
  match cs with
  | '&' :: rest => reference? rest
  | c :: rest =>
    if "<>\x7b\x7d".toList.contains c then none else some (rest.dropWhile (!"<>\x7b\x7d&".toList.contains ·))
  | [] => none

/-- The characters of a name with hyphens in it. -/
def isMarkupNamePart (c : Char) : Bool := c.isAlphanum || c == '_' || c == '$' || c == '-'

/-- A name in a tag: it may have hyphens in it. -/
def markupName : Reader Unit :=
  (step fun cs =>
    let cs := dropGap cs
    let name := cs.takeWhile isMarkupNamePart
    match name with
    | c :: _ =>
      if name.contains '-' && (c.isAlpha || c == '_' || c == '$') then some (cs.dropWhile isMarkupNamePart) else none
    | [] => none) <|> discard word

/-- A name in a tag, and the name of the space it is in. -/
def spacedName : Reader Unit := do
  markupName
  discard (maybe (do sign ":"; markupName))

/-- The name of an element. It may be a member of something, or take types. -/
def elementName (g : Grammar) : Reader Mark := do
  let name ← leaf "name" "member_expression" do
    spacedName
    many (do sign "."; discard word) g.budget
  if g.dialect.hasTypes then discard (maybe (typeArguments g))
  return name

/-- An expression between braces, or nothing. -/
def container (g : Grammar) : Reader Unit := do
  sign "\x7b"
  discard (maybe ((do sign "..."; discard (g.value {})) <|> g.values {}))
  sign "\x7d"

def tagAttribute (g : Grammar) : Reader Unit :=
  container g <|> do
    spacedName
    let value := do
      sign "="
      match dropGap (← get) with
      | c :: rest =>
        if c = '"' || c = '\'' then step fun _ => attributeText? c g.budget rest
        else if c = '<' then discard g.element
        else container g
      | [] => failure
    discard (maybe value)

def closingTag (g : Grammar) : Reader Unit := do
  sign "</"
  discard (maybe (elementName g))
  sign ">"

/-- The content of an element and its closing tag, at most `n` pieces. Nothing is
a comment in it. -/
def content (g : Grammar) : Nat → Reader Unit
  | 0 => failure
  | n + 1 => do
    let cs := (← get).dropWhile isSpace
    set cs
    match cs with
    | '<' :: '/' :: _ => closingTag g
    | '<' :: _ => do
      discard g.element
      content g n
    | '\x7b' :: _ => do
      container g
      content g n
    | _ => do
      step markupText?
      content g n

/-- An element, with its name if it has no content. -/
def element (g : Grammar) : Reader (Option Mark) := do
  sign "<"
  let name ← maybe (elementName g)
  if name.isSome then many (tagAttribute g) g.budget
  if ← found (sign "/>") then
    check name.isSome
    return name
  sign ">"
  content g g.budget
  return none

end ImportAtlas.Source
