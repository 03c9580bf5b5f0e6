/-!
# Values in JSON

The values that are written and read as JSON, and their two written forms: on
one line, and with one member a line. The members of an object stay in the order
they are given in.
-/

namespace ImportAtlas

/-- A value. Numbers are natural: nothing else is written here. -/
inductive Json
  | null
  | bool (b : Bool)
  | number (n : Nat)
  | text (s : String)
  | list (items : List Json)
  | object (members : List (String × Json))

namespace Json

def hexDigit (n : Nat) : Char := Char.ofNat (if n < 10 then 48 + n else 87 + n)

/-- A character as it stands between quotes. -/
def escapeChar (c : Char) : List Char :=
  if c = '"' then ['\\', '"']
  else if c = '\\' then ['\\', '\\']
  else if c = '\n' then ['\\', 'n']
  else if c = '\r' then ['\\', 'r']
  else if c = '\t' then ['\\', 't']
  else if c = '\x08' then ['\\', 'b']
  else if c = '\x0c' then ['\\', 'f']
  else if c.toNat < 32 then ['\\', 'u', '0', '0', hexDigit (c.toNat / 16), hexDigit (c.toNat % 16)]
  else [c]

def quote (s : String) : List Char := '"' :: (s.toList.flatMap escapeChar ++ ['"'])

mutual

/-- A value on one line. -/
def compactChars : Json → List Char
  | null => "null".toList
  | bool true => "true".toList
  | bool false => "false".toList
  | number n => (toString n).toList
  | text s => quote s
  | list items => '[' :: (compactItems items ++ [']'])
  | object members => '\x7b' :: (compactMembers members ++ ['\x7d'])

def compactItems : List Json → List Char
  | [] => []
  | [j] => j.compactChars
  | j :: rest => j.compactChars ++ ',' :: compactItems rest

def compactMembers : List (String × Json) → List Char
  | [] => []
  | [(k, j)] => quote k ++ ':' :: j.compactChars
  | (k, j) :: rest => quote k ++ ':' :: (j.compactChars ++ ',' :: compactMembers rest)

end

/-- The start of a line at a level. -/
def indent (level : Nat) : List Char := '\n' :: List.replicate (2 * level) ' '

mutual

/-- A value with one member a line, inside `level` others. -/
def prettyChars (level : Nat) : Json → List Char
  | null => "null".toList
  | bool true => "true".toList
  | bool false => "false".toList
  | number n => (toString n).toList
  | text s => quote s
  | list [] => ['[', ']']
  | list (j :: rest) => '[' :: (prettyItems (level + 1) (j :: rest) ++ indent level ++ [']'])
  | object [] => ['\x7b', '\x7d']
  | object (m :: rest) => '\x7b' :: (prettyMembers (level + 1) (m :: rest) ++ indent level ++ ['\x7d'])

def prettyItems (level : Nat) : List Json → List Char
  | [] => []
  | [j] => indent level ++ j.prettyChars level
  | j :: rest => indent level ++ j.prettyChars level ++ ',' :: prettyItems level rest

def prettyMembers (level : Nat) : List (String × Json) → List Char
  | [] => []
  | [(k, j)] => indent level ++ quote k ++ ':' :: ' ' :: j.prettyChars level
  | (k, j) :: rest =>
    indent level ++ quote k ++ ':' :: ' ' :: (j.prettyChars level ++ ',' :: prettyMembers level rest)

end

/-- A value on one line. -/
def compact (j : Json) : String := String.ofList j.compactChars

def pretty (j : Json) : String := String.ofList (j.prettyChars 0)

end Json

end ImportAtlas
