import ImportAtlas.Regex.Literal
/-!
# Bracketed classes

The classes written between brackets: characters, ranges, named classes, classes
in classes, and `&&`, `--` and `~~` between them, read from left to right.
-/

namespace ImportAtlas.Regex

/-- An operation between two parts of a class. -/
inductive ClassOp
  | inter
  | diff
  | symmDiff

def ClassOp.apply : ClassOp → CharSet → CharSet → CharSet
  | inter => .inter
  | diff => .diff
  | symmDiff => .symmDiff

/-- The operation two equal characters stand for. -/
def ClassOp.ofPair? (a b : Char) : Option ClassOp :=
  if a != b then none
  else if a = '&' then some .inter
  else if a = '-' then some .diff
  else if a = '~' then some .symmDiff
  else none

/-- A set and how deeply it is nested. -/
structure ClassPart where
  set : CharSet
  depth : Nat

/-- The sets that have a name between `[:` and `:]`. -/
def namedRanges? (name : String) : Option (List (Char × Char)) :=
  [("alnum", [('0', '9'), ('A', 'Z'), ('a', 'z')]),
    ("alpha", [('A', 'Z'), ('a', 'z')]),
    ("ascii", [('\x00', '\x7f')]),
    ("blank", [('\t', '\t'), (' ', ' ')]),
    ("cntrl", [('\x00', '\x1f'), ('\x7f', '\x7f')]),
    ("digit", [('0', '9')]),
    ("graph", [('!', '~')]),
    ("lower", [('a', 'z')]),
    ("print", [(' ', '~')]),
    ("punct", [('!', '/'), (':', '@'), ('[', '\x60'), ('\x7b', '~')]),
    ("space", [('\t', '\t'), ('\n', '\n'), ('\x0b', '\x0b'), ('\x0c', '\x0c'), ('\r', '\r'), (' ', ' ')]),
    ("upper", [('A', 'Z')]),
    ("word", [('0', '9'), ('A', 'Z'), ('_', '_'), ('a', 'z')]),
    ("xdigit", [('0', '9'), ('A', 'F'), ('a', 'f')])].lookup name

/-- A named class, after its `[`: the set's name is between colons and may start
with `^`. Anything else is no named class. The inner `none` is a complement
where there is none. -/
def namedClass? (m : Mode) (cs : List Char) : Option (Option CharSet × List Char) :=
  match cs with
  | ':' :: body =>
    let (negated, body) := match body with
      | '^' :: body => (true, body)
      | _ => (false, body)
    match Text.cutFirst ':' body with
    | some (name, ']' :: rest) =>
      (namedRanges? (String.ofList name)).map fun rs => (m.close negated (.ofRanges rs), rest)
    | _ => none
  | _ => none

/-- What may stand at either end of a range. -/
inductive ClassItem
  | char (c : Char)
  | set (s : CharSet)

/-- One item of a class. Assertions have no place in it, nor have characters
beyond ASCII outside Unicode. -/
def classItem (m : Mode) : Reader ClassItem
  | [] => none
  | '\\' :: cs =>
    (escape m cs).bind fun
      | (.char c, rest) | (.byte c, rest) => if m.unicode || c.toNat < 128 then some (.char c, rest) else none
      | (.set s, rest) => some (.set s, rest)
      | (.look _, _) => none
  | c :: cs => if m.unicode || c.toNat < 128 then some (.char c, cs) else none

/-- An item or a range. -/
def classRange (m : Mode) (cs : List Char) : Option (CharSet × List Char) :=
  (classItem m cs).bind fun (item, rest) =>
    let alone := match item with
      | .char c => CharSet.single c
      | .set s => s
    match m.skip rest with
    | [] => none
    | '-' :: after =>
      if m.peek after = some ']' || m.peek after = some '-' then some (alone, m.skip rest)
      else
        match m.skip after with
        | [] => none
        | after =>
          (classItem m after).bind fun
            | (.char hi, rest) =>
              match item with
              | .char lo => if lo ≤ hi then some (.range lo hi, rest) else none
              | .set _ => none
            | (.set _, _) => none
    | rest => some (alone, rest)

/-- The start of a class, after its `[`: whether it is a complement, and the
hyphens and the bracket that stand for themselves there. -/
def classHead (m : Mode) (cs : List Char) : Option (Bool × List ClassPart × List Char) :=
  let (negated, cs) := match m.skip cs with
    | '^' :: cs => (true, m.skip cs)
    | cs => (false, cs)
  let rec hyphens : Nat → List ClassPart → List Char → List ClassPart × List Char
    | fuel + 1, parts, '-' :: cs => hyphens fuel (⟨.single '-', 0⟩ :: parts) (m.skip cs)
    | _, parts, cs => (parts, cs)
  match hyphens cs.length [] cs with
  | ([], ']' :: rest) => if (m.skip rest).isEmpty then none else some (negated, [⟨.single ']', 0⟩], m.skip rest)
  | (parts, rest) => if rest.isEmpty then none else some (negated, parts, rest)

/-- The parts, last first, as one. -/
def ClassPart.join (parts : List ClassPart) : ClassPart :=
  match parts with
  | [p] => p
  | _ =>
    ⟨.unions (parts.map (·.set)), if parts.isEmpty then 0 else (parts.map (·.depth)).foldl max 0 + 1⟩

/-- The left side of an operation with the parts to its right. Case is
disregarded on each side before they are compared. -/
def ClassPart.combine (m : Mode) (left : Option (ClassOp × ClassPart)) (right : ClassPart) : ClassPart :=
  match left with
  | none => right
  | some (op, left) =>
    let fold := fun (s : CharSet) => (m.close false s).getD s
    ⟨op.apply (fold left.set) (fold right.set), max left.depth right.depth + 1⟩

/-- The rest of a class up to its closing bracket: `left` is the operation that
waits for its right side, `parts` what was read of that side, last first. -/
def classBody (m : Mode) (negated : Bool) :
    Nat → Option (ClassOp × ClassPart) → List ClassPart → Reader ClassPart
  | 0, _, _, _ => none
  | fuel + 1, left, parts, cs =>
    let item := fun (cs : List Char) =>
      (classRange m cs).bind fun (s, rest) => classBody m negated fuel left (⟨s, 0⟩ :: parts) rest
    match m.skip cs with
    | [] => none
    | '[' :: rest =>
      match namedClass? m rest with
      | some (s, rest) => s.bind fun s => classBody m negated fuel left (⟨s, 0⟩ :: parts) rest
      | none =>
        (classHead m rest).bind fun (negated', parts', rest) =>
          (classBody m negated' fuel none parts' rest).bind fun (inner, rest) =>
            classBody m negated fuel left (inner :: parts) rest
    | ']' :: rest =>
      let whole := ClassPart.combine m left (.join parts)
      (m.close negated whole.set).map fun s => (⟨s, whole.depth + 1⟩, rest)
    | a :: b :: rest =>
      match ClassOp.ofPair? a b with
      | some op => classBody m negated fuel (some (op, .combine m left (.join parts))) [] rest
      | none => item (a :: b :: rest)
    | cs => item cs

def bracketed (m : Mode) (cs : List Char) : Option (ClassPart × List Char) :=
  (classHead m cs).bind fun (negated, parts, rest) => classBody m negated (rest.length + 1) none parts rest

end ImportAtlas.Regex
