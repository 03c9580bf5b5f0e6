import ImportAtlas.Regex.Class
/-!
# Reading patterns

`parse?` reads the text of a pattern. `compile` also refuses a pattern that is
too large once its counted repetitions are spelled out: `x\x7b1000\x7d\x7b1000\x7d` stands
for a million letters.
-/

namespace ImportAtlas.Regex

/-- A part of a pattern: what it matches, how deeply it is nested, how much
space its states take when repetitions are spelled out, and whether it matches
the empty stretch only. -/
structure Fragment where
  regex : Regex
  depth : Nat := 0
  cost : Nat := 32
  emptyOnly : Bool := true

/-- How deeply a pattern may be nested. -/
def maxDepth : Nat := 250

/-- How many bytes the states of a pattern may take. -/
def maxCost : Nat := 10 * 1024 * 1024

/-- An item of a sequence: a part, or the place where the mode changes, which
cannot be repeated. -/
inductive Item
  | part (f : Fragment)
  | modeChange

namespace Fragment

/-- The bytes a character set takes. -/
def setCost (s : CharSet) : Nat :=
  64 + (if s.isAscii then 8 else 36) * s.runCount

/-- A part that matches one character of a set. -/
def ofSet (s : CharSet) : Fragment := ⟨.set s, 0, setCost s, false⟩

/-- A part that holds at a place. -/
def ofAssertion (a : Assertion) : Fragment := ⟨.look a, 0, 32, true⟩

/-- A part that matches one character as the mode tells cases apart. -/
def ofChar (m : Mode) (c : Char) : Fragment :=
  let alone : Fragment := ⟨.set (.single c), 0, 32 * c.utf8Size, false⟩
  if m.ignoreCase then
    if m.unicode then
      if Unicode.orbit c.toNat = [c.toNat] then alone else ofSet (.folded (.single c))
    else if c.isAlpha then ofSet (.foldedAscii (.single c))
    else alone
  else alone

/-- The parts in `items`, last first, one after the other. -/
def ofItems (items : List Item) : Fragment :=
  let parts := items.map fun
    | .part f => f
    | .modeChange => ⟨.empty, 0, 0, true⟩
  match parts with
  | [] => ⟨.empty, 0, 32, true⟩
  | [f] => f
  | f :: rest =>
    rest.foldl (fun acc g =>
      ⟨g.regex.andThen acc.regex, max acc.depth (g.depth + 1), acc.cost + g.cost, acc.emptyOnly && g.emptyOnly⟩)
      ⟨f.regex, f.depth + 1, f.cost, f.emptyOnly⟩

/-- One of the given parts, last first. -/
def ofBranches (branches : List Fragment) : Fragment :=
  match branches with
  | [] => ⟨.empty, 0, 32, true⟩
  | [f] => f
  | f :: rest =>
    rest.foldl (fun acc g =>
      ⟨.alt g.regex acc.regex, max acc.depth (g.depth + 1), acc.cost + g.cost + 4, acc.emptyOnly && g.emptyOnly⟩)
      ⟨f.regex, f.depth + 1, f.cost + 68, f.emptyOnly⟩

/-- A part repeated. Only one round of a part that matches nothing but the empty
stretch counts. -/
def repeat_ (f : Fragment) (min : Nat) (max : Option Nat) : Fragment :=
  let (lo, hi) := if f.emptyOnly then (Nat.min min 1, some (Nat.min (max.getD 1) 1)) else (min, max)
  let cost :=
    match hi with
    | none => f.cost * Nat.max lo 1 + 72
    | some 0 => 32
    | some hi => f.cost * hi + 40 * (hi - lo) + (if lo = hi then 0 else 32)
  ⟨.rep f.regex min max, f.depth + 1, cost, f.emptyOnly || hi = some 0⟩

end Fragment

namespace Mode

/-- With a flag set or cleared. `U` only changes which of several matches is
preferred. -/
def withFlag (m : Mode) (flag : Char) (on : Bool) : Option Mode :=
  match flag with
  | 'i' => some { m with ignoreCase := on }
  | 'm' => some { m with multiLine := on }
  | 's' => some { m with dotAll := on }
  | 'U' => some m
  | 'u' => some { m with unicode := on }
  | 'R' => some { m with carriageReturn := on }
  | 'x' => some { m with spaced := on }
  | _ => none

/-- The set `.` stands for. Outside Unicode it would hold bytes that are no
characters. -/
def dot (m : Mode) : Option CharSet :=
  if !m.unicode then none
  else if m.dotAll then some (.complement .none)
  else if m.carriageReturn then some (.complement (.union (.single '\n') (.single '\r')))
  else some (.complement (.single '\n'))

def caret (m : Mode) : Assertion :=
  if m.multiLine then (if m.carriageReturn then .lineStartAny else .lineStart) else .textStart

def dollar (m : Mode) : Assertion :=
  if m.multiLine then (if m.carriageReturn then .lineEndAny else .lineEnd) else .textEnd

end Mode

/-- The flags after `(?`, up to the `:` or `)` that ends them. `seen` holds the
flags read so far and `off` is whether they clear. -/
def flags (seen : List Char) (off : Bool) (m : Mode) : List Char → Option (Mode × Char × List Char)
  | [] => none
  | c :: cs =>
    if c = ':' || c = ')' then
      if seen.head? = some '-' || (c = ')' && seen.isEmpty) then none else some (m, c, cs)
    else if seen.contains c then none
    else if c = '-' then flags (c :: seen) true m cs
    else (m.withFlag c (!off)).bind fun m => flags (c :: seen) off m cs

/-- Whether a group's name may hold a character. -/
def isNameChar (first : Bool) (c : Char) : Bool :=
  c == '_' || Unicode.alphabetic.has c.toNat ||
    (!first && (c == '.' || c == '[' || c == ']' || (CharProperty.category "n").holds c))

/-- What opens at a parenthesis. -/
inductive Opening
  /-- The mode from here on. -/
  | change (m : Mode)
  /-- A group, read in the given mode, with the name it captures under. -/
  | group (m : Mode) (name : Option (List Char)) (captures : Bool)

/-- What follows an opening parenthesis. -/
def opening (m : Mode) (cs : List Char) : Option (Opening × List Char) :=
  let named := fun (rest : List Char) =>
    match Text.cutFirst '>' rest with
    | some (c :: name, rest) =>
      if isNameChar true c && name.all (isNameChar false) then some (Opening.group m (some (c :: name)) true, rest)
      else none
    | _ => none
  match m.skip cs with
  | '?' :: '=' :: _ | '?' :: '!' :: _ => none
  | '?' :: 'P' :: '<' :: rest => named rest
  | '?' :: '<' :: rest => named rest
  | '?' :: rest =>
    (flags [] false m rest).map fun
      | (m', ')', rest) => (.change m', rest)
      | (m', _, rest) => (.group m' none false, rest)
  | rest => some (.group m none true, rest)

/-- A decimal number, with blanks around it. -/
def decimal (m : Mode) (cs : List Char) : Option (Nat × List Char) :=
  let rec digits : Nat → List Char → List Char → List Char × List Char
    | fuel + 1, read, c :: cs => if c.isDigit then digits fuel (c :: read) (m.skip cs) else (read, c :: cs)
    | _, read, cs => (read, cs)
  let rec blanks : Nat → List Char → List Char
    | fuel + 1, c :: cs => if Text.isBlank c then blanks fuel (m.skip cs) else c :: cs
    | _, cs => cs
  let (read, rest) := digits cs.length [] (cs.dropWhile Text.isBlank)
  let value := read.reverse.foldl (fun n c => n * 10 + (c.toNat - 48)) 0
  if read.isEmpty || Nat.pow 2 32 ≤ value then none else some (value, blanks rest.length rest)

/-- The bounds between the braces of a repetition, after the opening brace. -/
def bounds (m : Mode) (cs : List Char) : Option ((Nat × Option Nat) × List Char) :=
  (decimal m (m.skip cs)).bind fun (lo, rest) =>
    match rest with
    | '\x7d' :: rest => some ((lo, some lo), rest)
    | ',' :: rest =>
      match m.skip rest with
      | '\x7d' :: rest => some ((lo, none), rest)
      | rest =>
        (decimal m rest).bind fun (hi, rest) =>
          match rest with
          | '\x7d' :: rest => if lo ≤ hi then some ((lo, some hi), rest) else none
          | _ => none
    | _ => none

/-- Without the question mark that prefers fewer rounds. -/
def dropLazy : List Char → List Char
  | '?' :: cs => cs
  | cs => cs

/-- What waits for a group to be closed. -/
structure Frame where
  mode : Mode
  branches : List Fragment
  items : List Item
  captures : Bool

/-- What was read of a pattern: the groups that are open, innermost first, then
the branches of the innermost group and the items of its last branch, last
first. -/
structure State where
  mode : Mode
  frames : List Frame := []
  branches : List Fragment := []
  items : List Item := []
  groupNames : List (List Char) := []

namespace State

def push (s : State) (f : Fragment) : State := { s with items := .part f :: s.items }

/-- The group that is open, as one part. -/
def close (s : State) : Fragment := .ofBranches (.ofItems s.items :: s.branches)

/-- With the last item repeated. -/
def repeatLast (s : State) (min : Nat) (max : Option Nat) : Option State :=
  match s.items with
  | .part f :: items => some { s with items := .part (f.repeat_ min max) :: items }
  | _ => none

/-- With what opens at a parenthesis. -/
def enter (s : State) : Opening → Option State
  | .change m => some { s with mode := m, items := .modeChange :: s.items }
  | .group m name captures =>
    let groupNames := match name with
      | some n => n :: s.groupNames
      | none => s.groupNames
    if groupNames.length != s.groupNames.length && s.groupNames.contains (groupNames.headD []) then none
    else some ⟨m, ⟨s.mode, s.branches, s.items, captures⟩ :: s.frames, [], [], groupNames⟩

/-- With the innermost group closed. -/
def leave (s : State) : Option State :=
  match s.frames with
  | [] => none
  | frame :: frames =>
    let inner := s.close
    let cost := if frame.captures then inner.cost + 64 else inner.cost
    let group : Fragment := ⟨inner.regex, inner.depth + 1, cost, inner.emptyOnly⟩
    some ⟨frame.mode, frames, frame.branches, .part group :: frame.items, s.groupNames⟩

end State

/-- Reads one step of a pattern: a character, class, assertion, repetition, or
the boundary of a group or branch. -/
def step (s : State) (c : Char) (cs : List Char) : Option (State × List Char) :=
  let m := s.mode
  match c with
  | '(' => (opening m cs).bind fun (o, rest) => (s.enter o).map (·, rest)
  | ')' => s.leave.map (·, cs)
  | '|' => some ({ s with branches := .ofItems s.items :: s.branches, items := [] }, cs)
  | '[' =>
    (bracketed m cs).map fun (p, rest) => (s.push { Fragment.ofSet p.set with depth := p.depth }, rest)
  | '?' => (s.repeatLast 0 (some 1)).map (·, dropLazy cs)
  | '*' => (s.repeatLast 0 none).map (·, dropLazy cs)
  | '+' => (s.repeatLast 1 none).map (·, dropLazy cs)
  | '\x7b' =>
    (bounds m cs).bind fun ((lo, hi), rest) => (s.repeatLast lo hi).map (·, dropLazy (m.skip rest))
  | '.' => m.dot.map fun d => (s.push (.ofSet d), cs)
  | '^' => some (s.push (.ofAssertion m.caret), cs)
  | '$' => some (s.push (.ofAssertion m.dollar), cs)
  | '\\' =>
    (escape m cs).bind fun
      | (.char c, rest) => some (s.push (.ofChar m c), rest)
      | (.byte c, rest) => if m.unicode || c.toNat < 128 then some (s.push (.ofChar m c), rest) else none
      | (.set t, rest) => some (s.push (.ofSet t), rest)
      | (.look a, rest) => some (s.push (.ofAssertion a), rest)
  | c => some (s.push (.ofChar m c), cs)

def run : Nat → State → List Char → Option Fragment
  | 0, _, _ => none
  | fuel + 1, s, cs =>
    match s.mode.skip cs with
    | [] => if s.frames.isEmpty then some s.close else none
    | c :: rest => (step s c rest).bind fun (s, rest) => run fuel s rest

/-- Reads the text of a pattern that disregards case unless it says otherwise. -/
def parse? (pattern : String) : Option Fragment :=
  (run (pattern.length + 1) ⟨{ ignoreCase := true }, [], [], [], []⟩ pattern.toList).filter (·.depth ≤ maxDepth)

inductive PatternFault
  | malformed
  | tooLarge
  deriving DecidableEq, Repr

def compile (pattern : String) : Except PatternFault Regex :=
  match parse? pattern with
  | none => .error .malformed
  | some f => if maxCost < f.cost then .error .tooLarge else .ok f.regex

end ImportAtlas.Regex
