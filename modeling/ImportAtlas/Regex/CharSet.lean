import ImportAtlas.Text.Blank
import ImportAtlas.Unicode.CaseOrbit
import ImportAtlas.Unicode.Category
import ImportAtlas.Unicode.Flag
import ImportAtlas.Unicode.Script
/-!
# Sets of characters

A set is kept as it was written: ranges, the classes of words, digits and
spaces, properties of Unicode, and what is built from these. `has` says what is
in it. No set is ever spelled out, so `[^a]` costs as little as `a`.
-/

namespace ImportAtlas

/-- A property a character has or has not. Names are in small letters without
spaces, hyphens and underscores. -/
inductive CharProperty
  | any
  | ascii
  | assigned
  | category (n : String)
  | script (n : String)
  | extended (n : String)
  | flag (n : String)
  deriving DecidableEq, Repr

namespace CharProperty

/-- The code points with the property. -/
def ranges : CharProperty → Unicode.Ranges
  | any => [(0, 0x10FFFF)]
  | ascii => [(0, 0x7F)]
  | assigned => []
  | category n => (Unicode.category? n).getD []
  | script n => ((Unicode.script? n).map (·.ranges)).getD []
  | extended n => ((Unicode.script? n).map (·.extended)).getD []
  | flag n => (Unicode.flag? n).getD []

/-- Whether a character has the property. A code point is assigned unless its
category is `cn`. -/
def holds (p : CharProperty) (c : Char) : Bool :=
  match p with
  | assigned => !((category "cn").ranges.has c.toNat)
  | p => p.ranges.has c.toNat

end CharProperty

/-- A set of characters as it is written in a pattern. -/
inductive CharSet
  | none
  | range (lo hi : Char)
  | word
  | digit
  | space
  | property (p : CharProperty)
  | union (a b : CharSet)
  | inter (a b : CharSet)
  | diff (a b : CharSet)
  | symmDiff (a b : CharSet)
  | complement (a : CharSet)
  /-- With every character that differs from a member in case only. -/
  | folded (a : CharSet)
  /-- `folded` for the letters `a` to `z` alone. -/
  | foldedAscii (a : CharSet)
  deriving DecidableEq, Repr

/-- Letters, digits and the underscore, among the first 128 characters. -/
def isAsciiWord (c : Char) : Bool := c.isAlphanum || c == '_'

/-- The characters words are made of: letters, marks, decimal digits,
connecting punctuation and the two joiners. -/
def isWord (c : Char) : Bool :=
  if c.toNat < 128 then isAsciiWord c
  else
    Unicode.alphabetic.has c.toNat ||
      ["m", "nd", "pc"].any (fun n => (CharProperty.category n).holds c) || c.toNat == 0x200C || c.toNat == 0x200D

/-- Decimal digits of any script. -/
def isDecimal (c : Char) : Bool :=
  if c.toNat < 128 then c.isDigit else (CharProperty.category "nd").holds c

/-- The other case of a letter `a` to `z`, any other character itself. -/
def otherAsciiCase (c : Char) : Char :=
  if c.isUpper then c.toLower else if c.isLower then c.toUpper else c

namespace CharSet

def has : CharSet → Char → Bool
  | none, _ => false
  | range lo hi, c => lo ≤ c && c ≤ hi
  | word, c => isWord c
  | digit, c => isDecimal c
  | space, c => Text.isBlank c
  | property p, c => p.holds c
  | union a b, c => a.has c || b.has c
  | inter a b, c => a.has c && b.has c
  | diff a b, c => a.has c && !b.has c
  | symmDiff a b, c => a.has c != b.has c
  | complement a, c => !a.has c
  | folded a, c => (Unicode.orbit c.toNat).any fun n => a.has (Char.ofNat n)
  | foldedAscii a, c => a.has c || a.has (otherAsciiCase c)

def single (c : Char) : CharSet := range c c

def ofRanges (rs : List (Char × Char)) : CharSet :=
  rs.foldl (fun s (lo, hi) => union s (range lo hi)) none

/-- The set of what is in any of the given sets. -/
def unions : List CharSet → CharSet
  | [] => none
  | [s] => s
  | s :: rest => union s (unions rest)

/-- Whether all members are among the first 128 characters, as far as the way
the set is written shows it. -/
def isAscii : CharSet → Bool
  | none => true
  | range _ hi => hi.toNat < 128
  | union a b | symmDiff a b => a.isAscii && b.isAscii
  | inter a b => a.isAscii || b.isAscii
  | diff a _ => a.isAscii
  | property .ascii => true
  | foldedAscii a => a.isAscii
  | folded a => a.isAscii && !a.has 'k' && !a.has 'K' && !a.has 's' && !a.has 'S'
  | _ => false

/-- How many runs of bytes a set is taken to be made of when the size of a
pattern is estimated. A complement has all the longer characters, which are 25
runs. -/
def runCount : CharSet → Nat
  | none => 0
  | range lo hi => if hi.toNat < 128 then 1 else if 2048 < hi.toNat - lo.toNat then 14 else hi.utf8Size
  | word => 1390
  | digit => 135
  | space => 17
  | property p => p.ranges.runs * 8 / 5
  | union a b | symmDiff a b => a.runCount + b.runCount
  | inter a b => min a.runCount b.runCount
  | diff a b => a.runCount + b.runCount
  | complement a => a.runCount + 25
  | folded a => if a.runCount < 100 then a.runCount * 2 else a.runCount
  | foldedAscii a => a.runCount * 2

end CharSet

end ImportAtlas
