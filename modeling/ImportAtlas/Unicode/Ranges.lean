/-!
# Sets of code points

A set of code points as its increasing list of ranges. A set that is part of a
standard is written as a text: for each range the number of code points since
the one before, then its length less one, every number in base 32 with the
digits `0`-`9`, `a`-`v` for its last place and `w`-`z`, `A`-`Z`, `+`, `-` for
the places before.
-/

namespace ImportAtlas.Unicode

/-- Ranges of code points, both ends included, in increasing order. -/
abbrev Ranges := List (Nat × Nat)

namespace Ranges

def has (rs : Ranges) (n : Nat) : Bool := rs.any fun (lo, hi) => lo ≤ n && n ≤ hi

/-- How many ranges are left when neighbours are joined. -/
def runs (rs : Ranges) : Nat := rs.countP fun (lo, _) => lo = 0 || !rs.has (lo - 1)

/-- The value of a digit, and whether it is the last of its number. -/
def digit (c : Char) : Nat × Bool :=
  let n := c.toNat
  if '0' ≤ c && c ≤ '9' then (n - 48, true)
  else if 'a' ≤ c && c ≤ 'v' then (n - 87, true)
  else if 'w' ≤ c && c ≤ 'z' then (n - 119, false)
  else if 'A' ≤ c && c ≤ 'Z' then (n - 61, false)
  else if c = '+' then (30, false)
  else (31, false)

/-- The numbers a text of digits is made of; `n` is the number being read. -/
def numbers (n : Nat) : List Char → List Nat
  | [] => []
  | c :: cs =>
    match digit c with
    | (d, true) => (n * 32 + d) :: numbers 0 cs
    | (d, false) => numbers (n * 32 + d) cs

/-- The ranges that gaps and lengths stand for, the first gap counted from `next`. -/
def ofNumbers (next : Nat) : List Nat → Ranges
  | gap :: len :: rest => (next + gap, next + gap + len) :: ofNumbers (next + gap + len + 1) rest
  | _ => []

/-- The set a text stands for. -/
def decode (text : String) : Ranges := ofNumbers 0 (numbers 0 text.toList)

end Ranges

end ImportAtlas.Unicode
