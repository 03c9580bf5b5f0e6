import ImportAtlas.Regex.CharSet
/-!
# Regular expressions

A regular expression says which stretches of a text it matches. `nullable` says
whether it matches the empty stretch at a place; `deriv` takes one character
off: what remains to be matched after it, as a list of alternatives. `search`
runs over a text with the alternatives that are still open and stops at the
first stretch found.

What stands before and after a place matters to assertions such as `^` and `\b`,
so every function here is told the characters around the place.
-/

namespace ImportAtlas

/-- Where a word begins or ends. `startHalf` and `endHalf` ask for one side
only. -/
inductive WordEdge
  | boundary
  | inside
  | start
  | finish
  | startHalf
  | endHalf
  deriving DecidableEq, Repr

/-- A condition on a place in a text. -/
inductive Assertion
  | textStart
  | textEnd
  | lineStart
  | lineEnd
  /-- `lineStart` where a carriage return, alone or with a line feed, also ends
  a line. -/
  | lineStartAny
  | lineEndAny
  | wordEdge (edge : WordEdge) (ascii : Bool)
  deriving DecidableEq, Repr

/-- Whether a place with `prev` before it and `next` after it is such an edge,
for words made of the characters `p`. -/
def WordEdge.holds (edge : WordEdge) (p : Char → Bool) (prev next : Option Char) : Bool :=
  let before := prev.any p
  let after := next.any p
  match edge with
  | boundary => before != after
  | inside => before == after
  | start => !before && after
  | finish => before && !after
  | startHalf => !before
  | endHalf => !after

/-- Whether the condition holds at a place with `prev` before it and `next`
after it. -/
def Assertion.holds (a : Assertion) (prev next : Option Char) : Bool :=
  match a with
  | textStart => prev.isNone
  | textEnd => next.isNone
  | lineStart => prev.isNone || prev == some '\n'
  | lineEnd => next.isNone || next == some '\n'
  | lineStartAny => prev.isNone || prev == some '\n' || (prev == some '\r' && next != some '\n')
  | lineEndAny => next.isNone || next == some '\r' || (next == some '\n' && prev != some '\r')
  | wordEdge edge ascii => edge.holds (if ascii then isAsciiWord else isWord) prev next

inductive Regex
  | empty
  | set (s : CharSet)
  | look (a : Assertion)
  | seq (a b : Regex)
  | alt (a b : Regex)
  /-- At least `min` and at most `max` times. -/
  | rep (r : Regex) (min : Nat) (max : Option Nat)
  deriving DecidableEq, Repr

namespace Regex

/-- Whether the empty stretch between `prev` and `next` is matched. -/
def nullable (prev next : Option Char) : Regex → Bool
  | empty => true
  | set _ => false
  | look a => a.holds prev next
  | seq a b => a.nullable prev next && b.nullable prev next
  | alt a b => a.nullable prev next || b.nullable prev next
  | rep r min _ => min == 0 || r.nullable prev next

def andThen : Regex → Regex → Regex
  | empty, b => b
  | a, b => seq a b

/-- What remains to be matched after the character `c`, which stands after
`prev`: one of the alternatives. A repetition whose body is matched by nothing
at all may have done any of its rounds that way. -/
def deriv (prev : Option Char) (c : Char) : Regex → List Regex
  | empty | look _ => []
  | set s => if s.has c then [empty] else []
  | seq a b =>
    (a.deriv prev c).map (·.andThen b) ++ (if a.nullable prev (some c) then b.deriv prev c else [])
  | alt a b => a.deriv prev c ++ b.deriv prev c
  | rep r min max =>
    if max = some 0 then []
    else
      let rest := rep r (if r.nullable prev (some c) then 0 else min - 1) (max.map (· - 1))
      (r.deriv prev c).map (·.andThen rest)

/-- Whether some stretch of `text`, which stands after `prev`, is matched from
one of the alternatives `open_`, or from `r` at any later place. -/
def searchFrom (r : Regex) : Option Char → List Regex → List Char → Bool
  | prev, open_, text =>
    let open_ := open_.insert r
    open_.any (·.nullable prev text.head?) ||
      match text with
      | [] => false
      | c :: rest => r.searchFrom (some c) (open_.flatMap (·.deriv prev c)).eraseDups rest
termination_by structural _ _ text => text

/-- Whether some stretch of the text is matched. -/
def search (r : Regex) (text : String) : Bool := r.searchFrom none [] text.toList

end Regex

end ImportAtlas
