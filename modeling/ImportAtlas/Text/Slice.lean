/-!
# Stretches of bytes

Places in a text are counted in bytes of its UTF-8 form. `slice?` gives the text
between two places, unless one of them is beyond the end or inside a character.

`slice?_of_append` says that the bytes of a part of a text are that part.
-/

namespace ImportAtlas.Text

/-- How many bytes a text has in UTF-8. -/
def byteLength : List Char → Nat
  | [] => 0
  | c :: cs => c.utf8Size + byteLength cs

/-- What follows the first `n` bytes. -/
def dropBytes (n : Nat) : List Char → Option (List Char)
  | [] => if n = 0 then some [] else none
  | c :: cs => if n = 0 then some (c :: cs) else if c.utf8Size ≤ n then dropBytes (n - c.utf8Size) cs else none

/-- The first `n` bytes. -/
def takeBytes (n : Nat) : List Char → Option (List Char)
  | [] => if n = 0 then some [] else none
  | c :: cs =>
    if n = 0 then some [] else if c.utf8Size ≤ n then (takeBytes (n - c.utf8Size) cs).map (c :: ·) else none

/-- The text from one byte up to another. -/
def slice? (source : String) (start stop : Nat) : Option String :=
  if start ≤ stop then ((dropBytes start source.toList).bind (takeBytes (stop - start))).map String.ofList else none

theorem byteLength_append (cs ds : List Char) : byteLength (cs ++ ds) = byteLength cs + byteLength ds := by
  induction cs with
  | nil => simp [byteLength]
  | cons c cs ih => rw [List.cons_append, byteLength, byteLength, ih, Nat.add_assoc]

theorem dropBytes_byteLength (before after : List Char) :
    dropBytes (byteLength before) (before ++ after) = some after := by
  induction before with
  | nil => cases after <;> simp [byteLength, dropBytes]
  | cons c before ih =>
    have hpos := c.utf8Size_pos
    rw [List.cons_append, byteLength, dropBytes, if_neg (by omega), if_pos (Nat.le_add_right _ _),
      Nat.add_sub_cancel_left, ih]

theorem takeBytes_byteLength (part after : List Char) : takeBytes (byteLength part) (part ++ after) = some part := by
  induction part with
  | nil => cases after <;> simp [byteLength, takeBytes]
  | cons c part ih =>
    have hpos := c.utf8Size_pos
    rw [List.cons_append, byteLength, takeBytes, if_neg (by omega), if_pos (Nat.le_add_right _ _),
      Nat.add_sub_cancel_left, ih]
    rfl

/-- The bytes of a part of a text are that part. -/
theorem slice?_of_append {source : String} {before part after : List Char}
    (h : source.toList = before ++ (part ++ after)) :
    slice? source (byteLength before) (byteLength (before ++ part)) = some (String.ofList part) := by
  rw [slice?, byteLength_append, if_pos (Nat.le_add_right _ _), Nat.add_sub_cancel_left, h, dropBytes_byteLength,
    Option.bind_some, takeBytes_byteLength]
  rfl

end ImportAtlas.Text
