/-!
# Cutting texts

Cutting a text at every occurrence, or at the first occurrence, of a
character; taking a given start or end off a text; lines.

`join_splitOn` says that cutting at a character loses nothing, `splitOn_joinWith`
that pieces without that character come out as they were put together.
-/

namespace ImportAtlas.Text

/-- The pieces between the occurrences of `sep`: one more than there are
occurrences. -/
def splitOn (sep : Char) : List Char → List (List Char)
  | [] => [[]]
  | c :: cs =>
    if c = sep then [] :: splitOn sep cs
    else
      match splitOn sep cs with
      | [] => [[c]]
      | piece :: rest => (c :: piece) :: rest

/-- The pieces with `sep` between them. -/
def joinWith (sep : Char) : List (List Char) → List Char
  | [] => []
  | [piece] => piece
  | piece :: rest => piece ++ sep :: joinWith sep rest

theorem splitOn_ne_nil (sep : Char) (cs : List Char) : splitOn sep cs ≠ [] := by
  cases cs with
  | nil => simp [splitOn]
  | cons c cs =>
    simp only [splitOn]
    split
    · simp
    · split <;> simp

theorem joinWith_cons (sep : Char) (piece : List Char) {rest : List (List Char)} (h : rest ≠ []) :
    joinWith sep (piece :: rest) = piece ++ sep :: joinWith sep rest := by
  cases rest with
  | nil => exact absurd rfl h
  | cons _ _ => rfl

theorem joinWith_cons_head (sep c : Char) (piece : List Char) (rest : List (List Char)) :
    joinWith sep ((c :: piece) :: rest) = c :: joinWith sep (piece :: rest) := by
  cases rest <;> simp [joinWith]

theorem joinWith_eq_flatMap (sep : Char) (piece : List Char) (rest : List (List Char)) :
    joinWith sep (piece :: rest) = piece ++ rest.flatMap (sep :: ·) := by
  induction rest generalizing piece with
  | nil => simp [joinWith]
  | cons next rest ih => rw [joinWith_cons sep piece (by simp), ih, List.flatMap_cons, List.cons_append]

theorem joinWith_append (sep : Char) {pieces rest : List (List Char)} (hpieces : pieces ≠ []) (hrest : rest ≠ []) :
    joinWith sep (pieces ++ rest) = joinWith sep pieces ++ sep :: joinWith sep rest := by
  obtain ⟨piece, pieces, rfl⟩ := List.exists_cons_of_ne_nil hpieces
  obtain ⟨next, rest, rfl⟩ := List.exists_cons_of_ne_nil hrest
  simp [joinWith_eq_flatMap]

theorem joinWith_eq_intercalate (sep : Char) (pieces : List (List Char)) :
    joinWith sep pieces = [sep].intercalate pieces := by
  induction pieces with
  | nil => simp [joinWith]
  | cons piece rest ih =>
    cases rest with
    | nil => simp [joinWith]
    | cons next rest => rw [joinWith_cons sep piece (by simp), ih]; simp

/-- Cutting at a character loses nothing. -/
theorem join_splitOn (sep : Char) (cs : List Char) : joinWith sep (splitOn sep cs) = cs := by
  induction cs with
  | nil => rfl
  | cons c cs ih =>
    simp only [splitOn]
    split
    · next h => rw [joinWith_cons sep [] (splitOn_ne_nil sep cs), ih, h]; rfl
    · split
      · next h => exact absurd h (splitOn_ne_nil sep cs)
      · next h => rw [joinWith_cons_head, ← h, ih]

theorem splitOn_of_not_mem {sep : Char} {cs : List Char} (h : sep ∉ cs) : splitOn sep cs = [cs] := by
  induction cs with
  | nil => rfl
  | cons c cs ih =>
    simp only [List.mem_cons, not_or] at h
    rw [splitOn, if_neg (Ne.symm h.1), ih h.2]

/-- The pieces of two texts with the separator between them are those of both. -/
theorem splitOn_append_sep (sep : Char) (cs ds : List Char) :
    splitOn sep (cs ++ sep :: ds) = splitOn sep cs ++ splitOn sep ds := by
  induction cs with
  | nil => simp [splitOn]
  | cons c cs ih =>
    rw [List.cons_append, splitOn, splitOn, ih]
    split
    · rfl
    · cases hcs : splitOn sep cs with
      | nil => exact absurd hcs (splitOn_ne_nil sep cs)
      | cons piece rest => rfl

theorem splitOn_append (sep : Char) {piece : List Char} (h : sep ∉ piece) (cs : List Char) :
    splitOn sep (piece ++ sep :: cs) = piece :: splitOn sep cs := by
  rw [splitOn_append_sep, splitOn_of_not_mem h]
  rfl

/-- Pieces without the separator come out as they were put together. -/
theorem splitOn_joinWith (sep : Char) {pieces : List (List Char)} (hne : pieces ≠ [])
    (h : ∀ piece ∈ pieces, sep ∉ piece) : splitOn sep (joinWith sep pieces) = pieces := by
  induction pieces with
  | nil => exact absurd rfl hne
  | cons piece rest ih =>
    have hpiece := h piece List.mem_cons_self
    cases rest with
    | nil => exact splitOn_of_not_mem hpiece
    | cons next rest =>
      rw [joinWith, splitOn_append sep hpiece, ih (by simp) fun q hq => h q (List.mem_cons_of_mem _ hq)]
      simp

/-- No piece holds the separator. -/
theorem not_mem_of_mem_splitOn {sep : Char} {cs piece : List Char} (h : piece ∈ splitOn sep cs) : sep ∉ piece := by
  induction cs generalizing piece with
  | nil => simp [splitOn] at h; simp [h]
  | cons c cs ih =>
    rw [splitOn] at h
    split at h
    · rcases List.mem_cons.1 h with rfl | h
      · simp
      · exact ih h
    · next hc =>
      split at h
      · next e => exact absurd e (splitOn_ne_nil sep cs)
      · next first rest e =>
        rcases List.mem_cons.1 h with rfl | h
        · have := ih (e ▸ List.mem_cons_self)
          simp only [List.mem_cons, not_or]
          exact ⟨Ne.symm hc, this⟩
        · exact ih (e ▸ List.mem_cons_of_mem _ h)

theorem mem_joinWith {sep c : Char} {piece : List Char} {pieces : List (List Char)} (h : piece ∈ pieces)
    (hc : c ∈ piece) : c ∈ joinWith sep pieces := by
  cases pieces with
  | nil => cases h
  | cons first rest =>
    rw [joinWith_eq_flatMap, List.mem_append, List.mem_flatMap]
    rcases List.mem_cons.1 h with rfl | h
    · exact .inl hc
    · exact .inr ⟨piece, h, List.mem_cons_of_mem sep hc⟩

theorem of_mem_joinWith {sep c : Char} {pieces : List (List Char)} (h : c ∈ joinWith sep pieces) :
    c = sep ∨ ∃ piece ∈ pieces, c ∈ piece := by
  cases pieces with
  | nil => cases h
  | cons first rest =>
    rw [joinWith_eq_flatMap, List.mem_append, List.mem_flatMap] at h
    rcases h with h | ⟨piece, hpiece, h⟩
    · exact .inr ⟨first, List.mem_cons_self, h⟩
    · rcases List.mem_cons.1 h with rfl | h
      · exact .inl rfl
      · exact .inr ⟨piece, List.mem_cons_of_mem first hpiece, h⟩

/-- A piece is made of characters of the text. -/
theorem mem_of_mem_splitOn {sep c : Char} {cs piece : List Char} (h : piece ∈ splitOn sep cs) (hc : c ∈ piece) :
    c ∈ cs := by
  rw [← join_splitOn sep cs]
  exact mem_joinWith h hc

/-- The texts before and after the first occurrence of `sep`. -/
def cutFirst (sep : Char) : List Char → Option (List Char × List Char)
  | [] => none
  | c :: cs => if c = sep then some ([], cs) else (cutFirst sep cs).map fun (a, b) => (c :: a, b)

theorem cutFirst_eq_none {sep : Char} {cs : List Char} : cutFirst sep cs = none ↔ sep ∉ cs := by
  induction cs with
  | nil => simp [cutFirst]
  | cons c cs ih =>
    rw [cutFirst, List.mem_cons, not_or]
    by_cases hc : c = sep
    · simp [hc]
    · rw [if_neg hc, Option.map_eq_none_iff, ih]
      simp [Ne.symm hc]

theorem cutFirst_append {sep : Char} {before : List Char} (h : sep ∉ before) (after : List Char) :
    cutFirst sep (before ++ sep :: after) = some (before, after) := by
  induction before with
  | nil => simp [cutFirst]
  | cons c before ih =>
    simp only [List.mem_cons, not_or] at h
    rw [List.cons_append, cutFirst, if_neg (Ne.symm h.1), ih h.2]
    rfl

theorem cutFirst_eq_some {sep : Char} {cs before after : List Char} :
    cutFirst sep cs = some (before, after) ↔ cs = before ++ sep :: after ∧ sep ∉ before := by
  constructor
  · intro h
    induction cs generalizing before with
    | nil => cases h
    | cons c cs ih =>
      rw [cutFirst] at h
      split at h
      · next hc =>
        cases h
        simp [hc]
      · next hc =>
        obtain ⟨⟨start, rest⟩, hcut, he⟩ := Option.map_eq_some_iff.1 h
        cases he
        obtain ⟨rfl, hstart⟩ := ih hcut
        exact ⟨rfl, by simp [hstart, Ne.symm hc]⟩
  · rintro ⟨rfl, h⟩
    exact cutFirst_append h after

/-- The texts before and after the last occurrence of `sep`. -/
def cutLast (sep : Char) (cs : List Char) : Option (List Char × List Char) :=
  (cutFirst sep cs.reverse).map fun (a, b) => (b.reverse, a.reverse)

theorem cutLast_append {sep : Char} {after : List Char} (h : sep ∉ after) (before : List Char) :
    cutLast sep (before ++ sep :: after) = some (before, after) := by
  have hreverse : (before ++ sep :: after).reverse = after.reverse ++ sep :: before.reverse := by simp
  rw [cutLast, hreverse, cutFirst_append (by simpa using h)]
  simp

theorem cutLast_eq_some {sep : Char} {cs before after : List Char} (h : cutLast sep cs = some (before, after)) :
    cs = before ++ sep :: after := by
  obtain ⟨⟨a, b⟩, hcut, he⟩ := Option.map_eq_some_iff.1 h
  cases he
  have hreverse := congrArg List.reverse (cutFirst_eq_some.1 hcut).1
  simpa using hreverse

/-- With `text` in place of the first occurrence of `sep`, if there is one. -/
def replaceFirst (sep : Char) (text cs : List Char) : List Char :=
  match cutFirst sep cs with
  | none => cs
  | some (a, b) => a ++ text ++ b

/-- What follows `start`, for a text that begins with it. -/
def dropStart? : List Char → List Char → Option (List Char)
  | [], cs => some cs
  | _ :: _, [] => none
  | p :: ps, c :: cs => if p = c then dropStart? ps cs else none

theorem dropStart?_eq_some {start cs rest : List Char} : dropStart? start cs = some rest ↔ cs = start ++ rest := by
  induction start generalizing cs with
  | nil => simp [dropStart?]
  | cons p start ih =>
    cases cs with
    | nil => simp [dropStart?]
    | cons c cs =>
      rw [dropStart?, List.cons_append, List.cons.injEq]
      by_cases h : p = c
      · rw [if_pos h, ih, and_iff_right h.symm]
      · rw [if_neg h]
        simp [Ne.symm h]

/-- What precedes `ending`, for a text that ends with it. -/
def dropEnd? (ending cs : List Char) : Option (List Char) :=
  (dropStart? ending.reverse cs.reverse).map List.reverse

theorem dropEnd?_eq_some {ending cs rest : List Char} : dropEnd? ending cs = some rest ↔ cs = rest ++ ending := by
  rw [dropEnd?, Option.map_eq_some_iff]
  simp only [dropStart?_eq_some]
  constructor
  · rintro ⟨back, hback, rfl⟩
    simpa using congrArg List.reverse hback
  · rintro rfl
    exact ⟨rest.reverse, by simp, by simp⟩

/-- The lines of a text: a line ends at a line feed, which is not part of it,
nor is a carriage return right before it. What follows the last line feed is a
line unless it is empty. -/
def lines (cs : List Char) : List (List Char) :=
  let pieces := splitOn '\n' cs
  let ended := pieces.dropLast.map fun piece => (dropEnd? ['\r'] piece).getD piece
  match pieces.getLast? with
  | none | some [] => ended
  | some piece => ended ++ [piece]

end ImportAtlas.Text
