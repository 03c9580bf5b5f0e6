/-!
# White space

The characters with Unicode's `White_Space` property, and what is done with
them: taking them off the ends of a text, and writing every run of them as one
blank.
-/

namespace ImportAtlas.Text

/-- The characters with Unicode's `White_Space` property. -/
def isBlank (c : Char) : Bool :=
  let n := c.toNat
  (9 ≤ n && n ≤ 13) || n == 0x20 || n == 0x85 || n == 0xA0 || n == 0x1680 ||
    (0x2000 ≤ n && n ≤ 0x200A) || n == 0x2028 || n == 0x2029 || n == 0x202F || n == 0x205F || n == 0x3000

/-- Without the characters satisfying `p` at its start and at its end. -/
def trimBy (p : Char → Bool) (cs : List Char) : List Char :=
  ((cs.dropWhile p).reverse.dropWhile p).reverse

theorem dropWhile_eq_self {p : Char → Bool} {cs : List Char} : cs.dropWhile p = cs ↔ ∀ c ∈ cs.head?, p c = false := by
  cases cs with
  | nil => simp
  | cons c cs =>
    cases hc : p c with
    | false => simp [hc]
    | true =>
      have hlonger : cs.dropWhile p ≠ c :: cs := fun h => by
        have hle : (cs.dropWhile p).length ≤ cs.length := (List.dropWhile_suffix p).length_le
        rw [h, List.length_cons] at hle
        omega
      simpa [hc] using hlonger

/-- What has nothing to be taken off at its ends stays as it is, and nothing else does. -/
theorem trimBy_eq_self {p : Char → Bool} {cs : List Char} :
    trimBy p cs = cs ↔ (∀ c ∈ cs.head?, p c = false) ∧ ∀ c ∈ cs.getLast?, p c = false := by
  rw [← dropWhile_eq_self, ← List.head?_reverse, ← dropWhile_eq_self]
  constructor
  · intro h
    have hstart : cs.dropWhile p = cs := by
      refine (List.dropWhile_suffix p).eq_of_length_le ?_
      have hle : ((cs.dropWhile p).reverse.dropWhile p).length ≤ (cs.dropWhile p).reverse.length :=
        (List.dropWhile_suffix p).length_le
      rwa [← List.length_reverse, ← trimBy, h, List.length_reverse] at hle
    rw [trimBy, hstart] at h
    exact ⟨hstart, by rw [← List.reverse_inj, h, List.reverse_reverse]⟩
  · rintro ⟨hstart, hend⟩
    rw [trimBy, hstart, hend, List.reverse_reverse]

theorem trimBy_append {p : Char → Bool} {before cs after : List Char} (hbefore : ∀ c ∈ before, p c = true)
    (hafter : ∀ c ∈ after, p c = true) :
    trimBy p (before ++ (cs ++ after)) = trimBy p cs := by
  have hend : after.dropWhile p = [] := by
    rw [← List.append_nil after, List.dropWhile_append_of_pos hafter, List.dropWhile_nil]
  rw [trimBy, trimBy, List.dropWhile_append_of_pos hbefore, List.dropWhile_append]
  split
  · next h => rw [hend, List.isEmpty_iff.1 h]
  · rw [List.reverse_append, List.dropWhile_append_of_pos (by simpa using hafter)]

/-- What is taken off at the ends satisfies `p`. -/
theorem exists_trimBy (p : Char → Bool) (cs : List Char) : ∃ before after, cs = before ++ (trimBy p cs ++ after) ∧
    (∀ c ∈ before, p c = true) ∧ ∀ c ∈ after, p c = true := by
  refine ⟨cs.takeWhile p, ((cs.dropWhile p).reverse.takeWhile p).reverse, ?_, ?_, ?_⟩
  · rw [trimBy, ← List.reverse_append, List.takeWhile_append_dropWhile, List.reverse_reverse,
      List.takeWhile_append_dropWhile]
  · exact List.all_eq_true.1 List.all_takeWhile
  · intro c hc
    exact List.all_eq_true.1 List.all_takeWhile c (List.mem_reverse.1 hc)

theorem trimBy_trimBy (p : Char → Bool) (cs : List Char) : trimBy p (trimBy p cs) = trimBy p cs := by
  obtain ⟨before, after, hcs, hbefore, hafter⟩ := exists_trimBy p cs
  conv => rhs; rw [hcs, trimBy_append hbefore hafter]

def trim (cs : List Char) : List Char := trimBy isBlank cs

/-- The words of a text: its longest stretches without white space, in order.
`word` holds the characters of the word being read, last first. -/
def wordsFrom (word : List Char) : List Char → List (List Char)
  | [] => if word.isEmpty then [] else [word.reverse]
  | c :: cs =>
    if isBlank c then (if word.isEmpty then wordsFrom [] cs else word.reverse :: wordsFrom [] cs)
    else wordsFrom (c :: word) cs

/-- The longest stretches without white space, in order. -/
def words (cs : List Char) : List (List Char) := wordsFrom [] cs

/-- Every run of white space written as one blank, and none at the ends. -/
def collapseBlanks (cs : List Char) : List Char := [' '].intercalate (words cs)

end ImportAtlas.Text
