import Mathlib.Data.List.TakeWhile
import ImportAtlas.Proofs.RelaxedDocuments
/-!
# What comes of a relaxed text

Comments and commas are taken out in one pass, and only a closing bracket takes back what was
written before. So what is written up to a place stays, unless a comma is the last of it and a
closing bracket comes next (`strictFrom_append`). From that a text is read from its start: each
way to begin (`Start`) says what is written first, and the rest is what comes of the rest.
-/

namespace ImportAtlas.RelaxedJson

open Json

variable {v w cs rest text f : List Char} {c : Char} {p : Place}

/-! ## One step -/

/-- Where the character after `c` stands. -/
def Place.next (p : Place) (c : Char) : Place :=
  match p with
  | .plain => if c = '"' then .quoted else if c = '/' then .slash else .plain
  | .quoted => if c = '\\' then .escaped else if c = '"' then .plain else .quoted
  | .escaped => .quoted
  | .slash =>
    if c = '/' then .lineComment
    else if c = '*' then .blockComment false
    else if c = '"' then .quoted
    else .plain
  | .lineComment => if c = '\n' then .plain else .lineComment
  | .blockComment star => if star && c = '/' then .plain else .blockComment (c == '*')

/-- What is written after `c`. -/
def write (w : List Char) (p : Place) (c : Char) : List Char :=
  match p with
  | .plain => if c = '/' then w else put w c
  | .quoted | .escaped => c :: w
  | .slash => if c = '/' || c = '*' then w else put ('/' :: w) c
  | .lineComment => if c = '\n' then c :: w else w
  | .blockComment _ => w

theorem put_quote (w : List Char) : put w '"' = '"' :: w := rfl

theorem strictFrom_step (w : List Char) (p : Place) (c : Char) (cs : List Char) :
    strictFrom w p (c :: cs) = strictFrom (write w p c) (p.next c) cs := by
  cases p with
  | plain =>
    by_cases hquote : c = '"'
    · simp [strictFrom, write, Place.next, hquote, put_quote]
    · by_cases hslash : c = '/' <;> simp [strictFrom, write, Place.next, hquote, hslash]
  | slash =>
    by_cases hslash : c = '/'
    · simp [strictFrom, write, Place.next, hslash]
    · by_cases hstar : c = '*'
      · simp [strictFrom, write, Place.next, hstar]
      · by_cases hquote : c = '"' <;> simp [strictFrom, write, Place.next, hslash, hstar, hquote, put_quote]
  | quoted | escaped => simp [strictFrom, write, Place.next]
  | lineComment => by_cases hline : c = '\n' <;> simp [strictFrom, write, Place.next, hline]
  | blockComment star =>
    cases star with
    | false => simp [strictFrom, write, Place.next]
    | true => by_cases hslash : c = '/' <;> simp [strictFrom, write, Place.next, hslash]

/-! ## What comes ahead -/

/-- The text from its first character on that is no blank and in no comment. -/
def ahead : Place → List Char → List Char
  | _, [] => []
  | p, c :: cs =>
    match p with
    | .plain => if Text.isBlank c || c = '/' then ahead (p.next c) cs else c :: cs
    | .slash => if c = '/' || c = '*' then ahead (p.next c) cs else '/' :: c :: cs
    | .lineComment | .blockComment _ => ahead (p.next c) cs
    | .quoted | .escaped => []

def IsClosing (c : Char) : Prop := c = '\x7d' ∨ c = ']'

/-- A closing bracket comes next. -/
def ClosesNext (p : Place) (cs : List Char) : Prop := ∃ c ∈ (ahead p cs).head?, IsClosing c

theorem not_isBlank_of_isClosing (h : IsClosing c) : Text.isBlank c = false := by
  rcases h with rfl | rfl <;> decide

theorem put_closing (h : IsClosing c) (w : List Char) : put w c = c :: dropComma w := by
  rcases h with rfl | rfl <;> rfl

theorem put_other (h : ¬ IsClosing c) (w : List Char) : put w c = c :: w := by
  unfold IsClosing at h
  simp [put, h]

theorem next_blank (h : Text.isBlank c = true) : Place.plain.next c = .plain := by
  have hquote : c ≠ '"' := by
    rintro rfl
    cases h
  have hslash : c ≠ '/' := by
    rintro rfl
    cases h
  simp [Place.next, hquote, hslash]

/-! ## What stays -/

/-- A text stays as it is under what is written after it. -/
def Kept (v w : List Char) (p : Place) (cs : List Char) : Prop :=
  (∃ c ∈ v, Text.isBlank c = false) ∨ Settled w ∨ ¬ ClosesNext p cs

theorem dropWhile_eq_cons (h : ∃ c ∈ v, Text.isBlank c = false) :
    ∃ c v', Text.isBlank c = false ∧ ∀ w, (v ++ w).dropWhile Text.isBlank = c :: (v' ++ w) := by
  induction v with
  | nil => simp at h
  | cons d v ih =>
    cases hd : Text.isBlank d with
    | false => exact ⟨d, v, hd, fun w => List.dropWhile_cons_of_neg (by simp [hd])⟩
    | true =>
      obtain ⟨c, v', hc, hdrop⟩ := ih (by simpa [hd] using h)
      refine ⟨c, v', hc, fun w => ?_⟩
      rw [List.cons_append, List.dropWhile_cons_of_pos hd, hdrop]

theorem dropComma_append (h : (∃ c ∈ v, Text.isBlank c = false) ∨ Settled w) : dropComma (v ++ w) = dropComma v ++ w := by
  by_cases hv : ∃ c ∈ v, Text.isBlank c = false
  · obtain ⟨c, v', -, hdrop⟩ := dropWhile_eq_cons hv
    have hnil := hdrop []
    rw [List.append_nil, List.append_nil] at hnil
    unfold dropComma
    rw [hdrop, hnil]
    by_cases hcomma : c = ',' <;> simp [hcomma]
  · have hblank : ∀ c ∈ v, Text.isBlank c = true := by simpa using hv
    have hsettled : Settled (v ++ w) := by
      rw [Settled, List.dropWhile_append_of_pos hblank]
      exact h.resolve_left hv
    have hnone : Settled v := by
      rw [Settled, List.dropWhile_eq_nil_iff.2 hblank]
      simp
    rw [dropComma_of_settled hsettled, dropComma_of_settled hnone]

theorem Kept.quoted : Kept v w .quoted cs := .inr (.inr (by cases cs <;> simp [ClosesNext, ahead]))

theorem Kept.escaped : Kept v w .escaped cs := .inr (.inr (by cases cs <;> simp [ClosesNext, ahead]))

/-- A character that is written, if it is no closing bracket. -/
theorem Kept.cons (h : Kept v w p cs) : Kept (c :: v) w p cs := by
  rcases h with ⟨d, hd, hblank⟩ | h
  · exact .inl ⟨d, List.mem_cons_of_mem c hd, hblank⟩
  · exact .inr h

theorem Kept.step_plain (h : Kept v w .plain (c :: cs)) :
    write (v ++ w) .plain c = write v .plain c ++ w ∧ Kept (write v .plain c) w (Place.plain.next c) cs := by
  by_cases hslash : c = '/'
  · subst hslash
    exact ⟨rfl, h⟩
  · by_cases hclosing : IsClosing c
    · have hblank := not_isBlank_of_isClosing hclosing
      have hcloses : ClosesNext .plain (c :: cs) := ⟨c, by simp [ahead, hblank, hslash], hclosing⟩
      have hstays : (∃ d ∈ v, Text.isBlank d = false) ∨ Settled w := h.imp_right fun h => h.resolve_right (· hcloses)
      simp only [write, if_neg hslash, put_closing hclosing, dropComma_append hstays]
      exact ⟨rfl, .inl ⟨c, List.mem_cons_self, hblank⟩⟩
    · simp only [write, if_neg hslash, put_other hclosing]
      refine ⟨rfl, ?_⟩
      cases hblank : Text.isBlank c with
      | false => exact .inl ⟨c, List.mem_cons_self, hblank⟩
      | true =>
        have hahead : ahead .plain (c :: cs) = ahead .plain cs := by simp [ahead, hblank, next_blank hblank]
        rw [next_blank hblank]
        refine Kept.cons ?_
        rwa [Kept, ClosesNext, hahead] at h

theorem Kept.step_slash (h : Kept v w .slash (c :: cs)) :
    write (v ++ w) .slash c = write v .slash c ++ w ∧ Kept (write v .slash c) w (Place.slash.next c) cs := by
  by_cases hcomment : c = '/' ∨ c = '*'
  · have hwrite : ∀ w, write w .slash c = w := fun w => by simp [write, hcomment]
    have hahead : ahead .slash (c :: cs) = ahead (Place.slash.next c) cs := by simp [ahead, hcomment]
    rw [hwrite, hwrite]
    rw [Kept, ClosesNext, hahead] at h
    exact ⟨rfl, h⟩
  · have hslash : Text.isBlank '/' = false := by decide
    have hwrite : ∀ w, write w .slash c = c :: '/' :: w := by
      intro w
      have hput : put ('/' :: w) c = c :: '/' :: w := by
        by_cases hclosing : IsClosing c
        · rw [put_closing hclosing, dropComma_of_settled (settled_cons hslash (by decide) w)]
        · exact put_other hclosing _
      simpa [write, hcomment] using hput
    rw [hwrite, hwrite]
    exact ⟨rfl, .inl ⟨'/', by simp, hslash⟩⟩

theorem Kept.step (h : Kept v w p (c :: cs)) :
    write (v ++ w) p c = write v p c ++ w ∧ Kept (write v p c) w (p.next c) cs := by
  cases p with
  | plain => exact h.step_plain
  | slash => exact h.step_slash
  | quoted =>
    refine ⟨rfl, ?_⟩
    by_cases hslash : c = '\\'
    · simpa [Place.next, hslash] using Kept.escaped
    · by_cases hquote : c = '"'
      · exact .inl ⟨c, List.mem_cons_self, by rw [hquote]; decide⟩
      · simpa [Place.next, hslash, hquote] using Kept.quoted
  | escaped => exact ⟨rfl, Kept.quoted⟩
  | lineComment =>
    by_cases hline : c = '\n'
    · subst hline
      exact ⟨rfl, Kept.cons h⟩
    · have hwrite : ∀ w, write w .lineComment c = w := fun w => by simp [write, hline]
      rw [hwrite, hwrite]
      exact ⟨rfl, h⟩
  | blockComment star => exact ⟨rfl, h⟩

/-- What is written stays, and what is written after it is the same without it. -/
theorem strictFrom_append (h : Kept v w p cs) : strictFrom (v ++ w) p cs = w.reverse ++ strictFrom v p cs := by
  induction cs generalizing v p with
  | nil => cases p <;> simp [strictFrom]
  | cons c cs ih =>
    obtain ⟨hwrite, hkept⟩ := h.step
    rw [strictFrom_step, strictFrom_step, hwrite, ih hkept]

theorem strictFrom_plain (h : Settled w ∨ ¬ ClosesNext .plain cs) : strictFrom w .plain cs = w.reverse ++ strict cs := by
  have hkept : Kept [] w .plain cs := .inr h
  exact strictFrom_append hkept

/-- A character outside quotes and comments that stays. -/
theorem strict_cons (hquote : c ≠ '"') (hslash : c ≠ '/') (hcomma : c = ',' → ¬ ClosesNext .plain cs) :
    strict (c :: cs) = c :: strict cs := by
  have hwrite : write [] .plain c = [c] := by
    by_cases hclosing : IsClosing c
    · simp [write, hslash, put_closing hclosing, dropComma]
    · simp [write, hslash, put_other hclosing]
  have hstays : Settled [c] ∨ ¬ ClosesNext .plain cs := by
    by_cases hc : c = ','
    · exact .inr (hcomma hc)
    · refine .inl ?_
      cases hblank : Text.isBlank c <;> simp [Settled, hblank, hc]
  have hnext : Place.plain.next c = .plain := by simp [Place.next, hquote, hslash]
  rw [strict, strictFrom_step, hwrite, hnext, strictFrom_plain hstays]
  rfl

/-! ## Between quotes -/

theorem strict_quote (cs : List Char) : strict ('"' :: cs) = '"' :: strictFrom [] .quoted cs := by
  have hkept : Kept [] ['"'] .quoted cs := .quoted
  exact strictFrom_append hkept

theorem quoted_plain (hslash : c ≠ '\\') (hquote : c ≠ '"') :
    strictFrom [] .quoted (c :: cs) = c :: strictFrom [] .quoted cs := by
  have hkept : Kept [] [c] .quoted cs := .quoted
  rw [strictFrom_quoted [] cs hquote hslash]
  exact strictFrom_append hkept

theorem quoted_escape (e : Char) (cs : List Char) :
    strictFrom [] .quoted ('\\' :: e :: cs) = '\\' :: e :: strictFrom [] .quoted cs := by
  have hkept : Kept [] [e, '\\'] .quoted cs := .quoted
  rw [strictFrom_step, strictFrom_step]
  exact strictFrom_append hkept

theorem quoted_end (cs : List Char) : strictFrom [] .quoted ('"' :: cs) = '"' :: strict cs := by
  have hsettled : Settled ['"'] := settled_cons (by decide) (by decide) []
  rw [strictFrom_step]
  exact strictFrom_plain (.inl hsettled)

/-! ## Comments -/

/-- What is done in comments does not depend on their characters, but for where they end. -/
structure Blind {β : Type} (G : Place → List Char → β) : Prop where
  line : ∀ {c}, c ≠ '\n' → ∀ cs, G .lineComment (c :: cs) = G .lineComment cs
  block : ∀ star c cs, G (.blockComment star) (c :: cs) = G ((Place.blockComment star).next c) cs

section Blind

variable {β : Type} {G : Place → List Char → β}

theorem Blind.line_append (hG : Blind G) (h : '\n' ∉ text) (rest : List Char) :
    G .lineComment (text ++ rest) = G .lineComment rest := by
  induction text with
  | nil => rfl
  | cons c text ih =>
    rw [List.mem_cons, not_or] at h
    rw [List.cons_append, hG.line (Ne.symm h.1), ih h.2]

theorem next_block {star : Bool} (h : star = true → c ≠ '/') : (Place.blockComment star).next c = .blockComment (c == '*') := by
  cases star with
  | false => rfl
  | true => simp [Place.next, h rfl]

/-- No slash comes right after a star. -/
theorem head?_ne_slash (h : ¬ ['*', '/'] <:+: c :: text) (hc : (c == '*') = true) : text.head? ≠ some '/' := by
  intro hhead
  obtain ⟨more, rfl⟩ := List.head?_eq_some_iff.1 hhead
  rw [beq_iff_eq] at hc
  subst hc
  exact h ⟨[], more, rfl⟩

theorem not_infix_tail (h : ¬ ['*', '/'] <:+: c :: text) : ¬ ['*', '/'] <:+: text :=
  fun hin => h (hin.trans (List.suffix_cons c text).isInfix)

theorem Blind.block_open (hG : Blind G) (star : Bool) (h : ¬ ['*', '/'] <:+: text)
    (hstar : star = true → text.head? ≠ some '/') : ∃ star', G (.blockComment star) text = G (.blockComment star') [] := by
  induction text generalizing star with
  | nil => exact ⟨star, rfl⟩
  | cons c text ih =>
    have hnext := next_block fun hs => by simpa using hstar hs
    obtain ⟨star', hrest⟩ := ih (c == '*') (not_infix_tail h) (head?_ne_slash h)
    exact ⟨star', by rw [hG.block, hnext, hrest]⟩

theorem Blind.block_append (hG : Blind G) (star : Bool) (h : ¬ ['*', '/'] <:+: text)
    (hstar : star = true → text.head? ≠ some '/') (rest : List Char) :
    G (.blockComment star) (text ++ '*' :: '/' :: rest) = G .plain rest := by
  induction text generalizing star with
  | nil =>
    have hnext : (Place.blockComment star).next '*' = .blockComment true := next_block fun _ => by decide
    rw [List.nil_append, hG.block, hnext, hG.block]
    rfl
  | cons c text ih =>
    have hnext := next_block fun hs => by simpa using hstar hs
    rw [List.cons_append, hG.block, hnext, ih (c == '*') (not_infix_tail h) (head?_ne_slash h)]

end Blind

theorem blind_strictFrom (w : List Char) : Blind (strictFrom w) where
  line hc cs := by rw [strictFrom_step]; simp [write, Place.next, hc]
  block star c cs := by rw [strictFrom_step]; rfl

theorem blind_ahead : Blind ahead where
  line hc cs := by simp [ahead, Place.next, hc]
  block star c cs := rfl

theorem line_cases (cs : List Char) : (∃ text rest, cs = text ++ '\n' :: rest ∧ '\n' ∉ text) ∨ '\n' ∉ cs := by
  by_cases h : '\n' ∈ cs
  · exact .inl (List.eq_append_cons_of_mem h)
  · exact .inr h

theorem block_cases (cs : List Char) :
    (∃ text rest, cs = text ++ '*' :: '/' :: rest ∧ ¬ ['*', '/'] <:+: text) ∨ ¬ ['*', '/'] <:+: cs := by
  induction cs with
  | nil => exact .inr (by simp)
  | cons c cs ih =>
    by_cases hend : c = '*' ∧ cs.head? = some '/'
    · obtain ⟨rfl, hhead⟩ := hend
      obtain ⟨rest, rfl⟩ := List.head?_eq_some_iff.1 hhead
      exact .inl ⟨[], rest, rfl, by simp⟩
    · -- The pair that closes the comment does not start at `c`.
      have hcons : ∀ {text : List Char}, ¬ ['*', '/'] <:+: text → (text.head? = some '/' → cs.head? = some '/') →
          ¬ ['*', '/'] <:+: c :: text := by
        intro text htext hhead hin
        rcases List.infix_cons_iff.1 hin with hprefix | hin
        · obtain ⟨more, hmore⟩ := hprefix
          cases hmore
          exact hend ⟨rfl, hhead rfl⟩
        · exact htext hin
      rcases ih with ⟨text, rest, rfl, htext⟩ | hnone
      · refine .inl ⟨c :: text, rest, rfl, hcons htext fun hhead => ?_⟩
        rw [List.head?_append, hhead, Option.some_or]
      · exact .inr (hcons hnone id)

/-- What a slash opens: a comment, up to its end or to the end of the text, or nothing. -/
inductive AfterSlash : List Char → Prop
  | line {text rest : List Char} : '\n' ∉ text → AfterSlash ('/' :: (text ++ '\n' :: rest))
  | lineEnd {text : List Char} : '\n' ∉ text → AfterSlash ('/' :: text)
  | block {text rest : List Char} : ¬ ['*', '/'] <:+: text → AfterSlash ('*' :: (text ++ '*' :: '/' :: rest))
  | unclosed {text : List Char} : ¬ ['*', '/'] <:+: text → AfterSlash ('*' :: text)
  | other {cs : List Char} : cs.head? ≠ some '/' → cs.head? ≠ some '*' → AfterSlash cs

theorem afterSlash (cs : List Char) : AfterSlash cs := by
  by_cases hslash : cs.head? = some '/'
  · obtain ⟨ds, rfl⟩ := List.head?_eq_some_iff.1 hslash
    rcases line_cases ds with ⟨text, rest, rfl, htext⟩ | htext
    · exact .line htext
    · exact .lineEnd htext
  · by_cases hstar : cs.head? = some '*'
    · obtain ⟨ds, rfl⟩ := List.head?_eq_some_iff.1 hstar
      rcases block_cases ds with ⟨text, rest, rfl, htext⟩ | htext
      · exact .block htext
      · exact .unclosed htext
    · exact .other hslash hstar

theorem strict_line (h : '\n' ∉ text) (rest : List Char) :
    strict ('/' :: '/' :: (text ++ '\n' :: rest)) = '\n' :: strict rest := by
  have hblank : Settled ['\n'] := by simp [Settled]; decide
  calc strict ('/' :: '/' :: (text ++ '\n' :: rest))
      = strictFrom [] .lineComment (text ++ '\n' :: rest) := by rw [strict, strictFrom_step, strictFrom_step]; rfl
    _ = strictFrom ['\n'] .plain rest := by rw [(blind_strictFrom []).line_append h, strictFrom_step]; rfl
    _ = '\n' :: strict rest := strictFrom_plain (.inl hblank)

theorem strict_lineEnd (h : '\n' ∉ text) : strict ('/' :: '/' :: text) = [] := by
  have hline := (blind_strictFrom []).line_append h []
  rw [List.append_nil] at hline
  rw [strict, strictFrom_step, strictFrom_step]
  exact hline

theorem strict_block (h : ¬ ['*', '/'] <:+: text) (rest : List Char) :
    strict ('/' :: '*' :: (text ++ '*' :: '/' :: rest)) = strict rest := by
  rw [strict, strictFrom_step, strictFrom_step]
  exact (blind_strictFrom []).block_append false h nofun rest

theorem strict_unclosed (h : ¬ ['*', '/'] <:+: text) : strict ('/' :: '*' :: text) = [] := by
  obtain ⟨star, hopen⟩ := (blind_strictFrom []).block_open false h nofun
  rw [strict, strictFrom_step, strictFrom_step]
  exact hopen

/-- A slash that opens no comment stays. -/
theorem strict_slash (hslash : cs.head? ≠ some '/') (hstar : cs.head? ≠ some '*') :
    ∃ t, strict ('/' :: cs) = '/' :: t := by
  have hsettled : ∀ w, Settled ('/' :: w) := settled_cons (by decide) (by decide)
  cases cs with
  | nil => exact ⟨[], rfl⟩
  | cons c cs =>
    have hwrite : write [] .slash c = [c] ++ ['/'] := by
      have hput : put ['/'] c = [c, '/'] := by
        by_cases hclosing : IsClosing c
        · rw [put_closing hclosing, dropComma_of_settled (hsettled [])]
        · exact put_other hclosing _
      have hcomment : ¬(c = '/' ∨ c = '*') := by
        rintro (rfl | rfl)
        · exact hslash rfl
        · exact hstar rfl
      simpa [write, hcomment] using hput
    have hkept : Kept [c] ['/'] (Place.slash.next c) cs := .inr (.inl (hsettled []))
    refine ⟨strictFrom [c] (Place.slash.next c) cs, ?_⟩
    calc strict ('/' :: c :: cs) = strictFrom (write [] .slash c) (Place.slash.next c) cs := by
          rw [strict, strictFrom_step, strictFrom_step]
          rfl
      _ = '/' :: strictFrom [c] (Place.slash.next c) cs := by
          rw [hwrite, strictFrom_append hkept]
          rfl

/-! ## A comma before a closing bracket -/

/-- Blanks and comments. -/
inductive Loose : List Char → Prop
  | nil : Loose []
  | blank {c : Char} {f : List Char} : Text.isBlank c = true → Loose f → Loose (c :: f)
  | line {text f : List Char} : '\n' ∉ text → Loose f → Loose ('/' :: '/' :: (text ++ '\n' :: f))
  | block {text f : List Char} : ¬ ['*', '/'] <:+: text → Loose f → Loose ('/' :: '*' :: (text ++ '*' :: '/' :: f))

theorem loose_of_filler (h : Filler f) : Loose f := by
  induction h with
  | nil => exact .nil
  | blank hc _ ih => exact .blank (isBlank_of_isGap hc) ih
  | line htext _ ih => exact .line htext ih
  | block htext _ ih => exact .block htext ih

theorem ahead_blank (h : Text.isBlank c = true) (cs : List Char) : ahead .plain (c :: cs) = ahead .plain cs := by
  simp [ahead, h, next_blank h]

theorem ahead_line (h : '\n' ∉ text) (rest : List Char) :
    ahead .plain ('/' :: '/' :: (text ++ '\n' :: rest)) = ahead .plain rest :=
  blind_ahead.line_append h ('\n' :: rest)

theorem ahead_block (h : ¬ ['*', '/'] <:+: text) (rest : List Char) :
    ahead .plain ('/' :: '*' :: (text ++ '*' :: '/' :: rest)) = ahead .plain rest :=
  blind_ahead.block_append false h nofun rest

theorem ahead_loose (h : Loose f) (rest : List Char) : ahead .plain (f ++ rest) = ahead .plain rest := by
  induction h with
  | nil => rfl
  | blank hc _ ih => rw [List.cons_append, ahead_blank hc, ih]
  | @line text f htext _ ih => simpa [ih] using ahead_line htext (f ++ rest)
  | @block text f htext _ ih => simpa [ih] using ahead_block htext (f ++ rest)

theorem ahead_cons (hblank : Text.isBlank c = false) (hslash : c ≠ '/') (cs : List Char) :
    ahead .plain (c :: cs) = c :: cs := by
  simp [ahead, hblank, hslash]

theorem ahead_lineEnd (h : '\n' ∉ text) : ahead .plain ('/' :: '/' :: text) = [] := by
  have hline := blind_ahead.line_append h []
  rw [List.append_nil] at hline
  exact hline

theorem ahead_unclosed (h : ¬ ['*', '/'] <:+: text) : ahead .plain ('/' :: '*' :: text) = [] := by
  obtain ⟨star, hopen⟩ := blind_ahead.block_open false h nofun
  exact hopen

theorem ahead_slash (hslash : cs.head? ≠ some '/') (hstar : cs.head? ≠ some '*') :
    ∃ t, ahead .plain ('/' :: cs) = [] ∨ ahead .plain ('/' :: cs) = '/' :: t := by
  cases cs with
  | nil => exact ⟨[], .inl rfl⟩
  | cons c cs =>
    rw [List.head?_cons, ne_eq, Option.some.injEq] at hslash hstar
    refine ⟨c :: cs, .inr ?_⟩
    change ahead .slash (c :: cs) = '/' :: c :: cs
    simp [ahead, hslash, hstar]

/-- What comes before the first character ahead. -/
theorem exists_loose (h : ahead .plain cs = c :: rest) (hc : c ≠ '/') : ∃ f, Loose f ∧ cs = f ++ c :: rest := by
  -- By the length of the text, since a comment is passed over as a whole.
  induction hn : cs.length using Nat.strongRecOn generalizing cs with
  | ind n ih =>
    subst hn
    cases cs with
    | nil => cases h
    | cons d cs =>
      cases hblank : Text.isBlank d with
      | true =>
        rw [ahead_blank hblank] at h
        obtain ⟨f, hf, rfl⟩ := ih _ (by simp) h rfl
        exact ⟨d :: f, .blank hblank hf, rfl⟩
      | false =>
        by_cases hslash : d = '/'
        · subst hslash
          cases afterSlash cs with
          | @line text after htext =>
            rw [ahead_line htext] at h
            obtain ⟨f, hf, rfl⟩ := ih after.length (by simp; omega) h rfl
            exact ⟨'/' :: '/' :: (text ++ '\n' :: f), .line htext hf, by simp⟩
          | lineEnd htext =>
            rw [ahead_lineEnd htext] at h
            cases h
          | @block text after htext =>
            rw [ahead_block htext] at h
            obtain ⟨f, hf, rfl⟩ := ih after.length (by simp; omega) h rfl
            exact ⟨'/' :: '*' :: (text ++ '*' :: '/' :: f), .block htext hf, by simp⟩
          | unclosed htext =>
            rw [ahead_unclosed htext] at h
            cases h
          | other hline hblock =>
            obtain ⟨t, ht | ht⟩ := ahead_slash hline hblock
            · rw [ht] at h
              cases h
            · rw [ht] at h
              exact absurd (List.cons.inj h).1.symm hc
        · rw [ahead_cons hblank hslash] at h
          exact ⟨[], .nil, h⟩

theorem strictFrom_blank (h : Text.isBlank c = true) (w cs : List Char) :
    strictFrom w .plain (c :: cs) = strictFrom (c :: w) .plain cs := by
  have hordinary : IsOrdinary c := by
    refine ⟨?_, ?_, ?_, ?_⟩ <;> rintro rfl <;> cases h
  exact strictFrom_cons hordinary w cs

/-- Of blanks and comments, blanks are left. -/
theorem strictFrom_loose (h : Loose f) :
    ∃ b, (∀ c ∈ b, Text.isBlank c = true) ∧ ∀ w rest, strictFrom w .plain (f ++ rest) = strictFrom (b ++ w) .plain rest := by
  induction h with
  | nil => exact ⟨[], List.forall_mem_nil _, fun _ _ => rfl⟩
  | @blank c f hc _ ih =>
    obtain ⟨b, hb, ih⟩ := ih
    refine ⟨b ++ [c], by simpa [or_imp, forall_and] using ⟨hb, hc⟩, fun w rest => ?_⟩
    rw [List.cons_append, strictFrom_blank hc, ih, List.append_assoc]
    rfl
  | @line text f htext _ ih =>
    obtain ⟨b, hb, ih⟩ := ih
    refine ⟨b ++ ['\n'], by simpa [or_imp, forall_and] using ⟨hb, by decide⟩, fun w rest => ?_⟩
    rw [strictFrom_lineComment htext, ih, List.append_assoc]
    rfl
  | @block text f htext _ ih =>
    obtain ⟨b, hb, ih⟩ := ih
    refine ⟨b, hb, fun w rest => ?_⟩
    rw [strictFrom_blockComment htext, ih]

theorem strictFrom_bracket (h : IsClosing c) (w cs : List Char) :
    strictFrom w .plain (c :: cs) = strictFrom (c :: dropComma w) .plain cs := by
  rcases h with rfl | rfl <;> rfl

theorem settled_bracket (h : IsClosing c) : Settled [c] := by
  rcases h with rfl | rfl <;> exact settled_cons (by decide) (by decide) []

theorem strict_bracket (h : IsClosing c) (rest : List Char) : strict (c :: rest) = c :: strict rest := by
  rw [strict, strictFrom_bracket h]
  exact strictFrom_plain (.inl (settled_bracket h))

/-- A comma with blanks and comments after it is taken back at a closing bracket. -/
theorem strict_comma (hf : Loose f) (hc : IsClosing c) (rest : List Char) :
    strict (',' :: (f ++ c :: rest)) = strict (c :: rest) := by
  obtain ⟨b, hb, hloose⟩ := strictFrom_loose hf
  have hdrop : dropComma (b ++ [',']) = [] := by
    have hcomma : Text.isBlank ',' = false := by decide
    rw [dropComma, List.dropWhile_append_of_pos hb]
    simp [hcomma]
  calc strict (',' :: (f ++ c :: rest)) = strictFrom [','] .plain (f ++ c :: rest) := by rw [strict, strictFrom_step]; rfl
    _ = strictFrom (c :: dropComma (b ++ [','])) .plain rest := by rw [hloose, strictFrom_bracket hc]
    _ = c :: strict rest := by
      rw [hdrop]
      exact strictFrom_plain (.inl (settled_bracket hc))
    _ = strict (c :: rest) := (strict_bracket hc rest).symm

theorem exists_loose_of_closesNext (h : ClosesNext .plain cs) : ∃ f c rest, Loose f ∧ IsClosing c ∧ cs = f ++ c :: rest := by
  obtain ⟨c, hhead, hc⟩ := h
  obtain ⟨rest, hahead⟩ := List.head?_eq_some_iff.1 hhead
  have hslash : c ≠ '/' := by
    rintro rfl
    rcases hc with h | h <;> cases h
  obtain ⟨f, hf, hcs⟩ := exists_loose hahead hslash
  exact ⟨f, c, rest, hf, hc, hcs⟩

/-! ## How a text begins -/

/-- The ways to begin. -/
inductive Start : List Char → Prop
  | nil : Start []
  | slash {cs : List Char} : AfterSlash cs → Start ('/' :: cs)
  | quote (cs : List Char) : Start ('"' :: cs)
  /-- A comma that is taken back. -/
  | comma {f rest : List Char} {c : Char} : Loose f → IsClosing c → Start (',' :: (f ++ c :: rest))
  | other {c : Char} {cs : List Char} : c ≠ '"' → c ≠ '/' → (c = ',' → ¬ ClosesNext .plain cs) → Start (c :: cs)

theorem start (cs : List Char) : Start cs := by
  cases cs with
  | nil => exact .nil
  | cons c cs =>
    by_cases hslash : c = '/'
    · rw [hslash]
      exact .slash (afterSlash cs)
    · by_cases hquote : c = '"'
      · rw [hquote]
        exact .quote cs
      · by_cases hcomma : c = ',' ∧ ClosesNext .plain cs
        · obtain ⟨rfl, hcloses⟩ := hcomma
          obtain ⟨f, c, rest, hf, hc, rfl⟩ := exists_loose_of_closesNext hcloses
          exact .comma hf hc
        · exact .other hquote hslash fun hc hcloses => hcomma ⟨hc, hcloses⟩

end ImportAtlas.RelaxedJson
