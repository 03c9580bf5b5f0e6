import Mathlib.Data.List.Forall2
import Mathlib.Data.List.TakeWhile
import ImportAtlas.Proofs.Documents
/-!
# Texts that are cut into tokens

If nothing is wrong with any token of a text, the text is a row of lexemes of the same kinds, with
white space before each of them and after the last (`written_of_tokens`). Nothing follows a faulty
token, so it is enough to know of each token that it is whole.
-/

namespace ImportAtlas.Json

variable {cs ds rest : List Char} {t : Token} {ts : List Token}

/-! ## Kinds -/

/-- Nothing is wrong with the token. -/
def Token.IsWhole : Token → Prop
  | .text _ fault => fault = none
  | .number n => n.IsWhole
  | .brokenWord _ | .stray => False
  | _ => True

/-- A lexeme and a token of one kind. -/
inductive Lexeme.Kin : Lexeme → Token → Prop
  | openList : Kin .openList .openList
  | closeList : Kin .closeList .closeList
  | openObject : Kin .openObject .openObject
  | closeObject : Kin .closeObject .closeObject
  | comma : Kin .comma .comma
  | colon : Kin .colon .colon
  | null : Kin .null .null
  | bool (b : Bool) : Kin (.bool b) (.bool b)
  | number (n : NumberLiteral) (m : Numeral) : Kin (.number n) (.number m)
  | string (letters : List Letter) (pieces : List Piece) : Kin (.string letters) (.text pieces none)

/-! ## Strings -/

/-- A string literal ends at a closing quote, and letters stand before it. -/
theorem letters_of_lexText {read pieces : List Piece} (h : lexText read cs = (pieces, none, rest)) :
    ∃ letters : List Letter, cs = letters.flatMap Letter.text ++ '"' :: rest := by
  -- The cases that are closed at once end with a fault; the others read a quote or one more letter.
  fun_induction lexText read cs generalizing pieces with
  | case1 => simp at h
  | case2 read rest' =>
    simp only [Prod.mk.injEq, true_and] at h
    exact ⟨[], by simp [h.2]⟩
  | case3 read a b c d rest' n hn ih =>
    obtain ⟨letters, rfl⟩ := ih h
    exact ⟨.code a b c d n hn :: letters, by simp [Letter.text]⟩
  | case4 => simp at h
  | case5 => simp at h
  | case6 read e rest' hu hu' c hc ih =>
    obtain ⟨letters, rfl⟩ := ih h
    exact ⟨.escape e c hc :: letters, by simp [Letter.text]⟩
  | case7 => simp at h
  | case8 => simp at h
  | case9 => simp at h
  | case10 read c rest' hquote hcode hu hescape hend hcontrol ih =>
    have hslash : c ≠ '\\' := by
      intro hc
      cases rest' with
      | nil => exact hend hc rfl
      | cons e rest' => exact hescape e rest' hc rfl
    obtain ⟨letters, rfl⟩ := ih h
    exact ⟨.plain c ⟨hquote, hslash, Nat.not_lt.1 hcontrol⟩ :: letters, by simp [Letter.text]⟩

/-! ## Numbers -/

theorem exists_digits (h : (cs.takeWhile Char.isDigit).isEmpty = false) :
    ∃ d : Digits, d.chars = cs.takeWhile Char.isDigit ∧ cs = d.chars ++ cs.dropWhile Char.isDigit := by
  have hdigits : ∀ c ∈ cs.takeWhile Char.isDigit, c.isDigit = true := fun c hc => List.mem_takeWhile_imp hc
  exact ⟨⟨_, by simpa using h, hdigits⟩, rfl, List.takeWhile_append_dropWhile.symm⟩

theorem exponent_of_lexExponent {down : Bool} {digits : List Char} (h : lexExponent cs = .ok (down, digits, rest)) :
    ∃ (sign : Option Bool) (d : Digits), cs = signText sign ++ (d.chars ++ rest) := by
  have hdigits : ∀ {cs : List Char} {down' : Bool},
      (if (cs.takeWhile Char.isDigit).isEmpty then Except.error cs
        else Except.ok (down', cs.takeWhile Char.isDigit, cs.dropWhile Char.isDigit)) = Except.ok (down, digits, rest) →
      ∃ d : Digits, cs = d.chars ++ rest := by
    intro cs down' h
    split at h
    · cases h
    · next hne =>
      obtain ⟨d, -, hd⟩ := exists_digits (by simpa using hne)
      cases h
      exact ⟨d, hd⟩
  unfold lexExponent at h
  dsimp only at h
  split at h
  · obtain ⟨d, rfl⟩ := hdigits h
    exact ⟨some false, d, rfl⟩
  · obtain ⟨d, rfl⟩ := hdigits h
    exact ⟨some true, d, rfl⟩
  · obtain ⟨d, rfl⟩ := hdigits h
    exact ⟨none, d, rfl⟩

theorem exponent_after_mark {mark : Char} {mantissa decimals : Nat} {n : Numeral} (hmark : mark = 'e' ∨ mark = 'E')
    (h : (match lexExponent cs with
      | .error rest => (Numeral.broken rest.isEmpty, [])
      | .ok (down, digits, rest) => (scaled mantissa decimals down digits, rest)) = (n, rest))
    (hn : n.IsWhole) : ∃ e : Option Exponent, mark :: cs = exponentText e ++ rest := by
  split at h
  · cases h
    exact absurd rfl (hn _)
  · next hexponent =>
    obtain ⟨sign, d, rfl⟩ := exponent_of_lexExponent hexponent
    cases h
    exact ⟨some ⟨mark, hmark, sign, d⟩, by simp [exponentText, Exponent.text]⟩

theorem exponent_of_lexScale {mantissa decimals : Nat} {n : Numeral} (h : lexScale mantissa decimals cs = (n, rest))
    (hn : n.IsWhole) : ∃ e : Option Exponent, cs = exponentText e ++ rest := by
  unfold lexScale at h
  split at h
  · exact exponent_after_mark (.inl rfl) h hn
  · exact exponent_after_mark (.inr rfl) h hn
  · cases h
    exact ⟨none, rfl⟩

theorem fraction_of_lexFraction {negative : Bool} {whole : List Char} {n : Numeral}
    (h : lexFraction negative whole cs = (n, rest)) (hn : n.IsWhole) :
    ∃ (f : Option Digits) (e : Option Exponent), cs = fractionText f ++ (exponentText e ++ rest) := by
  rw [lexFraction_eq] at h
  split at h
  · next cs' =>
    dsimp only at h
    split at h
    · cases h
      exact absurd rfl (hn _)
    · next hne =>
      obtain ⟨d, -, hd⟩ := exists_digits (by simpa using hne)
      obtain ⟨e, he⟩ := exponent_of_lexScale h hn
      exact ⟨some d, e, by rw [← he, fractionText, List.cons_append, ← hd]⟩
  · obtain ⟨e, he⟩ := exponent_of_lexScale h hn
    exact ⟨none, e, he⟩
  · obtain ⟨e, he⟩ := exponent_of_lexScale h hn
    exact ⟨none, e, he⟩
  · dsimp only at h
    split at h <;>
    · cases h
      exact ⟨none, none, rfl⟩

/-- What is read as a number is one. -/
theorem literal_of_lexNumber {negative : Bool} {n : Numeral} (h : lexNumber negative cs = (n, rest)) (hn : n.IsWhole) :
    ∃ lit : NumberLiteral, lit.negative = negative ∧ cs = lit.unsigned ++ rest := by
  unfold lexNumber at h
  dsimp only at h
  split at h
  · cases h
    exact absurd rfl (hn _)
  · cases h
    exact absurd rfl (hn _)
  · next hnil hzero =>
    have hne : (cs.takeWhile Char.isDigit).isEmpty = false := by simpa using hnil
    obtain ⟨d, hd, hcs⟩ := exists_digits hne
    obtain ⟨f, e, hrest⟩ := fraction_of_lexFraction h hn
    have hleading : d.chars.head? = some '0' → d.chars = ['0'] := by
      intro hhead
      obtain ⟨more, hmore⟩ := List.head?_eq_some_iff.1 hhead
      cases more with
      | nil => exact hmore
      | cons c more => exact absurd (hd.symm.trans hmore) (hzero c more)
    refine ⟨⟨negative, d, hleading, f, e⟩, rfl, ?_⟩
    rw [NumberLiteral.unsigned, List.append_assoc, List.append_assoc, ← hrest]
    exact hcs

/-! ## Tokens -/

theorem eq_of_lexWord {word : List Char} (h : lexWord word cs = .ok rest) : cs = word ++ rest := by
  induction word generalizing cs with
  | nil =>
    cases h
    rfl
  | cons w word ih =>
    cases cs with
    | nil => cases h
    | cons c cs =>
      rw [lexWord] at h
      split at h
      · next hc => rw [← hc, ih h, List.cons_append]
      · cases h

theorem lexeme_of_lexWord {c : Char} {word : List Char} {token : Token} {l : Lexeme} (hl : l.Kin token)
    (htext : l.text = c :: word)
    (h : (match lexWord word cs with
      | .ok rest => (token, rest)
      | .error f => (.brokenWord f, [])) = (t, rest))
    (ht : t.IsWhole) : ∃ l : Lexeme, l.Kin t ∧ c :: cs = l.text ++ rest := by
  split at h
  · next hread =>
    cases h
    exact ⟨l, hl, by rw [htext, eq_of_lexWord hread, List.cons_append]⟩
  · cases h
    exact ht.elim

/-- What is read as a token with nothing wrong is a lexeme of its kind. -/
theorem lexeme_of_lexToken {c : Char} (h : lexToken c cs = (t, rest)) (ht : t.IsWhole) :
    ∃ l : Lexeme, l.Kin t ∧ c :: cs = l.text ++ rest := by
  -- The cases are those of `lexToken`: the signs, the three words, strings, and numbers with a sign or without.
  unfold lexToken at h
  dsimp only at h
  split at h
  · cases h
    exact ⟨.openList, .openList, rfl⟩
  · cases h
    exact ⟨.closeList, .closeList, rfl⟩
  · cases h
    exact ⟨.openObject, .openObject, rfl⟩
  · cases h
    exact ⟨.closeObject, .closeObject, rfl⟩
  · cases h
    exact ⟨.comma, .comma, rfl⟩
  · cases h
    exact ⟨.colon, .colon, rfl⟩
  · exact lexeme_of_lexWord .null rfl h ht
  · exact lexeme_of_lexWord (.bool true) rfl h ht
  · exact lexeme_of_lexWord (.bool false) rfl h ht
  · rcases hread : lexText [] cs with ⟨pieces, fault, more⟩
    rw [hread] at h
    cases h
    obtain rfl : fault = none := ht
    obtain ⟨letters, rfl⟩ := letters_of_lexText hread
    exact ⟨.string letters, .string letters pieces, by simp [Lexeme.text]⟩
  · rcases hread : lexNumber true cs with ⟨n, more⟩
    rw [hread] at h
    cases h
    obtain ⟨lit, hneg, rfl⟩ := literal_of_lexNumber hread ht
    exact ⟨.number lit, .number lit n, by simp [Lexeme.text, NumberLiteral.text, hneg]⟩
  · split at h
    · rcases hread : lexNumber false (c :: cs) with ⟨n, more⟩
      rw [hread] at h
      cases h
      obtain ⟨lit, hneg, hcs⟩ := literal_of_lexNumber hread ht
      exact ⟨.number lit, .number lit n, by simp [Lexeme.text, NumberLiteral.text, hneg, hcs]⟩
    · cases h
      exact ht.elim

/-- A text whose tokens are whole is written with lexemes of their kinds. -/
theorem written_of_lexFrom {fuel : Nat} (hfuel : cs.length < fuel) (h : ∀ t ∈ lexFrom fuel cs, t.IsWhole) :
    ∃ ls, List.Forall₂ Lexeme.Kin ls (lexFrom fuel cs) ∧ Written Blank Blank ls cs := by
  induction fuel generalizing cs with
  | zero => omega
  | succ fuel ih =>
    have hblank : Blank (cs.takeWhile isGap) := fun c hc => List.mem_takeWhile_imp hc
    have hsplit : cs = cs.takeWhile isGap ++ cs.dropWhile isGap := List.takeWhile_append_dropWhile.symm
    rw [lexFrom] at h ⊢
    cases hdrop : cs.dropWhile isGap with
    | nil =>
      rw [hdrop, List.append_nil] at hsplit
      exact ⟨[], .nil, .nil (hsplit ▸ hblank)⟩
    | cons c rest =>
      rw [hdrop] at h hsplit
      dsimp only at h ⊢
      obtain ⟨hwhole, hrest⟩ := List.forall_mem_cons.1 h
      rcases hread : lexToken c rest with ⟨token, more⟩
      rw [hread] at hwhole hrest
      obtain ⟨l, hkin, htext⟩ := lexeme_of_lexToken hread hwhole
      -- A lexeme is not empty, so the fuel is enough for what comes after it.
      have hlength : more.length < fuel := by
        have htotal := congrArg List.length hsplit
        rw [htext, List.length_append, List.length_append] at htotal
        obtain ⟨first, tail, hfirst, -⟩ := reads_token l
        rw [hfirst, List.length_cons] at htotal
        omega
      obtain ⟨ls, hls, hwritten⟩ := ih hlength hrest
      rw [hsplit, htext]
      exact ⟨l :: ls, .cons hkin hls, .cons hblank hwritten⟩

theorem written_of_tokens (h : ∀ t ∈ tokens cs, t.IsWhole) :
    ∃ ls, List.Forall₂ Lexeme.Kin ls (tokens cs) ∧ Written Blank Blank ls cs :=
  written_of_lexFrom (Nat.lt_succ_self _) h

end ImportAtlas.Json
