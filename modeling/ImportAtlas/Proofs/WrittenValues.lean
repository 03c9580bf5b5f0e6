import ImportAtlas.Json.Value
import ImportAtlas.Proofs.Documents
/-!
# Written values

A value is written as a document, on one line or with one member a line, and its lexemes are the
same either way (`compact_isDocument`, `pretty_isDocument`).
-/

namespace ImportAtlas.Json

/-! ## Lexemes of a value -/

theorem fourHex?_hexDigit {n : Nat} (h : n < 32) :
    fourHex? '0' '0' (hexDigit (n / 16)) (hexDigit (n % 16)) = some n := by
  have hall : ∀ n < 32, fourHex? '0' '0' (hexDigit (n / 16)) (hexDigit (n % 16)) = some n := by decide
  exact hall n h

/-- A character as it is written between quotes. -/
def letterOf (c : Char) : Letter :=
  if hquote : c = '"' then .escape '"' '"' rfl
  else if hslash : c = '\\' then .escape '\\' '\\' rfl
  else if c = '\n' then .escape 'n' '\n' rfl
  else if c = '\r' then .escape 'r' '\r' rfl
  else if c = '\t' then .escape 't' '\t' rfl
  else if c = '\x08' then .escape 'b' '\x08' rfl
  else if c = '\x0c' then .escape 'f' '\x0c' rfl
  else if hcontrol : c.toNat < 32 then
    .code '0' '0' (hexDigit (c.toNat / 16)) (hexDigit (c.toNat % 16)) c.toNat (fourHex?_hexDigit hcontrol)
  else .plain c ⟨hquote, hslash, Nat.not_lt.1 hcontrol⟩

def lettersOf (s : String) : List Letter := s.toList.map letterOf

theorem isDigit_toString {n : Nat} : ∀ c ∈ (toString n).toList, c.isDigit = true := by
  intro c hc
  rw [Nat.toString_eq_ofList_toDigits, String.toList_ofList] at hc
  exact Nat.isDigit_of_mem_toDigits (by decide) (by decide) hc

theorem toString_ne_nil (n : Nat) : (toString n).toList ≠ [] := by
  rw [Nat.toString_eq_ofList_toDigits, String.toList_ofList]
  exact Nat.toDigits_ne_nil

/-- A number is written with a zero first only if it is zero. -/
theorem head_toDigits (n : Nat) (h : 0 < n) : (Nat.toDigits 10 n).head? ≠ some '0' := by
  induction n using Nat.strongRecOn with
  | ind n ih =>
    by_cases hsmall : n < 10
    · rw [Nat.toDigits_of_lt_base hsmall]
      have hdigit : ∀ n < 10, 0 < n → [Nat.digitChar n].head? ≠ some '0' := by decide
      exact hdigit n hsmall h
    · rw [Nat.toDigits_of_base_le (by decide) (Nat.not_lt.1 hsmall)]
      have habove := ih (n / 10) (by omega) (by omega)
      obtain ⟨c, cs, hcs⟩ := List.exists_cons_of_ne_nil (Nat.toDigits_ne_nil (n := n / 10) (b := 10))
      rw [hcs] at habove ⊢
      exact habove

theorem toString_leading {n : Nat} (h : (toString n).toList.head? = some '0') : (toString n).toList = ['0'] := by
  rw [Nat.toString_eq_ofList_toDigits, String.toList_ofList] at h ⊢
  rcases Nat.eq_zero_or_pos n with rfl | hn
  · rfl
  · exact absurd h (head_toDigits n hn)

def numeral (n : Nat) : NumberLiteral where
  negative := false
  whole := ⟨(toString n).toList, toString_ne_nil n, isDigit_toString⟩
  leading := toString_leading
  fraction := none
  exponent := none

mutual

/-- What a value is written with, in order. -/
def lexemes : Json → List Lexeme
  | null => [.null]
  | bool b => [.bool b]
  | number n => [.number (numeral n)]
  | text s => [.string (lettersOf s)]
  | list items => .openList :: (itemLexemes items ++ [.closeList])
  | object members => .openObject :: (memberLexemes members ++ [.closeObject])

def itemLexemes : List Json → List Lexeme
  | [] => []
  | [j] => j.lexemes
  | j :: rest => j.lexemes ++ .comma :: itemLexemes rest

def memberLexemes : List (String × Json) → List Lexeme
  | [] => []
  | [(k, j)] => .string (lettersOf k) :: .colon :: j.lexemes
  | (k, j) :: rest => .string (lettersOf k) :: .colon :: (j.lexemes ++ .comma :: memberLexemes rest)

end

mutual

theorem forms_lexemes : ∀ j : Json, Forms .value j.lexemes j.lexemes
  | null => .scalar rfl
  | bool _ => .scalar rfl
  | number _ => .scalar rfl
  | text _ => .scalar rfl
  | list [] => .emptyList
  | list (j :: rest) => .list false (forms_items (j :: rest) (by simp))
  | object [] => .emptyObject
  | object (m :: rest) => .object false (forms_members (m :: rest) (by simp))

theorem forms_items : ∀ items : List Json, items ≠ [] → Forms .items (itemLexemes items) (itemLexemes items)
  | [], h => absurd rfl h
  | [j], _ => .item (forms_lexemes j)
  | j :: k :: rest, _ => .items (forms_lexemes j) (forms_items (k :: rest) (by simp))

theorem forms_members : ∀ members : List (String × Json), members ≠ [] →
    Forms .members (memberLexemes members) (memberLexemes members)
  | [], h => absurd rfl h
  | [(_, j)], _ => .member _ (forms_lexemes j)
  | (_, j) :: m :: rest, _ => .members _ (forms_lexemes j) (forms_members (m :: rest) (by simp))

end

/-! ## Both ways to write a value -/

variable {ls : List Lexeme} {t g : List Char}

theorem Written.blank (hg : Blank g) (h : Written Blank Blank ls t) : Written Blank Blank ls (g ++ t) := by
  cases h with
  | nil ht => exact .nil (List.forall_mem_append.2 ⟨hg, ht⟩)
  | @cons g' text l ls hg' htext =>
    rw [← List.append_assoc]
    exact .cons (List.forall_mem_append.2 ⟨hg, hg'⟩) htext

theorem Written.lexeme (l : Lexeme) (h : Written Blank Blank ls t) : Written Blank Blank (l :: ls) (l.text ++ t) :=
  .cons (g := []) nofun h

theorem text_letterOf (c : Char) : (letterOf c).text = escapeChar c := by
  unfold letterOf escapeChar
  split_ifs <;> rfl

theorem text_lettersOf (s : String) : (Lexeme.string (lettersOf s)).text = quote s := by
  simp [Lexeme.text, lettersOf, quote, List.flatMap_map, text_letterOf]

theorem text_numeral (n : Nat) : (Lexeme.number (numeral n)).text = (toString n).toList := by
  simp [Lexeme.text, NumberLiteral.text, NumberLiteral.unsigned, numeral, fractionText, exponentText]

/-- A key and what follows it. -/
theorem Written.key (k : String) (hg : Blank g) (h : Written Blank Blank ls t) :
    Written Blank Blank (.string (lettersOf k) :: .colon :: ls) (quote k ++ ':' :: (g ++ t)) := by
  have hwritten := Written.lexeme (.string (lettersOf k)) (Written.lexeme .colon (h.blank hg))
  rwa [text_lettersOf] at hwritten

mutual

theorem written_compact : ∀ (j : Json) {ls : List Lexeme} {t : List Char}, Written Blank Blank ls t →
    Written Blank Blank (j.lexemes ++ ls) (j.compactChars ++ t)
  | null, _, _, h => h.lexeme .null
  | bool true, _, _, h => h.lexeme (.bool true)
  | bool false, _, _, h => h.lexeme (.bool false)
  | number n, _, _, h => by
    have hnumber := h.lexeme (.number (numeral n))
    rwa [text_numeral] at hnumber
  | text s, _, _, h => by
    have hstring := h.lexeme (.string (lettersOf s))
    rwa [text_lettersOf] at hstring
  | list items, ls, t, h => by
    have hlist := Written.lexeme .openList (written_items items (h.lexeme .closeList))
    simpa [lexemes, compactChars, Lexeme.text] using hlist
  | object members, ls, t, h => by
    have hobject := Written.lexeme .openObject (written_members members (h.lexeme .closeObject))
    simpa [lexemes, compactChars, Lexeme.text] using hobject

theorem written_items : ∀ (items : List Json) {ls : List Lexeme} {t : List Char}, Written Blank Blank ls t →
    Written Blank Blank (itemLexemes items ++ ls) (compactItems items ++ t)
  | [], _, _, h => h
  | [j], _, _, h => written_compact j h
  | j :: k :: rest, ls, t, h => by
    have hitems := written_compact j (Written.lexeme .comma (written_items (k :: rest) h))
    simpa [itemLexemes, compactItems, Lexeme.text] using hitems

theorem written_members : ∀ (members : List (String × Json)) {ls : List Lexeme} {t : List Char},
    Written Blank Blank ls t → Written Blank Blank (memberLexemes members ++ ls) (compactMembers members ++ t)
  | [], _, _, h => h
  | [(k, j)], ls, t, h => by
    have hmember := Written.key (g := []) k nofun (written_compact j h)
    simpa [memberLexemes, compactMembers] using hmember
  | (k, j) :: m :: rest, ls, t, h => by
    have hmore := Written.lexeme .comma (written_members (m :: rest) h)
    have hmember := Written.key (g := []) k nofun (written_compact j hmore)
    simpa [memberLexemes, compactMembers, Lexeme.text] using hmember

end

theorem blank_indent (level : Nat) : Blank (indent level) := by
  intro c hc
  simp only [indent, List.mem_cons, List.mem_replicate] at hc
  rcases hc with rfl | ⟨-, rfl⟩ <;> rfl

mutual

theorem written_pretty : ∀ (j : Json) (level : Nat) {ls : List Lexeme} {t : List Char}, Written Blank Blank ls t →
    Written Blank Blank (j.lexemes ++ ls) (j.prettyChars level ++ t)
  | null, _, _, _, h => h.lexeme .null
  | bool true, _, _, _, h => h.lexeme (.bool true)
  | bool false, _, _, _, h => h.lexeme (.bool false)
  | number n, _, _, _, h => by
    have hnumber := h.lexeme (.number (numeral n))
    rwa [text_numeral] at hnumber
  | text s, _, _, _, h => by
    have hstring := h.lexeme (.string (lettersOf s))
    rwa [text_lettersOf] at hstring
  | list [], _, _, _, h => Written.lexeme .openList (h.lexeme .closeList)
  | list (j :: rest), level, ls, t, h => by
    have hclose := (h.lexeme .closeList).blank (blank_indent level)
    have hlist := Written.lexeme .openList (written_prettyItems (j :: rest) (level + 1) hclose)
    simpa [lexemes, prettyChars, Lexeme.text] using hlist
  | object [], _, _, _, h => Written.lexeme .openObject (h.lexeme .closeObject)
  | object (m :: rest), level, ls, t, h => by
    have hclose := (h.lexeme .closeObject).blank (blank_indent level)
    have hobject := Written.lexeme .openObject (written_prettyMembers (m :: rest) (level + 1) hclose)
    simpa [lexemes, prettyChars, Lexeme.text] using hobject

theorem written_prettyItems : ∀ (items : List Json) (level : Nat) {ls : List Lexeme} {t : List Char},
    Written Blank Blank ls t → Written Blank Blank (itemLexemes items ++ ls) (prettyItems level items ++ t)
  | [], _, _, _, h => h
  | [j], level, _, _, h => by
    simpa [itemLexemes, prettyItems] using (written_pretty j level h).blank (blank_indent level)
  | j :: k :: rest, level, ls, t, h => by
    have hmore := Written.lexeme .comma (written_prettyItems (k :: rest) level h)
    have hitems := (written_pretty j level hmore).blank (blank_indent level)
    simpa [itemLexemes, prettyItems, Lexeme.text] using hitems

theorem written_prettyMembers : ∀ (members : List (String × Json)) (level : Nat) {ls : List Lexeme} {t : List Char},
    Written Blank Blank ls t → Written Blank Blank (memberLexemes members ++ ls) (prettyMembers level members ++ t)
  | [], _, _, _, h => h
  | [(k, j)], level, ls, t, h => by
    have hmember := Written.key (g := [' ']) k (by simp [Blank, isGap]) (written_pretty j level h)
    simpa [memberLexemes, prettyMembers] using hmember.blank (blank_indent level)
  | (k, j) :: m :: rest, level, ls, t, h => by
    have hmore := Written.lexeme .comma (written_prettyMembers (m :: rest) level h)
    have hmember := Written.key (g := [' ']) k (by simp [Blank, isGap]) (written_pretty j level hmore)
    simpa [memberLexemes, prettyMembers, Lexeme.text] using hmember.blank (blank_indent level)

end

theorem compact_isDocument (j : Json) : IsDocument j.lexemes j.compactChars := by
  refine ⟨forms_lexemes j, ?_⟩
  have hwritten := written_compact j (Written.nil (g := []) nofun : Written Blank Blank [] [])
  simpa using hwritten

theorem pretty_isDocument (j : Json) : IsDocument j.lexemes (j.prettyChars 0) := by
  refine ⟨forms_lexemes j, ?_⟩
  have hwritten := written_pretty j 0 (Written.nil (g := []) nofun : Written Blank Blank [] [])
  simpa using hwritten

end ImportAtlas.Json
