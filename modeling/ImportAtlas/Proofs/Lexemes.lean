import ImportAtlas.Json.Token
/-!
# Lexemes

What JSON texts are made of, letter for letter: punctuation, words, numbers and string
literals. Each is read as one token, whatever follows it (`reads_token`); only a number or
a word needs something after it that does not go on with it.
-/

namespace ImportAtlas.Json

/-! ## Numbers -/

/-- Some digits, at least one. -/
structure Digits where
  chars : List Char
  nonempty : chars ≠ []
  digits : ∀ c ∈ chars, c.isDigit = true

structure Exponent where
  mark : Char
  isMark : mark = 'e' ∨ mark = 'E'
  /-- The sign that is written, if one is; true for a minus. -/
  sign : Option Bool
  digits : Digits

structure NumberLiteral where
  negative : Bool
  whole : Digits
  /-- No zero comes before another digit. -/
  leading : whole.chars.head? = some '0' → whole.chars = ['0']
  fraction : Option Digits
  exponent : Option Exponent

def signText : Option Bool → List Char
  | none => []
  | some true => ['-']
  | some false => ['+']

def Exponent.text (e : Exponent) : List Char := e.mark :: (signText e.sign ++ e.digits.chars)

def fractionText : Option Digits → List Char
  | none => []
  | some d => '.' :: d.chars

def exponentText : Option Exponent → List Char
  | none => []
  | some e => e.text

/-- A number after its sign. -/
def NumberLiteral.unsigned (n : NumberLiteral) : List Char :=
  n.whole.chars ++ (fractionText n.fraction ++ exponentText n.exponent)

def NumberLiteral.text (n : NumberLiteral) : List Char := if n.negative then '-' :: n.unsigned else n.unsigned

/-! ## String literals -/

/-- A character of a string literal, or an escape. -/
inductive Letter
  | plain (c : Char) (h : c ≠ '"' ∧ c ≠ '\\' ∧ 32 ≤ c.toNat)
  | escape (e c : Char) (h : escapedChar? e = some c)
  | code (a b c d : Char) (n : Nat) (h : fourHex? a b c d = some n)

namespace Letter

def text : Letter → List Char
  | plain c _ => [c]
  | escape e _ _ => ['\\', e]
  | code a b c d _ _ => ['\\', 'u', a, b, c, d]

def piece : Letter → Piece
  | plain c _ => .char c
  | escape _ c _ => .char c
  | code _ _ _ _ n _ => .unit n

end Letter

/-! ## Lexemes -/

inductive Lexeme
  | openList
  | closeList
  | openObject
  | closeObject
  | comma
  | colon
  | null
  | bool (b : Bool)
  | number (n : NumberLiteral)
  | string (letters : List Letter)

namespace Lexeme

/-- A lexeme as it is written. -/
def text : Lexeme → List Char
  | openList => ['[']
  | closeList => [']']
  | openObject => ['\x7b']
  | closeObject => ['\x7d']
  | comma => [',']
  | colon => [':']
  | null => "null".toList
  | bool true => "true".toList
  | bool false => "false".toList
  | number n => n.text
  | string letters => '"' :: (letters.flatMap Letter.text ++ ['"'])

/-- Words and numbers, which end where something else begins. -/
def isBare : Lexeme → Bool
  | null | bool _ | number _ => true
  | _ => false

end Lexeme

/-! ## Reading numbers -/

/-- A text does not go on with a number. -/
def Stops (rest : List Char) : Prop := ∀ c ∈ rest.head?, c.isDigit = false ∧ c ≠ '.' ∧ c ≠ 'e' ∧ c ≠ 'E'

variable {rest : List Char}

theorem takeWhile_digits (d : Digits) (h : ∀ c ∈ rest.head?, c.isDigit = false) :
    (d.chars ++ rest).takeWhile Char.isDigit = d.chars := by
  rw [List.takeWhile_append_of_pos d.digits]
  cases rest with
  | nil => simp
  | cons c rest => rw [List.takeWhile_cons_of_neg (by simpa using h c rfl), List.append_nil]

theorem dropWhile_digits (d : Digits) (h : ∀ c ∈ rest.head?, c.isDigit = false) :
    (d.chars ++ rest).dropWhile Char.isDigit = rest := by
  rw [List.dropWhile_append_of_pos d.digits]
  cases rest with
  | nil => rfl
  | cons c rest => rw [List.dropWhile_cons_of_neg (by simpa using h c rfl)]

theorem Digits.isEmpty_chars (d : Digits) : d.chars.isEmpty = false := by simpa using d.nonempty

/-- Some digits open with one. -/
theorem Digits.cases (d : Digits) : ∃ c cs, d.chars = c :: cs ∧ c.isDigit = true := by
  obtain ⟨c, cs, h⟩ := List.exists_cons_of_ne_nil d.nonempty
  exact ⟨c, cs, h, d.digits c (h ▸ List.mem_cons_self)⟩

theorem lexExponent_text (e : Exponent) (h : Stops rest) :
    lexExponent (signText e.sign ++ (e.digits.chars ++ rest)) = .ok (e.sign == some true, e.digits.chars, rest) := by
  have hdigit : ∀ c ∈ rest.head?, c.isDigit = false := fun c hc => (h c hc).1
  obtain ⟨c, cs, hc, hd⟩ := e.digits.cases
  unfold lexExponent
  cases e.sign with
  | none =>
    split
    next negative after hsign =>
      -- Digits open with no sign.
      have hnone : negative = false ∧ after = e.digits.chars ++ rest := by
        rw [signText, List.nil_append, hc] at hsign
        split at hsign
        · next heq =>
          injection heq with heq
          rw [heq] at hd
          cases hd
        · next heq =>
          injection heq with heq
          rw [heq] at hd
          cases hd
        · cases hsign
          exact ⟨rfl, by rw [hc]⟩
      simp only [hnone, takeWhile_digits e.digits hdigit, dropWhile_digits e.digits hdigit, e.digits.isEmpty_chars]
      rfl
  | some minus =>
    cases minus <;>
    · simp only [signText, List.cons_append, List.nil_append, takeWhile_digits e.digits hdigit,
        dropWhile_digits e.digits hdigit, e.digits.isEmpty_chars]
      rfl

/-- A number with the given digits in its exponent. -/
def scaled (mantissa decimals : Nat) (down : Bool) (digits : List Char) : Numeral :=
  let digits := digits.dropWhile (· = '0')
  let power := if 9 < digits.length then Nat.pow 10 9 else decimalValue digits
  .fraction (if down then isHuge mantissa 0 (decimals + Nat.min power 400) else isHuge mantissa power decimals)

/-- A number from its first character to its last. -/
def Numeral.IsWhole (n : Numeral) : Prop := ∀ atEnd, n ≠ .broken atEnd

/-- A number after its decimals. -/
def lexScale (mantissa decimals : Nat) (cs : List Char) : Numeral × List Char :=
  match cs with
  | 'e' :: cs | 'E' :: cs =>
    match lexExponent cs with
    | .error rest => (.broken rest.isEmpty, [])
    | .ok (down, digits, rest) => (scaled mantissa decimals down digits, rest)
  | cs => (.fraction (isHuge mantissa 0 decimals), cs)

theorem lexFraction_eq (negative : Bool) (whole cs : List Char) :
    lexFraction negative whole cs =
      match cs with
      | '.' :: cs =>
        let decimals := cs.takeWhile Char.isDigit
        let rest := cs.dropWhile Char.isDigit
        if decimals.isEmpty then (.broken rest.isEmpty, [])
        else lexScale (decimalValue (whole ++ decimals)) decimals.length rest
      | 'e' :: _ | 'E' :: _ => lexScale (decimalValue whole) 0 cs
      | cs =>
        let n := decimalValue whole
        if Nat.pow 2 64 ≤ n then (.fraction (isHuge n 0 0), cs)
        else (if negative then .negative n else .natural n, cs) := by
  rfl

theorem stops_nil : Stops [] := nofun

theorem stops_cons {c : Char} {cs : List Char} :
    Stops (c :: cs) ↔ c.isDigit = false ∧ c ≠ '.' ∧ c ≠ 'e' ∧ c ≠ 'E' := by
  simp [Stops]

/-- What opens a text that does not go on with a number. -/
theorem Stops.cases (h : Stops rest) :
    rest = [] ∨ ∃ c cs, rest = c :: cs ∧ c.isDigit = false ∧ c ≠ '.' ∧ c ≠ 'e' ∧ c ≠ 'E' := by
  cases rest with
  | nil => exact .inl rfl
  | cons c cs => exact .inr ⟨c, cs, rfl, h c rfl⟩

theorem lexScale_text (mantissa decimals : Nat) (e : Option Exponent) :
    ∃ n, n.IsWhole ∧ ∀ rest, Stops rest → lexScale mantissa decimals (exponentText e ++ rest) = (n, rest) := by
  cases e with
  | none =>
    refine ⟨.fraction (isHuge mantissa 0 decimals), nofun, fun rest h => ?_⟩
    obtain rfl | ⟨c, cs, rfl, -, -, he, hE⟩ := h.cases
    · rfl
    · simp [exponentText, lexScale, he, hE]
  | some e =>
    refine ⟨scaled mantissa decimals (e.sign == some true) e.digits.chars, nofun, fun rest h => ?_⟩
    obtain hmark | hmark := e.isMark <;>
    · simp only [exponentText, Exponent.text, hmark, List.cons_append, List.append_assoc]
      rw [lexScale, lexExponent_text e h]

theorem not_isDigit_exponentText (e : Option Exponent) (h : Stops rest) :
    ∀ c ∈ (exponentText e ++ rest).head?, c.isDigit = false := by
  cases e with
  | none => exact fun c hc => (h c hc).1
  | some e =>
    intro c hc
    obtain hmark | hmark := e.isMark <;>
    · simp only [exponentText, Exponent.text, hmark, List.cons_append, List.head?_cons, Option.mem_def,
        Option.some.injEq] at hc
      rw [← hc]
      decide

theorem lexFraction_whole (negative : Bool) (whole : List Char) :
    ∃ n, n.IsWhole ∧ ∀ rest, Stops rest → lexFraction negative whole rest = (n, rest) := by
  by_cases hlong : Nat.pow 2 64 ≤ decimalValue whole
  · refine ⟨.fraction (isHuge (decimalValue whole) 0 0), nofun, fun rest h => ?_⟩
    obtain rfl | ⟨c, cs, rfl, -, hdot, he, hE⟩ := h.cases
    · simp only [lexFraction_eq, hlong, if_true]
    · simp [lexFraction_eq, hlong, hdot, he, hE]
  · refine ⟨if negative then .negative (decimalValue whole) else .natural (decimalValue whole), ?_, fun rest h => ?_⟩
    · cases negative <;> exact nofun
    obtain rfl | ⟨c, cs, rfl, -, hdot, he, hE⟩ := h.cases
    · simp only [lexFraction_eq, hlong, if_false]
    · simp [lexFraction_eq, hlong, hdot, he, hE]

theorem lexFraction_text (negative : Bool) (whole : List Char) (f : Option Digits) (e : Option Exponent) :
    ∃ n, n.IsWhole ∧
      ∀ rest, Stops rest → lexFraction negative whole (fractionText f ++ (exponentText e ++ rest)) = (n, rest) := by
  cases f with
  | some d =>
    obtain ⟨n, hwhole, hn⟩ := lexScale_text (decimalValue (whole ++ d.chars)) d.chars.length e
    refine ⟨n, hwhole, fun rest h => ?_⟩
    have hdigit := not_isDigit_exponentText e h
    simp only [lexFraction_eq, fractionText, List.cons_append, takeWhile_digits d hdigit, dropWhile_digits d hdigit,
      d.isEmpty_chars]
    exact hn rest h
  | none =>
    cases e with
    | none => exact lexFraction_whole negative whole
    | some e =>
      obtain ⟨n, hwhole, hn⟩ := lexScale_text (decimalValue whole) 0 (some e)
      refine ⟨n, hwhole, fun rest h => ?_⟩
      rw [← hn rest h, lexFraction_eq]
      obtain hmark | hmark := e.isMark <;>
      · simp only [fractionText, exponentText, Exponent.text, hmark]
        rfl

theorem not_isDigit_fractionText (f : Option Digits) (e : Option Exponent) (h : Stops rest) :
    ∀ c ∈ (fractionText f ++ (exponentText e ++ rest)).head?, c.isDigit = false := by
  cases f with
  | none => exact not_isDigit_exponentText e h
  | some d =>
    intro c hc
    obtain rfl : '.' = c := by simpa [fractionText] using hc
    rfl

/-- A number is read up to where it ends. -/
theorem lexNumber_text (n : NumberLiteral) (negative : Bool) :
    ∃ m, m.IsWhole ∧ ∀ rest, Stops rest → lexNumber negative (n.unsigned ++ rest) = (m, rest) := by
  obtain ⟨m, hwhole, hm⟩ := lexFraction_text negative n.whole.chars n.fraction n.exponent
  refine ⟨m, hwhole, fun rest h => ?_⟩
  have hdigit := not_isDigit_fractionText n.fraction n.exponent h
  simp only [lexNumber, NumberLiteral.unsigned, List.append_assoc, takeWhile_digits n.whole hdigit,
    dropWhile_digits n.whole hdigit]
  split
  · next hnil => exact absurd hnil n.whole.nonempty
  · next hzero =>
    have hlead := n.leading (by rw [hzero]; rfl)
    rw [hlead] at hzero
    cases hzero
  · exact hm rest h

/-! ## Reading string literals -/

theorem lexText_letter (l : Letter) (read : List Piece) (cs : List Char) :
    lexText read (l.text ++ cs) = lexText (l.piece :: read) cs := by
  cases l with
  | plain c h =>
    obtain ⟨hquote, hslash, hcontrol⟩ := h
    simp [Letter.text, Letter.piece, lexText, hslash, Nat.not_lt.2 hcontrol]
  | escape e c h =>
    simp only [Letter.text, Letter.piece, List.cons_append, List.nil_append]
    unfold escapedChar? at h
    split at h
    case h_9 => cases h
    all_goals
      cases h
      rfl
  | code a b c d n h =>
    simp only [Letter.text, Letter.piece, List.cons_append, List.nil_append]
    rw [lexText, h]

/-- A string literal is read up to its closing quote. -/
theorem lexText_letters (letters : List Letter) (read : List Piece) (rest : List Char) :
    lexText read (letters.flatMap Letter.text ++ '"' :: rest) =
      (read.reverse ++ letters.map Letter.piece, none, rest) := by
  induction letters generalizing read with
  | nil => simp [lexText]
  | cons l letters ih =>
    rw [List.flatMap_cons, List.append_assoc, lexText_letter, ih]
    simp

/-! ## Reading lexemes -/

theorem lexToken_digit {c : Char} (h : c.isDigit = true) (cs : List Char) :
    lexToken c cs = (.number (lexNumber false (c :: cs)).1, (lexNumber false (c :: cs)).2) := by
  unfold lexToken
  split
  case h_12 => rw [if_pos h]
  all_goals cases h

/-- The token a lexeme is read as. -/
def Lexeme.token (l : Lexeme) : Token :=
  match l.text with
  | [] => .stray
  | c :: cs => (lexToken c cs).1

/-- A lexeme is read as the token, up to where it ends. -/
def Reads (l : Lexeme) (token : Token) : Prop :=
  ∃ c cs, l.text = c :: cs ∧ ∀ rest, (l.isBare = true → Stops rest) → lexToken c (cs ++ rest) = (token, rest)

theorem token_of_reads {l : Lexeme} {token : Token} (h : Reads l token) : l.token = token := by
  obtain ⟨c, cs, htext, h⟩ := h
  have hend : lexToken c cs = (token, []) := by simpa using h [] fun _ => stops_nil
  rw [Lexeme.token, htext]
  exact congrArg Prod.fst hend

theorem reads_number (n : NumberLiteral) : ∃ m : Numeral, m.IsWhole ∧ Reads (.number n) (.number m) := by
  obtain ⟨m, hwhole, hm⟩ := lexNumber_text n n.negative
  refine ⟨m, hwhole, ?_⟩
  unfold Reads Lexeme.text NumberLiteral.text
  dsimp only
  cases hneg : n.negative with
  | true =>
    refine ⟨'-', n.unsigned, rfl, fun rest h => ?_⟩
    rw [lexToken, ← hneg, hm rest (h rfl)]
  | false =>
    obtain ⟨c, cs, hc, hd⟩ := n.whole.cases
    have hunsigned : n.unsigned = c :: (cs ++ (fractionText n.fraction ++ exponentText n.exponent)) := by
      rw [NumberLiteral.unsigned, hc, List.cons_append]
    refine ⟨_, _, hunsigned, fun rest h => ?_⟩
    rw [lexToken_digit hd, ← List.cons_append, ← hunsigned, ← hneg, hm rest (h rfl)]

theorem reads_string (letters : List Letter) : Reads (.string letters) (.text (letters.map Letter.piece) none) := by
  refine ⟨_, _, rfl, fun rest _ => ?_⟩
  rw [List.append_assoc, List.singleton_append, lexToken, lexText_letters]
  rfl

/-- Every lexeme is read as one token. -/
theorem reads_token (l : Lexeme) : Reads l l.token := by
  have hreads : ∃ token, Reads l token := by
    cases l with
    | openList => exact ⟨.openList, _, _, rfl, fun _ _ => rfl⟩
    | closeList => exact ⟨.closeList, _, _, rfl, fun _ _ => rfl⟩
    | openObject => exact ⟨.openObject, _, _, rfl, fun _ _ => rfl⟩
    | closeObject => exact ⟨.closeObject, _, _, rfl, fun _ _ => rfl⟩
    | comma => exact ⟨.comma, _, _, rfl, fun _ _ => rfl⟩
    | colon => exact ⟨.colon, _, _, rfl, fun _ _ => rfl⟩
    | null => exact ⟨.null, _, _, rfl, fun _ _ => rfl⟩
    | bool b => cases b <;> exact ⟨.bool _, _, _, rfl, fun _ _ => rfl⟩
    | number n =>
      obtain ⟨m, -, h⟩ := reads_number n
      exact ⟨_, h⟩
    | string letters => exact ⟨_, reads_string letters⟩
  obtain ⟨token, h⟩ := hreads
  rw [token_of_reads h]
  exact h

theorem isGap_cases {c : Char} (h : isGap c = true) : c = ' ' ∨ c = '\n' ∨ c = '\t' ∨ c = '\r' := by
  simpa [isGap, or_assoc] using h

/-- Nothing is read from white space, so no lexeme opens with it. -/
theorem isGap_head {l : Lexeme} {c : Char} {cs : List Char} (h : l.text = c :: cs) : isGap c = false := by
  obtain ⟨c', cs', htext, hread⟩ := reads_token l
  obtain ⟨rfl, rfl⟩ := List.cons.inj (h.symm.trans htext)
  have hlist := hread [']'] fun _ => stops_cons.2 (by decide)
  cases hgap : isGap c with
  | false => rfl
  | true =>
    rcases isGap_cases hgap with rfl | rfl | rfl | rfl <;> cases congrArg Prod.snd hlist

/-! ## The characters of words and numbers -/

/-- A character of a word or a number. -/
def isBareChar (c : Char) : Bool := c.isDigit || "+-.eEnultrfas".toList.contains c

theorem isBareChar_of_isDigit {c : Char} (h : c.isDigit = true) : isBareChar c = true := by
  simp [isBareChar, h]

theorem isBareChar_unsigned (n : NumberLiteral) : ∀ c ∈ n.unsigned, isBareChar c = true := by
  have hdigits (d : Digits) : ∀ c ∈ d.chars, isBareChar c = true := fun c hc => isBareChar_of_isDigit (d.digits c hc)
  have hsign (s : Option Bool) : ∀ c ∈ signText s, isBareChar c = true := by
    rcases s with _ | _ | _ <;> simp [signText] <;> decide
  have hfraction : ∀ c ∈ fractionText n.fraction, isBareChar c = true := by
    cases n.fraction with
    | none => exact nofun
    | some d => exact List.forall_mem_cons.2 ⟨rfl, hdigits d⟩
  have hexponent : ∀ c ∈ exponentText n.exponent, isBareChar c = true := by
    cases n.exponent with
    | none => exact nofun
    | some e =>
      refine List.forall_mem_cons.2 ⟨?_, List.forall_mem_append.2 ⟨hsign e.sign, hdigits e.digits⟩⟩
      obtain h | h := e.isMark <;> rw [h] <;> rfl
  exact List.forall_mem_append.2 ⟨hdigits n.whole, List.forall_mem_append.2 ⟨hfraction, hexponent⟩⟩

theorem isBareChar_text {l : Lexeme} (h : l.isBare = true) : ∀ c ∈ l.text, isBareChar c = true := by
  cases l with
  | null => exact List.all_eq_true.1 (by decide)
  | bool b => cases b <;> exact List.all_eq_true.1 (by decide)
  | number n =>
    simp only [Lexeme.text, NumberLiteral.text]
    split
    · exact List.forall_mem_cons.2 ⟨rfl, isBareChar_unsigned n⟩
    · exact isBareChar_unsigned n
  | _ => cases h

end ImportAtlas.Json
