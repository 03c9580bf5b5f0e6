import ImportAtlas.Proofs.StrictTexts
/-!
# Faults that are taken out with comments and commas

A text may hold faults that are gone when comments and commas are taken out: block comments may
part a word or a number, a comma may stand alone in brackets, a blank that is no white space may
follow the last comma, and the last comment may not be closed (`Defect`). Without them nothing is
taken out but what a relaxed document may have: if a document is left, the text is a relaxed
document of the same lexemes (`relaxed_of_strict`).
-/

namespace ImportAtlas.RelaxedJson

open Json

variable {r t x cs rest text f g : List Char} {c d : Char} {l : Lexeme} {ls ls' ms : List Lexeme} {p : Phrase}

/-! ## Faults -/

/-- Block comments, one right after the other. -/
inductive Blocks : List Char → Prop
  | nil : Blocks []
  | cons {text g : List Char} : ¬ ['*', '/'] <:+: text → Blocks g → Blocks ('/' :: '*' :: (text ++ '*' :: '/' :: g))

/-- What a text may begin with that is lost with its comments and commas. -/
inductive Defect : List Char → Prop
  /-- Block comments inside a word or a number. -/
  | parted {a b : Char} {g rest : List Char} : isBareChar a = true → isBareChar b = true → Blocks g → g ≠ [] →
      Defect (a :: (g ++ b :: rest))
  /-- A comma alone in brackets. -/
  | alone {o c : Char} {f f' rest : List Char} : o = '[' ∨ o = '\x7b' → Loose f → Loose f' → IsClosing c →
      Defect (o :: (f ++ ',' :: (f' ++ c :: rest)))
  /-- A last comma, and a blank after it that is no white space. -/
  | blank {f rest : List Char} {c : Char} : Loose f → ¬ Filler f → IsClosing c → Defect (',' :: (f ++ c :: rest))
  /-- A block comment that is not closed. -/
  | unclosed {text : List Char} : ¬ ['*', '/'] <:+: text → Defect ('/' :: '*' :: text)

/-- Where a text ends that begins at a place. -/
def Place.after (p : Place) (cs : List Char) : Place := cs.foldl Place.next p

/-- There is such a fault somewhere outside quotes and comments. -/
def Faulty (r : List Char) : Prop :=
  ∃ before rest, r = before ++ rest ∧ Place.plain.after before = .plain ∧ Defect rest

theorem faulty_of_defect (h : Defect r) : Faulty r := ⟨[], r, rfl, rfl, h⟩

theorem after_append (p : Place) (a b : List Char) : p.after (a ++ b) = (p.after a).after b := List.foldl_append

theorem Faulty.append (hx : Place.plain.after x = .plain) (h : Faulty r) : Faulty (x ++ r) := by
  obtain ⟨before, rest, rfl, hplain, hdefect⟩ := h
  exact ⟨x ++ before, rest, (List.append_assoc _ _ _).symm, by rw [after_append, hx, hplain], hdefect⟩

/-- After a text that ends outside quotes and comments there is no fault either. -/
theorem sound_rest (h : ¬ Faulty (x ++ r)) (hx : Place.plain.after x = .plain) : ¬ Faulty r := fun hr => h (hr.append hx)

/-! ## Places -/

theorem blind_after : Blind Place.after where
  line hc cs := by simp [Place.after, Place.next, hc]
  block star c cs := rfl

theorem after_loose (h : Loose f) : Place.plain.after f = .plain := by
  induction h with
  | nil => rfl
  | @blank c f hc _ ih =>
    change (Place.plain.next c).after f = .plain
    rw [next_blank hc, ih]
  | @line text f htext _ ih =>
    change Place.lineComment.after (text ++ '\n' :: f) = .plain
    rw [blind_after.line_append htext]
    exact ih
  | @block text f htext _ ih =>
    change (Place.blockComment false).after (text ++ '*' :: '/' :: f) = .plain
    rw [blind_after.block_append false htext nofun, ih]

theorem after_ordinary (h : ∀ c ∈ x, c ≠ '"' ∧ c ≠ '/') : Place.plain.after x = .plain := by
  induction x with
  | nil => rfl
  | cons c x ih =>
    obtain ⟨⟨hquote, hslash⟩, hx⟩ := List.forall_mem_cons.1 h
    change (Place.plain.next c).after x = .plain
    simp only [Place.next, hquote, hslash, if_false, ih hx]

/-- What may stand between the quotes of a string literal. -/
inductive Quotable : List Char → Prop
  | nil : Quotable []
  | plain {c : Char} {t : List Char} : c ≠ '"' → c ≠ '\\' → Quotable t → Quotable (c :: t)
  | escape (e : Char) {t : List Char} : Quotable t → Quotable ('\\' :: e :: t)

theorem quotable_letters (letters : List Letter) : Quotable (letters.flatMap Letter.text) := by
  induction letters with
  | nil => exact .nil
  | cons l letters ih =>
    rw [List.flatMap_cons]
    cases l with
    | plain c h => exact .plain h.1 h.2.1 ih
    | escape e c h => exact .escape e ih
    | code a b c d n h =>
      simp only [fourHex?, Option.bind_eq_bind, Option.bind_eq_some_iff] at h
      obtain ⟨_, ha, _, hb, _, hc, _, hd, -⟩ := h
      have hplain : ∀ {c : Char} {n : Nat} {t : List Char}, hexValue? c = some n → Quotable t → Quotable (c :: t) :=
        fun hn ht => .plain (ne_of_hexValue hn).1 (ne_of_hexValue hn).2 ht
      exact .escape 'u' (hplain ha (hplain hb (hplain hc (hplain hd ih))))

theorem after_quotable (h : Quotable t) : Place.quoted.after t = .quoted := by
  induction h with
  | nil => rfl
  | @plain c t hquote hslash _ ih =>
    change (Place.quoted.next c).after t = .quoted
    simp only [Place.next, hquote, hslash, if_false, ih]
  | escape e _ ih => exact ih

theorem after_lexeme (l : Lexeme) : Place.plain.after l.text = .plain := by
  cases hbare : l.isBare with
  | true =>
    refine after_ordinary fun c hc => ?_
    obtain ⟨hquote, hslash, -⟩ := ordinary_of_isBareChar (isBareChar_text hbare c hc)
    exact ⟨hquote, hslash⟩
  | false =>
    cases l with
    | null | bool | number => cases hbare
    | string letters =>
      change Place.quoted.after (letters.flatMap Letter.text ++ ['"']) = .plain
      rw [after_append, after_quotable (quotable_letters letters)]
      rfl
    | _ => rfl

/-! ## What a lexeme begins with -/

theorem text_ne_nil (l : Lexeme) : l.text ≠ [] := by
  obtain ⟨c, cs, h, -⟩ := reads_token l
  simp [h]

/-- The lexemes of one character that are no numbers. -/
inductive Mark : Lexeme → Char → Prop
  | openList : Mark .openList '['
  | closeList : Mark .closeList ']'
  | openObject : Mark .openObject '\x7b'
  | closeObject : Mark .closeObject '\x7d'
  | comma : Mark .comma ','
  | colon : Mark .colon ':'

theorem isBareChar_of_front (hl : l.isBare = true) (h : l.text ++ g = c :: t) : isBareChar c = true := by
  obtain ⟨d, cs, hd, -⟩ := reads_token l
  have hchars := isBareChar_text hl
  rw [hd] at h hchars
  obtain ⟨rfl, -⟩ := List.cons.inj h
  exact hchars d List.mem_cons_self

theorem mark_of_front (hc : isBareChar c = false) (hquote : c ≠ '"') (h : l.text ++ g = c :: t) : Mark l c ∧ g = t := by
  cases hbare : l.isBare with
  | true =>
    rw [isBareChar_of_front hbare h] at hc
    cases hc
  | false =>
    cases l with
    | null | bool | number => cases hbare
    | string letters =>
      obtain ⟨rfl, -⟩ := List.cons.inj h
      exact absurd rfl hquote
    | openList =>
      obtain ⟨rfl, rfl⟩ := List.cons.inj h
      exact ⟨.openList, rfl⟩
    | closeList =>
      obtain ⟨rfl, rfl⟩ := List.cons.inj h
      exact ⟨.closeList, rfl⟩
    | openObject =>
      obtain ⟨rfl, rfl⟩ := List.cons.inj h
      exact ⟨.openObject, rfl⟩
    | closeObject =>
      obtain ⟨rfl, rfl⟩ := List.cons.inj h
      exact ⟨.closeObject, rfl⟩
    | comma =>
      obtain ⟨rfl, rfl⟩ := List.cons.inj h
      exact ⟨.comma, rfl⟩
    | colon =>
      obtain ⟨rfl, rfl⟩ := List.cons.inj h
      exact ⟨.colon, rfl⟩

theorem string_of_front (h : l.text ++ g = '"' :: t) : ∃ letters, l = .string letters := by
  cases hbare : l.isBare with
  | true => cases isBareChar_of_front hbare h
  | false =>
    cases l with
    | string letters => exact ⟨letters, rfl⟩
    | null | bool | number => cases hbare
    | _ => cases h

theorem isBare_of_front (hc : isBareChar c = true) (h : l.text ++ g = c :: t) : l.isBare = true := by
  cases l with
  | null | bool | number => rfl
  | _ =>
    obtain ⟨rfl, -⟩ := List.cons.inj h
    cases hc

theorem not_isBareChar_of_isClosing (hc : IsClosing c) : isBareChar c = false := by
  rcases hc with rfl | rfl <;> rfl

theorem isClosing_of_front (hc : IsClosing c) (h : l.text ++ g = c :: t) : l.isClosing = true := by
  have hquote : c ≠ '"' := by
    rintro rfl
    rcases hc with h | h <;> cases h
  obtain ⟨hmark, -⟩ := mark_of_front (not_isBareChar_of_isClosing hc) hquote h
  cases hmark with
  | closeList | closeObject => rfl
  | _ => rcases hc with h | h <;> cases h

theorem not_front_slash (h : l.text ++ g = '/' :: t) : False := by
  obtain ⟨hmark, -⟩ := mark_of_front (by decide) (by decide) h
  cases hmark

/-! ## Documents that are left -/

theorem eq_nil_of_written (h : Written Blank Blank ls []) : ls = [] := by
  generalize ht : ([] : List Char) = t at h
  cases h with
  | nil => rfl
  | @cons g text l ls hg htext => simp [text_ne_nil] at ht

/-- White space at the start is no part of a lexeme. -/
theorem written_of_gap (hc : isGap c = true) (h : Written Blank Blank ls (c :: t)) : Written Blank Blank ls t := by
  generalize ht : c :: t = r at h
  cases h with
  | nil hg => exact .nil (List.forall_mem_cons.1 (ht ▸ hg)).2
  | @cons g text l ls hg htext =>
    cases g with
    | nil =>
      obtain ⟨first, more, hfirst, -⟩ := reads_token l
      have hgap := isGap_head hfirst
      rw [hfirst] at ht
      obtain ⟨rfl, -⟩ := List.cons.inj ht
      rw [hc] at hgap
      cases hgap
    | cons b g =>
      obtain ⟨rfl, rfl⟩ := List.cons.inj ht
      exact .cons (List.forall_mem_cons.1 hg).2 htext

/-- What is no white space begins a lexeme. -/
theorem written_of_head (hc : isGap c = false) (h : Written Blank Blank ls (c :: t)) :
    ∃ l ls₀ t₀, ls = l :: ls₀ ∧ l.text ++ t₀ = c :: t ∧ Written Blank Blank ls₀ t₀ := by
  generalize ht : c :: t = r at h
  have hgap : ∀ {g u : List Char}, Blank g → c :: t = g ++ u → g = [] := by
    intro g u hg heq
    cases g with
    | nil => rfl
    | cons b g =>
      obtain ⟨rfl, -⟩ := List.cons.inj heq
      have hb := hg c List.mem_cons_self
      rw [hc] at hb
      cases hb
  cases h with
  | nil hg =>
    have hnil := hgap hg (ht.trans (List.append_nil r).symm)
    rw [hnil] at ht
    cases ht
  | @cons g text l ls hg htext =>
    obtain rfl := hgap hg ht
    exact ⟨l, ls, text, rfl, rfl, htext⟩

theorem strict_bare (h : isBareChar c = true) (cs : List Char) : strict (c :: cs) = c :: strict cs := by
  obtain ⟨hquote, hslash, -⟩ := ordinary_of_isBareChar h
  refine strict_cons hquote hslash ?_
  rintro rfl
  cases h

/-- Only block comments come before a character that comes first of what is left. -/
theorem blocks_of_strict (hd : isBareChar d = true) (h : strict r = d :: t) : ∃ g rest, Blocks g ∧ r = g ++ d :: rest := by
  -- What begins the text is left first of it, unless it is a block comment, and then the rest is shorter.
  induction hn : r.length using Nat.strongRecOn generalizing r with
  | ind n ih =>
    subst hn
    cases start r with
    | nil => cases h
    | slash hs =>
      cases hs with
      | line htext =>
        rw [strict_line htext] at h
        obtain ⟨rfl, -⟩ := List.cons.inj h
        cases hd
      | lineEnd htext =>
        rw [strict_lineEnd htext] at h
        cases h
      | @block text rest htext =>
        rw [strict_block htext] at h
        obtain ⟨g, after, hg, rfl⟩ := ih rest.length (by simp; omega) h rfl
        exact ⟨'/' :: '*' :: (text ++ '*' :: '/' :: g), after, .cons htext hg, by simp⟩
      | unclosed htext =>
        rw [strict_unclosed htext] at h
        cases h
      | other hslash hstar =>
        obtain ⟨u, hu⟩ := strict_slash hslash hstar
        rw [hu] at h
        obtain ⟨rfl, -⟩ := List.cons.inj h
        cases hd
    | quote cs =>
      rw [strict_quote] at h
      obtain ⟨rfl, -⟩ := List.cons.inj h
      cases hd
    | comma hf hc =>
      rw [strict_comma hf hc, strict_bracket hc] at h
      obtain ⟨rfl, -⟩ := List.cons.inj h
      rcases hc with rfl | rfl <;> cases hd
    | other hquote hslash hcomma =>
      rw [strict_cons hquote hslash hcomma] at h
      obtain ⟨rfl, -⟩ := List.cons.inj h
      exact ⟨[], _, .nil, rfl⟩

/-- A word or a number is left as it was written, if it was not parted. -/
theorem bare_of_strict (hc : isBareChar c = true) (hx : ∀ d ∈ x, isBareChar d = true) (hsound : ¬ Faulty (c :: cs))
    (h : strict cs = x ++ t) : ∃ rest, cs = x ++ rest ∧ strict rest = t := by
  induction x generalizing c cs with
  | nil => exact ⟨cs, rfl, h⟩
  | cons d x ih =>
    obtain ⟨hd, hx⟩ := List.forall_mem_cons.1 hx
    obtain ⟨g, rest, hg, rfl⟩ := blocks_of_strict hd h
    have hnone : g = [] := by
      by_contra hne
      exact hsound (faulty_of_defect (.parted hc hd hg hne))
    subst hnone
    rw [List.nil_append, strict_bare hd] at h
    obtain ⟨-, h⟩ := List.cons.inj h
    have hplain : Place.plain.after [c] = .plain := by
      obtain ⟨hquote, hslash, -⟩ := ordinary_of_isBareChar hc
      exact after_ordinary (by simpa using ⟨hquote, hslash⟩)
    obtain ⟨rest', rfl, hrest⟩ := ih hd hx (sound_rest hsound hplain) h
    exact ⟨rest', rfl, hrest⟩

/-- What is between quotes is left, with the character it begins with. -/
theorem head_of_quoted (h : strictFrom [] .quoted r = c :: t) : ∃ cs, r = c :: cs := by
  cases r with
  | nil => cases h
  | cons d cs =>
    by_cases hquote : d = '"'
    · rw [hquote, quoted_end] at h
      obtain ⟨rfl, -⟩ := List.cons.inj h
      exact ⟨cs, by rw [hquote]⟩
    · by_cases hslash : d = '\\'
      · subst hslash
        cases cs with
        | nil =>
          obtain ⟨rfl, -⟩ := List.cons.inj h
          exact ⟨[], rfl⟩
        | cons e cs =>
          rw [quoted_escape] at h
          obtain ⟨rfl, -⟩ := List.cons.inj h
          exact ⟨e :: cs, rfl⟩
      · rw [quoted_plain hslash hquote] at h
        obtain ⟨rfl, -⟩ := List.cons.inj h
        exact ⟨cs, rfl⟩

/-- A string literal is left as it was written. -/
theorem quotable_of_strict (hx : Quotable x) (h : strictFrom [] .quoted r = x ++ '"' :: t) :
    ∃ rest, r = x ++ '"' :: rest ∧ strict rest = t := by
  induction hx generalizing r with
  | nil =>
    obtain ⟨cs, rfl⟩ := head_of_quoted h
    rw [quoted_end] at h
    exact ⟨cs, rfl, (List.cons.inj h).2⟩
  | plain hquote hslash _ ih =>
    obtain ⟨cs, rfl⟩ := head_of_quoted h
    rw [quoted_plain hslash hquote] at h
    obtain ⟨rest, rfl, hrest⟩ := ih (List.cons.inj h).2
    exact ⟨rest, rfl, hrest⟩
  | @escape e x _ ih =>
    obtain ⟨cs, rfl⟩ := head_of_quoted h
    obtain ⟨cs, rfl⟩ : ∃ ds, cs = e :: ds := by
      cases cs with
      | nil => cases h
      | cons d ds =>
        rw [quoted_escape] at h
        obtain ⟨rfl, -⟩ := List.cons.inj (List.cons.inj h).2
        exact ⟨ds, rfl⟩
    rw [quoted_escape] at h
    obtain ⟨rest, rfl, hrest⟩ := ih (List.cons.inj (List.cons.inj h).2).2
    exact ⟨rest, rfl, hrest⟩

/-! ## The document with its comments and commas -/

theorem Filler.append (hf : Filler f) (hg : Filler g) : Filler (f ++ g) := by
  induction hf with
  | nil => exact hg
  | blank hc _ ih => exact .blank hc ih
  | line htext _ ih => simpa using Filler.line htext ih
  | block htext _ ih => simpa using Filler.block htext ih

theorem LastFiller.append (hf : Filler f) (hg : LastFiller g) : LastFiller (f ++ g) := by
  cases hg with
  | closed hg => exact .closed (hf.append hg)
  | unclosed hg htext =>
    rw [← List.append_assoc]
    exact .unclosed (hf.append hg) htext

/-- White space and comments in front of a row. -/
theorem written_filler (hf : Filler f) (h : Written Filler LastFiller ls t) : Written Filler LastFiller ls (f ++ t) := by
  cases h with
  | nil hg => exact .nil (LastFiller.append hf hg)
  | cons hg htext =>
    rw [← List.append_assoc]
    exact .cons (hf.append hg) htext

theorem ahead_lexeme (l : Lexeme) (t : List Char) : ahead .plain (l.text ++ t) = l.text ++ t := by
  obtain ⟨c, cs, htext, -⟩ := reads_token l
  have hfront : l.text ++ t = c :: (cs ++ t) := by rw [htext, List.cons_append]
  have hblank : Text.isBlank c = false := by
    cases hbare : isBareChar c with
    | true => exact not_isBlank_of_isBareChar hbare
    | false =>
      by_cases hquote : c = '"'
      · rw [hquote]
        decide
      · obtain ⟨hmark, -⟩ := mark_of_front hbare hquote hfront
        cases hmark <;> decide
  have hslash : c ≠ '/' := by
    rintro rfl
    exact not_front_slash hfront
  rw [hfront, ahead_cons hblank hslash]

theorem ahead_lastFiller (h : LastFiller f) : ahead .plain f = [] := by
  cases h with
  | closed hf =>
    have hahead := ahead_loose (loose_of_filler hf) []
    rwa [List.append_nil] at hahead
  | unclosed hf htext => rw [ahead_loose (loose_of_filler hf), ahead_lineEnd htext]

/-- What comes ahead in a row is its first lexeme, after white space and comments. -/
theorem written_ahead (hf : Loose f) (hblank : Text.isBlank c = false) (hslash : c ≠ '/')
    (h : Written Filler LastFiller ls (f ++ c :: t)) :
    Filler f ∧ ∃ l ls₀ t₀, ls = l :: ls₀ ∧ l.text ++ t₀ = c :: t ∧ Written Filler LastFiller ls₀ t₀ := by
  have hahead := ahead_loose hf (c :: t)
  rw [ahead_cons hblank hslash] at hahead
  generalize hr : f ++ c :: t = r at h hahead
  cases h with
  | nil hg =>
    rw [ahead_lastFiller hg] at hahead
    cases hahead
  | @cons g text l ls hg htext =>
    rw [ahead_loose (loose_of_filler hg), ahead_lexeme] at hahead
    rw [hahead] at hr
    obtain rfl := List.append_cancel_right hr
    exact ⟨hg, l, ls, text, rfl, hahead, htext⟩

/-- A row of some lexemes, with commas before some of the closing brackets. -/
def IsWidened (ls : List Lexeme) (r : List Char) : Prop := ∃ ls', Widens ls ls' ∧ Written Filler LastFiller ls' r

theorem IsWidened.empty (hg : LastFiller f) : IsWidened [] f := ⟨[], .nil, .nil hg⟩

theorem IsWidened.filler (hf : Filler f) (h : IsWidened ls r) : IsWidened ls (f ++ r) := by
  obtain ⟨ls', hw, hr⟩ := h
  exact ⟨ls', hw, written_filler hf hr⟩

theorem IsWidened.lexeme (l : Lexeme) (h : IsWidened ls r) : IsWidened (l :: ls) (l.text ++ r) := by
  obtain ⟨ls', hw, hr⟩ := h
  exact ⟨l :: ls', .keep l hw, .cons (g := []) .nil hr⟩

theorem IsWidened.comma (hf : Filler f) (hc : IsClosing c) (h : IsWidened ls (c :: r)) :
    IsWidened ls (',' :: (f ++ c :: r)) := by
  obtain ⟨ls', hw, hr⟩ := h
  have hslash : c ≠ '/' := by rcases hc with rfl | rfl <;> decide
  obtain ⟨-, l, ls₁, t₀, rfl, htext, -⟩ := written_ahead .nil (not_isBlank_of_isClosing hc) hslash hr
  refine ⟨.comma :: l :: ls₁, ?_, .cons (g := []) .nil (written_filler hf hr)⟩
  cases hw with
  | keep _ hw => exact .comma (isClosing_of_front hc htext) hw
  | comma =>
    obtain ⟨rfl, -⟩ := List.cons.inj htext
    rcases hc with h | h <;> cases h

/-- A string literal that is left stands in the text. -/
theorem string_of_strict (h : Written Blank Blank ls (strict ('"' :: cs))) :
    ∃ l ls₀ rest, ls = l :: ls₀ ∧ '"' :: cs = l.text ++ rest ∧ Written Blank Blank ls₀ (strict rest) := by
  rw [strict_quote] at h
  obtain ⟨l, ls₀, t₀, rfl, htext, hwritten⟩ := written_of_head rfl h
  obtain ⟨letters, rfl⟩ := string_of_front htext
  have hletters : strictFrom [] .quoted cs = letters.flatMap Letter.text ++ '"' :: t₀ := by
    simpa [Lexeme.text] using htext.symm
  obtain ⟨rest, rfl, rfl⟩ := quotable_of_strict (quotable_letters letters) hletters
  exact ⟨.string letters, ls₀, rest, rfl, by simp [Lexeme.text], hwritten⟩

/-- Any other lexeme that is left stands in the text too, where no word or number is parted. -/
theorem lexeme_of_strict (hsound : ¬ Faulty (c :: cs)) (hquote : c ≠ '"') (hgap : isGap c = false)
    (h : Written Blank Blank ls (c :: strict cs)) :
    ∃ l ls₀ rest, ls = l :: ls₀ ∧ c :: cs = l.text ++ rest ∧ Written Blank Blank ls₀ (strict rest) := by
  obtain ⟨l, ls₀, t₀, rfl, htext, hwritten⟩ := written_of_head hgap h
  cases hbare : isBareChar c with
  | true =>
    have hchars := isBareChar_text (isBare_of_front hbare htext)
    obtain ⟨d, x, hx, -⟩ := reads_token l
    rw [hx] at htext hchars
    obtain ⟨rfl, htail⟩ := List.cons.inj htext
    obtain ⟨rest, rfl, rfl⟩ := bare_of_strict hbare (List.forall_mem_cons.1 hchars).2 hsound htail.symm
    exact ⟨l, ls₀, rest, rfl, by rw [hx, List.cons_append], hwritten⟩
  | false =>
    obtain ⟨hmark, rfl⟩ := mark_of_front hbare hquote htext
    exact ⟨l, ls₀, cs, rfl, by cases hmark <;> rfl, hwritten⟩

/-- If a document is left of a text without faults, the text is its row, with more commas. -/
theorem widened_of_strict (hsound : ¬ Faulty r) (h : Written Blank Blank ls (strict r)) : IsWidened ls r := by
  -- By the length of the text: a filler, a lexeme or a comma comes first, and what is after it is sound too.
  induction hn : r.length using Nat.strongRecOn generalizing r ls with
  | ind n ih =>
    subst hn
    have hfiller : ∀ {f rest ls₀}, Filler f → f ≠ [] → r = f ++ rest → Written Blank Blank ls₀ (strict rest) →
        IsWidened ls₀ r := by
      rintro f rest ls₀ hf hne rfl hrest
      have hlength := List.length_pos_iff.2 hne
      exact (ih rest.length (by simp; omega) (sound_rest hsound (after_loose (loose_of_filler hf))) hrest rfl).filler hf
    have hlexeme : ∀ {l rest ls₀}, r = l.text ++ rest → Written Blank Blank ls₀ (strict rest) →
        IsWidened (l :: ls₀) r := by
      rintro l rest ls₀ rfl hrest
      have hlength := List.length_pos_iff.2 (text_ne_nil l)
      exact (ih rest.length (by simp; omega) (sound_rest hsound (after_lexeme l)) hrest rfl).lexeme l
    cases start r with
    | nil =>
      obtain rfl := eq_nil_of_written h
      exact .empty (.closed .nil)
    | slash hs =>
      cases hs with
      | @line text rest htext =>
        rw [strict_line htext] at h
        exact hfiller (.line htext .nil) (by simp) (by simp) (written_of_gap rfl h)
      | lineEnd htext =>
        rw [strict_lineEnd htext] at h
        obtain rfl := eq_nil_of_written h
        exact .empty (.unclosed .nil htext)
      | @block text rest htext =>
        rw [strict_block htext] at h
        exact hfiller (.block htext .nil) (by simp) (by simp) h
      | unclosed htext => exact absurd (faulty_of_defect (.unclosed htext)) hsound
      | other hslash hstar =>
        obtain ⟨t, ht⟩ := strict_slash hslash hstar
        rw [ht] at h
        obtain ⟨l, ls, t₀, rfl, htext, -⟩ := written_of_head rfl h
        exact (not_front_slash htext).elim
    | quote cs =>
      obtain ⟨l, ls₀, rest, rfl, hr, hrest⟩ := string_of_strict h
      exact hlexeme hr hrest
    | @comma f rest c hf hc =>
      rw [strict_comma hf hc] at h
      have hclosed : Filler f := by
        by_contra hnone
        exact hsound (faulty_of_defect (.blank hf hnone hc))
      have hplain : Place.plain.after (',' :: f) = .plain := by
        change Place.plain.after f = .plain
        exact after_loose hf
      have hlength : (c :: rest).length < (',' :: (f ++ c :: rest)).length := by
        simp only [List.length_append, List.length_cons]
        omega
      exact (ih _ hlength (sound_rest hsound hplain) h rfl).comma hclosed hc
    | @other c cs hquote hslash hcomma =>
      rw [strict_cons hquote hslash hcomma] at h
      cases hgap : isGap c with
      | true => exact hfiller (f := [c]) (.blank hgap .nil) (by simp) rfl (written_of_gap hgap h)
      | false =>
        obtain ⟨l, ls₀, rest, rfl, hr, hrest⟩ := lexeme_of_strict hsound hquote hgap h
        exact hlexeme hr hrest

/-! ## Where a comma may stand -/

/-- No comma stands alone in brackets. -/
def Filled (ls : List Lexeme) : Prop :=
  ∀ o c : Lexeme, o.isOpening = true → c.isClosing = true → ¬ [o, .comma, c] <:+: ls

theorem Filled.of_infix (h : Filled ls) (hin : ls' <:+: ls) : Filled ls' := fun o c ho hc hrow => h o c ho hc (hrow.trans hin)

theorem widens_append {r : List Lexeme} (h : Widens (ls ++ ms) r) :
    ∃ ls' ms', r = ls' ++ ms' ∧ Widens ls ls' ∧ Widens ms ms' := by
  induction ls generalizing r with
  | nil => exact ⟨[], r, rfl, .nil, h⟩
  | cons l ls ih =>
    cases h with
    | keep _ h =>
      obtain ⟨ls', ms', rfl, hls, hms⟩ := ih h
      exact ⟨l :: ls', ms', rfl, .keep l hls, hms⟩
    | comma hl h =>
      obtain ⟨ls', ms', rfl, hls, hms⟩ := ih h
      exact ⟨.comma :: l :: ls', ms', rfl, .comma hl hls, hms⟩

theorem widens_cons {r : List Lexeme} (hl : l.isClosing = false) (h : Widens (l :: ls) r) :
    ∃ ls', r = l :: ls' ∧ Widens ls ls' := by
  cases h with
  | keep _ h => exact ⟨_, rfl, h⟩
  | comma hclosing _ =>
    rw [hl] at hclosing
    cases hclosing

theorem widens_closing {r : List Lexeme} (h : Widens [l] r) : ∃ extra, r = lastComma extra ++ [l] := by
  cases h with
  | keep _ h =>
    cases h
    exact ⟨false, rfl⟩
  | comma _ h =>
    cases h
    exact ⟨true, rfl⟩

theorem not_isClosing_of_isScalar (h : l.isScalar = true) : l.isClosing = false := by
  cases l <;> first | rfl | cases h

/-- A phrase with more commas is one with a comma after the last item of some of its lists and
objects, if no comma stands alone. -/
theorem forms_of_widens (h : Forms p ls ms) (hw : Widens ls ls') (hfilled : Filled ls') : Forms p ls ls' := by
  -- A comma more stands before a closing bracket only, so every other lexeme of the phrase is found again.
  induction h generalizing ls' with
  | scalar hl =>
    obtain ⟨ls', rfl, hrest⟩ := widens_cons (not_isClosing_of_isScalar hl) hw
    cases hrest
    exact .scalar hl
  | emptyList =>
    obtain ⟨ls', rfl, hrest⟩ := widens_cons rfl hw
    obtain ⟨extra, rfl⟩ := widens_closing hrest
    cases extra with
    | false => exact .emptyList
    | true => exact absurd (List.infix_refl _) (hfilled .openList .closeList rfl rfl)
  | list _ _ ih =>
    obtain ⟨ls', rfl, hrest⟩ := widens_cons rfl hw
    obtain ⟨items, last, rfl, hitems, hlast⟩ := widens_append hrest
    obtain ⟨extra, rfl⟩ := widens_closing hlast
    exact .list extra (ih hitems (hfilled.of_infix ⟨[.openList], lastComma extra ++ [.closeList], by simp⟩))
  | emptyObject =>
    obtain ⟨ls', rfl, hrest⟩ := widens_cons rfl hw
    obtain ⟨extra, rfl⟩ := widens_closing hrest
    cases extra with
    | false => exact .emptyObject
    | true => exact absurd (List.infix_refl _) (hfilled .openObject .closeObject rfl rfl)
  | object _ _ ih =>
    obtain ⟨ls', rfl, hrest⟩ := widens_cons rfl hw
    obtain ⟨members, last, rfl, hmembers, hlast⟩ := widens_append hrest
    obtain ⟨extra, rfl⟩ := widens_closing hlast
    exact .object extra (ih hmembers (hfilled.of_infix ⟨[.openObject], lastComma extra ++ [.closeObject], by simp⟩))
  | item _ ih => exact .item (ih hw hfilled)
  | items _ _ ihv ihls =>
    obtain ⟨v, more, rfl, hv, hmore⟩ := widens_append hw
    obtain ⟨items, rfl, hitems⟩ := widens_cons rfl hmore
    exact .items (ihv hv (hfilled.of_infix ⟨[], .comma :: items, rfl⟩))
      (ihls hitems (hfilled.of_infix ⟨v ++ [.comma], [], by simp⟩))
  | member key _ ih =>
    obtain ⟨keyed, rfl, hkeyed⟩ := widens_cons rfl hw
    obtain ⟨v, rfl, hv⟩ := widens_cons rfl hkeyed
    exact .member key (ih hv (hfilled.of_infix ⟨[.string key, .colon], [], by simp⟩))
  | members key _ _ ihv ihls =>
    obtain ⟨keyed, rfl, hkeyed⟩ := widens_cons rfl hw
    obtain ⟨row, rfl, hrow⟩ := widens_cons rfl hkeyed
    obtain ⟨v, more, rfl, hv, hmore⟩ := widens_append hrow
    obtain ⟨members, rfl, hmembers⟩ := widens_cons rfl hmore
    exact .members key (ihv hv (hfilled.of_infix ⟨[.string key, .colon], .comma :: members, by simp⟩))
      (ihls hmembers (hfilled.of_infix ⟨.string key :: .colon :: (v ++ [.comma]), [], by simp⟩))

theorem after_filler (hf : Filler f) : Place.plain.after f = .plain := after_loose (loose_of_filler hf)

/-- A row that is written without faults has no comma alone in brackets. -/
theorem filled_of_written (hsound : ¬ Faulty r) (h : Written Filler LastFiller ls r) : Filled ls := by
  induction h with
  | nil => exact fun o c _ _ => by simp
  | @cons g text l ls hg htext ih =>
    have hlexeme := sound_rest hsound (after_filler hg)
    intro o c ho hc hin
    rcases List.infix_cons_iff.1 hin with ⟨more, hmore⟩ | hin
    · -- The bracket and the comma are this lexeme and the next.
      obtain ⟨rfl, rfl⟩ := List.cons.inj hmore
      cases htext with
      | @cons g₁ text₁ _ _ hg₁ htext₁ =>
        cases htext₁ with
        | @cons g₂ text₂ _ _ hg₂ _ =>
          have halone : ∀ {a b : Char}, a = '[' ∨ a = '\x7b' → IsClosing b → o.text = [a] → c.text = [b] → False := by
            intro a b ha hb hoText hcText
            refine hlexeme (faulty_of_defect ?_)
            rw [hoText, hcText]
            exact .alone ha (loose_of_filler hg₁) (loose_of_filler hg₂) hb
          cases o <;> cases ho <;> cases c <;> cases hc
          · exact halone (.inl rfl) (.inr rfl) rfl rfl
          · exact halone (.inl rfl) (.inl rfl) rfl rfl
          · exact halone (.inr rfl) (.inr rfl) rfl rfl
          · exact halone (.inr rfl) (.inl rfl) rfl rfl
    · exact ih (sound_rest hlexeme (after_lexeme l)) o c ho hc hin

/-- A text without faults is a relaxed document, if what is left of it is a document. -/
theorem relaxed_of_strict (hsound : ¬ Faulty r) (h : IsDocument ls (strict r)) : IsRelaxed ls r := by
  obtain ⟨ls', hw, hr⟩ := widened_of_strict hsound h.written
  exact ⟨ls', forms_of_widens h.value hw (filled_of_written hsound hr), hr⟩

end ImportAtlas.RelaxedJson
