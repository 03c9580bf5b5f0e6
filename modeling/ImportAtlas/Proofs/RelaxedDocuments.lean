import ImportAtlas.Manifest
import ImportAtlas.Proofs.Documents
/-!
# Relaxed documents

Comments, white space and a comma after the last item change nothing: what is left of a
document that was written with them is a document with the same lexemes
(`strict_document`), and what is written without them is left as it is.

The text is read once, and a comma is taken back when a closing bracket comes. `Settled` says
that there is none to take back, which holds after every lexeme but a comma.
-/

namespace ImportAtlas

namespace RelaxedJson

open Json

/-! ## Gaps -/

/-- White space and comments. -/
inductive Filler : List Char → Prop
  | nil : Filler []
  | blank {c : Char} {g : List Char} : isGap c = true → Filler g → Filler (c :: g)
  | line {text g : List Char} : '\n' ∉ text → Filler g → Filler ('/' :: '/' :: (text ++ '\n' :: g))
  | block {text g : List Char} : ¬ ['*', '/'] <:+: text → Filler g → Filler ('/' :: '*' :: (text ++ '*' :: '/' :: g))

/-- White space and comments at the end of a text, which ends a comment too. -/
inductive LastFiller : List Char → Prop
  | closed {g : List Char} : Filler g → LastFiller g
  | unclosed {g text : List Char} : Filler g → '\n' ∉ text → LastFiller (g ++ '/' :: '/' :: text)

/-- The text is a document of the given lexemes, but with comments, and with a comma after
the last item of some of its lists and objects. -/
def IsRelaxed (ls : List Lexeme) (r : List Char) : Prop := ∃ ls', Forms .value ls ls' ∧ Written Filler LastFiller ls' r

variable {w b rest text g t r : List Char} {l : Lexeme} {ls ls' : List Lexeme} {c : Char}

/-! ## Outside quotes and comments -/

/-- Characters that are left as they are. -/
def IsOrdinary (c : Char) : Prop := c ≠ '"' ∧ c ≠ '/' ∧ c ≠ '\x7d' ∧ c ≠ ']'

theorem strictFrom_cons (h : IsOrdinary c) (w cs : List Char) :
    strictFrom w .plain (c :: cs) = strictFrom (c :: w) .plain cs := by
  obtain ⟨hquote, hslash, hbrace, hbracket⟩ := h
  simp [strictFrom, put, hquote, hslash, hbrace, hbracket]

theorem strictFrom_ordinary (h : ∀ c ∈ text, IsOrdinary c) (w rest : List Char) :
    strictFrom w .plain (text ++ rest) = strictFrom (text.reverse ++ w) .plain rest := by
  induction text generalizing w with
  | nil => rfl
  | cons c text ih =>
    rw [List.cons_append, strictFrom_cons (h c List.mem_cons_self), ih fun d hd => h d (List.mem_cons_of_mem _ hd)]
    simp

theorem ordinary_of_isGap (h : isGap c = true) : IsOrdinary c := by
  rcases isGap_cases h with rfl | rfl | rfl | rfl <;> exact ⟨by decide, by decide, by decide, by decide⟩

theorem ordinary_of_isBareChar (h : isBareChar c = true) : IsOrdinary c := by
  refine ⟨?_, ?_, ?_, ?_⟩ <;> rintro rfl <;> cases h

/-! ## Comments -/

theorem strictFrom_line (h : '\n' ∉ text) (w rest : List Char) :
    strictFrom w .lineComment (text ++ rest) = strictFrom w .lineComment rest := by
  induction text with
  | nil => rfl
  | cons c text ih =>
    simp only [List.mem_cons, not_or] at h
    rw [List.cons_append, strictFrom]
    simp only [Ne.symm h.1, if_false]
    exact ih h.2

theorem strictFrom_block (star : Bool) (h : ¬ ['*', '/'] <:+: text) (hstar : star = true → text.head? ≠ some '/')
    (w rest : List Char) :
    strictFrom w (.blockComment star) (text ++ '*' :: '/' :: rest) = strictFrom w .plain rest := by
  induction text generalizing star with
  | nil => cases star <;> simp [strictFrom]
  | cons c text ih =>
    have hend : (star && decide (c = '/')) = false := by
      cases star with
      | false => rfl
      | true => simpa using hstar rfl
    have hnext : (c == '*') = true → text.head? ≠ some '/' := by
      intro hc hhead
      obtain ⟨more, rfl⟩ := List.head?_eq_some_iff.1 hhead
      rw [beq_iff_eq] at hc
      subst hc
      exact h ⟨[], more, rfl⟩
    rw [List.cons_append, strictFrom]
    simp only [hend, Bool.false_eq_true, if_false]
    exact ih (c == '*') (fun hin => h (hin.trans (List.suffix_cons c text).isInfix)) hnext

/-- Of a comment up to the end of its line the end of the line is left. -/
theorem strictFrom_lineComment (h : '\n' ∉ text) (w g rest : List Char) :
    strictFrom w .plain ('/' :: '/' :: (text ++ '\n' :: g) ++ rest) = strictFrom ('\n' :: w) .plain (g ++ rest) := by
  simpa [strictFrom] using strictFrom_line h w ('\n' :: (g ++ rest))

theorem strictFrom_blockComment (h : ¬ ['*', '/'] <:+: text) (w g rest : List Char) :
    strictFrom w .plain ('/' :: '*' :: (text ++ '*' :: '/' :: g) ++ rest) = strictFrom w .plain (g ++ rest) := by
  simpa [strictFrom] using strictFrom_block false h Bool.noConfusion w (g ++ rest)

/-- Of white space and comments, white space is left. -/
theorem strictFrom_filler (h : Filler g) :
    ∃ b, Blank b ∧ ∀ w rest, strictFrom w .plain (g ++ rest) = strictFrom (b.reverse ++ w) .plain rest := by
  induction h with
  | nil => exact ⟨[], List.forall_mem_nil _, fun _ _ => rfl⟩
  | @blank c g hc _ ih =>
    obtain ⟨b, hb, ih⟩ := ih
    refine ⟨c :: b, List.forall_mem_cons.2 ⟨hc, hb⟩, fun w rest => ?_⟩
    rw [List.cons_append, strictFrom_cons (ordinary_of_isGap hc), ih]
    simp
  | @line text g htext _ ih =>
    obtain ⟨b, hb, ih⟩ := ih
    refine ⟨'\n' :: b, List.forall_mem_cons.2 ⟨rfl, hb⟩, fun w rest => ?_⟩
    rw [strictFrom_lineComment htext, ih]
    simp
  | @block text g htext _ ih =>
    obtain ⟨b, hb, ih⟩ := ih
    refine ⟨b, hb, fun w rest => ?_⟩
    rw [strictFrom_blockComment htext, ih]

theorem strictFrom_lastFiller (h : LastFiller g) : ∃ b, Blank b ∧ ∀ w, strictFrom w .plain g = w.reverse ++ b := by
  cases h with
  | closed h =>
    obtain ⟨b, hb, h⟩ := strictFrom_filler h
    refine ⟨b, hb, fun w => ?_⟩
    have hend := h w []
    rw [List.append_nil] at hend
    rw [hend, strictFrom_nil (by decide)]
    simp
  | @unclosed g text h htext =>
    obtain ⟨b, hb, h⟩ := strictFrom_filler h
    refine ⟨b, hb, fun w => ?_⟩
    have hcomment : strictFrom (b.reverse ++ w) .plain ('/' :: '/' :: text) = (b.reverse ++ w).reverse := by
      simpa [strictFrom] using strictFrom_line htext (b.reverse ++ w) []
    rw [h, hcomment]
    simp

/-! ## Lexemes -/

theorem strictFrom_quoted (w cs : List Char) (hquote : c ≠ '"') (hslash : c ≠ '\\') :
    strictFrom w .quoted (c :: cs) = strictFrom (c :: w) .quoted cs := by
  simp [strictFrom, hquote, hslash]

theorem ne_of_hexValue {n : Nat} (h : hexValue? c = some n) : c ≠ '"' ∧ c ≠ '\\' := by
  constructor <;> rintro rfl <;> cases h

theorem strictFrom_letter (l : Letter) (w rest : List Char) :
    strictFrom w .quoted (l.text ++ rest) = strictFrom (l.text.reverse ++ w) .quoted rest := by
  cases l with
  | plain c h => exact strictFrom_quoted w rest h.1 h.2.1
  | escape e c h => simp [Letter.text, strictFrom]
  | code a b c d n h =>
    simp only [fourHex?, Option.bind_eq_bind, Option.bind_eq_some_iff] at h
    obtain ⟨_, ha, _, hb, _, hc, _, hd, -⟩ := h
    obtain ⟨ha, ha'⟩ := ne_of_hexValue ha
    obtain ⟨hb, hb'⟩ := ne_of_hexValue hb
    obtain ⟨hc, hc'⟩ := ne_of_hexValue hc
    obtain ⟨hd, hd'⟩ := ne_of_hexValue hd
    simp [Letter.text, strictFrom, ha, ha', hb, hb', hc, hc', hd, hd']

theorem strictFrom_letters (letters : List Letter) (w rest : List Char) :
    strictFrom w .quoted (letters.flatMap Letter.text ++ rest) =
      strictFrom ((letters.flatMap Letter.text).reverse ++ w) .quoted rest := by
  induction letters generalizing w with
  | nil => rfl
  | cons l letters ih =>
    rw [List.flatMap_cons, List.append_assoc, strictFrom_letter, ih]
    simp

/-- A lexeme that is no closing bracket is left as it is. -/
theorem strictFrom_lexeme (h : l.isClosing = false) (w rest : List Char) :
    strictFrom w .plain (l.text ++ rest) = strictFrom (l.text.reverse ++ w) .plain rest := by
  cases hbare : l.isBare with
  | true => exact strictFrom_ordinary (fun c hc => ordinary_of_isBareChar (isBareChar_text hbare c hc)) w rest
  | false =>
    cases l with
    | string letters =>
      have hletters := strictFrom_letters letters ('"' :: w) ('"' :: rest)
      simpa [Lexeme.text, strictFrom] using hletters
    | null | bool | number => cases hbare
    | closeList | closeObject => cases h
    | _ => exact strictFrom_ordinary (by simp [Lexeme.text, IsOrdinary]) w rest

theorem strictFrom_closing (h : l.isClosing = true) (w rest : List Char) :
    strictFrom w .plain (l.text ++ rest) = strictFrom (l.text.reverse ++ dropComma w) .plain rest := by
  cases l with
  | closeList | closeObject => rfl
  | _ => cases h

/-! ## Commas -/

/-- No comma is taken back at a closing bracket. -/
def Settled (w : List Char) : Prop := (w.dropWhile Text.isBlank).head? ≠ some ','

theorem dropComma_of_settled (h : Settled w) : dropComma w = w := by
  unfold dropComma
  split
  · next heq =>
    rw [Settled, heq] at h
    exact absurd rfl h
  · rfl

theorem isBlank_of_isGap (h : isGap c = true) : Text.isBlank c = true := by
  rcases isGap_cases h with rfl | rfl | rfl | rfl <;> rfl

theorem dropWhile_blank (hb : Blank b) (w : List Char) :
    (b.reverse ++ w).dropWhile Text.isBlank = w.dropWhile Text.isBlank :=
  List.dropWhile_append_of_pos fun c hc => isBlank_of_isGap (hb c (List.mem_reverse.1 hc))

theorem not_isBlank_of_isBareChar (h : isBareChar c = true) : Text.isBlank c = false := by
  rcases Bool.or_eq_true_iff.1 h with hdigit | hother
  · simp only [Char.isDigit, Bool.and_eq_true, decide_eq_true_eq, UInt32.le_iff_toNat_le, Char.reduceVal,
      UInt32.reduceToNat] at hdigit
    have hrange : 48 ≤ c.toNat ∧ c.toNat ≤ 57 := hdigit
    simp only [Text.isBlank, Bool.or_eq_false_iff, Bool.and_eq_false_iff, decide_eq_false_iff_not,
      beq_eq_false_iff_ne]
    omega
  · have hall : "+-.eEnultrfas".toList.all (!Text.isBlank ·) = true := by decide
    simpa using List.all_eq_true.1 hall c (List.contains_iff_mem.1 hother)

theorem settled_blank (hb : Blank b) (h : Settled w) : Settled (b.reverse ++ w) := by
  rw [Settled, dropWhile_blank hb]
  exact h

theorem settled_cons (hblank : Text.isBlank c = false) (hcomma : c ≠ ',') (w : List Char) : Settled (c :: w) := by
  rw [Settled, List.dropWhile_cons_of_neg (by simp [hblank])]
  simpa using hcomma

theorem settled_lexeme (h : l ≠ .comma) (w : List Char) : Settled (l.text.reverse ++ w) := by
  cases hbare : l.isBare with
  | true =>
    obtain ⟨c, cs, hc, -⟩ := reads_token l
    obtain ⟨above, last, htext⟩ := (List.eq_nil_or_concat' l.text).resolve_left (by simp [hc])
    have hlast : isBareChar last = true := isBareChar_text hbare last (by simp [htext])
    rw [htext, List.reverse_append]
    exact settled_cons (not_isBlank_of_isBareChar hlast) (by rintro rfl; cases hlast) _
  | false =>
    cases l with
    | null | bool | number => cases hbare
    | comma => exact absurd rfl h
    | string letters =>
      have hquote : Settled ('"' :: ((letters.flatMap Letter.text).reverse ++ '"' :: w)) :=
        settled_cons (by decide) (by decide) _
      simpa [Lexeme.text] using hquote
    | _ => exact settled_cons (by decide) (by decide) w

/-- A comma with nothing but white space after it is taken back, and the white space. -/
theorem dropComma_comma (hb : Blank b) (w : List Char) : dropComma (b.reverse ++ ',' :: w) = w := by
  have hcomma : Text.isBlank ',' = false := by decide
  unfold dropComma
  rw [dropWhile_blank hb, List.dropWhile_cons_of_neg (by simp [hcomma])]
  rfl

/-! ## Rows with more commas -/

/-- The second row is the first with a comma before some of its closing brackets. -/
inductive Widens : List Lexeme → List Lexeme → Prop
  | nil : Widens [] []
  | keep (l : Lexeme) {ls ls' : List Lexeme} : Widens ls ls' → Widens (l :: ls) (l :: ls')
  | comma {l : Lexeme} {ls ls' : List Lexeme} : l.isClosing = true → Widens ls ls' → Widens (l :: ls) (.comma :: l :: ls')

theorem widens_refl (ls : List Lexeme) : Widens ls ls := by
  induction ls with
  | nil => exact .nil
  | cons l ls ih => exact .keep l ih

theorem Widens.append {ms ms' : List Lexeme} (h : Widens ls ls') (hm : Widens ms ms') :
    Widens (ls ++ ms) (ls' ++ ms') := by
  induction h with
  | nil => exact hm
  | keep l _ ih => exact .keep l ih
  | comma hl _ ih => exact .comma hl ih

theorem widens_lastComma (extra : Bool) (h : l.isClosing = true) : Widens [l] (lastComma extra ++ [l]) := by
  cases extra with
  | false => exact widens_refl [l]
  | true => exact .comma h .nil

theorem widens_of_forms {p : Phrase} (h : Forms p ls ls') : Widens ls ls' := by
  induction h with
  | scalar => exact widens_refl _
  | emptyList | emptyObject => exact widens_refl _
  | list extra _ ih | object extra _ ih => exact .keep _ (ih.append (widens_lastComma extra rfl))
  | item _ ih => exact ih
  | items _ _ ihv ihls => exact ihv.append (.keep _ ihls)
  | member key _ ih => exact .keep _ (.keep _ ih)
  | members key _ _ ihv ihls => exact .keep _ (.keep _ (ihv.append (.keep _ ihls)))

/-! ## The whole text -/

theorem strictFrom_settled (h : l.isClosing = true → Settled w) (rest : List Char) :
    strictFrom w .plain (l.text ++ rest) = strictFrom (l.text.reverse ++ w) .plain rest := by
  cases hclosing : l.isClosing with
  | true => rw [strictFrom_closing hclosing, dropComma_of_settled (h hclosing)]
  | false => exact strictFrom_lexeme hclosing w rest

/-- Where a closing bracket may come next, no comma is taken back there. -/
theorem settled_follows (h : ∀ next ∈ ls.head?, Follows l next) (w : List Char) :
    ∀ next ∈ ls.head?, next.isClosing = true → Settled (l.text.reverse ++ w) :=
  fun next hnext hclosing => settled_lexeme ((h next hnext).2 hclosing) w

/-- Of a row with more commas, the row without them is left, with white space in its gaps. -/
theorem strictFrom_widens (h : Widens ls ls') (hls : ls.IsChain Follows) (hr : Written Filler LastFiller ls' r)
    (hw : ∀ l ∈ ls.head?, l.isClosing = true → Settled w) :
    ∃ t, Written Blank Blank ls t ∧ strictFrom w .plain r = w.reverse ++ t := by
  induction h generalizing r w with
  | nil =>
    cases hr with
    | nil hg =>
      obtain ⟨b, hb, hstrict⟩ := strictFrom_lastFiller hg
      exact ⟨b, .nil hb, hstrict w⟩
  | @keep l ls ls' _ ih =>
    obtain ⟨hfollows, hls⟩ := List.isChain_cons.1 hls
    cases hr with
    | @cons g text _ _ hg htext =>
      obtain ⟨b, hb, hstrict⟩ := strictFrom_filler hg
      have hsettled : l.isClosing = true → Settled (b.reverse ++ w) := fun h => settled_blank hb (hw l rfl h)
      obtain ⟨t, ht, hrest⟩ := ih hls htext (settled_follows hfollows (b.reverse ++ w))
      refine ⟨b ++ (l.text ++ t), .cons hb ht, ?_⟩
      rw [hstrict, strictFrom_settled hsettled, hrest]
      simp
  | @comma l ls ls' hclosing _ ih =>
    obtain ⟨hfollows, hls⟩ := List.isChain_cons.1 hls
    cases hr with
    | @cons g₁ text₁ _ _ hg₁ htext₁ =>
      cases htext₁ with
      | @cons g₂ text _ _ hg₂ htext =>
        obtain ⟨b₁, hb₁, hstrict₁⟩ := strictFrom_filler hg₁
        obtain ⟨b₂, hb₂, hstrict₂⟩ := strictFrom_filler hg₂
        obtain ⟨t, ht, hrest⟩ := ih hls htext (settled_follows hfollows (b₁.reverse ++ w))
        refine ⟨b₁ ++ (l.text ++ t), .cons hb₁ ht, ?_⟩
        rw [hstrict₁, strictFrom_lexeme rfl, hstrict₂, strictFrom_closing hclosing]
        -- The bracket takes the comma back, with the white space after it.
        rw [show Lexeme.comma.text.reverse = [','] from rfl, List.singleton_append, dropComma_comma hb₂, hrest]
        simp

/-- A row with white space in its gaps is left as it is. -/
theorem strictFrom_written (h : Written Blank Blank ls t) (hls : ls.IsChain Follows)
    (hw : ∀ l ∈ ls.head?, l.isClosing = true → Settled w) : strictFrom w .plain t = w.reverse ++ t := by
  induction h generalizing w with
  | @nil g hg =>
    have hordinary := strictFrom_ordinary (fun c hc => ordinary_of_isGap (hg c hc)) w []
    rw [List.append_nil] at hordinary
    rw [hordinary, strictFrom_nil (by decide)]
    simp
  | @cons g text l ls hg _ ih =>
    obtain ⟨hfollows, hls⟩ := List.isChain_cons.1 hls
    have hsettled : l.isClosing = true → Settled (g.reverse ++ w) := fun h => settled_blank hg (hw l rfl h)
    rw [strictFrom_ordinary (fun c hc => ordinary_of_isGap (hg c hc)), strictFrom_settled hsettled,
      ih hls (settled_follows hfollows _)]
    simp

theorem settled_nil : Settled [] := by simp [Settled]

/-- What is left of a relaxed document is a document with the same lexemes. -/
theorem strict_isDocument (hdocument : Forms .value ls ls) (h : IsRelaxed ls r) : IsDocument ls (strict r) := by
  obtain ⟨ls', hforms, hr⟩ := h
  obtain ⟨t, ht, hstrict⟩ :=
    strictFrom_widens (w := []) (widens_of_forms hforms) hforms.proper.chain hr fun _ _ _ => settled_nil
  have htext : strict r = t := hstrict
  exact ⟨hdocument, htext ▸ ht⟩

/-- A document is left as it is. -/
theorem strict_eq (h : IsDocument ls t) : strict t = t :=
  strictFrom_written h.written h.value.proper.chain fun _ _ _ => settled_nil

/-- Documents with the same lexemes are read alike, whatever is asked for. -/
theorem parse_document (ht : IsDocument ls t) (hr : IsDocument ls r) (shape : Shape) :
    parse shape r = parse shape t := by
  unfold parse
  rw [tokens_document ht, tokens_document hr]

/-- Manifests that are read alike are the same. -/
theorem load_congr {s s' : Snapshot} {p : Path}
    (hparse : parse Manifest.shape (strict r) = parse Manifest.shape (strict t))
    (hr : s.readText p = .ok (String.ofList r)) (ht : s'.readText p = .ok (String.ofList t)) :
    Manifest.load s p = Manifest.load s' p := by
  unfold Manifest.load Manifest.parse
  rw [hr, ht]
  simp only [String.toList_ofList, hparse]

/-- A document is left as it is. What is left of the same document with comments, white space
and commas after last items is a document too, with the same lexemes, letter for letter: it is
passed over as one value, and the same is read in it, whatever is asked for. So a manifest may
be written either way. -/
theorem relaxed_reads_as_strict (ht : IsDocument ls t) (hr : IsRelaxed ls r) :
    strict t = t ∧ IsDocument ls (strict r) ∧ skipValue (tokens (strict r)) = .ok [] ∧
      (∀ shape, parse shape (strict r) = parse shape t) ∧
      ∀ (s s' : Snapshot) (p : Path), s.readText p = .ok (String.ofList r) → s'.readText p = .ok (String.ofList t) →
        Manifest.load s p = Manifest.load s' p := by
  have hstrict := strict_eq ht
  have hdocument := strict_isDocument ht.value hr
  have hparse : ∀ shape, parse shape (strict r) = parse shape t := parse_document ht hdocument
  refine ⟨hstrict, hdocument, skip_document hdocument, hparse, fun s s' p hs hs' => load_congr ?_ hs hs'⟩
  rw [hparse, hstrict]

/-- The text of two slashes. -/
def slashes : Lexeme := .string [.plain '/' (by decide), .plain '/' (by decide)]

/-- A list with two slashes between quotes, and the same with a comma, comments around it, and a
comment that only the end of the text ends. -/
theorem relaxed_reads_as_strict_slashes :
    let t := "[\"//\" ]".toList
    let r := "[ \"//\"/*,*/,/***/ ]//".toList
    IsDocument [.openList, slashes, .closeList] t ∧ IsRelaxed [.openList, slashes, .closeList] r ∧
      IsDocument [.openList, slashes, .closeList] (strict r) ∧ strict r = "[ \"//\"]".toList ∧
      ∀ shape, parse shape (strict r) = parse shape t := by
  intro t r
  have hblank : Blank [] ∧ Blank [' '] := by simp [Blank, isGap]
  have hwritten : Written Blank Blank [.openList, slashes, .closeList] t :=
    .cons hblank.1 (.cons hblank.1 (.cons hblank.2 (.nil hblank.1)))
  have ht : IsDocument [.openList, slashes, .closeList] t := ⟨.list false (.item (.scalar rfl)), hwritten⟩
  have hcomma : Filler "/*,*/".toList := @Filler.block [','] [] (by decide) .nil
  have hstar : Filler "/***/ ".toList := @Filler.block ['*'] [' '] (by decide) (.blank rfl .nil)
  have hlast : LastFiller "//".toList := .unclosed .nil (by simp)
  have hrelaxed : Written Filler LastFiller [.openList, slashes, .comma, .closeList] r :=
    .cons .nil (.cons (.blank rfl .nil) (.cons hcomma (.cons hstar (.nil hlast))))
  have hr : IsRelaxed [.openList, slashes, .closeList] r := ⟨_, .list true (.item (.scalar rfl)), hrelaxed⟩
  obtain ⟨-, hdocument, -, hparse, -⟩ := relaxed_reads_as_strict ht hr
  exact ⟨ht, hr, hdocument, by decide, hparse⟩

end RelaxedJson

end ImportAtlas
