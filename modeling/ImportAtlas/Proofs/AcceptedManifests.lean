import ImportAtlas.Proofs.Preparation
import ImportAtlas.Proofs.ReadDocuments
import ImportAtlas.Proofs.RelaxedFaults
/-!
# Accepted manifests

A text that is read as a manifest is a relaxed document of what the manifest says, unless it
holds one of the faults that are taken out with comments and commas, and then it is none
(`load_relaxed_iff`).

That a relaxed document has no faults is seen by walking through it: each place outside quotes
and comments is in a gap, before a lexeme, or inside a word or a number (`Stands`), and at none
of these a fault begins.
-/

namespace ImportAtlas

namespace RelaxedJson

open Json

variable {r t x y rest text f : List Char} {c : Char} {a b l : Lexeme} {ls ls' ls₀ v : List Lexeme} {p : Place}

/-! ## Ways to begin a row -/

/-- What a row may begin with. -/
inductive Opens : List Lexeme → List Char → Prop
  | nil : Opens [] []
  | blank {c : Char} {ls : List Lexeme} {t : List Char} : isGap c = true → Written Filler LastFiller ls t → Opens ls (c :: t)
  | line {text : List Char} {ls : List Lexeme} {t : List Char} : '\n' ∉ text → Written Filler LastFiller ls t →
      Opens ls ('/' :: '/' :: (text ++ '\n' :: t))
  | lineEnd {text : List Char} : '\n' ∉ text → Opens [] ('/' :: '/' :: text)
  | block {text : List Char} {ls : List Lexeme} {t : List Char} : ¬ ['*', '/'] <:+: text → Written Filler LastFiller ls t →
      Opens ls ('/' :: '*' :: (text ++ '*' :: '/' :: t))
  | lexeme (l : Lexeme) {ls : List Lexeme} {t : List Char} : Written Filler LastFiller ls t → Opens (l :: ls) (l.text ++ t)

theorem opens_filler (hf : Filler f) (h : Written Filler LastFiller ls t) (hnil : Opens ls t) : Opens ls (f ++ t) := by
  cases hf with
  | nil => exact hnil
  | blank hc hf => exact .blank hc (written_filler hf h)
  | line htext hf => simpa using Opens.line htext (written_filler hf h)
  | block htext hf => simpa using Opens.block htext (written_filler hf h)

theorem opens (h : Written Filler LastFiller ls t) : Opens ls t := by
  cases h with
  | nil hg =>
    cases hg with
    | closed hf => simpa using opens_filler hf (.nil (.closed .nil)) .nil
    | unclosed hf htext => exact opens_filler hf (.nil (.unclosed .nil htext)) (.lineEnd htext)
  | cons hf htext => exact opens_filler hf (.cons (g := []) .nil htext) (.lexeme _ htext)

/-! ## Places in a row -/

/-- What is left of a row at a place in it. -/
inductive Stands (ls : List Lexeme) : Place → List Char → Prop
  | between {ls₀ : List Lexeme} {t : List Char} : ls₀ <:+ ls → Written Filler LastFiller ls₀ t → Stands ls .plain t
  /-- Inside a word or a number. -/
  | within {l : Lexeme} {ls₀ : List Lexeme} {c : Char} {y t : List Char} : l :: ls₀ <:+ ls → l.isBare = true →
      c :: y <:+ l.text → Written Filler LastFiller ls₀ t → Stands ls .plain (c :: (y ++ t))
  | quoted {ls₀ : List Lexeme} {q t : List Char} : ls₀ <:+ ls → Quotable q → Written Filler LastFiller ls₀ t →
      Stands ls .quoted (q ++ '"' :: t)
  | escaped {ls₀ : List Lexeme} (e : Char) {q t : List Char} : ls₀ <:+ ls → Quotable q → Written Filler LastFiller ls₀ t →
      Stands ls .escaped (e :: (q ++ '"' :: t))
  | slash {ls₀ : List Lexeme} {t : List Char} : ls₀ <:+ ls → Written Filler LastFiller ls₀ ('/' :: t) → Stands ls .slash t
  | line {ls₀ : List Lexeme} {text t : List Char} : ls₀ <:+ ls → '\n' ∉ text → Written Filler LastFiller ls₀ t →
      Stands ls .lineComment (text ++ '\n' :: t)
  | lineEnd {text : List Char} : '\n' ∉ text → Stands ls .lineComment text
  | block {ls₀ : List Lexeme} {text t : List Char} (star : Bool) : ls₀ <:+ ls → ¬ ['*', '/'] <:+: text →
      (star = true → text.head? ≠ some '/') → Written Filler LastFiller ls₀ t →
      Stands ls (.blockComment star) (text ++ '*' :: '/' :: t)
  /-- Between the star and the slash that close a comment. -/
  | blockEnd {ls₀ : List Lexeme} {t : List Char} : ls₀ <:+ ls → Written Filler LastFiller ls₀ t →
      Stands ls (.blockComment true) ('/' :: t)

theorem Stands.rest_bare (hin : l :: ls₀ <:+ ls) (hbare : l.isBare = true) (hy : c :: y <:+ l.text)
    (ht : Written Filler LastFiller ls₀ t) : Stands ls (Place.plain.next c) (y ++ t) := by
  obtain ⟨hquote, hslash, -⟩ := ordinary_of_isBareChar (isBareChar_text hbare c (hy.subset List.mem_cons_self))
  simp only [Place.next, hquote, hslash, if_false]
  cases y with
  | nil => exact .between ((List.suffix_cons l ls₀).trans hin) ht
  | cons d y => exact .within hin hbare ((List.suffix_cons c (d :: y)).trans hy) ht

theorem Stands.rest_lexeme (hin : l :: ls₀ <:+ ls) (ht : Written Filler LastFiller ls₀ t) (hc : l.text ++ t = c :: rest) :
    Stands ls (Place.plain.next c) rest := by
  have hafter : ls₀ <:+ ls := (List.suffix_cons l ls₀).trans hin
  by_cases hquote : c = '"'
  · subst hquote
    obtain ⟨letters, rfl⟩ := string_of_front hc
    obtain rfl : letters.flatMap Letter.text ++ '"' :: t = rest := by simpa [Lexeme.text] using hc
    exact .quoted hafter (quotable_letters letters) ht
  · cases hbare : isBareChar c with
    | true =>
      obtain ⟨d, y, htext, -⟩ := reads_token l
      rw [htext] at hc
      obtain ⟨rfl, rfl⟩ := List.cons.inj hc
      exact rest_bare hin (isBare_of_front hbare (g := []) (by rw [List.append_nil, htext])) (htext ▸ List.suffix_refl _) ht
    | false =>
      obtain ⟨hmark, rfl⟩ := mark_of_front hbare hquote hc
      have hnext : Place.plain.next c = .plain := by cases hmark <;> rfl
      rw [hnext]
      exact .between hafter ht

theorem Stands.rest_row (hin : ls₀ <:+ ls) (h : Written Filler LastFiller ls₀ (c :: rest)) :
    Stands ls (Place.plain.next c) rest := by
  have hopens := opens h
  generalize hr : c :: rest = r at hopens
  cases hopens with
  | nil => cases hr
  | blank hc ht =>
    obtain ⟨rfl, rfl⟩ := List.cons.inj hr
    rw [next_blank (isBlank_of_isGap hc)]
    exact .between hin ht
  | line | lineEnd | block =>
    obtain ⟨rfl, rfl⟩ := List.cons.inj hr
    exact .slash hin h
  | lexeme l ht => exact rest_lexeme hin ht hr.symm

theorem Stands.rest_slash (hin : ls₀ <:+ ls) (h : Written Filler LastFiller ls₀ ('/' :: c :: rest)) :
    Stands ls (Place.slash.next c) rest := by
  have hopens := opens h
  generalize hr : '/' :: c :: rest = r at hopens
  cases hopens with
  | nil => cases hr
  | blank hc ht =>
    obtain ⟨rfl, -⟩ := List.cons.inj hr
    cases hc
  | line htext ht =>
    obtain ⟨rfl, rfl⟩ := List.cons.inj (List.cons.inj hr).2
    exact .line hin htext ht
  | lineEnd htext =>
    obtain ⟨rfl, rfl⟩ := List.cons.inj (List.cons.inj hr).2
    exact .lineEnd htext
  | block htext ht =>
    obtain ⟨rfl, rfl⟩ := List.cons.inj (List.cons.inj hr).2
    exact .block false hin htext nofun ht
  | lexeme l ht => exact (not_front_slash hr.symm).elim

/-- One character on, the place is still in the row. -/
theorem Stands.step (h : Stands ls p (c :: rest)) : Stands ls (p.next c) rest := by
  generalize hr : c :: rest = r at h
  -- Where nothing is under way, `rest_row` and `rest_slash` say what begins. In the other places it goes on,
  -- or it ends with this character.
  cases h with
  | between hin h =>
    subst hr
    exact rest_row hin h
  | within hin hbare hy ht =>
    obtain ⟨rfl, rfl⟩ := List.cons.inj hr
    exact rest_bare hin hbare hy ht
  | slash hin h =>
    subst hr
    exact rest_slash hin h
  | quoted hin hq ht =>
    cases hq with
    | nil =>
      obtain ⟨rfl, rfl⟩ := List.cons.inj hr
      exact .between hin ht
    | plain hquote hslash hq =>
      obtain ⟨rfl, rfl⟩ := List.cons.inj hr
      simp only [Place.next, hquote, hslash, if_false]
      exact .quoted hin hq ht
    | escape e hq =>
      obtain ⟨rfl, rfl⟩ := List.cons.inj hr
      exact .escaped e hin hq ht
  | escaped e hin hq ht =>
    obtain ⟨rfl, rfl⟩ := List.cons.inj hr
    exact .quoted hin hq ht
  | @line ls₀ text t hin htext ht =>
    cases text with
    | nil =>
      obtain ⟨rfl, rfl⟩ := List.cons.inj hr
      exact .between hin ht
    | cons d text =>
      obtain ⟨rfl, rfl⟩ := List.cons.inj hr
      rw [List.mem_cons, not_or] at htext
      simp only [Place.next, Ne.symm htext.1, if_false]
      exact .line hin htext.2 ht
  | lineEnd htext =>
    subst hr
    rw [List.mem_cons, not_or] at htext
    simp only [Place.next, Ne.symm htext.1, if_false]
    exact .lineEnd htext.2
  | @block ls₀ text t star hin htext hstar ht =>
    cases text with
    | nil =>
      obtain ⟨rfl, rfl⟩ := List.cons.inj hr
      rw [next_block fun _ => by decide]
      exact .blockEnd hin ht
    | cons d text =>
      obtain ⟨rfl, rfl⟩ := List.cons.inj hr
      rw [next_block fun hs => by simpa using hstar hs]
      exact .block _ hin (not_infix_tail htext) (head?_ne_slash htext) ht
  | blockEnd hin ht =>
    obtain ⟨rfl, rfl⟩ := List.cons.inj hr
    exact .between hin ht

/-- So is every place of the text. -/
theorem Stands.after (h : Stands ls p (x ++ rest)) : Stands ls (p.after x) rest := by
  induction x generalizing p with
  | nil => exact h
  | cons c x ih => exact ih h.step

/-! ## What stands beside what with more commas -/

/-- `b` may come after `a`: no word or number after another, and no comma after an opening
bracket. -/
def Beside (a b : Lexeme) : Prop := (a.isBare = true → b.isBare = false) ∧ (a.isOpening = true → b ≠ .comma)

theorem beside_separator (ha : a.isOpening = false) (hb : b.isSeparator = true) : Beside a b := by
  cases b <;> simp_all [Beside, Lexeme.isSeparator, Lexeme.isBare]

theorem separator_beside (ha : a.isSeparator = true) : Beside a b := by
  cases a <;> simp_all [Beside, Lexeme.isSeparator, Lexeme.isBare, Lexeme.isOpening]

theorem opening_beside (ha : a.isOpening = true) (hb : b ≠ .comma) : Beside a b := by
  cases a <;> simp_all [Beside, Lexeme.isOpening, Lexeme.isBare]

theorem beside_closing (hb : b.isClosing = true) : Beside a b := by
  cases b <;> simp_all [Beside, Lexeme.isClosing, Lexeme.isBare]

theorem closing_not_opening (h : a.isClosing = true) : a.isOpening = false := by
  cases a <;> first | rfl | cases h

theorem opening_ne_comma (h : a.isOpening = true) : a ≠ .comma := by
  rintro rfl
  cases h

/-- A row that can stand in a list or object, with a comma after it or without. -/
structure Tidy (ls : List Lexeme) : Prop where
  nonempty : ls ≠ []
  chain : ls.IsChain Beside
  first : ∀ l ∈ ls.head?, l ≠ .comma
  last : ∀ l ∈ ls.getLast?, l.isOpening = false

theorem tidy_scalar (h : l.isScalar = true) : Tidy [l] := by
  refine ⟨by simp, by simp, ?_, ?_⟩ <;> cases l <;> simp_all [Lexeme.isScalar, Lexeme.isOpening]

theorem tidy_empty (ha : a.isOpening = true) (hb : b.isClosing = true) : Tidy [a, b] := by
  refine ⟨by simp, ?_, ?_, ?_⟩
  · simpa using beside_closing hb
  · rintro x ⟨rfl⟩
    exact opening_ne_comma ha
  · rintro x ⟨rfl⟩
    exact closing_not_opening hb

theorem Tidy.separate (hv : Tidy v) (hl : l.isSeparator = true) (hls : Tidy ls) : Tidy (v ++ l :: ls) := by
  obtain ⟨first, rest, rfl⟩ := List.exists_cons_of_ne_nil hv.nonempty
  obtain ⟨next, more, rfl⟩ := List.exists_cons_of_ne_nil hls.nonempty
  refine ⟨by simp, ?_, hv.first, by rw [List.getLast?_append_cons, List.getLast?_cons_cons]; exact hls.last⟩
  refine List.isChain_append.2 ⟨hv.chain, ?_, fun x hx y hy => ?_⟩
  · exact List.isChain_cons_cons.2 ⟨separator_beside hl, hls.chain⟩
  · obtain rfl : l = y := by simpa using hy
    exact beside_separator (hv.last x hx) hl

theorem Tidy.enclose (hls : Tidy ls) (extra : Bool) (ha : a.isOpening = true) (hb : b.isClosing = true) :
    Tidy (a :: (ls ++ (lastComma extra ++ [b]))) := by
  obtain ⟨next, more, rfl⟩ := List.exists_cons_of_ne_nil hls.nonempty
  have hend : (lastComma extra ++ [b]).IsChain Beside := by
    cases extra with
    | false => simp [lastComma]
    | true => simpa [lastComma] using beside_closing hb
  refine ⟨by simp, ?_, ?_, ?_⟩
  · refine List.isChain_cons_cons.2 ⟨opening_beside ha (hls.first _ rfl), ?_⟩
    refine List.isChain_append.2 ⟨hls.chain, hend, fun x hx y hy => ?_⟩
    cases extra with
    | false =>
      obtain rfl : b = y := by simpa [lastComma] using hy
      exact beside_closing hb
    | true =>
      obtain rfl : Lexeme.comma = y := by simpa [lastComma] using hy
      exact beside_separator (hls.last x hx) rfl
  · rintro x ⟨rfl⟩
    exact opening_ne_comma ha
  · rw [← List.append_assoc, ← List.cons_append, List.getLast?_concat]
    rintro x ⟨rfl⟩
    exact closing_not_opening hb

theorem tidy_of_forms {p : Phrase} (h : Forms p ls ls') : Tidy ls' := by
  induction h with
  | scalar h => exact tidy_scalar h
  | emptyList | emptyObject => exact tidy_empty rfl rfl
  | list extra _ ih => exact ih.enclose extra rfl rfl
  | object extra _ ih => exact ih.enclose extra rfl rfl
  | item _ ih => exact ih
  | items _ _ ihv ihls => exact ihv.separate rfl ihls
  | member key _ ih => exact (tidy_scalar (l := .string key) rfl).separate rfl ih
  | members key _ _ ihv ihls => exact (tidy_scalar (l := .string key) rfl).separate rfl (ihv.separate rfl ihls)

/-! ## A relaxed document -/

/-- Two lexemes that are one after the other may be so. -/
theorem Tidy.beside (h : Tidy ls) (hin : a :: b :: ls₀ <:+ ls) : Beside a b :=
  (List.isChain_cons_cons.1 (h.chain.suffix hin)).1

theorem loose_of_blocks (h : Blocks f) : Loose f := by
  induction h with
  | nil => exact .nil
  | cons htext _ ih => exact .block htext ih

/-- A place before a character of a word or a number is in one. -/
theorem Stands.bare (h : Stands ls .plain (c :: rest)) (hc : isBareChar c = true) :
    ∃ l ls₀ y t, l :: ls₀ <:+ ls ∧ l.isBare = true ∧ c :: y <:+ l.text ∧ rest = y ++ t ∧
      Written Filler LastFiller ls₀ t := by
  generalize hr : c :: rest = r at h
  cases h with
  | between hin h =>
    subst hr
    obtain ⟨-, hslash, -⟩ := ordinary_of_isBareChar hc
    obtain ⟨-, l, ls₀, t, rfl, htext, ht⟩ := written_ahead .nil (not_isBlank_of_isBareChar hc) hslash h
    have hbare := isBare_of_front hc htext
    obtain ⟨d, y, hy, -⟩ := reads_token l
    rw [hy] at htext
    obtain ⟨rfl, rfl⟩ := List.cons.inj htext
    exact ⟨l, ls₀, y, t, hin, hbare, hy ▸ List.suffix_refl _, rfl, ht⟩
  | within hin hbare hy ht =>
    obtain ⟨rfl, rfl⟩ := List.cons.inj hr
    exact ⟨_, _, _, _, hin, hbare, hy, rfl, ht⟩

/-- A place before a mark is before its lexeme. -/
theorem Stands.mark (h : Stands ls .plain (c :: rest)) (hc : isBareChar c = false) (hquote : c ≠ '"')
    (hblank : Text.isBlank c = false) (hslash : c ≠ '/') :
    ∃ l ls₀, l :: ls₀ <:+ ls ∧ Mark l c ∧ Written Filler LastFiller ls₀ rest := by
  generalize hr : c :: rest = r at h
  cases h with
  | between hin h =>
    subst hr
    obtain ⟨-, l, ls₀, t, rfl, htext, ht⟩ := written_ahead .nil hblank hslash h
    obtain ⟨hmark, rfl⟩ := mark_of_front hc hquote htext
    exact ⟨l, ls₀, hin, hmark, ht⟩
  | within _ hbare hy _ =>
    obtain ⟨rfl, -⟩ := List.cons.inj hr
    rw [isBareChar_text hbare c (hy.subset List.mem_cons_self)] at hc
    cases hc

theorem comma_of_front (h : l.text ++ t = ',' :: rest) : l = .comma ∧ t = rest := by
  obtain ⟨hmark, ht⟩ := mark_of_front (by decide) (by decide) h
  cases hmark
  exact ⟨rfl, ht⟩

/-- No fault begins at a place of a relaxed document. -/
theorem not_defect (hls : Tidy ls) (h : Stands ls .plain r) : ¬ Defect r := by
  intro hdefect
  cases hdefect with
  | @parted a b g rest ha hb hg hne =>
    obtain ⟨l, ls₀, y, t, hin, hbare, hy, hsplit, ht⟩ := h.bare ha
    -- The comment comes right after the word or number, and a second one after the comment.
    have hend : y = [] := by
      cases y with
      | nil => rfl
      | cons d y =>
        have hd := isBareChar_text hbare d (hy.subset (List.mem_cons_of_mem a List.mem_cons_self))
        cases hg with
        | nil => exact absurd rfl hne
        | cons _ _ =>
          obtain ⟨rfl, -⟩ := List.cons.inj hsplit
          cases hd
    subst hend
    rw [List.nil_append] at hsplit
    subst hsplit
    obtain ⟨-, hslash, -⟩ := ordinary_of_isBareChar hb
    obtain ⟨-, l', ls₁, t', rfl, htext, -⟩ := written_ahead (loose_of_blocks hg) (not_isBlank_of_isBareChar hb) hslash ht
    have hbeside := (hls.beside hin).1 hbare
    rw [isBare_of_front hb htext] at hbeside
    cases hbeside
  | @alone o c f f' rest ho hf hf' hc =>
    obtain ⟨l, ls₀, hin, hmark, ht⟩ : ∃ l ls₀, l :: ls₀ <:+ ls ∧ Mark l o ∧
        Written Filler LastFiller ls₀ (f ++ ',' :: (f' ++ c :: rest)) := by
      rcases ho with rfl | rfl <;> exact h.mark (by decide) (by decide) (by decide) (by decide)
    have hopening : l.isOpening = true := by
      rcases ho with rfl | rfl <;> cases hmark <;> rfl
    obtain ⟨-, l', ls₁, t', rfl, htext, -⟩ := written_ahead hf (by decide) (by decide) ht
    exact (hls.beside hin).2 hopening (comma_of_front htext).1
  | @blank f rest c hf hnone hc =>
    obtain ⟨l, ls₀, -, -, ht⟩ := h.mark (by decide) (by decide) (by decide) (by decide)
    have hslash : c ≠ '/' := by rcases hc with rfl | rfl <;> decide
    exact hnone (written_ahead hf (not_isBlank_of_isClosing hc) hslash ht).1
  | @unclosed text htext =>
    generalize hr : '/' :: '*' :: text = r at h
    cases h with
    | between _ h =>
      have hopens := opens h
      cases hopens with
      | nil => cases hr
      | blank hc _ =>
        obtain ⟨rfl, -⟩ := List.cons.inj hr
        cases hc
      | line | lineEnd => cases hr
      | @block before _ t _ _ =>
        obtain ⟨-, rfl⟩ := List.cons.inj (List.cons.inj hr).2
        exact htext ⟨before, t, by simp⟩
      | lexeme l _ => exact not_front_slash hr.symm
    | within _ hbare hy _ =>
      obtain ⟨rfl, -⟩ := List.cons.inj hr
      cases isBareChar_text hbare _ (hy.subset List.mem_cons_self)

theorem sound_of_relaxed (h : IsRelaxed ls r) : ¬ Faulty r := by
  obtain ⟨ls', hforms, hwritten⟩ := h
  rintro ⟨before, rest, rfl, hplain, hdefect⟩
  have hstands : Stands ls' .plain (before ++ rest) := .between (List.suffix_refl ls') hwritten
  have hrest := hstands.after
  rw [hplain] at hrest
  exact not_defect (tidy_of_forms hforms) hrest hdefect

end RelaxedJson

namespace Manifest

open Json RelaxedJson

/-- A document of the lexemes, as a manifest at `p`, says what is in `m`. -/
def Says (p : Path) (ls : List Lexeme) (m : Manifest) : Prop :=
  (∃ t, IsDocument ls t) ∧ ∀ t, IsDocument ls t → (Json.parse shape t).map (ofJson (p.parent?.getD ⟨"."⟩)) = .ok m

/-- Of a text that is read as a manifest, a document is left that says what is in it. -/
theorem says_of_parse {p : Path} {text : String} {m : Manifest} (h : parse (p.parent?.getD ⟨"."⟩) text = .ok m) :
    ∃ ls, IsDocument ls (strict text.toList) ∧ Says p ls m := by
  cases hread : Json.parse shape (strict text.toList) with
  | error f =>
    rw [parse, hread] at h
    cases h
  | ok j =>
    obtain ⟨ls, hls⟩ := document_of_parse hread
    refine ⟨ls, hls, ⟨_, hls⟩, fun t ht => ?_⟩
    rw [parse_document hls ht]
    exact h

/-- A text that is loaded is a relaxed document of what was loaded, just if no fault was taken
out of it. -/
theorem load_relaxed_iff {s : Snapshot} {p : Path} {text : String} {m : Manifest} (hread : s.readText p = .ok text)
    (hload : load s p = .ok m) : (∃ ls, IsRelaxed ls text.toList ∧ Says p ls m) ↔ ¬ Faulty text.toList := by
  obtain ⟨text', hread', hparse⟩ := load_eq_ok.1 hload
  obtain rfl : text = text' := by
    rw [hread] at hread'
    exact Except.ok.inj hread'
  constructor
  · rintro ⟨ls, hrelaxed, -⟩
    exact sound_of_relaxed hrelaxed
  · intro hsound
    obtain ⟨ls, hdocument, hsays⟩ := says_of_parse hparse
    exact ⟨ls, relaxed_of_strict hsound hdocument, hsays⟩

/-- A manifest that holds the text. -/
def alone (text : String) : Snapshot := .ofEntries [(["tsconfig.json"], .file text.toUTF8)]

/-- A manifest with nothing in it but a comment. -/
theorem load_relaxed_commented :
    ∃ ls, IsRelaxed ls "\x7b/* none */\x7d".toList ∧ Says ⟨"/tsconfig.json"⟩ ls ⟨⟨"/"⟩, none, []⟩ := by
  have hread : (alone "\x7b/* none */\x7d").readText ⟨"/tsconfig.json"⟩ = .ok "\x7b/* none */\x7d" := by decide +kernel
  have hload : load (alone "\x7b/* none */\x7d") ⟨"/tsconfig.json"⟩ = .ok ⟨⟨"/"⟩, none, []⟩ := by decide +kernel
  have htext : ¬ ['*', '/'] <:+: " none ".toList := by decide
  have hgap : Filler "/* none */".toList := .block htext .nil
  have hrelaxed : IsRelaxed [.openObject, .closeObject] "\x7b/* none */\x7d".toList :=
    ⟨_, .emptyObject, .cons (g := []) .nil (.cons hgap (.nil (.closed .nil)))⟩
  exact (load_relaxed_iff hread hload).2 (sound_of_relaxed hrelaxed)

/-- Manifests with one fault each: a word that a comment parts, a comma alone in brackets, a last
comma with a blank after it that is no white space, and a comment that is not closed. -/
def faulty : List String :=
  ["\x7b\"compilerOptions\": nu/**/ll\x7d", "\x7b\"files\": [,]\x7d", "\x7b\"files\": [1,\u00a0]\x7d", "\x7b\x7d/*"]

theorem not_relaxed_of_defect (before : String) {rest : List Char} {text : String} (h : Defect rest)
    (hplain : Place.plain.after before.toList = .plain) (htext : text.toList = before.toList ++ rest) (ls : List Lexeme) :
    ¬ IsRelaxed ls text.toList := by
  intro hrelaxed
  exact sound_of_relaxed hrelaxed ⟨before.toList, rest, htext, hplain, h⟩

/-- They are all loaded, and none is a relaxed document. -/
theorem faulty_loaded :
    (∀ text ∈ faulty, load (alone text) ⟨"/tsconfig.json"⟩ = .ok ⟨⟨"/"⟩, none, []⟩) ∧
      ∀ text ∈ faulty, ∀ ls, ¬ IsRelaxed ls text.toList := by
  have hcomment : Blocks ('/' :: '*' :: ([] ++ '*' :: '/' :: [])) := .cons (by decide) .nil
  have hparted : Defect ('u' :: ("/**/".toList ++ 'l' :: ['l', '\x7d'])) :=
    .parted (by decide) (by decide) hcomment nofun
  have halone : Defect ('[' :: ([] ++ ',' :: ([] ++ ']' :: ['\x7d']))) := .alone (.inl rfl) .nil .nil (.inr rfl)
  have hblank : Defect (',' :: (['\u00a0'] ++ ']' :: ['\x7d'])) := by
    refine .blank (.blank (by decide) .nil) ?_ (.inr rfl)
    intro hfiller
    cases hfiller with
    | blank hgap _ => cases hgap
  have hunclosed : Defect ('/' :: '*' :: []) := .unclosed (by decide)
  refine ⟨by decide +kernel, fun text htext => ?_⟩
  simp only [faulty, List.mem_cons, List.not_mem_nil, or_false] at htext
  rcases htext with rfl | rfl | rfl | rfl
  · exact not_relaxed_of_defect "\x7b\"compilerOptions\": n" hparted (by decide) rfl
  · exact not_relaxed_of_defect "\x7b\"files\": " halone (by decide) rfl
  · exact not_relaxed_of_defect "\x7b\"files\": [1" hblank (by decide) rfl
  · exact not_relaxed_of_defect "\x7b\x7d" hunclosed (by decide) rfl

end Manifest

end ImportAtlas
