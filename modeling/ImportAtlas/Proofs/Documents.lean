import Mathlib.Data.List.Chain
import ImportAtlas.Json.Shape
import ImportAtlas.Proofs.Lexemes
/-!
# Documents

A JSON document is a row of lexemes that is formed as a value, with white space between
them. Its tokens are those of its lexemes (`tokens_document`), so documents with the same
lexemes are read alike, whatever is asked for.
-/

namespace ImportAtlas.Json

/-! ## Grammar -/

namespace Lexeme

def isScalar : Lexeme → Bool
  | null | bool _ | number _ | string _ => true
  | _ => false

def isOpening : Lexeme → Bool
  | openList | openObject => true
  | _ => false

def isClosing : Lexeme → Bool
  | closeList | closeObject => true
  | _ => false

def isSeparator : Lexeme → Bool
  | comma | colon => true
  | _ => false

end Lexeme

/-- What a row of lexemes may be formed as. -/
inductive Phrase
  | value
  /-- The items of a list, at least one. -/
  | items
  /-- The members of an object, at least one. -/
  | members

/-- A comma after the last item, if there is one. -/
def lastComma (extra : Bool) : List Lexeme := if extra then [.comma] else []

/-- The first row is formed as a phrase; the second is the first with a comma after the last
item of some of its lists and objects. -/
inductive Forms : Phrase → List Lexeme → List Lexeme → Prop
  | scalar {l : Lexeme} : l.isScalar = true → Forms .value [l] [l]
  | emptyList : Forms .value [.openList, .closeList] [.openList, .closeList]
  | list {ls ls' : List Lexeme} (extra : Bool) : Forms .items ls ls' →
      Forms .value (.openList :: (ls ++ [.closeList])) (.openList :: (ls' ++ (lastComma extra ++ [.closeList])))
  | emptyObject : Forms .value [.openObject, .closeObject] [.openObject, .closeObject]
  | object {ls ls' : List Lexeme} (extra : Bool) : Forms .members ls ls' →
      Forms .value (.openObject :: (ls ++ [.closeObject])) (.openObject :: (ls' ++ (lastComma extra ++ [.closeObject])))
  | item {v v' : List Lexeme} : Forms .value v v' → Forms .items v v'
  | items {v v' ls ls' : List Lexeme} : Forms .value v v' → Forms .items ls ls' →
      Forms .items (v ++ .comma :: ls) (v' ++ .comma :: ls')
  | member (key : List Letter) {v v' : List Lexeme} : Forms .value v v' →
      Forms .members (.string key :: .colon :: v) (.string key :: .colon :: v')
  | members (key : List Letter) {v v' ls ls' : List Lexeme} : Forms .value v v' → Forms .members ls ls' →
      Forms .members (.string key :: .colon :: (v ++ .comma :: ls)) (.string key :: .colon :: (v' ++ .comma :: ls'))

variable {a b l : Lexeme} {ls ls' v : List Lexeme} {p : Phrase}

/-! ## What stands beside what -/

/-- `b` may come after `a`: no word or number after another, and no closing bracket after a
comma. -/
def Follows (a b : Lexeme) : Prop := (a.isBare = true → b.isBare = false) ∧ (b.isClosing = true → a ≠ .comma)

theorem follows_separator (h : b.isSeparator = true) : Follows a b := by
  cases b <;> simp_all [Follows, Lexeme.isSeparator, Lexeme.isBare, Lexeme.isClosing]

theorem separator_follows (h : a.isSeparator = true) (hb : b.isClosing = false) : Follows a b := by
  cases a <;> simp_all [Follows, Lexeme.isSeparator, Lexeme.isBare]

theorem opening_follows (h : a.isOpening = true) : Follows a b := by
  cases a <;> simp_all [Follows, Lexeme.isOpening, Lexeme.isBare]

theorem closing_ne_comma (h : b.isClosing = true) : b ≠ .comma := by
  rintro rfl
  cases h

theorem opening_not_closing (h : a.isOpening = true) : a.isClosing = false := by
  cases a <;> first | rfl | cases h

theorem follows_closing (ha : a ≠ .comma) (h : b.isClosing = true) : Follows a b := by
  cases b <;> simp_all [Follows, Lexeme.isClosing, Lexeme.isBare]

/-- A row that can stand in a list or object: not empty, no closing bracket first and no comma
last. -/
structure Proper (ls : List Lexeme) : Prop where
  nonempty : ls ≠ []
  chain : ls.IsChain Follows
  first : ∀ l ∈ ls.head?, l.isClosing = false
  last : ∀ l ∈ ls.getLast?, l ≠ .comma

theorem proper_scalar (h : l.isScalar = true) : Proper [l] := by
  refine ⟨by simp, by simp, ?_, ?_⟩ <;> cases l <;> simp_all [Lexeme.isScalar, Lexeme.isClosing]

theorem Proper.separate (hv : Proper v) (hl : l.isSeparator = true) (hls : Proper ls) : Proper (v ++ l :: ls) := by
  obtain ⟨first, rest, rfl⟩ := List.exists_cons_of_ne_nil hv.nonempty
  obtain ⟨next, more, rfl⟩ := List.exists_cons_of_ne_nil hls.nonempty
  refine ⟨by simp, ?_, hv.first, by rw [List.getLast?_append_cons, List.getLast?_cons_cons]; exact hls.last⟩
  refine List.isChain_append.2 ⟨hv.chain, ?_, fun x _ y hy => ?_⟩
  · exact List.isChain_cons_cons.2 ⟨separator_follows hl (hls.first _ rfl), hls.chain⟩
  · obtain rfl : l = y := by simpa using hy
    exact follows_separator hl

theorem Proper.enclose (hls : Proper ls) (ha : a.isOpening = true) (hb : b.isClosing = true) :
    Proper (a :: (ls ++ [b])) := by
  obtain ⟨next, more, rfl⟩ := List.exists_cons_of_ne_nil hls.nonempty
  refine ⟨by simp, ?_, ?_, ?_⟩
  · refine List.isChain_cons_cons.2 ⟨opening_follows ha, ?_⟩
    refine List.isChain_append.2 ⟨hls.chain, by simp, fun x hx y hy => ?_⟩
    obtain rfl : b = y := by simpa using hy
    exact follows_closing (hls.last x hx) hb
  · rintro x ⟨rfl⟩
    exact opening_not_closing ha
  · rw [← List.cons_append, List.getLast?_concat]
    rintro x ⟨rfl⟩
    exact closing_ne_comma hb

theorem proper_empty (ha : a.isOpening = true) (hb : b.isClosing = true) : Proper [a, b] := by
  refine ⟨by simp, ?_, ?_, ?_⟩
  · simpa using opening_follows ha
  · rintro x ⟨rfl⟩
    exact opening_not_closing ha
  · rintro x ⟨rfl⟩
    exact closing_ne_comma hb

/-- A phrase keeps apart what has to be apart. -/
theorem Forms.proper (h : Forms p ls ls') : Proper ls := by
  induction h with
  | scalar h => exact proper_scalar h
  | emptyList => exact proper_empty rfl rfl
  | list _ _ ih => exact ih.enclose rfl rfl
  | emptyObject => exact proper_empty rfl rfl
  | object _ _ ih => exact ih.enclose rfl rfl
  | item _ ih => exact ih
  | items _ _ ihv ihls => exact ihv.separate rfl ihls
  | member key _ ih => exact (proper_scalar (l := .string key) rfl).separate rfl ih
  | members key _ _ ihv ihls => exact (proper_scalar (l := .string key) rfl).separate rfl (ihv.separate rfl ihls)

/-! ## Writing -/

/-- The text holds the lexemes in their order, with a gap before each and one after the last. -/
inductive Written (gap last : List Char → Prop) : List Lexeme → List Char → Prop
  | nil {g : List Char} : last g → Written gap last [] g
  | cons {g text : List Char} {l : Lexeme} {ls : List Lexeme} : gap g → Written gap last ls text →
      Written gap last (l :: ls) (g ++ (l.text ++ text))

/-- White space. -/
def Blank (g : List Char) : Prop := ∀ c ∈ g, isGap c = true

/-- The text is a document that is made of the given lexemes. -/
structure IsDocument (ls : List Lexeme) (t : List Char) : Prop where
  value : Forms .value ls ls
  written : Written Blank Blank ls t

/-! ## Reading -/

variable {t rest : List Char}

theorem stops_gap {c : Char} (h : isGap c = true) : Stops (c :: rest) := by
  rcases isGap_cases h with rfl | rfl | rfl | rfl <;> exact stops_cons.2 (by decide)

theorem stops_text (h : l.isBare = false) (rest : List Char) : Stops (l.text ++ rest) := by
  cases l with
  | null | bool | number => cases h
  | _ => exact stops_cons.2 (by decide)

/-- What comes after a word or a number does not go on with it. -/
theorem stops_written (h : Written Blank Blank ls t) (hfirst : ∀ l ∈ ls.head?, l.isBare = false) : Stops t := by
  cases h with
  | nil hg =>
    cases t with
    | nil => exact stops_nil
    | cons c g => exact stops_gap (hg c List.mem_cons_self)
  | @cons g text l ls hg _ =>
    cases g with
    | nil => exact stops_text (hfirst l rfl) text
    | cons c g => exact stops_gap (hg c List.mem_cons_self)

theorem lexFrom_written (h : Written Blank Blank ls t) (hls : ls.IsChain Follows) {fuel : Nat}
    (hfuel : t.length < fuel) : lexFrom fuel t = ls.map Lexeme.token := by
  induction h generalizing fuel with
  | @nil g hg =>
    obtain ⟨fuel, rfl⟩ : ∃ k, fuel = k + 1 := ⟨fuel - 1, by omega⟩
    have hdrop : g.dropWhile isGap = [] := by
      rw [← List.append_nil g, List.dropWhile_append_of_pos hg, List.dropWhile_nil]
    rw [lexFrom, hdrop]
    rfl
  | @cons g text l ls hg htext ih =>
    obtain ⟨fuel, rfl⟩ : ∃ k, fuel = k + 1 := ⟨fuel - 1, by omega⟩
    obtain ⟨hfollows, hls⟩ := List.isChain_cons.1 hls
    obtain ⟨c, cs, hc, hread⟩ := reads_token l
    have hdrop : (g ++ (l.text ++ text)).dropWhile isGap = c :: (cs ++ text) := by
      rw [List.dropWhile_append_of_pos hg, hc, List.cons_append, List.dropWhile_cons_of_neg (by simp [isGap_head hc])]
    have hstops : l.isBare = true → Stops text := fun hbare =>
      stops_written htext fun next hnext => (hfollows next hnext).1 hbare
    have hlength : text.length < fuel := by
      rw [hc] at hfuel
      simp only [List.length_append, List.length_cons] at hfuel
      omega
    rw [lexFrom, hdrop]
    dsimp only
    rw [hread text hstops, ih hls hlength, List.map_cons]

/-- The tokens of a document are those of its lexemes. -/
theorem tokens_document (h : IsDocument ls t) : tokens t = ls.map Lexeme.token :=
  lexFrom_written h.written h.value.proper.chain (Nat.lt_succ_self _)

/-! ## Passing over a document -/

/-- What is done after a value, with the given lists and objects open. -/
def resume (open_ : List Bool) (ts : List Token) : Except Fault (List Token) :=
  if open_.isEmpty then .ok ts else skip open_ .next ts

variable {open_ : List Bool} {ts : List Token}

theorem skip_scalar (h : l.isScalar = true) : skip open_ .value (l.token :: ts) = resume open_ ts := by
  cases l with
  | null => rfl
  | bool b => cases b <;> rfl
  | number n =>
    obtain ⟨m, hwhole, hreads⟩ := reads_number n
    rw [token_of_reads hreads]
    cases m with
    | broken atEnd => exact absurd rfl (hwhole atEnd)
    | _ => rfl
  | string letters =>
    rw [token_of_reads (reads_string letters)]
    rfl
  | _ => cases h

theorem skip_key (letters : List Letter) :
    skip (true :: open_) .key ((Lexeme.string letters).token :: Lexeme.colon.token :: ts) =
      skip (true :: open_) .value ts := by
  rw [token_of_reads (reads_string letters)]
  rfl

theorem skip_closeList (expect : Expect) (h : expect = .first ∨ expect = .next) :
    skip (false :: open_) expect (Lexeme.closeList.token :: ts) = resume open_ ts := by
  rcases h with rfl | rfl <;> cases open_ <;> rfl

theorem skip_closeObject (expect : Expect) (h : expect = .first ∨ expect = .next) :
    skip (true :: open_) expect (Lexeme.closeObject.token :: ts) = resume open_ ts := by
  rcases h with rfl | rfl <;> cases open_ <;> rfl

theorem skip_first (object : Bool) (h : l.isClosing = false) :
    skip (object :: open_) .first (l.token :: ts) =
      skip (object :: open_) (if object then .key else .value) (l.token :: ts) := by
  cases l with
  | closeList | closeObject => cases h
  | bool b => cases b <;> cases object <;> rfl
  | number n =>
    obtain ⟨m, -, hreads⟩ := reads_number n
    rw [token_of_reads hreads]
    cases object <;> rfl
  | string letters =>
    rw [token_of_reads (reads_string letters)]
    cases object <;> rfl
  | _ => cases object <;> rfl

/-- The brackets around a row that is not empty. -/
theorem skip_openList (hls : Proper ls) :
    skip open_ .value (Lexeme.openList.token :: (ls.map Lexeme.token ++ ts)) =
      skip (false :: open_) .value (ls.map Lexeme.token ++ ts) := by
  obtain ⟨first, rest, rfl⟩ := List.exists_cons_of_ne_nil hls.nonempty
  exact skip_first false (hls.first first rfl)

theorem skip_openObject (hls : Proper ls) :
    skip open_ .value (Lexeme.openObject.token :: (ls.map Lexeme.token ++ ts)) =
      skip (true :: open_) .key (ls.map Lexeme.token ++ ts) := by
  obtain ⟨first, rest, rfl⟩ := List.exists_cons_of_ne_nil hls.nonempty
  exact skip_first true (hls.first first rfl)

/-- What passing over the tokens of a phrase comes to. -/
def Passes : Phrase → List Lexeme → Prop
  | .value, ls => ∀ open_ ts, skip open_ .value (ls.map Lexeme.token ++ ts) = resume open_ ts
  | .items, ls => ∀ open_ ts,
    skip (false :: open_) .value (ls.map Lexeme.token ++ Lexeme.closeList.token :: ts) = resume open_ ts
  | .members, ls => ∀ open_ ts,
    skip (true :: open_) .key (ls.map Lexeme.token ++ Lexeme.closeObject.token :: ts) = resume open_ ts

theorem passes_of_forms (h : Forms p ls ls') : Passes p ls := by
  induction h with
  | scalar h => exact fun _ _ => skip_scalar h
  | emptyList => exact fun _ _ => skip_closeList .first (.inl rfl)
  | list _ hitems ih =>
    intro open_ ts
    rw [List.map_cons, List.map_append, List.cons_append, List.append_assoc, skip_openList hitems.proper]
    exact ih open_ ts
  | emptyObject => exact fun _ _ => skip_closeObject .first (.inl rfl)
  | object _ hmembers ih =>
    intro open_ ts
    rw [List.map_cons, List.map_append, List.cons_append, List.append_assoc, skip_openObject hmembers.proper]
    exact ih open_ ts
  | item _ ih =>
    intro open_ ts
    rw [ih]
    exact skip_closeList .next (.inr rfl)
  | items _ _ ihv ihls =>
    intro open_ ts
    rw [List.map_append, List.append_assoc, ihv]
    exact ihls open_ ts
  | member key _ ih =>
    intro open_ ts
    rw [List.map_cons, List.map_cons, List.cons_append, List.cons_append, skip_key, ih]
    exact skip_closeObject .next (.inr rfl)
  | members key _ _ ihv ihls =>
    intro open_ ts
    rw [List.map_cons, List.map_cons, List.cons_append, List.cons_append, skip_key, List.map_append,
      List.append_assoc, ihv]
    exact ihls open_ ts

/-- A document is passed over as one value. -/
theorem skip_document (h : IsDocument ls t) : skipValue (tokens t) = .ok [] := by
  have hpasses := passes_of_forms h.value [] []
  rwa [List.append_nil, ← tokens_document h] at hpasses

end ImportAtlas.Json
