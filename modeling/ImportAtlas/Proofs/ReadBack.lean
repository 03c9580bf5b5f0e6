import Mathlib.Algebra.Group.Nat.Defs
import Mathlib.Data.List.Nodup
import Mathlib.Data.List.TakeWhile
import ImportAtlas.Json.Codec
import ImportAtlas.Proofs.ReadShapes
import ImportAtlas.Proofs.WrittenValues
/-!
# Reading back what is written

Where a shape is asked for that a value fits, the value is read from its own tokens (`read_row`).
A record is written with each of its fields once and in their order, so every field is found, and
none twice.

What is left to say of a type is that its written form fits its shape and is taken apart as it was
put together (`Codec.Faithful`).
-/

namespace ImportAtlas.Json

/-! ## Tokens of a value -/

/-- A code unit below the halves of pairs is a character. -/
theorem decodePieces_unit {fault : Option Fault} {n : Nat} (h : n < 0xD800) (rest : List Piece) :
    decodePieces fault (.unit n :: rest) = (decodePieces fault rest).map (Char.ofNat n :: ·) := by
  have hlow : ¬(0xDC00 ≤ n) := by omega
  have hhigh : ¬(0xD800 ≤ n) := by omega
  rw [decodePieces.eq_def]
  simp [hlow, hhigh]

/-- The characters of a text are what its letters stand for. -/
theorem decode_letters (cs : List Char) : decodePieces none ((cs.map letterOf).map Letter.piece) = .ok cs := by
  induction cs with
  | nil => rfl
  | cons c cs ih =>
    have hchar : ∀ l : Letter, l.piece = .char c →
        decodePieces none (l.piece :: (cs.map letterOf).map Letter.piece) = .ok (c :: cs) := by
      intro l hl
      rw [hl, decodePieces, ih]
      rfl
    rw [List.map_cons, List.map_cons, letterOf]
    split_ifs with hquote hslash hn hr ht hb hf hcontrol
    · exact hchar _ (by rw [hquote]; rfl)
    · exact hchar _ (by rw [hslash]; rfl)
    · exact hchar _ (by rw [hn]; rfl)
    · exact hchar _ (by rw [hr]; rfl)
    · exact hchar _ (by rw [ht]; rfl)
    · exact hchar _ (by rw [hb]; rfl)
    · exact hchar _ (by rw [hf]; rfl)
    · change decodePieces none (.unit c.toNat :: (cs.map letterOf).map Letter.piece) = .ok (c :: cs)
      rw [decodePieces_unit (by omega), ih, Char.ofNat_toNat]
      rfl
    · exact hchar _ rfl

theorem decimalValue_toString (n : Nat) : decimalValue (toString n).toList = n := by
  rw [Nat.toString_eq_ofList_toDigits, String.toList_ofList]
  calc decimalValue (Nat.toDigits 10 n)
      = Nat.ofDigitChars 10 (Nat.toDigits 10 n) 0 := by
        rw [Nat.ofDigitChars_eq_foldl, decimalValue]
        congr 1
        funext sofar c
        rw [Nat.mul_comm]
        rfl
    _ = n := Nat.ofDigitChars_ten_toDigits

/-- A number that fits 64 bits is read as it was written. -/
theorem lexNumber_toString {n : Nat} (h : n < 2 ^ 64) : lexNumber false (toString n).toList = (.natural n, []) := by
  have hwhole : (toString n).toList.takeWhile Char.isDigit = (toString n).toList :=
    List.takeWhile_eq_self_iff.2 isDigit_toString
  have hrest : (toString n).toList.dropWhile Char.isDigit = [] := List.dropWhile_eq_nil_iff.2 isDigit_toString
  have hsmall : ¬Nat.pow 2 64 ≤ n := Nat.not_le.2 h
  rw [lexNumber, hwhole, hrest]
  split
  · next hnil => exact absurd hnil (toString_ne_nil n)
  · next hzero =>
    have hlead := toString_leading (n := n) (by rw [hzero]; rfl)
    rw [hlead] at hzero
    cases hzero
  · simp only [lexFraction_eq, decimalValue_toString, if_neg hsmall]
    rfl

theorem token_numeral {n : Nat} (h : n < 2 ^ 64) : (Lexeme.number (numeral n)).token = .number (.natural n) := by
  obtain ⟨c, cs, hc, hd⟩ := (numeral n).whole.cases
  have htext : (Lexeme.number (numeral n)).text = c :: cs := by rw [text_numeral, ← hc]; rfl
  have hread := lexNumber_toString h
  rw [← text_numeral, htext] at hread
  rw [Lexeme.token, htext]
  simp only [lexToken_digit hd, hread]

/-- The token of a text. -/
def wordToken (s : String) : Token := .text ((lettersOf s).map Letter.piece) none

theorem token_string (s : String) : (Lexeme.string (lettersOf s)).token = wordToken s := token_of_reads (reads_string _)

/-- The tokens of a value. -/
def row (j : Json) : List Token := j.lexemes.map Lexeme.token

/-- What stands before an item or a member. -/
def lead (first : Bool) : List Token := if first then [] else [.comma]

def itemRow : Bool → List Json → List Token
  | _, [] => []
  | first, j :: rest => lead first ++ (j.row ++ itemRow false rest)

def memberRow : Bool → List (String × Json) → List Token
  | _, [] => []
  | first, (k, j) :: rest => lead first ++ (wordToken k :: .colon :: (j.row ++ memberRow false rest))

theorem map_itemLexemes (items : List Json) : (itemLexemes items).map Lexeme.token = itemRow true items := by
  induction items with
  | nil => rfl
  | cons j rest ih =>
    cases rest with
    | nil => simp [itemLexemes, itemRow, lead, row]
    | cons k rest =>
      rw [itemLexemes, List.map_append, List.map_cons, ih]
      · rfl
      · simp

theorem map_memberLexemes (members : List (String × Json)) :
    (memberLexemes members).map Lexeme.token = memberRow true members := by
  induction members with
  | nil => rfl
  | cons m rest ih =>
    obtain ⟨k, j⟩ := m
    cases rest with
    | nil =>
      rw [memberLexemes, List.map_cons, List.map_cons, token_string, memberRow, memberRow, List.append_nil]
      rfl
    | cons m rest =>
      rw [memberLexemes, List.map_cons, List.map_cons, List.map_append, List.map_cons, ih, token_string]
      · rfl
      · simp

@[simp] theorem row_null : row null = [.null] := rfl

@[simp] theorem row_bool (b : Bool) : row (bool b) = [.bool b] := by cases b <;> rfl

@[simp] theorem row_text (s : String) : row (text s) = [wordToken s] := congrArg ([·]) (token_string s)

@[simp] theorem row_list (items : List Json) : row (list items) = .openList :: (itemRow true items ++ [.closeList]) := by
  rw [← map_itemLexemes, row, lexemes, List.map_cons, List.map_append]
  rfl

@[simp] theorem row_object (members : List (String × Json)) :
    row (object members) = .openObject :: (memberRow true members ++ [.closeObject]) := by
  rw [← map_memberLexemes, row, lexemes, List.map_cons, List.map_append]
  rfl

/-- No value opens with a token that would end or part a list, and only `null` with `null`. -/
theorem row_head (j : Json) :
    ∃ t ts, j.row = t :: ts ∧ t ≠ .closeList ∧ t ≠ .comma ∧ (t = .null → j = .null) := by
  cases j with
  | number n =>
    obtain ⟨m, -, hreads⟩ := reads_number (numeral n)
    exact ⟨_, _, rfl, by rw [token_of_reads hreads]; simp⟩
  | text s => exact ⟨_, _, row_text s, by simp [wordToken]⟩
  | bool b => exact ⟨_, _, row_bool b, by simp⟩
  | list items => exact ⟨_, _, row_list items, by simp⟩
  | object members => exact ⟨_, _, row_object members, by simp⟩
  | null => exact ⟨_, _, rfl, by simp [Lexeme.token, Lexeme.text, lexToken, lexWord]⟩

/-! ## Reading lists and objects -/

variable {item : Reader} {items : List Json} {members given : List (String × Json)} {fields : List FieldReader}
  {ts : List Token} {fuel : Nat}

/-- A reader gives back the value whose tokens come first. -/
def ReadsRow (item : Reader) (j : Json) : Prop := ∀ ts, item (j.row ++ ts) = .ok (j, ts)

theorem listGoesOn_row (first : Bool) (j : Json) (ts : List Token) :
    listGoesOn first (lead first ++ (j.row ++ ts)) = .ok (true, j.row ++ ts) := by
  obtain ⟨t, tail, hrow, hclose, hcomma, -⟩ := j.row_head
  rw [hrow]
  cases first with
  | true => cases t <;> simp_all [listGoesOn, lead]
  | false => cases t <;> simp_all [listGoesOn, lead]

theorem readItems_row (first : Bool) (hitems : ∀ j ∈ items, ReadsRow item j) (hfuel : items.length < fuel) :
    readItems item fuel first (itemRow first items ++ .closeList :: ts) = .ok (items, .closeList :: ts) := by
  induction items generalizing fuel first with
  | nil =>
    obtain ⟨fuel, rfl⟩ : ∃ k, fuel = k + 1 := ⟨fuel - 1, by omega⟩
    rfl
  | cons j items ih =>
    obtain ⟨fuel, rfl⟩ : ∃ k, fuel = k + 1 := ⟨fuel - 1, by simp at hfuel; omega⟩
    obtain ⟨hj, hitems⟩ := List.forall_mem_cons.1 hitems
    have hrest := ih false hitems (Nat.lt_of_succ_lt_succ hfuel)
    rw [itemRow, List.append_assoc, List.append_assoc, readItems, listGoesOn_row]
    change (item _ >>= _) = _
    rw [hj]
    change (readItems item fuel false _ >>= _) = _
    rw [hrest]
    rfl

theorem length_itemRow (first : Bool) (items : List Json) : items.length ≤ (itemRow first items).length := by
  induction items generalizing first with
  | nil => simp
  | cons j items ih =>
    obtain ⟨t, tail, hrow, -⟩ := j.row_head
    have hrest := ih false
    simp only [itemRow, hrow, List.length_append, List.length_cons]
    omega

theorem length_memberRow (first : Bool) (members : List (String × Json)) :
    members.length ≤ (memberRow first members).length := by
  induction members generalizing first with
  | nil => simp
  | cons m members ih =>
    have hrest := ih false
    simp only [memberRow, List.length_append, List.length_cons]
    omega

theorem memberRow_fuel (members : List (String × Json)) (ts : List Token) :
    members.length < (memberRow true members ++ .closeObject :: ts).length + 1 := by
  have hlength := length_memberRow true members
  rw [List.length_append]
  omega

theorem readText_row (s : String) : ReadsRow readText (text s) := by
  intro ts
  rw [row_text, List.singleton_append, wordToken, readText, lettersOf, decode_letters]
  simp [Except.map]

theorem nextKey_row (first : Bool) (k : String) (ts : List Token) :
    nextKey first (lead first ++ wordToken k :: ts) = .ok (some k, ts) := by
  have hkey := decode_letters k.toList
  cases first <;>
  · simp only [lead, wordToken, lettersOf, nextKey, hkey, List.nil_append, List.cons_append, Bool.false_eq_true,
      if_true, if_false]
    simp [Except.map]

theorem readMembers_row (first : Bool) (hmembers : ∀ m ∈ members, ReadsRow item m.2) (hfuel : members.length < fuel) :
    readMembers item fuel first (memberRow first members ++ .closeObject :: ts) = .ok (members, .closeObject :: ts) := by
  induction members generalizing fuel first with
  | nil =>
    obtain ⟨fuel, rfl⟩ : ∃ k, fuel = k + 1 := ⟨fuel - 1, by omega⟩
    rfl
  | cons m members ih =>
    obtain ⟨k, j⟩ := m
    obtain ⟨fuel, rfl⟩ : ∃ k, fuel = k + 1 := ⟨fuel - 1, by simp at hfuel; omega⟩
    obtain ⟨hj, hmembers⟩ := List.forall_mem_cons.1 hmembers
    have hrest := ih false hmembers (Nat.lt_of_succ_lt_succ hfuel)
    rw [memberRow, List.append_assoc, List.cons_append, List.cons_append, List.append_assoc, readMembers, nextKey_row]
    change (item _ >>= _) = _
    rw [hj]
    change (readMembers item fuel false _ >>= _) = _
    rw [hrest]
    rfl

/-! ## Reading records -/

theorem lookup_eq_some {k : String} {j : Json} (hnames : (members.map Prod.fst).Nodup) (h : (k, j) ∈ members) :
    members.lookup k = some j := by
  obtain ⟨above, below, rfl⟩ := List.append_of_mem h
  refine List.lookup_eq_some_iff.2 ⟨above, below, rfl, fun m hm => ?_⟩
  rw [List.map_append, List.map_cons, List.nodup_append] at hnames
  have hne := hnames.2.2 m.1 (List.mem_map_of_mem hm) k (by simp)
  simpa using Ne.symm hne

theorem settle_eq (hnames : members.map Prod.fst = fields.map (·.name))
    (hgiven : ∀ m ∈ members, given.lookup m.1 = some m.2) : settle given fields = .ok members := by
  induction fields generalizing members with
  | nil =>
    obtain rfl : members = [] := by simpa using hnames
    rfl
  | cons f fields ih =>
    obtain ⟨m, members, rfl⟩ : ∃ m more, members = m :: more := by
      cases members with
      | nil => simp at hnames
      | cons m more => exact ⟨m, more, rfl⟩
    rw [List.map_cons, List.map_cons, List.cons.injEq] at hnames
    obtain ⟨hm, hgiven⟩ := List.forall_mem_cons.1 hgiven
    rw [settle, ← hnames.1, hm, ih hnames.2 hgiven]
    rfl

/-- The reader of a field, and that it gives back a value. -/
def FindsField (fields : List FieldReader) (name : String) (j : Json) : Prop :=
  ∃ f, fields.find? (·.name = name) = some f ∧ ReadsRow f.read j

theorem readObject_row (closed first : Bool) (hmembers : ∀ m ∈ members, FindsField fields m.1 m.2)
    (hnames : ((given ++ members).map Prod.fst).Nodup) (hfuel : members.length < fuel) :
    readObject closed fields fuel first given.reverse (memberRow first members ++ .closeObject :: ts) =
      (settle (given ++ members).reverse fields).map (·, .closeObject :: ts) := by
  -- What was read before is `given`, kept last first. No name comes twice, so each member is new.
  induction members generalizing fuel first given with
  | nil =>
    obtain ⟨fuel, rfl⟩ : ∃ k, fuel = k + 1 := ⟨fuel - 1, by omega⟩
    rw [List.append_nil]
    change (settle given.reverse fields >>= fun ms => pure (ms, .closeObject :: ts)) = _
    cases settle given.reverse fields <;> rfl
  | cons m members ih =>
    obtain ⟨k, j⟩ := m
    obtain ⟨fuel, rfl⟩ : ∃ k, fuel = k + 1 := ⟨fuel - 1, by simp at hfuel; omega⟩
    obtain ⟨⟨f, hfind, hf⟩, hmembers⟩ := List.forall_mem_cons.1 hmembers
    have hnew : given.reverse.lookup k = none := by
      refine List.lookup_eq_none_iff.2 fun m hm => ?_
      rw [List.map_append, List.nodup_append] at hnames
      simpa using Ne.symm (hnames.2.2 m.1 (List.mem_map_of_mem (List.mem_reverse.1 hm)) k (by simp))
    have hnames' : ((given ++ [(k, j)] ++ members).map Prod.fst).Nodup := by simpa using hnames
    have hrest := ih false hmembers hnames' (Nat.lt_of_succ_lt_succ hfuel)
    rw [List.append_assoc, List.singleton_append, List.reverse_append, List.reverse_singleton,
      List.singleton_append] at hrest
    rw [memberRow, List.append_assoc, List.cons_append, List.cons_append, List.append_assoc, readObject, nextKey_row]
    simp only [bind, Except.bind, hfind, hnew, Option.isSome_none, Bool.false_eq_true, if_false]
    change (f.read _ >>= _) = _
    rw [hf]
    exact hrest

/-! ## Reading values of a shape -/

mutual

/-- No field of a record has the name of another, and what stands for a field that is not written
is a value of it. -/
def Shape.Sound : Shape → Prop
  | .option s | .list s | .table s => s.Sound
  | .record _ fields => fields.Sound
  | .text | .bool | .word32 | .choice _ => True

def Fields.Sound : Fields → Prop
  | .nil => True
  | .cons name s absent rest =>
    s.Sound ∧ (∀ j, absent.value? = some j → s.Fits j) ∧ name ∉ rest.names ∧ rest.Sound

end

section

variable (s : Shape) (fields : Fields)

@[simp] theorem Shape.sound_text : Shape.text.Sound := trivial

@[simp] theorem Shape.sound_bool : Shape.bool.Sound := trivial

@[simp] theorem Shape.sound_word32 : Shape.word32.Sound := trivial

@[simp] theorem Shape.sound_choice (names : List String) : (Shape.choice names).Sound := trivial

@[simp] theorem Shape.sound_option : s.option.Sound ↔ s.Sound := Iff.rfl

@[simp] theorem Shape.sound_list : s.list.Sound ↔ s.Sound := Iff.rfl

@[simp] theorem Shape.sound_record (closed : Bool) : (Shape.record closed fields).Sound ↔ fields.Sound := Iff.rfl

@[simp] theorem Fields.sound_nil : Fields.nil.Sound := trivial

@[simp] theorem Fields.sound_cons (name : String) (absent : Absent) : (Fields.cons name s absent fields).Sound ↔
    s.Sound ∧ (∀ j, absent.value? = some j → s.Fits j) ∧ name ∉ fields.names ∧ fields.Sound := Iff.rfl

end

theorem Fields.mem_names {name : String} {j : Json} : ∀ {fields : Fields}, fields.Fits name j → name ∈ fields.names
  | .cons n _ _ _, .inl h => by simp [Fields.names, h.1]
  | .cons n _ _ rest, .inr h => List.mem_cons_of_mem n (@Fields.mem_names _ _ rest h)

theorem Fields.nodup_names : ∀ {fields : Fields}, fields.Sound → fields.names.Nodup
  | .nil, _ => List.nodup_nil
  | .cons _ _ _ _, ⟨_, _, hnew, hrest⟩ => List.nodup_cons.2 ⟨hnew, Fields.nodup_names hrest⟩

mutual

/-- A value is read from its tokens, where a shape is asked for that it fits. -/
theorem read_row : ∀ {s : Shape} {j : Json}, s.Sound → s.Fits j → ReadsRow (read s) j
  | .text, .text t, _, _ => by
    rw [read]
    exact readText_row t
  | .bool, .bool b, _, _ => by
    rw [read]
    exact fun ts => by rw [row_bool]; rfl
  | .word32, .number n, _, h => by
    intro ts
    have hword : n < Nat.pow 2 32 := h
    have hsmall : n < 2 ^ 64 := Nat.lt_trans hword (by decide)
    rw [read, row, lexemes, List.map_singleton, token_numeral hsmall, List.singleton_append, readWord32, if_pos hword]
  | .choice names, .text t, _, h => by
    intro ts
    have hmem : t ∈ names := h
    have htext := readText_row t ts
    rw [row_text, List.singleton_append] at htext ⊢
    rw [read, wordToken, readChoice, ← wordToken, htext]
    exact if_pos (by simpa using hmem)
  | .option s, j, hs, h => by
    intro ts
    -- The first token tells whether nothing is there, since no other value begins with `null`.
    obtain ⟨t, tail, hrow, -, -, hnull⟩ := j.row_head
    by_cases hj : j = .null
    · rw [hj, read]
      rfl
    · have hfits : s.Fits j := h.resolve_left hj
      have hread := read_row (s := s) (j := j) hs hfits ts
      have ht : t ≠ .null := fun ht => hj (hnull ht)
      rw [hrow, List.cons_append] at hread ⊢
      rw [read]
      dsimp only
      split
      · next hnil => cases hnil
      · next hcons => exact absurd (List.cons.inj hcons).1 ht
      · exact hread
  | .list s, .list items, hs, h => by
    intro ts
    have hitems : ∀ j ∈ items, ReadsRow (read s) j := fun j hj => read_row hs (h j hj)
    have hfuel : items.length < (itemRow true items ++ .closeList :: ts).length + 1 := by
      have hlength := length_itemRow true items
      rw [List.length_append]
      omega
    rw [row_list, List.cons_append, List.append_assoc, List.singleton_append, read]
    dsimp only
    rw [readItems_row true hitems hfuel]
    rfl
  | .table s, .object members, hs, h => by
    intro ts
    have hmembers : ∀ m ∈ members, ReadsRow (read s) m.2 := fun m hm => read_row hs (h m hm)
    have hfuel := memberRow_fuel members ts
    rw [row_object, List.cons_append, List.append_assoc, List.singleton_append, read]
    dsimp only
    rw [readMembers_row true hmembers hfuel]
    rfl
  | .record closed fields, .object members, hs, ⟨hnames, h⟩ => by
    intro ts
    have hmembers : ∀ m ∈ members, FindsField (readers fields) m.1 m.2 := fun m hm => read_field hs (h m hm)
    have hnodup : (members.map Prod.fst).Nodup := hnames ▸ Fields.nodup_names hs
    have hfuel := memberRow_fuel members ts
    have hread := @readObject_row members [] (readers fields) ts _ closed true hmembers hnodup hfuel
    have hsettle : settle members.reverse (readers fields) = .ok members := by
      refine settle_eq (hnames.trans (names_readers fields).symm) fun m hm => lookup_eq_some ?_ (List.mem_reverse.2 hm)
      rwa [List.map_reverse, List.nodup_reverse]
    rw [List.nil_append, hsettle] at hread
    rw [row_object, List.cons_append, List.append_assoc, List.singleton_append, read]
    dsimp only
    rw [← List.reverse_nil, hread]
    rfl

theorem read_field : ∀ {fields : Fields} {name : String} {j : Json}, fields.Sound → fields.Fits name j →
    FindsField (readers fields) name j
  | .cons n s absent rest, name, j, ⟨hs, habsent, _, _⟩, .inl ⟨hname, h⟩ => by
    refine ⟨⟨n, read s, absent⟩, ?_, read_row hs (h.elim id (habsent j))⟩
    rw [readers, List.find?_cons_of_pos (by simpa using hname)]
  | .cons n s absent rest, name, j, ⟨_, _, hnew, hrest⟩, .inr h => by
    obtain ⟨f, hfind, hf⟩ := read_field hrest h
    have hne : n ≠ name := fun hname => hnew (hname ▸ Fields.mem_names h)
    refine ⟨f, ?_, hf⟩
    rw [readers, List.find?_cons_of_neg (by simpa using hne), hfind]

end

/-- A value is read from any document it is written as. -/
theorem parse_lexemes {s : Shape} {j : Json} (hs : s.Sound) (h : s.Fits j) {t : List Char}
    (ht : IsDocument j.lexemes t) : parse s t = .ok j := by
  have hread := read_row hs h []
  rw [List.append_nil] at hread
  rw [parse, tokens_document ht, ← row, hread]
  rfl

/-! ## Types -/

section
variable {α : Type}

/-- What is written for a value is read as that value, on one line and with one member a line. -/
structure Codec.ReadsBack (c : Codec α) (x : α) : Prop where
  compact : c.parse (c.write x) = .ok x
  pretty : c.parse (c.writePretty x) = .ok x

/-- The written form of a value is of the shape that is asked for, and is taken apart as it was put
together. -/
structure Codec.Faithful (c : Codec α) (x : α) : Prop where
  fits : c.shape.Fits (c.encode x)
  decodes : c.decode? (c.encode x) = some x

variable {c : Codec α} {x : α}

theorem Codec.parse_eq {j : Json} {t : String} (hread : Json.parse c.shape t.toList = .ok j)
    (h : c.decode? j = some x) : c.parse t = .ok x := by
  simp only [Codec.parse, hread, bind, Except.bind, h]
  rfl

theorem Codec.Faithful.readsBack (h : c.Faithful x) (hc : c.shape.Sound) : c.ReadsBack x := by
  constructor
  · refine Codec.parse_eq ?_ h.decodes
    rw [Codec.write, Json.compact, String.toList_ofList]
    exact parse_lexemes hc h.fits (compact_isDocument _)
  · refine Codec.parse_eq ?_ h.decodes
    rw [Codec.writePretty, Json.pretty, String.toList_ofList]
    exact parse_lexemes hc h.fits (pretty_isDocument _)

theorem asList?_map (f : Json → Option α) (g : α → Json) (xs : List α) (h : ∀ x ∈ xs, f (g x) = some x) :
    (list (xs.map g)).asList? f = some xs := by
  rw [asList?]
  induction xs with
  | nil => rfl
  | cons x xs ih =>
    obtain ⟨hx, hxs⟩ := List.forall_mem_cons.1 h
    rw [List.map_cons, List.mapM_cons, hx, ih hxs]
    rfl

end

theorem asTexts?_ofTexts (ss : List String) : (ofTexts ss).asTexts? = some ss :=
  asList?_map asText? text ss fun _ _ => rfl

theorem sound_language : languageCodec.shape.Sound := trivial

theorem faithful_language (l : Language) : languageCodec.Faithful l := by
  cases l <;> exact ⟨by simp [languageCodec, Language.all], by decide⟩

theorem sound_edge : edgeCodec.shape.Sound := by
  simp [edgeCodec, Fields.required]

theorem faithful_edge (e : Edge) : edgeCodec.Faithful e :=
  ⟨by simp [edgeCodec, Fields.required], rfl⟩

theorem sound_symbol : symbolCodec.shape.Sound := by
  simp [symbolCodec]

theorem faithful_symbol (s : Symbol) : symbolCodec.Faithful s := by
  obtain ⟨name, kind, signature, doc⟩ := s
  constructor
  · cases kind <;> cases doc <;> simp [symbolCodec, SymbolKind.all]
  · cases kind <;> cases doc <;> rfl

theorem sound_file : fileCodec.shape.Sound := by
  have hsymbol := sound_symbol
  simp [fileCodec, Fields.required, hsymbol]

theorem faithful_file (f : FileNode) : fileCodec.Faithful f := by
  have hsymbol : ∀ s, symbolCodec.shape.Fits (symbolCodec.encode s) := fun s => (faithful_symbol s).fits
  have hdecode := asList?_map symbolCodec.decode? symbolCodec.encode f.symbols fun s _ => (faithful_symbol s).decodes
  constructor
  · simp [fileCodec, Fields.required, hsymbol]
  · simp [fileCodec, hdecode]

theorem sound_settings : settingsCodec.shape.Sound := by
  simp [settingsCodec]

theorem faithful_settings (s : Settings) : settingsCodec.Faithful s := by
  constructor
  · simp [settingsCodec, ofTexts]
  · simp [settingsCodec, asTexts?_ofTexts]

theorem sound_nodeLink : nodeLinkCodec.shape.Sound := by
  simp [nodeLinkCodec, graphNodeCodec, graphLinkCodec, Fields.required]

end ImportAtlas.Json

namespace ImportAtlas

/-- The numbers of the nodes and links have at most 32 bits. -/
structure NodeLink.IsWide (g : NodeLink) : Prop where
  groups : ∀ n ∈ g.nodes, n.group < 2 ^ 32
  values : ∀ l ∈ g.links, l.value < 2 ^ 32

namespace Json

theorem faithful_nodeLink {g : NodeLink} (h : g.IsWide) : nodeLinkCodec.Faithful g := by
  have hnodes : ∀ n ∈ g.nodes, graphNodeCodec.shape.Fits (graphNodeCodec.encode n) := by
    intro n hn
    have hgroup := h.groups n hn
    simpa [graphNodeCodec, Fields.required] using hgroup
  have hlinks : ∀ l ∈ g.links, graphLinkCodec.shape.Fits (graphLinkCodec.encode l) := by
    intro l hl
    have hvalue := h.values l hl
    simpa [graphLinkCodec, Fields.required] using hvalue
  have hreadNodes := asList?_map graphNodeCodec.decode? graphNodeCodec.encode g.nodes fun _ _ => rfl
  have hreadLinks := asList?_map graphLinkCodec.decode? graphLinkCodec.encode g.links fun _ _ => rfl
  constructor
  · simpa [nodeLinkCodec, Fields.required] using ⟨hnodes, hlinks⟩
  · simp [nodeLinkCodec, hreadNodes, hreadLinks]

/-- What is written of a file, a symbol, an edge, a language, settings, or nodes and links is read as
what was written, whatever texts they hold. -/
theorem written_read_back :
    (∀ f : FileNode, fileCodec.ReadsBack f) ∧ (∀ s : Symbol, symbolCodec.ReadsBack s) ∧
      (∀ e : Edge, edgeCodec.ReadsBack e) ∧ (∀ l : Language, languageCodec.ReadsBack l) ∧
      (∀ s : Settings, settingsCodec.ReadsBack s) ∧ (∀ g : NodeLink, g.IsWide → nodeLinkCodec.ReadsBack g) := by
  refine ⟨fun f => ?_, fun s => ?_, fun e => ?_, fun l => ?_, fun s => ?_, fun g h => ?_⟩
  · exact (faithful_file f).readsBack sound_file
  · exact (faithful_symbol s).readsBack sound_symbol
  · exact (faithful_edge e).readsBack sound_edge
  · exact (faithful_language l).readsBack sound_language
  · exact (faithful_settings s).readsBack sound_settings
  · exact (faithful_nodeLink h).readsBack sound_nodeLink

/-- Nodes and links with a quote, a backslash and a control character in a name, and the largest number. -/
theorem written_read_back_escapes :
    let g : NodeLink := ⟨[⟨"a\"\\b", 1⟩, ⟨"\x00é😀", 4294967295⟩], [⟨"a\"\\b", "\x00é😀", 1⟩]⟩
    g.IsWide ∧ nodeLinkCodec.ReadsBack g := by
  refine ⟨⟨by decide, by decide⟩, written_read_back.2.2.2.2.2 _ ⟨by decide, by decide⟩⟩

end Json

end ImportAtlas
