import ImportAtlas.Json.Shape
import ImportAtlas.Proofs.LexedTexts
/-!
# Values that are passed over

The grammar of documents again, for tokens: lexemes are formed as the tokens of their kinds are
(`forms_of_shaped`). What is passed over as a value is one (`skipValue_takes`). Passing over goes
on while lists and objects are open, so what is known of it is told of the innermost of them: what
comes before its closing bracket, and that the rest is done after it (`Passing`).
-/

namespace ImportAtlas.Json

/-! ## Grammar of tokens -/

def Token.IsScalar : Token → Prop
  | .null | .bool _ => True
  | .number n => n.IsWhole
  | .text _ fault => fault = none
  | _ => False

/-- What a row of tokens may be formed as. -/
inductive Shaped : Phrase → List Token → Prop
  | scalar {t : Token} : t.IsScalar → Shaped .value [t]
  | emptyList : Shaped .value [.openList, .closeList]
  | list {ts : List Token} : Shaped .items ts → Shaped .value (.openList :: (ts ++ [.closeList]))
  | emptyObject : Shaped .value [.openObject, .closeObject]
  | object {ts : List Token} : Shaped .members ts → Shaped .value (.openObject :: (ts ++ [.closeObject]))
  | item {v : List Token} : Shaped .value v → Shaped .items v
  | items {v ts : List Token} : Shaped .value v → Shaped .items ts → Shaped .items (v ++ .comma :: ts)
  | member (key : List Piece) {v : List Token} : Shaped .value v → Shaped .members (.text key none :: .colon :: v)
  | members (key : List Piece) {v ts : List Token} : Shaped .value v → Shaped .members ts →
      Shaped .members (.text key none :: .colon :: (v ++ .comma :: ts))

variable {p : Phrase} {t : Token} {ts us rest : List Token} {ls : List Lexeme} {open_ : List Bool} {object first : Bool}

theorem Shaped.whole (h : Shaped p ts) : ∀ t ∈ ts, t.IsWhole := by
  induction h with
  | @scalar t h =>
    rw [List.forall_mem_singleton]
    cases t with
    | text | number => exact h
    | null | bool => trivial
    | _ => exact h.elim
  | emptyList | emptyObject => simp [Token.IsWhole]
  | list _ ih | object _ ih => simpa [or_imp, forall_and, Token.IsWhole] using ih
  | item _ ih => exact ih
  | items _ _ ihv ihts => simpa [or_imp, forall_and, Token.IsWhole] using ⟨ihv, ihts⟩
  | member _ _ ih => simpa [Token.IsWhole] using ih
  | members _ _ _ ihv ihts => simpa [or_imp, forall_and, Token.IsWhole] using ⟨ihv, ihts⟩

theorem kin_append (h : List.Forall₂ Lexeme.Kin ls (ts ++ us)) :
    ∃ xs ys, ls = xs ++ ys ∧ List.Forall₂ Lexeme.Kin xs ts ∧ List.Forall₂ Lexeme.Kin ys us :=
  ⟨ls.take ts.length, ls.drop ts.length, (List.take_append_drop _ _).symm, List.forall₂_take_append _ _ _ h,
    List.forall₂_drop_append _ _ _ h⟩

/-- The lexemes between two brackets. -/
theorem kin_enclosed {a b : Token} (h : List.Forall₂ Lexeme.Kin ls (a :: (ts ++ [b]))) :
    ∃ x xs y, ls = x :: (xs ++ [y]) ∧ x.Kin a ∧ List.Forall₂ Lexeme.Kin xs ts ∧ y.Kin b := by
  obtain ⟨x, zs, hx, hzs, rfl⟩ := List.forall₂_cons_right_iff.1 h
  obtain ⟨xs, ys, rfl, hxs, hys⟩ := kin_append hzs
  obtain ⟨y, _, hy, hnil, rfl⟩ := List.forall₂_cons_right_iff.1 hys
  cases hnil
  exact ⟨x, xs, y, rfl, hx, hxs, hy⟩

/-- The lexemes on both sides of a comma. -/
theorem kin_parted (h : List.Forall₂ Lexeme.Kin ls (ts ++ .comma :: us)) :
    ∃ xs ys, ls = xs ++ .comma :: ys ∧ List.Forall₂ Lexeme.Kin xs ts ∧ List.Forall₂ Lexeme.Kin ys us := by
  obtain ⟨xs, zs, rfl, hxs, hzs⟩ := kin_append h
  obtain ⟨_, ys, hcomma, hys, rfl⟩ := List.forall₂_cons_right_iff.1 hzs
  cases hcomma
  exact ⟨xs, ys, rfl, hxs, hys⟩

/-- The lexemes of a key, and those after it. -/
theorem kin_keyed {key : List Piece} (h : List.Forall₂ Lexeme.Kin ls (.text key none :: .colon :: ts)) :
    ∃ letters xs, ls = .string letters :: .colon :: xs ∧ List.Forall₂ Lexeme.Kin xs ts := by
  obtain ⟨_, zs, hkey, hzs, rfl⟩ := List.forall₂_cons_right_iff.1 h
  obtain ⟨_, xs, hcolon, hxs, rfl⟩ := List.forall₂_cons_right_iff.1 hzs
  cases hkey with
  | string letters =>
    cases hcolon
    exact ⟨letters, xs, rfl, hxs⟩

/-- Lexemes are formed as the tokens of their kinds are. -/
theorem forms_of_shaped (h : Shaped p ts) (hls : List.Forall₂ Lexeme.Kin ls ts) : Forms p ls ls := by
  -- Along the phrase: each kind of token has one kind of lexeme, so the row is taken apart as the tokens are.
  induction h generalizing ls with
  | @scalar t h =>
    obtain ⟨l, _, hl, hnil, rfl⟩ := List.forall₂_cons_right_iff.1 hls
    cases hnil
    cases hl with
    | null | bool | number | string => exact .scalar rfl
    | _ => exact h.elim
  | emptyList =>
    have hempty : List.Forall₂ Lexeme.Kin ls (.openList :: ([] ++ [.closeList])) := hls
    obtain ⟨x, xs, y, rfl, hx, hxs, hy⟩ := kin_enclosed hempty
    cases hx
    cases hxs
    cases hy
    exact .emptyList
  | list _ ih =>
    obtain ⟨x, xs, y, rfl, hx, hxs, hy⟩ := kin_enclosed hls
    cases hx
    cases hy
    exact .list false (ih hxs)
  | emptyObject =>
    have hempty : List.Forall₂ Lexeme.Kin ls (.openObject :: ([] ++ [.closeObject])) := hls
    obtain ⟨x, xs, y, rfl, hx, hxs, hy⟩ := kin_enclosed hempty
    cases hx
    cases hxs
    cases hy
    exact .emptyObject
  | object _ ih =>
    obtain ⟨x, xs, y, rfl, hx, hxs, hy⟩ := kin_enclosed hls
    cases hx
    cases hy
    exact .object false (ih hxs)
  | item _ ih => exact .item (ih hls)
  | items _ _ ihv ihts =>
    obtain ⟨xs, ys, rfl, hxs, hys⟩ := kin_parted hls
    exact .items (ihv hxs) (ihts hys)
  | member key _ ih =>
    obtain ⟨letters, xs, rfl, hxs⟩ := kin_keyed hls
    exact .member letters (ih hxs)
  | members key _ _ ihv ihts =>
    obtain ⟨letters, zs, rfl, hzs⟩ := kin_keyed hls
    obtain ⟨xs, ys, rfl, hxs, hys⟩ := kin_parted hzs
    exact .members letters (ihv hxs) (ihts hys)

/-! ## Between brackets -/

def phraseIn (object : Bool) : Phrase := if object then .members else .items

def opening (object : Bool) : Token := if object then .openObject else .openList

def closing (object : Bool) : Token := if object then .closeObject else .closeList

/-- What may stand before the closing bracket: nothing, or some items or members, after a comma if
they are not the first. -/
inductive Part (object : Bool) : Bool → List Token → Prop
  | nil (first : Bool) : Part object first []
  | first {ts : List Token} : Shaped (phraseIn object) ts → Part object true ts
  | next {ts : List Token} : Shaped (phraseIn object) ts → Part object false (.comma :: ts)

theorem Part.enclosed (h : Part object true ts) : Shaped .value (opening object :: (ts ++ [closing object])) := by
  cases h with
  | nil => cases object <;> first | exact .emptyList | exact .emptyObject
  | first h => cases object <;> first | exact .list h | exact .object h

theorem Part.item {v : List Token} (hv : Shaped .value v) (h : Part false false ts) : Shaped .items (v ++ ts) := by
  cases h with
  | nil =>
    rw [List.append_nil]
    exact .item hv
  | next h => exact .items hv h

theorem Part.member {v : List Token} (key : List Piece) (hv : Shaped .value v) (h : Part true false ts) :
    Shaped .members (.text key none :: .colon :: (v ++ ts)) := by
  cases h with
  | nil =>
    rw [List.append_nil]
    exact .member key hv
  | next h => exact .members key hv h

/-! ## Passing over a value -/

/-- What is passed over of some tokens, with what is left in the end. -/
structure Passing (rest ts : List Token) : Prop where
  value : ∀ {open_}, skip open_ .value ts = .ok rest →
    ∃ v us, ts = v ++ us ∧ Shaped .value v ∧ resume open_ us = .ok rest
  inside : ∀ {object open_} (first : Bool), skip (object :: open_) (if first then .first else .next) ts = .ok rest →
    ∃ part us, ts = part ++ closing object :: us ∧ Part object first part ∧ resume open_ us = .ok rest
  key : ∀ {open_}, skip (true :: open_) .key ts = .ok rest →
    ∃ part us, ts = part ++ .closeObject :: us ∧ Shaped .members part ∧ resume open_ us = .ok rest

theorem skip_value_eq (open_ : List Bool) (t : Token) (us : List Token) :
    skip open_ .value (t :: us) =
      match t with
      | .openList => skip (false :: open_) .first us
      | .openObject => skip (true :: open_) .first us
      | t =>
        match t.scalarFault with
        | some f => .error f
        | none => resume open_ us := by
  cases t <;> rfl

theorem isScalar_of_scalarFault (h : t.scalarFault = none) (hlist : t ≠ .openList) (hobject : t ≠ .openObject) :
    t.IsScalar := by
  cases t with
  | number n =>
    intro atEnd hbroken
    rw [hbroken] at h
    cases h
  | text pieces fault => exact h
  | openList => exact absurd rfl hlist
  | openObject => exact absurd rfl hobject
  | null | bool => trivial
  | _ => cases h

section Step

variable (ih : ∀ us, us.length < ts.length → Passing rest us)
include ih

theorem value_passing {open_ : List Bool} (h : skip open_ .value ts = .ok rest) :
    ∃ v us, ts = v ++ us ∧ Shaped .value v ∧ resume open_ us = .ok rest := by
  have hbracket : ∀ (object : Bool) {us : List Token}, ts = opening object :: us →
      skip (object :: open_) .first us = .ok rest →
      ∃ v us, ts = v ++ us ∧ Shaped .value v ∧ resume open_ us = .ok rest := by
    intro object us hts hskip
    obtain ⟨part, more, rfl, hpart, hrest⟩ := (ih us (by simp [hts])).inside true hskip
    exact ⟨_, more, by simp [hts], hpart.enclosed, hrest⟩
  cases ts with
  | nil => cases h
  | cons t us =>
    rw [skip_value_eq] at h
    split at h
    · exact hbracket false rfl h
    · exact hbracket true rfl h
    · next hlist hobject =>
      split at h
      · cases h
      · next hfault => exact ⟨[t], us, rfl, .scalar (isScalar_of_scalarFault hfault hlist hobject), h⟩

theorem key_passing {open_ : List Bool} (h : skip (true :: open_) .key ts = .ok rest) :
    ∃ part us, ts = part ++ .closeObject :: us ∧ Shaped .members part ∧ resume open_ us = .ok rest := by
  cases ts with
  | nil => cases h
  | cons t us =>
    obtain ⟨key, rfl, h⟩ : ∃ key, t = .text key none ∧ skip (true :: open_) .colon us = .ok rest := by
      cases t with
      | text key fault =>
        cases fault with
        | none => exact ⟨key, rfl, h⟩
        | some f => cases h
      | _ => cases h
    obtain ⟨ws, rfl, h⟩ : ∃ ws, us = .colon :: ws ∧ skip (true :: open_) .value ws = .ok rest := by
      cases us with
      | nil => cases h
      | cons t ws =>
        cases t with
        | colon => exact ⟨ws, rfl, h⟩
        | _ => cases h
    obtain ⟨v, more, rfl, hv, hnext⟩ := (ih ws (by simp only [List.length_cons]; omega)).value h
    have hlength : more.length < (Token.text key none :: .colon :: (v ++ more)).length := by
      simp only [List.length_append, List.length_cons]
      omega
    obtain ⟨part, after, rfl, hpart, hrest⟩ := (ih more hlength).inside false hnext
    exact ⟨_, after, by simp [closing], hpart.member key hv, hrest⟩

theorem item_passing {open_ : List Bool} (h : skip (false :: open_) .value ts = .ok rest) :
    ∃ part us, ts = part ++ .closeList :: us ∧ Shaped .items part ∧ resume open_ us = .ok rest := by
  obtain ⟨v, more, rfl, hv, hnext⟩ := value_passing ih h
  have hlength : more.length < (v ++ more).length := by
    have hne : v ≠ [] := by
      rintro rfl
      cases hv
    have hpos := List.length_pos_iff.2 hne
    rw [List.length_append]
    omega
  obtain ⟨part, after, rfl, hpart, hrest⟩ := (ih more hlength).inside false hnext
  exact ⟨_, after, by simp [closing], hpart.item hv, hrest⟩

theorem inside_passing {object : Bool} {open_ : List Bool} (first : Bool)
    (h : skip (object :: open_) (if first then .first else .next) ts = .ok rest) :
    ∃ part us, ts = part ++ closing object :: us ∧ Part object first part ∧ resume open_ us = .ok rest := by
  cases ts with
  | nil => cases first <;> cases h
  | cons t us =>
    by_cases hclosing : t = closing object
    · subst hclosing
      have hresume : resume open_ us = .ok rest := by
        rw [← h]
        cases first <;> cases object <;> cases open_ <;> rfl
      exact ⟨[], us, rfl, .nil first, hresume⟩
    -- Nothing closes, so an item comes, after a comma unless it is the first. `ih` has all shorter rows.
    · cases first with
      | true =>
        cases object with
        | true =>
          have hkey : skip (true :: open_) .key (t :: us) = .ok rest := by
            rw [← h]
            cases t <;> first | rfl | exact absurd rfl hclosing
          obtain ⟨part, after, hts, hpart, hrest⟩ := key_passing ih hkey
          exact ⟨part, after, hts, .first hpart, hrest⟩
        | false =>
          have hvalue : skip (false :: open_) .value (t :: us) = .ok rest := by
            rw [← h]
            cases t <;> first | rfl | exact absurd rfl hclosing
          obtain ⟨part, after, hts, hpart, hrest⟩ := item_passing ih hvalue
          exact ⟨part, after, hts, .first hpart, hrest⟩
      | false =>
        obtain rfl : t = .comma := by
          cases t <;> first | rfl | (cases object <;> first | cases h | exact absurd rfl hclosing)
        have hshorter : ∀ ws, ws.length < us.length → Passing rest ws := fun ws hws => ih ws (Nat.lt_succ_of_lt hws)
        cases object with
        | true =>
          obtain ⟨part, after, rfl, hpart, hrest⟩ := (ih us (by simp)).key h
          exact ⟨.comma :: part, after, rfl, .next hpart, hrest⟩
        | false =>
          obtain ⟨part, after, rfl, hpart, hrest⟩ := item_passing hshorter h
          exact ⟨.comma :: part, after, rfl, .next hpart, hrest⟩

end Step

theorem passing (rest ts : List Token) : Passing rest ts := by
  induction hn : ts.length using Nat.strongRecOn generalizing ts with
  | ind n ih =>
    subst hn
    have hshorter : ∀ us, us.length < ts.length → Passing rest us := fun us hus => ih _ hus us rfl
    exact ⟨value_passing hshorter, inside_passing hshorter, key_passing hshorter⟩

/-- What is passed over is one value. -/
theorem skipValue_takes (h : skipValue ts = .ok rest) : ∃ v, ts = v ++ rest ∧ Shaped .value v := by
  obtain ⟨v, us, rfl, hv, hrest⟩ := (passing rest ts).value h
  cases hrest
  exact ⟨v, rfl, hv⟩

end ImportAtlas.Json
