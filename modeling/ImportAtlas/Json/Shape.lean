import ImportAtlas.Attempt
import ImportAtlas.Json.Token
/-!
# Reading values of a shape

A shape says what is asked for. A value is read from left to right and the first
thing that is not as asked ends the reading. A record may be written as an
object, with its fields in any order and others between them, or as the list of
its fields in their order. What `read` gives has the fields in their order, each
once.
-/

namespace ImportAtlas.Json

/-- What a field holds that is not written. A list that stands for a record has
to hold its optional fields too. -/
inductive Absent
  | required
  | optional
  | default (j : Json)

mutual

/-- What is asked for. -/
inductive Shape
  | text
  | bool
  /-- A number below 2 ^ 32. -/
  | word32
  /-- `null`, or a value of a shape. -/
  | option (s : Shape)
  | list (s : Shape)
  /-- An object with any keys. -/
  | table (s : Shape)
  /-- One of some names. -/
  | choice (names : List String)
  /-- The fields; `closed` if others are refused. -/
  | record (closed : Bool) (fields : Fields)

/-- The fields of a record, in order. -/
inductive Fields
  | nil
  | cons (name : String) (shape : Shape) (absent : Absent) (rest : Fields)

end

/-- Reads a value: gives it with the rest of the text, or what is wrong. -/
abbrev Reader := List Token → Except Fault (Json × List Token)

/-- What is wrong with a token where a value of another kind is asked for. -/
def Token.refuse : Token → Fault
  | .text pieces fault =>
    match decodePieces fault pieces with
    | .ok _ => .mismatch
    | .error f => f
  | .number (.fraction true) => .malformed
  | .number (.broken true) => .unfinished
  | .number (.broken false) => .malformed
  | .brokenWord f => f
  | .null | .bool _ | .number _ | .openList | .openObject => .mismatch
  | .closeList | .closeObject | .comma | .colon | .stray => .malformed

/-- What is wrong with a token where any value would do, if something is. -/
def Token.scalarFault : Token → Option Fault
  | .text _ fault => fault
  | .number (.broken _) => some .malformed
  | .brokenWord f => some f
  | .closeList | .closeObject | .comma | .colon | .stray => some .malformed
  | _ => none

/-- What is expected next in a value that is passed over. -/
inductive Expect
  | value
  /-- The first item of the innermost list or object, or its end. -/
  | first
  /-- A comma or the end of the innermost list or object. -/
  | next
  | key
  | colon

/-- Passes over a value. `open_` says of each list or object that is open,
innermost first, whether it is an object. -/
def skip (open_ : List Bool) (expect : Expect) : List Token → Except Fault (List Token)
  | [] => .error .unfinished
  | t :: rest =>
    let value :=
      match t with
      | .openList => skip (false :: open_) .first rest
      | .openObject => skip (true :: open_) .first rest
      | t =>
        match t.scalarFault with
        | some f => .error f
        | none => if open_.isEmpty then .ok rest else skip open_ .next rest
    let key :=
      match t with
      | .text _ none => skip open_ .colon rest
      | .text _ (some f) => .error f
      | _ => .error .malformed
    let close :=
      match open_ with
      | _ :: outer :: more => skip (outer :: more) .next rest
      | _ => .ok rest
    match expect, open_.head?, t with
    | .value, _, _ => value
    | .first, some false, .closeList | .next, some false, .closeList => close
    | .first, some true, .closeObject | .next, some true, .closeObject => close
    | .first, some true, _ => key
    | .first, _, _ => value
    | .next, some true, .comma => skip open_ .key rest
    | .next, _, .comma => skip open_ .value rest
    | .next, _, _ => .error .malformed
    | .key, _, _ => key
    | .colon, _, .colon => skip open_ .value rest
    | .colon, _, _ => .error .malformed

/-- Passes over one value. -/
def skipValue (ts : List Token) : Except Fault (List Token) := skip [] .value ts

/-- Passes over the colon after a key. -/
def skipColon : List Token → Except Fault (List Token)
  | .colon :: rest => .ok rest
  | [] => .error .unfinished
  | _ => .error .malformed

/-- Whether a list goes on; `first` if nothing of it is read yet. -/
def listGoesOn (first : Bool) : List Token → Except Fault (Bool × List Token)
  | [] => .error .unfinished
  | .closeList :: rest => .ok (false, .closeList :: rest)
  | t :: rest =>
    if first then .ok (true, t :: rest)
    else
      match t, rest with
      | .comma, [] => .error .unfinished
      | .comma, .closeList :: _ => .error .malformed
      | .comma, rest => .ok (true, rest)
      | _, _ => .error .malformed

/-- The next key of an object, if it goes on. -/
def nextKey (first : Bool) : List Token → Except Fault (Option String × List Token)
  | [] => .error .unfinished
  | .closeObject :: rest => .ok (none, .closeObject :: rest)
  | t :: rest =>
    let key := fun (ts : List Token) =>
      match ts with
      | [] => .error .unfinished
      | .text pieces fault :: rest => (decodePieces fault pieces).map fun cs => (some (String.ofList cs), rest)
      | _ => .error .malformed
    if first then key (t :: rest)
    else
      match t with
      | .comma => key rest
      | _ => .error .malformed

/-- Passes over the end of a list that nothing more is asked of. -/
def closeList : List Token → Except Fault (List Token)
  | .closeList :: rest => .ok rest
  | [] => .error .unfinished
  | _ => .error .malformed

def closeObject : List Token → Except Fault (List Token)
  | .closeObject :: rest => .ok rest
  | [] => .error .unfinished
  | _ => .error .malformed

/-- The items of a list after its bracket, up to `fuel` of them. -/
def readItems (item : Reader) : Nat → Bool → List Token → Except Fault (List Json × List Token)
  | 0, _, _ => .error .malformed
  | fuel + 1, first, ts => do
    let (more, ts) ← listGoesOn first ts
    if more then
      let (j, ts) ← item ts
      let (js, ts) ← readItems item fuel false ts
      return (j :: js, ts)
    else return ([], ts)

/-- The members of an object after its brace, up to `fuel` of them. -/
def readMembers (item : Reader) : Nat → Bool → List Token → Except Fault (List (String × Json) × List Token)
  | 0, _, _ => .error .malformed
  | fuel + 1, first, ts => do
    let (key, ts) ← nextKey first ts
    match key with
    | none => return ([], ts)
    | some k =>
      let ts ← skipColon ts
      let (j, ts) ← item ts
      let (js, ts) ← readMembers item fuel false ts
      return ((k, j) :: js, ts)

/-- A field that is asked for. -/
structure FieldReader where
  name : String
  read : Reader
  absent : Absent

/-- The fields of a record in their order, from those that were read. -/
def settle (read : List (String × Json)) : List FieldReader → Except Fault (List (String × Json))
  | [] => .ok []
  | f :: rest => do
    let j ←
      match read.lookup f.name, f.absent with
      | some j, _ => pure j
      | none, .required => throw .mismatch
      | none, .optional => pure .null
      | none, .default j => pure j
    let js ← settle read rest
    return ((f.name, j) :: js)

/-- The fields of a record that is written as an object, after its brace. -/
def readObject (closed : Bool) (fields : List FieldReader) :
    Nat → Bool → List (String × Json) → List Token → Except Fault (List (String × Json) × List Token)
  | 0, _, _, _ => .error .malformed
  | fuel + 1, first, read, ts => do
    let (key, ts) ← nextKey first ts
    match key with
    | none => return (← settle read fields, ts)
    | some k =>
      match fields.find? (·.name = k) with
      | some f =>
        if (read.lookup k).isSome then throw .mismatch
        let ts ← skipColon ts
        let (j, ts) ← f.read ts
        readObject closed fields fuel false ((k, j) :: read) ts
      | none =>
        if closed then throw .mismatch
        let ts ← skipColon ts
        let ts ← skipValue ts
        readObject closed fields fuel false read ts

/-- The fields of a record that is written as a list, after its bracket. -/
def readRow (first : Bool) : List FieldReader → List Token → Except Fault (List (String × Json) × List Token)
  | [], ts => .ok ([], ts)
  | f :: rest, ts => do
    let (more, ts) ← listGoesOn first ts
    let (j, ts) ←
      if more then f.read ts
      else
        match f.absent with
        | .default j => pure (j, ts)
        | _ => throw .mismatch
    let (js, ts) ← readRow false rest ts
    return ((f.name, j) :: js, ts)

def readText : Reader
  | [] => .error .unfinished
  | .text pieces fault :: rest => (decodePieces fault pieces).map fun cs => (.text (String.ofList cs), rest)
  | t :: _ => .error t.refuse

def readBool : Reader
  | [] => .error .unfinished
  | .bool b :: rest => .ok (.bool b, rest)
  | t :: _ => .error t.refuse

def readWord32 : Reader
  | [] => .error .unfinished
  | .number (.natural n) :: rest => if n < Nat.pow 2 32 then .ok (.number n, rest) else .error .mismatch
  | t :: _ => .error t.refuse

/-- One of the names, alone or as the only key of an object that maps it to
`null`. -/
def readChoice (names : List String) : Reader := fun ts =>
  let known := fun (j : Json × List Token) =>
    match j.1 with
    | .text s => if names.contains s then Except.ok j else .error .mismatch
    | _ => .error .mismatch
  match ts with
  | [] => .error .unfinished
  | .text pieces fault :: rest => readText (.text pieces fault :: rest) >>= known
  | .openObject :: rest => do
    let (j, ts) ← readText rest >>= known
    let ts ← skipColon ts
    match ts with
    | [] => throw .unfinished
    | .null :: ts => return (j, ← closeObject ts)
    | t :: _ => throw t.refuse
  | _ => .error .malformed

mutual

/-- Reads a value of a shape. -/
def read : Shape → Reader
  | .text => readText
  | .bool => readBool
  | .word32 => readWord32
  | .option s => fun ts =>
    match ts with
    | [] => .error .unfinished
    | .null :: rest => .ok (.null, rest)
    | ts => read s ts
  | .list s => fun ts =>
    match ts with
    | [] => .error .unfinished
    | .openList :: rest => do
      let (js, ts) ← readItems (read s) (rest.length + 1) true rest
      return (.list js, ← closeList ts)
    | t :: _ => .error t.refuse
  | .table s => fun ts =>
    match ts with
    | [] => .error .unfinished
    | .openObject :: rest => do
      let (js, ts) ← readMembers (read s) (rest.length + 1) true rest
      return (.object js, ← closeObject ts)
    | t :: _ => .error t.refuse
  | .choice names => readChoice names
  | .record closed fields => fun ts =>
    match ts with
    | [] => .error .unfinished
    | .openObject :: rest => do
      let (js, ts) ← readObject closed (readers fields) (rest.length + 1) true [] rest
      return (.object js, ← closeObject ts)
    | .openList :: rest => do
      let (js, ts) ← readRow true (readers fields) rest
      return (.object js, ← closeList ts)
    | t :: _ => .error t.refuse

/-- The readers of a record's fields. -/
def readers : Fields → List FieldReader
  | .nil => []
  | .cons name shape absent rest => ⟨name, read shape, absent⟩ :: readers rest

end

/-- Reads a text that is one value of a shape. -/
def parse (s : Shape) (text : List Char) : Except Fault Json := do
  let (j, rest) ← read s (tokens text)
  if rest.isEmpty then return j else throw .malformed

/-! ## What is read of a record -/

variable {given : List (String × Json)} {js : List (String × Json)} {fields : List FieldReader}

/-- Settled fields have the names that are asked for, in that order. -/
theorem settle_names (h : settle given fields = .ok js) : js.map (·.1) = fields.map (·.name) := by
  induction fields generalizing js with
  | nil => cases h; rfl
  | cons f rest ih =>
    obtain ⟨j, js', hjs, h⟩ : ∃ j js', settle given rest = .ok js' ∧ (f.name, j) :: js' = js := by
      unfold settle at h
      dsimp only at h
      split at h <;>
      · obtain ⟨j, -, h⟩ := bind_eq_ok.1 h
        obtain ⟨js', hjs, h⟩ := bind_eq_ok.1 h
        exact ⟨j, js', hjs, Except.ok.inj h⟩
    rw [← h, List.map_cons, ih hjs, List.map_cons]

theorem readObject_names {closed : Bool} {fuel : Nat} {first : Bool} {ts rest : List Token}
    (h : readObject closed fields fuel first given ts = .ok (js, rest)) : js.map (·.1) = fields.map (·.name) := by
  induction fuel generalizing first given ts with
  | zero => cases h
  | succ fuel ih =>
    unfold readObject at h
    obtain ⟨⟨key, ts⟩, -, h⟩ := bind_eq_ok.1 h
    cases key with
    | none =>
      obtain ⟨js', hjs, h⟩ := bind_eq_ok.1 h
      cases h
      exact settle_names hjs
    | some k =>
      dsimp only at h
      split at h
      · split at h
        · cases h
        · obtain ⟨ts', -, h⟩ := bind_eq_ok.1 h
          obtain ⟨⟨j, ts''⟩, -, h⟩ := bind_eq_ok.1 h
          exact ih h
      · split at h
        · cases h
        · obtain ⟨ts', -, h⟩ := bind_eq_ok.1 h
          obtain ⟨ts'', -, h⟩ := bind_eq_ok.1 h
          exact ih h

theorem readRow_names {first : Bool} {ts rest : List Token} (h : readRow first fields ts = .ok (js, rest)) :
    js.map (·.1) = fields.map (·.name) := by
  induction fields generalizing first ts js with
  | nil => cases h; rfl
  | cons f fields ih =>
    unfold readRow at h
    obtain ⟨⟨more, ts⟩, -, h⟩ := bind_eq_ok.1 h
    obtain ⟨⟨j, ts⟩, h⟩ : ∃ r : Json × List Token,
        (do let (js, ts) ← readRow false fields r.2; return ((f.name, r.1) :: js, ts)) = Except.ok (js, rest) := by
      dsimp only at h
      split at h
      · obtain ⟨r, -, h⟩ := bind_eq_ok.1 h
        exact ⟨r, h⟩
      · split at h
        · exact ⟨_, h⟩
        · cases h
    obtain ⟨⟨js', ts⟩, hjs, h⟩ := bind_eq_ok.1 h
    cases h
    rw [List.map_cons, ih hjs, List.map_cons]

/-- A record that is read, however it is written, has the fields that are asked for, in
their order. -/
theorem parse_record {closed : Bool} {fields : Fields} {text : List Char} {j : Json}
    (h : parse (.record closed fields) text = .ok j) :
    ∃ js, j = .object js ∧ js.map (·.1) = (readers fields).map (·.name) := by
  obtain ⟨⟨j', rest⟩, hread, h⟩ := bind_eq_ok.1 h
  have hj : j' = j := by
    dsimp only at h
    split at h
    · cases h; rfl
    · cases h
  subst hj
  unfold read at hread
  split at hread
  · cases hread
  · obtain ⟨⟨js, ts⟩, hjs, hread⟩ := bind_eq_ok.1 hread
    obtain ⟨ts', -, hread⟩ := bind_eq_ok.1 hread
    cases hread
    exact ⟨js, rfl, readObject_names hjs⟩
  · obtain ⟨⟨js, ts⟩, hjs, hread⟩ := bind_eq_ok.1 hread
    obtain ⟨ts', -, hread⟩ := bind_eq_ok.1 hread
    cases hread
    exact ⟨js, rfl, readRow_names hjs⟩
  · cases hread

end ImportAtlas.Json
