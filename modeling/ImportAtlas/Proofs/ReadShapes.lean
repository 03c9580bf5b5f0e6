import ImportAtlas.Json.Shape
/-!
# What is read fits its shape

Whatever a text says, the value that is read of it is one of the shape that was asked for
(`parse_fits`): the items of a list are values of the shape of its items, and a record has
its fields in their order, each with a value of its own shape or with the one that stands for
a field that is not written.
-/

namespace ImportAtlas.Json

/-- The value of a field that is not written. -/
def Absent.value? : Absent → Option Json
  | .required => none
  | .optional => some .null
  | .default j => some j

def Fields.names : Fields → List String
  | .nil => []
  | .cons name _ _ rest => name :: rest.names

mutual

/-- `j` is a value of a shape. -/
def Shape.Fits : Shape → Json → Prop
  | .text, .text _ => True
  | .bool, .bool _ => True
  | .word32, .number n => n < Nat.pow 2 32
  | .option s, j => j = .null ∨ s.Fits j
  | .list s, .list js => ∀ j ∈ js, s.Fits j
  | .table s, .object ms => ∀ m ∈ ms, s.Fits m.2
  | .choice names, .text t => t ∈ names
  | .record _ fields, .object ms => ms.map Prod.fst = fields.names ∧ ∀ m ∈ ms, fields.Fits m.1 m.2
  | _, _ => False

/-- `j` is a value of the field `name`. -/
def Fields.Fits : Fields → String → Json → Prop
  | .nil, _, _ => False
  | .cons n s absent rest, name, j => n = name ∧ (s.Fits j ∨ absent.value? = some j) ∨ rest.Fits name j

end

section

variable (s : Shape) (fields : Fields) (absent : Absent) (name n : String) (j : Json)

@[simp] theorem Absent.value?_required : Absent.required.value? = none := rfl

@[simp] theorem Absent.value?_optional : Absent.optional.value? = some .null := rfl

@[simp] theorem Absent.value?_default : (Absent.default j).value? = some j := rfl

@[simp] theorem Fields.names_nil : Fields.nil.names = [] := rfl

@[simp] theorem Fields.names_cons : (Fields.cons name s absent fields).names = name :: fields.names := rfl

@[simp] theorem Fields.fits_nil : Fields.nil.Fits name j ↔ False := Iff.rfl

@[simp] theorem Fields.fits_cons : (Fields.cons n s absent fields).Fits name j ↔
    n = name ∧ (s.Fits j ∨ absent.value? = some j) ∨ fields.Fits name j := Iff.rfl

@[simp] theorem Shape.fits_text (t : String) : Shape.text.Fits (.text t) := trivial

@[simp] theorem Shape.fits_bool (b : Bool) : Shape.bool.Fits (.bool b) := trivial

@[simp] theorem Shape.fits_word32 (k : Nat) : Shape.word32.Fits (.number k) ↔ k < Nat.pow 2 32 := Iff.rfl

@[simp] theorem Shape.fits_option : s.option.Fits j ↔ j = .null ∨ s.Fits j := Iff.rfl

@[simp] theorem Shape.fits_list (js : List Json) : s.list.Fits (.list js) ↔ ∀ j ∈ js, s.Fits j := Iff.rfl

@[simp] theorem Shape.fits_choice (names : List String) (t : String) : (Shape.choice names).Fits (.text t) ↔ t ∈ names :=
  Iff.rfl

@[simp] theorem Shape.fits_record (closed : Bool) (ms : List (String × Json)) :
    (Shape.record closed fields).Fits (.object ms) ↔
      ms.map Prod.fst = fields.names ∧ ∀ m ∈ ms, fields.Fits m.1 m.2 := Iff.rfl

end

variable {item : Reader} {P : Json → Prop} {Q : String → Json → Prop} {fields : List FieldReader}
  {given ms : List (String × Json)} {js : List Json} {j : Json} {ts rest : List Token} {fuel : Nat} {first : Bool}

/-! ## Lists and objects -/

theorem readItems_keeps (hitem : ∀ ts j rest, item ts = .ok (j, rest) → P j)
    (h : readItems item fuel first ts = .ok (js, rest)) : ∀ j ∈ js, P j := by
  induction fuel generalizing first ts js with
  | zero => cases h
  | succ fuel ih =>
    unfold readItems at h
    obtain ⟨⟨more, ts₁⟩, -, h⟩ := bind_eq_ok.1 h
    dsimp only at h
    split at h
    · obtain ⟨⟨j, ts₂⟩, hj, h⟩ := bind_eq_ok.1 h
      obtain ⟨⟨js', ts₃⟩, hjs, h⟩ := bind_eq_ok.1 h
      cases h
      exact List.forall_mem_cons.2 ⟨hitem _ _ _ hj, ih hjs⟩
    · cases h
      simp

theorem readMembers_keeps (hitem : ∀ ts j rest, item ts = .ok (j, rest) → P j)
    (h : readMembers item fuel first ts = .ok (ms, rest)) : ∀ m ∈ ms, P m.2 := by
  induction fuel generalizing first ts ms with
  | zero => cases h
  | succ fuel ih =>
    unfold readMembers at h
    obtain ⟨⟨key, ts₁⟩, -, h⟩ := bind_eq_ok.1 h
    cases key with
    | none =>
      cases h
      simp
    | some k =>
      obtain ⟨ts₂, -, h⟩ := bind_eq_ok.1 h
      obtain ⟨⟨j, ts₃⟩, hj, h⟩ := bind_eq_ok.1 h
      obtain ⟨⟨ms', ts₄⟩, hms, h⟩ := bind_eq_ok.1 h
      cases h
      exact List.forall_mem_cons.2 ⟨hitem _ _ _ hj, ih hms⟩

/-! ## Records -/

/-- What is read of a field, or stands for it when it is not written. -/
structure FieldReader.Gives (Q : String → Json → Prop) (f : FieldReader) : Prop where
  read : ∀ ts j rest, f.read ts = .ok (j, rest) → Q f.name j
  absent : ∀ j, f.absent.value? = some j → Q f.name j

theorem mem_of_lookup {k : String} (h : given.lookup k = some j) : (k, j) ∈ given := by
  obtain ⟨above, below, rfl, -⟩ := List.lookup_eq_some_iff.1 h
  simp

theorem settle_keeps (hfields : ∀ f ∈ fields, f.Gives Q) (hgiven : ∀ m ∈ given, Q m.1 m.2)
    (h : settle given fields = .ok ms) : ∀ m ∈ ms, Q m.1 m.2 := by
  induction fields generalizing ms with
  | nil =>
    cases h
    simp
  | cons f fields ih =>
    obtain ⟨hf, hfields⟩ := List.forall_mem_cons.1 hfields
    obtain ⟨j, hj, h⟩ : ∃ j, Q f.name j ∧
        (do let ms ← settle given fields; return ((f.name, j) :: ms)) = Except.ok ms := by
      unfold settle at h
      dsimp only at h
      split at h
      · next hlookup => exact ⟨_, hgiven _ (mem_of_lookup hlookup), h⟩
      · cases h
      · next habsent => exact ⟨_, hf.absent _ (by rw [habsent]; rfl), h⟩
      · next habsent => exact ⟨_, hf.absent _ (by rw [habsent]; rfl), h⟩
    obtain ⟨ms', hms, h⟩ := bind_eq_ok.1 h
    cases h
    exact List.forall_mem_cons.2 ⟨hj, ih hfields hms⟩

theorem readObject_keeps {closed : Bool} (hfields : ∀ f ∈ fields, f.Gives Q) (hgiven : ∀ m ∈ given, Q m.1 m.2)
    (h : readObject closed fields fuel first given ts = .ok (ms, rest)) : ∀ m ∈ ms, Q m.1 m.2 := by
  induction fuel generalizing first given ts with
  | zero => cases h
  | succ fuel ih =>
    unfold readObject at h
    obtain ⟨⟨key, ts₁⟩, -, h⟩ := bind_eq_ok.1 h
    cases key with
    | none =>
      obtain ⟨ms', hms, h⟩ := bind_eq_ok.1 h
      cases h
      exact settle_keeps hfields hgiven hms
    | some k =>
      dsimp only at h
      -- Only what a field reads is added to `given`.
      split at h
      · next f hfind =>
        split at h
        · cases h
        · obtain ⟨ts₂, -, h⟩ := bind_eq_ok.1 h
          obtain ⟨⟨j, ts₃⟩, hj, h⟩ := bind_eq_ok.1 h
          have hname : f.name = k := by simpa using List.find?_some hfind
          have hgives := (hfields f (List.mem_of_find?_eq_some hfind)).read _ _ _ hj
          exact ih (List.forall_mem_cons.2 ⟨hname ▸ hgives, hgiven⟩) h
      · split at h
        · cases h
        · obtain ⟨ts₂, -, h⟩ := bind_eq_ok.1 h
          obtain ⟨ts₃, -, h⟩ := bind_eq_ok.1 h
          exact ih hgiven h

theorem readRow_keeps (hfields : ∀ f ∈ fields, f.Gives Q) (h : readRow first fields ts = .ok (ms, rest)) :
    ∀ m ∈ ms, Q m.1 m.2 := by
  induction fields generalizing first ts ms with
  | nil =>
    cases h
    simp
  | cons f fields ih =>
    obtain ⟨hf, hfields⟩ := List.forall_mem_cons.1 hfields
    unfold readRow at h
    obtain ⟨⟨more, ts₁⟩, -, h⟩ := bind_eq_ok.1 h
    obtain ⟨⟨j, ts₂⟩, hj, h⟩ : ∃ r : Json × List Token, Q f.name r.1 ∧
        (do let more ← readRow false fields r.2; return ((f.name, r.1) :: more.1, more.2)) = Except.ok (ms, rest) := by
      dsimp only at h
      split at h
      · obtain ⟨r, hr, h⟩ := bind_eq_ok.1 h
        exact ⟨r, hf.read _ _ _ hr, h⟩
      · split at h
        · next habsent => exact ⟨_, hf.absent _ (by rw [habsent]; rfl), h⟩
        · cases h
    obtain ⟨⟨ms', ts₃⟩, hms, h⟩ := bind_eq_ok.1 h
    cases h
    exact List.forall_mem_cons.2 ⟨hj, ih hfields hms⟩

theorem names_readers : ∀ fields : Fields, (readers fields).map (·.name) = fields.names
  | .nil => rfl
  | .cons name s absent rest => by rw [readers, Fields.names, List.map_cons, names_readers rest]

/-! ## Shapes -/

theorem readText_fits (h : readText ts = .ok (j, rest)) : ∃ t, j = .text t := by
  unfold readText at h
  split at h
  · cases h
  · obtain ⟨cs, -, h⟩ := map_eq_ok.1 h
    cases h
    exact ⟨_, rfl⟩
  · cases h

theorem readBool_fits (h : readBool ts = .ok (j, rest)) : ∃ b, j = .bool b := by
  unfold readBool at h
  split at h
  · cases h
  · cases h
    exact ⟨_, rfl⟩
  · cases h

theorem readWord32_fits (h : readWord32 ts = .ok (j, rest)) : ∃ n < Nat.pow 2 32, j = .number n := by
  unfold readWord32 at h
  split at h
  · cases h
  · split at h
    · next n _ hn =>
      cases h
      exact ⟨n, hn, rfl⟩
    · cases h
  · cases h

theorem readChoice_fits {names : List String} (h : readChoice names ts = .ok (j, rest)) : ∃ t ∈ names, j = .text t := by
  have hknown : ∀ {r r' : Json × List Token} {s : String}, r.1 = .text s →
      (if names.contains s then Except.ok r else .error Fault.mismatch) = .ok r' → ∃ t ∈ names, r'.1 = .text t := by
    intro r r' s hs hr
    split at hr
    · next hm =>
      cases hr
      exact ⟨s, by simpa using hm, hs⟩
    · cases hr
  -- A choice is a text, or an object whose one key is the text and whose value is `null`.
  unfold readChoice at h
  dsimp only at h
  split at h
  · cases h
  · obtain ⟨r, -, h⟩ := bind_eq_ok.1 h
    split at h
    · next s hs => exact hknown hs h
    · cases h
  · obtain ⟨r, hr, h⟩ := bind_eq_ok.1 h
    obtain ⟨r', -, hr⟩ := bind_eq_ok.1 hr
    have hfits : ∃ t ∈ names, r.1 = .text t := by
      split at hr
      · next s hs => exact hknown hs hr
      · cases hr
    obtain ⟨ts₁, -, h⟩ := bind_eq_ok.1 h
    split at h
    · cases h
    · obtain ⟨ts₂, -, h⟩ := bind_eq_ok.1 h
      cases h
      exact hfits
    · cases h
  · cases h

mutual

/-- What is read of a shape is a value of it. -/
theorem read_fits : ∀ (s : Shape) {ts rest : List Token} {j : Json}, read s ts = .ok (j, rest) → s.Fits j
  | .text, _, _, _, h => by
    obtain ⟨t, rfl⟩ := readText_fits (by rwa [read] at h)
    trivial
  | .bool, _, _, _, h => by
    obtain ⟨b, rfl⟩ := readBool_fits (by rwa [read] at h)
    trivial
  | .word32, _, _, _, h => by
    obtain ⟨n, hn, rfl⟩ := readWord32_fits (by rwa [read] at h)
    exact hn
  | .choice names, _, _, _, h => by
    obtain ⟨t, ht, rfl⟩ := readChoice_fits (by rwa [read] at h)
    exact ht
  | .option s, _, _, _, h => by
    unfold read at h
    split at h
    · cases h
    · cases h
      exact .inl rfl
    · exact .inr (read_fits s h)
  | .list s, _, _, _, h => by
    unfold read at h
    split at h
    · cases h
    · obtain ⟨⟨js, ts⟩, hjs, h⟩ := bind_eq_ok.1 h
      obtain ⟨ts', -, h⟩ := bind_eq_ok.1 h
      cases h
      exact readItems_keeps (fun _ _ _ => read_fits s) hjs
    · cases h
  | .table s, _, _, _, h => by
    unfold read at h
    split at h
    · cases h
    · obtain ⟨⟨ms, ts⟩, hms, h⟩ := bind_eq_ok.1 h
      obtain ⟨ts', -, h⟩ := bind_eq_ok.1 h
      cases h
      exact readMembers_keeps (fun _ _ _ => read_fits s) hms
    · cases h
  | .record closed fields, _, _, _, h => by
    have hgives := readers_give fields
    unfold read at h
    split at h
    · cases h
    · obtain ⟨⟨ms, ts⟩, hms, h⟩ := bind_eq_ok.1 h
      obtain ⟨ts', -, h⟩ := bind_eq_ok.1 h
      cases h
      exact ⟨(readObject_names hms).trans (names_readers fields), readObject_keeps hgives (by simp) hms⟩
    · obtain ⟨⟨ms, ts⟩, hms, h⟩ := bind_eq_ok.1 h
      obtain ⟨ts', -, h⟩ := bind_eq_ok.1 h
      cases h
      exact ⟨(readRow_names hms).trans (names_readers fields), readRow_keeps hgives hms⟩
    · cases h

theorem readers_give : ∀ fields : Fields, ∀ f ∈ readers fields, f.Gives fields.Fits
  | .nil, f, hf => by cases hf
  | .cons name s absent rest, f, hf => by
    rw [readers, List.mem_cons] at hf
    rcases hf with rfl | hf
    · exact ⟨fun _ _ _ h => .inl ⟨rfl, .inl (read_fits s h)⟩, fun _ h => .inl ⟨rfl, .inr h⟩⟩
    · have hrest := readers_give rest f hf
      exact ⟨fun _ _ _ h => .inr (hrest.read _ _ _ h), fun _ h => .inr (hrest.absent _ h)⟩

end

/-- The value of a whole text is one of the shape that was asked for. -/
theorem parse_fits {s : Shape} {text : List Char} (h : parse s text = .ok j) : s.Fits j := by
  obtain ⟨⟨j', rest⟩, hread, h⟩ := bind_eq_ok.1 h
  dsimp only at h
  split at h
  · cases h
    exact read_fits s hread
  · cases h

end ImportAtlas.Json
