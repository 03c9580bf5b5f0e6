import ImportAtlas.Proofs.PassedValues
/-!
# Only documents are read

Whatever is asked for, a text that a value is read of is a document (`document_of_parse`): each
reader takes the tokens of one value, with the members it passes over, and there are no others.
-/

namespace ImportAtlas.Json

variable {ts us rest : List Token} {first : Bool}

/-! ## Reading lists and objects -/

/-- What a reader takes is one value. -/
def Takes (item : Reader) : Prop := ∀ ts j rest, item ts = .ok (j, rest) → ∃ v, ts = v ++ rest ∧ Shaped .value v

variable {item : Reader} {js : List Json} {ms given : List (String × Json)} {fields : List FieldReader} {fuel : Nat}

/-- What is passed over before an item makes a part of the items from it on. -/
theorem listGoesOn_takes (h : listGoesOn first ts = .ok (true, us)) :
    ∃ lead, ts = lead ++ us ∧ ∀ part, Shaped .items part → Part false first (lead ++ part) := by
  cases first with
  | true =>
    refine ⟨[], ?_, fun part hpart => .first hpart⟩
    unfold listGoesOn at h
    split at h
    · cases h
    · cases h
    · cases h
      rfl
  | false =>
    refine ⟨[.comma], ?_, fun part hpart => .next hpart⟩
    unfold listGoesOn at h
    split at h
    · cases h
    · cases h
    · rw [if_neg (by simp)] at h
      split at h
      · cases h
      · cases h
      · cases h
        rfl
      · cases h

theorem listGoesOn_ends (h : listGoesOn first ts = .ok (false, us)) : us = ts ∧ ∃ more, us = .closeList :: more := by
  unfold listGoesOn at h
  split at h
  · cases h
  · cases h
    exact ⟨rfl, _, rfl⟩
  · split at h
    · cases h
    · split at h <;> cases h

/-- A text whose end is faulty stands for nothing. -/
theorem fault_of_decodePieces {fault : Option Fault} {pieces : List Piece} {cs : List Char}
    (h : decodePieces fault pieces = .ok cs) : fault = none := by
  fun_induction decodePieces fault pieces generalizing cs with
  | case1 hnone => exact hnone
  | case2 => cases h
  | case3 c rest ih =>
    obtain ⟨cs', hcs, -⟩ := map_eq_ok.1 h
    exact ih hcs
  | case4 => cases h
  | case5 => cases h
  | case6 n hlow hhigh m rest hpair ih =>
    obtain ⟨cs', hcs, -⟩ := map_eq_ok.1 h
    exact ih hcs
  | case7 => cases h
  | case8 => cases h
  | case9 n rest hlow hhigh ih =>
    obtain ⟨cs', hcs, -⟩ := map_eq_ok.1 h
    exact ih hcs

/-- What is read where a key is due is a key. -/
theorem key_takes {key? : Option String}
    (h : (match ts with
      | [] => .error .unfinished
      | .text pieces fault :: rest => (decodePieces fault pieces).map fun cs => (some (String.ofList cs), rest)
      | _ => .error .malformed) = Except.ok (key?, us)) :
    key? ≠ none ∧ ∃ key, ts = .text key none :: us := by
  split at h
  · cases h
  · next pieces fault rest =>
    obtain ⟨cs, hcs, h⟩ := map_eq_ok.1 h
    cases h
    exact ⟨nofun, pieces, by rw [fault_of_decodePieces hcs]⟩
  · cases h

theorem nextKey_takes {k : String} (h : nextKey first ts = .ok (some k, us)) :
    ∃ lead key, ts = lead ++ .text key none :: us ∧
      ∀ part, Shaped .members (.text key none :: part) → Part true first (lead ++ .text key none :: part) := by
  unfold nextKey at h
  split at h
  · cases h
  · cases h
  · next t rest _ =>
    dsimp only at h
    split at h
    · next hfirst =>
      obtain ⟨-, key, hts⟩ := key_takes h
      rw [hfirst]
      exact ⟨[], key, hts, fun part hpart => .first hpart⟩
    · next hnext =>
      split at h
      · obtain ⟨-, key, rfl⟩ := key_takes h
        obtain rfl : first = false := by simpa using hnext
        exact ⟨[.comma], key, rfl, fun part hpart => .next hpart⟩
      · cases h

theorem nextKey_ends (h : nextKey first ts = .ok (none, us)) : us = ts ∧ ∃ more, us = .closeObject :: more := by
  unfold nextKey at h
  split at h
  · cases h
  · cases h
    exact ⟨rfl, _, rfl⟩
  · dsimp only at h
    split at h
    · exact absurd rfl (key_takes h).1
    · split at h
      · exact absurd rfl (key_takes h).1
      · cases h

theorem skipColon_takes (h : skipColon ts = .ok us) : ts = .colon :: us := by
  unfold skipColon at h
  split at h
  · cases h
    rfl
  · cases h
  · cases h

theorem readItems_takes (hitem : Takes item) (h : readItems item fuel first ts = .ok (js, rest)) :
    ∃ part, ts = part ++ rest ∧ Part false first part ∧ ∃ more, rest = .closeList :: more := by
  induction fuel generalizing first ts js with
  | zero => cases h
  | succ fuel ih =>
    unfold readItems at h
    obtain ⟨⟨more, us⟩, hmore, h⟩ := bind_eq_ok.1 h
    cases more with
    | true =>
      obtain ⟨⟨j, ws⟩, hj, h⟩ := bind_eq_ok.1 h
      obtain ⟨⟨js', ws'⟩, hjs, h⟩ := bind_eq_ok.1 h
      cases h
      obtain ⟨lead, rfl, hlead⟩ := listGoesOn_takes hmore
      obtain ⟨v, rfl, hv⟩ := hitem _ _ _ hj
      obtain ⟨part, rfl, hpart, hend⟩ := ih hjs
      exact ⟨lead ++ (v ++ part), by simp, hlead _ (hpart.item hv), hend⟩
    | false =>
      cases h
      obtain ⟨rfl, hend⟩ := listGoesOn_ends hmore
      exact ⟨[], rfl, .nil first, hend⟩

theorem readMembers_takes (hitem : Takes item) (h : readMembers item fuel first ts = .ok (ms, rest)) :
    ∃ part, ts = part ++ rest ∧ Part true first part ∧ ∃ more, rest = .closeObject :: more := by
  induction fuel generalizing first ts ms with
  | zero => cases h
  | succ fuel ih =>
    unfold readMembers at h
    obtain ⟨⟨key, us⟩, hkey, h⟩ := bind_eq_ok.1 h
    cases key with
    | none =>
      cases h
      obtain ⟨rfl, hend⟩ := nextKey_ends hkey
      exact ⟨[], rfl, .nil first, hend⟩
    | some k =>
      obtain ⟨ws, hcolon, h⟩ := bind_eq_ok.1 h
      obtain ⟨⟨j, ws₁⟩, hj, h⟩ := bind_eq_ok.1 h
      obtain ⟨⟨ms', ws₂⟩, hms, h⟩ := bind_eq_ok.1 h
      cases h
      obtain ⟨lead, name, rfl, hlead⟩ := nextKey_takes hkey
      obtain rfl := skipColon_takes hcolon
      obtain ⟨v, rfl, hv⟩ := hitem _ _ _ hj
      obtain ⟨part, rfl, hpart, hend⟩ := ih hms
      exact ⟨_, by simp, hlead _ (hpart.member name hv), hend⟩

/-! ## Reading records -/

theorem readObject_takes {closed : Bool} (hfields : ∀ f ∈ fields, Takes f.read)
    (h : readObject closed fields fuel first given ts = .ok (ms, rest)) :
    ∃ part, ts = part ++ rest ∧ Part true first part ∧ ∃ more, rest = .closeObject :: more := by
  induction fuel generalizing first given ts with
  | zero => cases h
  | succ fuel ih =>
    unfold readObject at h
    obtain ⟨⟨key, us⟩, hkey, h⟩ := bind_eq_ok.1 h
    cases key with
    | none =>
      obtain ⟨ms', -, h⟩ := bind_eq_ok.1 h
      cases h
      obtain ⟨rfl, hend⟩ := nextKey_ends hkey
      exact ⟨[], rfl, .nil first, hend⟩
    | some k =>
      dsimp only at h
      -- A field that is known is read, and any other is passed over; either takes a key and a value.
      split at h
      · next f hfind =>
        split at h
        · cases h
        · obtain ⟨ws, hcolon, h⟩ := bind_eq_ok.1 h
          obtain ⟨⟨j, ws₁⟩, hj, h⟩ := bind_eq_ok.1 h
          obtain ⟨part, hpart⟩ := ih h
          obtain ⟨lead, name, rfl, hlead⟩ := nextKey_takes hkey
          obtain rfl := skipColon_takes hcolon
          obtain ⟨v, rfl, hv⟩ := hfields f (List.mem_of_find?_eq_some hfind) _ _ _ hj
          obtain ⟨rfl, hpart, hend⟩ := hpart
          exact ⟨_, by simp, hlead _ (hpart.member name hv), hend⟩
      · split at h
        · cases h
        · obtain ⟨ws, hcolon, h⟩ := bind_eq_ok.1 h
          obtain ⟨ws₁, hvalue, h⟩ := bind_eq_ok.1 h
          obtain ⟨part, hpart⟩ := ih h
          obtain ⟨lead, name, rfl, hlead⟩ := nextKey_takes hkey
          obtain rfl := skipColon_takes hcolon
          obtain ⟨v, rfl, hv⟩ := skipValue_takes hvalue
          obtain ⟨rfl, hpart, hend⟩ := hpart
          exact ⟨_, by simp, hlead _ (hpart.member name hv), hend⟩

theorem readRow_takes (hfields : ∀ f ∈ fields, Takes f.read) (h : readRow first fields ts = .ok (ms, rest)) :
    ∃ part, ts = part ++ rest ∧ Part false first part := by
  induction fields generalizing first ts ms with
  | nil =>
    cases h
    exact ⟨[], rfl, .nil first⟩
  | cons f fields ih =>
    obtain ⟨hf, hfields⟩ := List.forall_mem_cons.1 hfields
    unfold readRow at h
    obtain ⟨⟨more, us⟩, hmore, h⟩ := bind_eq_ok.1 h
    cases more with
    | true =>
      obtain ⟨⟨j, ws⟩, hj, h⟩ := bind_eq_ok.1 h
      obtain ⟨⟨ms', ws'⟩, hms, h⟩ := bind_eq_ok.1 h
      cases h
      obtain ⟨lead, rfl, hlead⟩ := listGoesOn_takes hmore
      obtain ⟨v, rfl, hv⟩ := hf _ _ _ hj
      obtain ⟨part, rfl, hpart⟩ := ih hfields hms
      exact ⟨lead ++ (v ++ part), by simp, hlead _ (hpart.item hv)⟩
    | false =>
      obtain ⟨ms', hms⟩ : ∃ ms', readRow false fields us = .ok (ms', rest) := by
        dsimp only at h
        rw [if_neg (by simp)] at h
        split at h
        · obtain ⟨⟨j, ws⟩, hpure, hrow⟩ := bind_eq_ok.1 h
          obtain ⟨⟨ms', ws'⟩, hms, hpair⟩ := bind_eq_ok.1 hrow
          cases hpure
          cases hpair
          exact ⟨ms', hms⟩
        · cases h
      obtain ⟨rfl, after, hend⟩ := listGoesOn_ends hmore
      obtain ⟨part, rfl, hpart⟩ := ih hfields hms
      -- A closing bracket comes next, so no other item was read.
      cases hpart with
      | nil => exact ⟨[], rfl, .nil first⟩
      | next _ => cases hend

/-! ## Reading values of a shape -/

theorem closeList_takes (h : closeList ts = .ok us) : ts = .closeList :: us := by
  unfold closeList at h
  split at h
  · cases h
    rfl
  · cases h
  · cases h

theorem closeObject_takes (h : closeObject ts = .ok us) : ts = .closeObject :: us := by
  unfold closeObject at h
  split at h
  · cases h
    rfl
  · cases h
  · cases h

theorem readText_eq_ok {j : Json} (h : readText ts = .ok (j, rest)) : ∃ pieces, ts = .text pieces none :: rest := by
  unfold readText at h
  split at h
  · cases h
  · next pieces fault us =>
    obtain ⟨cs, hcs, h⟩ := map_eq_ok.1 h
    cases h
    exact ⟨pieces, by rw [fault_of_decodePieces hcs]⟩
  · cases h

theorem readText_takes : Takes readText := by
  intro ts j rest h
  obtain ⟨pieces, rfl⟩ := readText_eq_ok h
  exact ⟨[.text pieces none], rfl, .scalar rfl⟩

theorem readBool_takes : Takes readBool := by
  intro ts j rest h
  unfold readBool at h
  split at h
  · cases h
  · next b us =>
    cases h
    exact ⟨[.bool b], rfl, .scalar trivial⟩
  · cases h

theorem readWord32_takes : Takes readWord32 := by
  intro ts j rest h
  unfold readWord32 at h
  split at h
  · cases h
  · next n us =>
    split at h
    · cases h
      exact ⟨[.number (.natural n)], rfl, .scalar nofun⟩
    · cases h
  · cases h

theorem known_eq_ok {names : List String} {r r' : Json × List Token}
    (h : (match r.1 with
      | .text s => if names.contains s then Except.ok r else .error Fault.mismatch
      | _ => .error .mismatch) = .ok r') : r' = r := by
  split at h
  · split at h
    · cases h
      rfl
    · cases h
  · cases h

theorem readChoice_takes (names : List String) : Takes (readChoice names) := by
  intro ts j rest h
  unfold readChoice at h
  dsimp only at h
  split at h
  · cases h
  · obtain ⟨r, hr, h⟩ := bind_eq_ok.1 h
    obtain rfl := known_eq_ok h
    exact readText_takes _ _ _ hr
  · next us =>
    obtain ⟨r, hr, h⟩ := bind_eq_ok.1 h
    obtain ⟨r', htext, hr⟩ := bind_eq_ok.1 hr
    obtain ⟨ws, hcolon, h⟩ := bind_eq_ok.1 h
    split at h
    · cases h
    · next after =>
      obtain ⟨after', hclose, h⟩ := bind_eq_ok.1 h
      cases h
      obtain rfl := known_eq_ok hr
      obtain ⟨key, rfl⟩ := readText_eq_ok htext
      rw [skipColon_takes hcolon, closeObject_takes hclose]
      have hvalue : Shaped .members (.text key none :: .colon :: [.null]) := .member key (.scalar trivial)
      exact ⟨_, by simp, .object hvalue⟩
    · cases h
  · cases h

mutual

/-- What is read of a shape is one value. -/
theorem read_takes : ∀ s : Shape, Takes (read s)
  | .text => by
    rw [read]
    exact readText_takes
  | .bool => by
    rw [read]
    exact readBool_takes
  | .word32 => by
    rw [read]
    exact readWord32_takes
  | .choice names => by
    rw [read]
    exact readChoice_takes names
  | .option s => by
    intro ts j rest h
    unfold read at h
    split at h
    · cases h
    · cases h
      exact ⟨[.null], rfl, .scalar trivial⟩
    · exact read_takes s _ _ _ h
  | .list s => by
    intro ts j rest h
    unfold read at h
    split at h
    · cases h
    · obtain ⟨⟨js, us⟩, hjs, h⟩ := bind_eq_ok.1 h
      obtain ⟨ws, hclose, h⟩ := bind_eq_ok.1 h
      cases h
      obtain ⟨part, rfl, hpart, -⟩ := readItems_takes (read_takes s) hjs
      rw [closeList_takes hclose]
      exact ⟨_, by simp [closing, opening], hpart.enclosed⟩
    · cases h
  | .table s => by
    intro ts j rest h
    unfold read at h
    split at h
    · cases h
    · obtain ⟨⟨ms, us⟩, hms, h⟩ := bind_eq_ok.1 h
      obtain ⟨ws, hclose, h⟩ := bind_eq_ok.1 h
      cases h
      obtain ⟨part, rfl, hpart, -⟩ := readMembers_takes (read_takes s) hms
      rw [closeObject_takes hclose]
      exact ⟨_, by simp [closing, opening], hpart.enclosed⟩
    · cases h
  | .record closed fields => by
    intro ts j rest h
    have hfields := readers_take fields
    unfold read at h
    split at h
    · cases h
    · obtain ⟨⟨ms, us⟩, hms, h⟩ := bind_eq_ok.1 h
      obtain ⟨ws, hclose, h⟩ := bind_eq_ok.1 h
      cases h
      obtain ⟨part, rfl, hpart, -⟩ := readObject_takes hfields hms
      rw [closeObject_takes hclose]
      exact ⟨_, by simp [closing, opening], hpart.enclosed⟩
    · obtain ⟨⟨ms, us⟩, hms, h⟩ := bind_eq_ok.1 h
      obtain ⟨ws, hclose, h⟩ := bind_eq_ok.1 h
      cases h
      -- A record may be written as a list of the values of its fields.
      obtain ⟨part, rfl, hpart⟩ := readRow_takes hfields hms
      rw [closeList_takes hclose]
      exact ⟨_, by simp [closing, opening], hpart.enclosed⟩
    · cases h

theorem readers_take : ∀ fields : Fields, ∀ f ∈ readers fields, Takes f.read
  | .nil, f, hf => by cases hf
  | .cons name s absent rest, f, hf => by
    rw [readers, List.mem_cons] at hf
    rcases hf with rfl | hf
    · exact read_takes s
    · exact readers_take rest f hf

end

/-- Whatever is asked for, a text that a value is read of is a document. -/
theorem document_of_parse {s : Shape} {text : List Char} {j : Json} (h : parse s text = .ok j) :
    ∃ ls, IsDocument ls text := by
  obtain ⟨⟨j', rest⟩, hread, h⟩ := bind_eq_ok.1 h
  obtain rfl : rest = [] := by
    dsimp only at h
    split at h
    · next hempty => exact List.isEmpty_iff.1 hempty
    · cases h
  obtain ⟨v, hv, hshaped⟩ := read_takes s _ _ _ hread
  rw [List.append_nil] at hv
  have hwhole : ∀ t ∈ tokens text, t.IsWhole := hv ▸ hshaped.whole
  obtain ⟨ls, hls, hwritten⟩ := written_of_tokens hwhole
  exact ⟨ls, forms_of_shaped hshaped (hv ▸ hls), hwritten⟩

end ImportAtlas.Json
