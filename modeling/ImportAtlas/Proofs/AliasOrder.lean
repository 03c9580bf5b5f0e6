import ImportAtlas.Proofs.Preparation
import ImportAtlas.Proofs.ReadShapes
import Mathlib.Data.List.Infix
import Mathlib.Data.List.Nodup
import Mathlib.Data.Set.List
/-!
# Which alias counts

The aliases of a manifest are the entries of its `paths`, each pattern once, with its last
targets, and they are kept in an order in which the first that matches a specifier is the one
that counts: the specifier itself, or else a pattern with as much text before the star as any
that matches (`load_orders_aliases`).

Of two patterns that match a specifier, the text before the star of one begins with that of the
other, since the specifier begins with both. So the sizes in bytes, by which they are ordered,
compare them as their lengths do.
-/

namespace ImportAtlas

/-- The first of a sorted list with a property comes before all that have it. -/
theorem le_of_find? {α : Type} {le : α → α → Bool} {P : α → Bool} {xs : List α} {a b : α} (hrefl : ∀ x, le x x = true)
    (hxs : xs.Pairwise (le · ·)) (ha : xs.find? P = some a) (hb : b ∈ xs) (hP : P b = true) : le a b = true := by
  obtain ⟨-, above, below, rfl, hnone⟩ := List.find?_eq_some_iff_append.1 ha
  rcases List.mem_append.1 hb with hb | hb
  · have hnot := hnone b hb
    rw [hP] at hnot
    cases hnot
  · rcases List.mem_cons.1 hb with rfl | hb
    · exact hrefl b
    · exact (List.pairwise_cons.1 (List.pairwise_append.1 hxs).2.1).1 b hb

/-! ## Entries by key -/

section Keys

variable {β γ : Type} {e : String × β} {es : List (String × β)}

/-- Each key once, with its last value. -/
def lasting : List (String × β) → List (String × β)
  | [] => []
  | e :: rest => if rest.any (·.1 = e.1) then lasting rest else e :: lasting rest

theorem lasting_map (f : β → γ) (es : List (String × β)) :
    lasting (es.map fun e => (e.1, f e.2)) = (lasting es).map fun e => (e.1, f e.2) := by
  induction es with
  | nil => rfl
  | cons e rest ih =>
    have hany : (rest.map fun e => (e.1, f e.2)).any (·.1 = e.1) = rest.any (·.1 = e.1) := by
      rw [List.any_map]
      rfl
    rw [List.map_cons, lasting, lasting, hany, ih]
    split <;> rfl

theorem mem_keys_lasting {k : String} : k ∈ (lasting es).map Prod.fst ↔ k ∈ es.map Prod.fst := by
  induction es with
  | nil => rfl
  | cons e rest ih =>
    rw [lasting]
    split
    · next h =>
      obtain ⟨x, hx, hk⟩ := List.any_eq_true.1 h
      have hmem : e.1 ∈ rest.map Prod.fst := List.mem_map.2 ⟨x, hx, by simpa using hk⟩
      rw [ih, List.map_cons, List.mem_cons]
      constructor
      · exact .inr
      · rintro (rfl | hk)
        · exact hmem
        · exact hk
    · rw [List.map_cons, List.map_cons, List.mem_cons, List.mem_cons, ih]

theorem nodup_keys_lasting (es : List (String × β)) : ((lasting es).map Prod.fst).Nodup := by
  induction es with
  | nil => exact .nil
  | cons e rest ih =>
    rw [lasting]
    split
    · exact ih
    · next h =>
      rw [List.map_cons, List.nodup_cons, mem_keys_lasting]
      refine ⟨fun hmem => h ?_, ih⟩
      obtain ⟨x, hx, hk⟩ := List.mem_map.1 hmem
      exact List.any_eq_true.2 ⟨x, hx, by simpa using hk⟩

/-- By key. -/
def keyLt (a b : String × β) : Bool := decide (a.1 < b.1)

theorem keyLt_trans (a b c : String × β) (h : keyLt a b = true) (h' : keyLt b c = true) : keyLt a c = true := by
  rw [keyLt, decide_eq_true_eq] at h h' ⊢
  exact String.lt_trans h h'

theorem insertNew_of_mem_keys {ys : List (String × β)} (hys : ys.Pairwise (keyLt · ·)) (h : e.1 ∈ ys.map Prod.fst) :
    insertNew keyLt e ys = ys := by
  induction ys with
  | nil => cases h
  | cons y ys ih =>
    obtain ⟨hy, hys⟩ := List.pairwise_cons.1 hys
    rw [insertNew]
    split
    · next hlt =>
      -- All keys from `y` on are greater than the one of `e`, which is among them.
      have hgreater : ∀ z ∈ y :: ys, keyLt e z = true := by
        intro z hz
        rcases List.mem_cons.1 hz with rfl | hz
        · exact hlt
        · exact keyLt_trans e y z hlt (hy z hz)
      obtain ⟨z, hz, hkey⟩ := List.mem_map.1 h
      have hloop := hgreater z hz
      rw [keyLt, hkey, decide_eq_true_eq] at hloop
      exact absurd hloop (String.lt_irrefl _)
    · split
      · next hlt =>
        rw [keyLt, decide_eq_true_eq] at hlt
        rcases List.mem_cons.1 h with hkey | h
        · rw [hkey] at hlt
          exact absurd hlt (String.lt_irrefl _)
        · rw [ih hys h]
      · rfl

theorem perm_insertNew_of_not_mem_keys {ys : List (String × β)} (h : e.1 ∉ ys.map Prod.fst) :
    (insertNew keyLt e ys).Perm (e :: ys) := by
  induction ys with
  | nil => exact .refl _
  | cons y ys ih =>
    rw [List.map_cons, List.mem_cons, not_or] at h
    rw [insertNew]
    split
    · exact .refl _
    · next hnot =>
      split
      · exact ((ih h.2).cons y).trans (.swap e y ys)
      · next hnot' =>
        rw [keyLt, decide_eq_true_eq, String.not_lt] at hnot hnot'
        exact absurd (String.le_antisymm hnot' hnot) h.1

/-- Sorting by key from the last entry on keeps of each key its last value. -/
theorem perm_sortedSet_lasting (es : List (String × β)) : (sortedSet keyLt es.reverse).Perm (lasting es) := by
  induction es with
  | nil => exact .refl _
  | cons e rest ih =>
    have hlast : sortedSet keyLt (e :: rest).reverse = insertNew keyLt e (sortedSet keyLt rest.reverse) := by
      rw [sortedSet, List.reverse_cons, List.foldl_append]
      rfl
    have hkeys : e.1 ∈ (sortedSet keyLt rest.reverse).map Prod.fst ↔ rest.any (·.1 = e.1) = true := by
      rw [(ih.map Prod.fst).mem_iff, mem_keys_lasting]
      simp
    rw [hlast, lasting]
    split
    · next h =>
      rw [insertNew_of_mem_keys (pairwise_sortedSet keyLt_trans _) (hkeys.2 h)]
      exact ih
    · next h => exact (perm_insertNew_of_not_mem_keys (mt hkeys.1 h)).trans (ih.cons e)

end Keys

namespace PathAlias

variable {a b : PathAlias} {specifier matched : String}

/-! ## Matches -/

/-- The specifiers that a pattern matches, each with the text that its first star stands for. -/
inductive Matches : String → String → String → Prop
  | exact {pattern : String} : '*' ∉ pattern.toList → Matches pattern pattern ""
  | star {start ending : String} (matched : String) : '*' ∉ start.toList →
      Matches (start ++ "*" ++ ending) (start ++ matched ++ ending) matched

theorem match?_eq_some : a.match? specifier = some matched ↔ Matches a.pattern specifier matched := by
  unfold match?
  generalize a.pattern = pattern
  -- Where a pattern is cut is its first star, so how a specifier is matched says where the star is.
  cases hcut : Text.cutFirst '*' pattern.toList with
  | some parts =>
    obtain ⟨start, ending⟩ := parts
    obtain ⟨hpattern, hstart⟩ := Text.cutFirst_eq_some.1 hcut
    simp only [Option.map_eq_some_iff, Option.bind_eq_some_iff, Text.dropStart?_eq_some, Text.dropEnd?_eq_some]
    constructor
    · rintro ⟨cs, ⟨rest, hspecifier, rfl⟩, rfl⟩
      have hp : pattern = String.ofList start ++ "*" ++ String.ofList ending := by simp [← String.toList_inj, hpattern]
      have hs : specifier = String.ofList start ++ String.ofList cs ++ String.ofList ending := by
        simp [← String.toList_inj, hspecifier]
      rw [hp, hs]
      exact .star _ (by simpa using hstart)
    · intro h
      cases h with
      | exact hnone => exact absurd (by simp [hpattern]) hnone
      | @star first last _ hfirst =>
        have hsame : Text.cutFirst '*' (first ++ "*" ++ last).toList = some (first.toList, last.toList) := by
          simpa using Text.cutFirst_append hfirst last.toList
        cases hsame.symm.trans hcut
        exact ⟨matched.toList, ⟨matched.toList ++ last.toList, by simp, rfl⟩, by simp⟩
  | none =>
    have hnone := Text.cutFirst_eq_none.1 hcut
    dsimp only
    constructor
    · intro h
      split at h
      · next hsame =>
        cases h
        rw [← hsame]
        exact .exact hnone
      · cases h
    · intro h
      cases h with
      | exact _ => exact if_pos rfl
      | star _ _ => exact absurd (by simp) hnone

/-! ## The order -/

theorem le_iff : a.le b = true ↔
    a.isExact = true ∧ b.isExact = false ∨ a.isExact = b.isExact ∧ b.stemSize ≤ a.stemSize := by
  unfold le
  cases a.isExact <;> cases b.isExact <;> simp

theorem le_refl (a : PathAlias) : a.le a = true := le_iff.2 (.inr ⟨rfl, Nat.le_refl _⟩)

theorem le_trans (a b c : PathAlias) (h : a.le b = true) (h' : b.le c = true) : a.le c = true := by
  rw [le_iff] at h h' ⊢
  rcases h with ⟨ha, hb⟩ | ⟨hab, hsize⟩
  · rcases h' with ⟨hb', -⟩ | ⟨hbc, -⟩
    · rw [hb] at hb'
      cases hb'
    · exact .inl ⟨ha, hbc ▸ hb⟩
  · rcases h' with ⟨hb, hc⟩ | ⟨hbc, hsize'⟩
    · exact .inl ⟨hab ▸ hb, hc⟩
    · exact .inr ⟨hab.trans hbc, Nat.le_trans hsize' hsize⟩

theorem le_total (a b : PathAlias) (h : a.le b = false) : b.le a = true := by
  have hnot : ¬ a.le b = true := by simp [h]
  rw [le_iff] at hnot ⊢
  cases ha : a.isExact <;> cases hb : b.isExact <;> simp [ha, hb] at hnot ⊢ <;> omega

/-- What an exact pattern matches is itself. -/
theorem pattern_eq_of_isExact (ha : a.isExact = true) (h : a.match? specifier = some matched) :
    a.pattern = specifier := by
  have hmatches := match?_eq_some.1 h
  have hnone : '*' ∉ a.pattern.toList := by simpa [isExact] using ha
  generalize a.pattern = pattern at hmatches hnone
  cases hmatches with
  | exact _ => rfl
  | star _ _ => exact absurd (by simp) hnone

theorem match?_of_pattern_eq (ha : a.isExact = true) (h : a.pattern = specifier) : a.match? specifier = some "" := by
  have hnone : '*' ∉ a.pattern.toList := by simpa [isExact] using ha
  rw [match?_eq_some, ← h]
  exact .exact hnone

/-- What a pattern matches begins with the text before its star. -/
theorem stem_starts (h : a.match? specifier = some matched) : a.stem <+: specifier.toList := by
  have hmatches := match?_eq_some.1 h
  unfold stem
  generalize a.pattern = pattern at hmatches
  cases hmatches with
  | exact _ => exact List.takeWhile_prefix _
  | @star start ending _ hstart =>
    have hplain : ∀ c ∈ start.toList, (c != '*') = true := by
      intro c hc
      rw [bne_iff_ne]
      rintro rfl
      exact hstart hc
    have hstem : (start ++ "*" ++ ending).toList.takeWhile (· != '*') = start.toList := by
      rw [String.append_assoc, String.toList_append, List.takeWhile_append_of_pos hplain]
      simp
    rw [hstem]
    exact ⟨matched.toList ++ ending.toList, by simp⟩

/-- Of the texts before the star of two patterns that match, the one with more bytes is the
longer one. -/
theorem length_stem_le {matched' : String} (h : a.match? specifier = some matched) (h' : b.match? specifier = some matched')
    (hsize : b.stemSize ≤ a.stemSize) : b.stem.length ≤ a.stem.length := by
  rcases List.prefix_or_prefix_of_prefix (stem_starts h) (stem_starts h') with hab | hba
  · obtain ⟨more, hmore⟩ := hab
    have hempty : (String.ofList more).utf8ByteSize = 0 := by
      have hsum : b.stemSize = a.stemSize + (String.ofList more).utf8ByteSize := by
        rw [stemSize, stemSize, ← hmore, String.ofList_append, String.utf8ByteSize_append]
      omega
    rw [String.utf8ByteSize_eq_zero_iff, String.ofList_eq_empty_iff] at hempty
    rw [← hmore, hempty, List.append_nil]
  · exact hba.length_le

/-- What counts for a specifier among aliases: the specifier itself as a pattern, or, where
that is none, a pattern with a star that matches it and has as much text before the star as
any other that does. -/
inductive Counts (aliases : List PathAlias) (specifier : String) (a : PathAlias) : Prop
  | exact : a.isExact = true → a.pattern = specifier → Counts aliases specifier a
  | star {matched : String} : a.isExact = false → a.match? specifier = some matched →
      (∀ b ∈ aliases, b.isExact = true → b.pattern ≠ specifier) →
      (∀ b ∈ aliases, ∀ matched', b.match? specifier = some matched' → b.stem.length ≤ a.stem.length) →
      Counts aliases specifier a

/-- Among aliases in order the first that matches counts. -/
theorem counts_of_find? {aliases : List PathAlias} (h : aliases.Pairwise (le · ·))
    (hfind : aliases.find? (fun a => (a.match? specifier).isSome) = some a) : Counts aliases specifier a := by
  have hleast : ∀ b ∈ aliases, ∀ matched, b.match? specifier = some matched → a.le b = true := by
    intro b hb matched hm
    exact le_of_find? le_refl h hfind hb (by rw [hm]; rfl)
  have hsome : (a.match? specifier).isSome = true := List.find?_some (p := fun a : PathAlias => (a.match? specifier).isSome) hfind
  obtain ⟨matched, hmatch⟩ := Option.isSome_iff_exists.1 hsome
  cases ha : a.isExact with
  | true => exact .exact ha (pattern_eq_of_isExact ha hmatch)
  | false =>
    -- Then nothing exact matches, since it would come before `a`.
    have hnone : ∀ b ∈ aliases, ∀ matched', b.match? specifier = some matched' →
        b.isExact = false ∧ b.stemSize ≤ a.stemSize := by
      intro b hb matched' hm
      rcases le_iff.1 (hleast b hb matched' hm) with ⟨ha', -⟩ | ⟨hab, hsize⟩
      · cases ha.symm.trans ha'
      · exact ⟨hab ▸ ha, hsize⟩
    refine .star ha hmatch (fun b hb hexact hpattern => ?_) (fun b hb matched' hm => ?_)
    · have hnot := (hnone b hb "" (match?_of_pattern_eq hexact hpattern)).1
      cases hexact.symm.trans hnot
    · exact length_stem_le hmatch hm (hnone b hb matched' hm).2

end PathAlias

/-! ## Manifests -/

namespace Manifest

/-- What a manifest asks for: the directory that imports start from, and the patterns with the
paths to try for them, in the order they are written. Either may be missing. -/
structure Asked where
  baseUrl : Option String := none
  paths : Option (List (String × List String)) := none

def Asked.entries (a : Asked) : List (String × List String) := a.paths.getD []

def listOf (texts : List String) : Json := .list (texts.map .text)

def tableOf (entries : List (String × List String)) : Json := .object (entries.map fun e => (e.1, listOf e.2))

def Asked.value (a : Asked) : Json :=
  .object [("baseUrl", (a.baseUrl.map .text).getD .null), ("paths", (a.paths.map tableOf).getD .null)]

/-- The value that is read of a manifest that asks for something, or for nothing. -/
def valueOf (a : Option Asked) : Json := .object [("compilerOptions", (a.map Asked.value).getD .null)]

open Json in
/-- What is asked for in the options of a manifest. -/
def optionsShape : Shape :=
  .record false <|
    .cons "baseUrl" (.option .text) .optional <| .cons "paths" (.option (.table (.list .text))) .optional .nil

open Json in
theorem shape_eq : shape = .record false (.cons "compilerOptions" (.option optionsShape) .optional .nil) := rfl

section Read

open Json

variable {j : Json}

theorem exists_optional {s : Shape} {α : Type} {f : α → Json} (hs : ∀ j, s.Fits j → ∃ x, f x = j)
    (h : (Shape.option s).Fits j ∨ Json.null = j) : ∃ x : Option α, (x.map f).getD .null = j := by
  rcases h with h | rfl
  · rcases h with rfl | h
    · exact ⟨none, rfl⟩
    · obtain ⟨x, rfl⟩ := hs j h
      exact ⟨some x, rfl⟩
  · exact ⟨none, rfl⟩

theorem exists_text (h : Shape.text.Fits j) : ∃ t, Json.text t = j := by
  cases j with
  | text t => exact ⟨t, rfl⟩
  | _ => exact h.elim

theorem exists_listOf (h : (Shape.list .text).Fits j) : ∃ ts, listOf ts = j := by
  cases j with
  | list js =>
    obtain ⟨ts, rfl⟩ : js ∈ Set.range (List.map Json.text) := by
      rw [Set.range_list_map]
      exact fun j hj => exists_text (h j hj)
    exact ⟨ts, rfl⟩
  | _ => exact h.elim

theorem exists_tableOf (h : (Shape.table (.list .text)).Fits j) : ∃ es, tableOf es = j := by
  cases j with
  | object ms =>
    obtain ⟨es, rfl⟩ : ms ∈ Set.range (List.map fun e : String × List String => (e.1, listOf e.2)) := by
      rw [Set.range_list_map]
      intro m hm
      obtain ⟨ts, hts⟩ := exists_listOf (h m hm)
      exact ⟨(m.1, ts), Prod.ext rfl hts⟩
    exact ⟨es, rfl⟩
  | _ => exact h.elim

theorem exists_asked (h : optionsShape.Fits j) : ∃ a : Asked, a.value = j := by
  cases j with
  | object ms =>
    obtain ⟨hnames, hfits⟩ := h
    obtain ⟨⟨_, b⟩, ms₁, rfl, rfl, hnames₁⟩ := List.map_eq_cons_iff.1 hnames
    obtain ⟨⟨_, p⟩, ms₂, rfl, rfl, hnames₂⟩ := List.map_eq_cons_iff.1 hnames₁
    obtain rfl := List.map_eq_nil_iff.1 hnames₂
    have hb : (Shape.option .text).Fits b ∨ Json.null = b := by
      simpa [Fields.Fits, Absent.value?] using hfits ("baseUrl", b) (by simp)
    have hp : (Shape.option (.table (.list .text))).Fits p ∨ Json.null = p := by
      simpa [Fields.Fits, Absent.value?] using hfits ("paths", p) (by simp)
    obtain ⟨baseUrl, rfl⟩ := exists_optional (fun _ => exists_text) hb
    obtain ⟨paths, rfl⟩ := exists_optional (fun _ => exists_tableOf) hp
    exact ⟨⟨baseUrl, paths⟩, rfl⟩
  | _ => exact h.elim

/-- Whatever is read of a manifest is such a value. -/
theorem exists_valueOf (h : shape.Fits j) : ∃ a, valueOf a = j := by
  rw [shape_eq] at h
  cases j with
  | object ms =>
    obtain ⟨hnames, hfits⟩ := h
    obtain ⟨⟨_, c⟩, ms₁, rfl, rfl, hnames₁⟩ := List.map_eq_cons_iff.1 hnames
    obtain rfl := List.map_eq_nil_iff.1 hnames₁
    have hc : (Shape.option optionsShape).Fits c ∨ Json.null = c := by
      simpa [Fields.Fits, Absent.value?] using hfits ("compilerOptions", c) (by simp)
    obtain ⟨a, rfl⟩ := exists_optional (fun _ => exists_asked) hc
    exact ⟨a, rfl⟩
  | _ => exact h.elim

end Read

/-! ## What is made of it -/

theorem textsOf_listOf (texts : List String) : textsOf (listOf texts) = texts := by
  simp [textsOf, listOf, List.filterMap_map]

theorem ofJson_valueOf (dir : Path) (a : Option Asked) :
    ofJson dir (valueOf a) =
      ofOptions dir (a.getD {}).baseUrl ((a.getD {}).entries.map fun e => (e.1, listOf e.2)) := by
  cases a with
  | none => rfl
  | some a =>
    obtain ⟨baseUrl, paths⟩ := a
    cases baseUrl <;> cases paths <;> rfl

/-- The alias that an entry makes, with its targets seen from `base`. -/
def aliasOf (base : Path) (e : String × List String) : PathAlias := ⟨e.1, e.2.map base.join⟩

theorem perm_aliases (dir : Path) (baseUrl : Option String) (es : List (String × List String)) :
    (ofOptions dir baseUrl (es.map fun e => (e.1, listOf e.2))).aliases.Perm
      ((lasting es).map (aliasOf ((baseUrl.map dir.join).getD dir))) := by
  refine (perm_sortBy _ _).trans (((perm_sortedSet_lasting _).map _).trans (.of_eq ?_))
  rw [lasting_map, List.map_map]
  refine List.map_congr_left fun e _ => ?_
  dsimp only [Function.comp_apply]
  rw [textsOf_listOf]
  rfl

theorem pairwise_aliases (dir : Path) (baseUrl : Option String) (paths : List (String × Json)) :
    (ofOptions dir baseUrl paths).aliases.Pairwise (PathAlias.le · ·) :=
  pairwise_sortBy PathAlias.le_trans PathAlias.le_total _

/-- A text that is a manifest has a value, and the manifest is what that makes. -/
theorem parse_eq_ok {dir : Path} {text : String} {m : Manifest} (h : parse dir text = .ok m) :
    ∃ a, Json.parse shape (RelaxedJson.strict text.toList) = .ok (valueOf a) ∧
      m = ofOptions dir (a.getD {}).baseUrl ((a.getD {}).entries.map fun e => (e.1, listOf e.2)) := by
  obtain ⟨j, hj, rfl⟩ := map_eq_ok.1 h
  obtain ⟨a, rfl⟩ := exists_valueOf (Json.parse_fits hj)
  exact ⟨a, hj, ofJson_valueOf dir a⟩

/-- The aliases of a manifest that is loaded are those of the entries of its `paths`, each
pattern once, with its last targets. A pattern matches the specifiers that begin with the text
before its first star and end with the text after it, or only itself if it has none. And the
first alias that matches a specifier counts, if any does. -/
theorem load_orders_aliases (s : Snapshot) (path : Path) (m : Manifest) (h : load s path = .ok m) :
    (∃ text a, s.readText path = .ok text ∧ Json.parse shape (RelaxedJson.strict text.toList) = .ok (valueOf a) ∧
      m.dir = path.parent?.getD ⟨"."⟩ ∧ m.baseUrl = (a.getD {}).baseUrl.map m.dir.join ∧
      m.aliases.Perm ((lasting (a.getD {}).entries).map (aliasOf (m.baseUrl.getD m.dir)))) ∧
    (m.aliases.map (·.pattern)).Nodup ∧
    ∀ specifier, (∀ (a : PathAlias) matched, a.match? specifier = some matched ↔
        PathAlias.Matches a.pattern specifier matched) ∧
      ((m.aliases.find? fun a => (a.match? specifier).isSome) = none ↔
        ∀ a ∈ m.aliases, ∀ matched, ¬ PathAlias.Matches a.pattern specifier matched) ∧
      ∀ a, (m.aliases.find? fun a => (a.match? specifier).isSome) = some a →
        a ∈ m.aliases ∧ PathAlias.Counts m.aliases specifier a := by
  obtain ⟨text, hread, hmanifest⟩ := load_eq_ok.1 h
  obtain ⟨asked, hparse, rfl⟩ := parse_eq_ok hmanifest
  have hperm := perm_aliases (path.parent?.getD ⟨"."⟩) (asked.getD {}).baseUrl (asked.getD {}).entries
  refine ⟨⟨text, asked, hread, hparse, rfl, rfl, hperm⟩, ?_, fun specifier => ⟨fun _ _ => PathAlias.match?_eq_some, ?_,
    fun a ha => ⟨List.mem_of_find?_eq_some ha, PathAlias.counts_of_find? (pairwise_aliases _ _ _) ha⟩⟩⟩
  · rw [(hperm.map (·.pattern)).nodup_iff, List.map_map]
    exact nodup_keys_lasting _
  · rw [List.find?_eq_none]
    refine forall₂_congr fun a _ => ?_
    rw [Option.isSome_iff_exists, not_exists]
    exact forall_congr' fun _ => not_congr PathAlias.match?_eq_some

/-- A manifest with a pattern that is written twice and one that is a specifier. -/
def aliased : Snapshot :=
  .ofEntries [(["tsconfig.json"], .file
    "\x7b\"compilerOptions\": \x7b\"baseUrl\": \"src\", \"paths\": \x7b\"@/*\": [\"a/*\"], \"@/lib/*\": [\"lib/*\"],
      \"@/lib/x\": [\"x.ts\"], \"@/*\": [\"b/*\"]\x7d\x7d\x7d".toUTF8)]

theorem aliased_ordered :
    ∃ m, load aliased ⟨"/tsconfig.json"⟩ = .ok m ∧
      m.aliases = [⟨"@/lib/x", [⟨"/src/x.ts"⟩]⟩, ⟨"@/lib/*", [⟨"/src/lib/*"⟩]⟩, ⟨"@/*", [⟨"/src/b/*"⟩]⟩] ∧
      PathAlias.Counts m.aliases "@/lib/x" ⟨"@/lib/x", [⟨"/src/x.ts"⟩]⟩ ∧
      PathAlias.Counts m.aliases "@/lib/y" ⟨"@/lib/*", [⟨"/src/lib/*"⟩]⟩ := by
  have hload : load aliased ⟨"/tsconfig.json"⟩ = .ok ⟨⟨"/"⟩, some ⟨"/src"⟩,
      [⟨"@/lib/x", [⟨"/src/x.ts"⟩]⟩, ⟨"@/lib/*", [⟨"/src/lib/*"⟩]⟩, ⟨"@/*", [⟨"/src/b/*"⟩]⟩]⟩ := by decide +kernel
  obtain ⟨-, -, hfirst⟩ := load_orders_aliases aliased ⟨"/tsconfig.json"⟩ _ hload
  exact ⟨_, hload, rfl, ((hfirst "@/lib/x").2.2 _ (by decide +kernel)).2, ((hfirst "@/lib/y").2.2 _ (by decide +kernel)).2⟩

end Manifest

end ImportAtlas
