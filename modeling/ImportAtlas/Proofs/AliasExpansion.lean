import ImportAtlas.Proofs.AliasOrder
import Mathlib.Data.List.Forall2
/-!
# What an alias expands to

A target is joined to the directory it is seen from when a manifest is read, and a specifier's
text goes for the first star of the joined path later on. That is the first star of the target
itself unless the directory has one, in its name or above (`load_keeps_base_iff`). In a directory
with a star every relative target is lost: the star of the directory is filled, whatever the
target is (`directory_filled`).
-/

namespace ImportAtlas

namespace Text

variable {sep : Char} {start cs : List Char}

/-- What comes before the first separator stays. -/
theorem replaceFirst_append_of_not_mem (h : sep ∉ start) (text cs : List Char) :
    replaceFirst sep text (start ++ cs) = start ++ replaceFirst sep text cs := by
  unfold replaceFirst
  cases hcut : cutFirst sep cs with
  | none =>
    have hnone : cutFirst sep (start ++ cs) = none :=
      cutFirst_eq_none.2 fun hmem => (List.mem_append.1 hmem).elim h (cutFirst_eq_none.1 hcut)
    rw [hnone]
  | some parts =>
    obtain ⟨before, after⟩ := parts
    obtain ⟨rfl, hbefore⟩ := cutFirst_eq_some.1 hcut
    have hsome := cutFirst_append (fun hmem => (List.mem_append.1 hmem).elim h hbefore) after
    rw [List.append_assoc] at hsome
    rw [hsome]
    simp

theorem replaceFirst_cons (sep : Char) (text cs : List Char) : replaceFirst sep text (sep :: cs) = text ++ cs := by
  have hcut : cutFirst sep (sep :: cs) = some ([], cs) := cutFirst_append List.not_mem_nil cs
  simp [replaceFirst, hcut]

/-- The text up to the first separator. -/
theorem exists_first (h : sep ∈ cs) : ∃ before after, cs = before ++ sep :: after ∧ sep ∉ before := by
  cases hcut : cutFirst sep cs with
  | none => exact absurd h (cutFirst_eq_none.1 hcut)
  | some parts => exact ⟨parts.1, parts.2, cutFirst_eq_some.1 hcut⟩

end Text

namespace Path

variable {p : Path} {q : String}

/-- What stands before a relative path that is seen from `p`. -/
def lead (p : Path) : String :=
  match p.text.toList.getLast? with
  | none | some '/' => p.text
  | some _ => p.text ++ "/"

theorem text_join_relative (h : (Path.mk q).isAbsolute = false) : (p.join q).text = p.lead ++ q := by
  unfold join lead
  rw [h, if_neg (by simp)]
  split <;> simp_all

theorem text_join_absolute (h : (Path.mk q).isAbsolute = true) : (p.join q).text = q := by
  rw [join, if_pos h]

theorem star_mem_lead : '*' ∈ p.lead.toList ↔ '*' ∈ p.text.toList := by
  unfold lead
  split <;> simp

end Path

namespace Manifest

/-! ## Filling a target -/

/-- The second text is the first with `matched` for its first star, if it has one. -/
inductive Filled (matched : String) : String → String → Prop
  | plain {t : String} : '*' ∉ t.toList → Filled matched t t
  | star {start ending : String} : '*' ∉ start.toList →
      Filled matched (start ++ "*" ++ ending) (start ++ matched ++ ending)

variable {base p : Path} {t u matched : String}

theorem filled_iff : Filled matched t u ↔ u = String.ofList (Text.replaceFirst '*' matched.toList t.toList) := by
  constructor
  · intro h
    cases h with
    | plain hnone => rw [Text.replaceFirst, Text.cutFirst_eq_none.2 hnone, String.ofList_toList]
    | @star start ending hstart =>
      have hreplace := Text.replaceFirst_append_of_not_mem hstart matched.toList ('*' :: ending.toList)
      rw [Text.replaceFirst_cons] at hreplace
      simp [← String.toList_inj, hreplace]
  · rintro rfl
    by_cases h : '*' ∈ t.toList
    · obtain ⟨start, ending, ht, hstart⟩ := Text.exists_first h
      obtain rfl : t = String.ofList start ++ "*" ++ String.ofList ending := by simp [← String.toList_inj, ht]
      have hreplace := Text.replaceFirst_append_of_not_mem hstart matched.toList ('*' :: ending)
      rw [Text.replaceFirst_cons] at hreplace
      have hfilled : Filled matched (String.ofList start ++ "*" ++ String.ofList ending)
          (String.ofList start ++ matched ++ String.ofList ending) := .star (by simpa using hstart)
      simpa [hreplace, String.append_assoc] using hfilled
    · rw [Text.replaceFirst, Text.cutFirst_eq_none.2 h, String.ofList_toList]
      exact .plain h

/-- `p` is the target `t` seen from `base`, with `matched` for the first star of the target. -/
def Expands (base : Path) (t matched : String) (p : Path) : Prop :=
  ∃ start u, (base.join t).text = start ++ t ∧ Filled matched t u ∧ p.text = start ++ u

/-- The path to try for a target. -/
def expansion (base : Path) (t matched : String) : Path :=
  ⟨String.ofList (Text.replaceFirst '*' matched.toList (base.join t).text.toList)⟩

theorem expand_aliasOf (base : Path) (e : String × List String) (matched : String) :
    (aliasOf base e).expand matched = e.2.map fun t => expansion base t matched := by
  simp [aliasOf, PathAlias.expand, expansion, List.map_map]

theorem expands_absolute (h : (Path.mk t).isAbsolute = true) : Expands base t matched (expansion base t matched) := by
  refine ⟨"", _, ?_, filled_iff.2 rfl, ?_⟩
  · rw [Path.text_join_absolute h, String.empty_append]
  · rw [expansion, Path.text_join_absolute h, String.empty_append]

theorem expands_relative (h : (Path.mk t).isAbsolute = false) (hbase : '*' ∉ base.text.toList) :
    Expands base t matched (expansion base t matched) := by
  have hlead : '*' ∉ base.lead.toList := mt Path.star_mem_lead.1 hbase
  refine ⟨base.lead, _, Path.text_join_relative h, filled_iff.2 rfl, ?_⟩
  rw [expansion, Path.text_join_relative h, String.toList_append, Text.replaceFirst_append_of_not_mem hlead,
    String.ofList_append, String.ofList_toList]

/-- A star of the directory is filled in place of the target's. -/
theorem directory_filled (h : (Path.mk t).isAbsolute = false) (hbase : '*' ∈ base.text.toList) :
    ¬ Expands base t "x" (expansion base t "x") := by
  rintro ⟨start, u, hjoin, -, hu⟩
  obtain ⟨before, after, hlead, hbefore⟩ := Text.exists_first (Path.star_mem_lead.2 hbase)
  rw [Path.text_join_relative h] at hjoin
  obtain rfl : base.lead = start := by
    rw [← String.toList_inj] at hjoin ⊢
    simpa using hjoin
  -- Where the path that is tried has the matched text, the directory has its star.
  rw [expansion, Path.text_join_relative h, ← String.toList_inj] at hu
  simp only [String.toList_append, String.toList_ofList, hlead, List.append_assoc, List.cons_append] at hu
  rw [Text.replaceFirst_append_of_not_mem hbefore, Text.replaceFirst_cons, List.append_right_inj] at hu
  cases hu

theorem expands_iff : (∀ matched, Expands base t matched (expansion base t matched)) ↔
    ('*' ∈ base.text.toList → (Path.mk t).isAbsolute = true) := by
  cases h : (Path.mk t).isAbsolute with
  | true => exact ⟨fun _ _ => rfl, fun _ _ => expands_absolute h⟩
  | false =>
    constructor
    · intro hall hbase
      exact absurd (hall "x") (directory_filled h hbase)
    · intro hplain matched
      exact expands_relative h fun hbase => by cases hplain hbase

/-! ## Aliases of a manifest -/

/-- Whatever is matched, the paths of an entry's alias are its targets seen from `base`, each with
the matched text for the first star of its own. -/
def KeepsBase (base : Path) (e : String × List String) : Prop :=
  ∀ matched, List.Forall₂ (fun t p => Expands base t matched p) e.2 ((aliasOf base e).expand matched)

theorem keepsBase_iff {e : String × List String} :
    KeepsBase base e ↔ ('*' ∈ base.text.toList → ∀ t ∈ e.2, (Path.mk t).isAbsolute = true) := by
  have htargets : KeepsBase base e ↔ ∀ t ∈ e.2, ∀ matched, Expands base t matched (expansion base t matched) := by
    unfold KeepsBase
    simp only [expand_aliasOf, List.forall₂_map_right_iff, List.forall₂_same]
    exact ⟨fun h t ht matched => h matched t ht, fun h matched t ht => h t ht matched⟩
  rw [htargets]
  simp only [expands_iff]
  exact ⟨fun h hbase t ht => h t ht hbase, fun h t ht hbase => h hbase t ht⟩

/-- The aliases of a manifest that is loaded keep what their targets are seen from exactly if there
is no star in it, or no target is relative. -/
theorem load_keeps_base_iff (s : Snapshot) (path : Path) (m : Manifest) (h : load s path = .ok m) :
    ∃ text a, s.readText path = .ok text ∧ Json.parse shape (RelaxedJson.strict text.toList) = .ok (valueOf a) ∧
      m.dir = path.parent?.getD ⟨"."⟩ ∧ m.baseUrl = (a.getD {}).baseUrl.map m.dir.join ∧
      m.aliases.Perm ((lasting (a.getD {}).entries).map (aliasOf (m.baseUrl.getD m.dir))) ∧
      ((∀ e ∈ lasting (a.getD {}).entries, KeepsBase (m.baseUrl.getD m.dir) e) ↔
        ('*' ∈ (m.baseUrl.getD m.dir).text.toList →
          ∀ e ∈ lasting (a.getD {}).entries, ∀ t ∈ e.2, (Path.mk t).isAbsolute = true)) := by
  obtain ⟨text, hread, hmanifest⟩ := load_eq_ok.1 h
  obtain ⟨asked, hparse, rfl⟩ := parse_eq_ok hmanifest
  refine ⟨text, asked, hread, hparse, rfl, rfl, perm_aliases _ _ _, ?_⟩
  constructor
  · intro hkeeps hbase e he
    exact keepsBase_iff.1 (hkeeps e he) hbase
  · intro hplain e he
    exact keepsBase_iff.2 fun hbase => hplain hbase e he

/-- The aliases of a manifest at the root keep the directory they are seen from. -/
theorem load_keeps_base_aliased :
    ∃ m, load aliased ⟨"/tsconfig.json"⟩ = .ok m ∧
      ∃ entries : List (String × List String), m.aliases.Perm (entries.map (aliasOf ⟨"/src"⟩)) ∧ ∀ e ∈ entries, KeepsBase ⟨"/src"⟩ e := by
  have hload : load aliased ⟨"/tsconfig.json"⟩ = .ok ⟨⟨"/"⟩, some ⟨"/src"⟩,
      [⟨"@/lib/x", [⟨"/src/x.ts"⟩]⟩, ⟨"@/lib/*", [⟨"/src/lib/*"⟩]⟩, ⟨"@/*", [⟨"/src/b/*"⟩]⟩]⟩ := by decide +kernel
  obtain ⟨-, asked, -, -, -, -, hperm, hkeeps⟩ := load_keeps_base_iff aliased ⟨"/tsconfig.json"⟩ _ hload
  exact ⟨_, hload, _, hperm, hkeeps.2 fun hstar => absurd hstar (by decide)⟩

/-- A manifest in a directory with a star in its name. -/
def starred : Snapshot :=
  .ofEntries [(["p*q", "tsconfig.json"], .file
      "\x7b\"compilerOptions\":\x7b\"paths\":\x7b\"@/*\":[\"src/*\"]\x7d\x7d\x7d".toUTF8),
    (["p*q", "src", "x.ts"], .file "".toUTF8), (["p*q", "m.ts"], .file "".toUTF8)]

/-- Its alias looks for a file in another directory. -/
theorem starred_directory_filled :
    ∃ m, load starred ⟨"/p*q/tsconfig.json"⟩ = .ok m ∧ m.dir = ⟨"/p*q"⟩ ∧ m.baseUrl = none ∧
      m.aliases = [aliasOf m.dir ("@/*", ["src/*"])] ∧
      (aliasOf m.dir ("@/*", ["src/*"])).expand "x" = [⟨"/pxq/src/*"⟩] ∧
      Expands m.dir "src/*" "x" ⟨"/p*q/src/x"⟩ ∧ ¬ KeepsBase m.dir ("@/*", ["src/*"]) := by
  have hload : load starred ⟨"/p*q/tsconfig.json"⟩ = .ok ⟨⟨"/p*q"⟩, none, [⟨"@/*", [⟨"/p*q/src/*"⟩]⟩]⟩ := by
    decide +kernel
  refine ⟨_, hload, rfl, rfl, by decide, by decide, ⟨"/p*q/", "src/x", by decide, filled_iff.2 (by decide), by decide⟩, ?_⟩
  rw [keepsBase_iff]
  exact fun h => absurd (h (by decide) "src/*" (by decide)) (by decide)

end Manifest

end ImportAtlas
