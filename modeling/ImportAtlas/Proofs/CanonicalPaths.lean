import ImportAtlas.Proofs.ImportClosure
import ImportAtlas.Proofs.WorkingDirectory
/-!
# Canonical paths

A path that leads to something is normalized to the path of its location, and that path
leads to the same location (`locate_again`): it is canonical, and normalizing it again
changes nothing. A path that leads nowhere is cleaned by its text alone. What comes out may
well lead somewhere, since `..` takes back a directory that is missing, and then it may lead
through a link. Exactly then is it normalized once more to something else
(`normalize_again`, `stray_normalized_twice`).

So in a walk a file is a node once, under its canonical path, unless the entry of the walk is
such a path.
-/

namespace ImportAtlas

/-- `p` as it is looked up from `cwd`. -/
def Path.seenFrom (p cwd : Path) : Path := if p.isAbsolute then p else cwd.join p.text

theorem Path.seenFrom_isAbsolute {p cwd : Path} (h : cwd.isAbsolute = true) : (p.seenFrom cwd).isAbsolute = true := by
  unfold seenFrom
  split
  · assumption
  · next hp =>
    obtain ⟨cs, hcs⟩ := Path.isAbsolute_iff.1 h
    have hne : cwd.text ≠ "" := fun hempty => by simp [hempty] at hcs
    rw [Path.isAbsolute_join hne (by simpa using hp), h]

theorem Location.names_path {at_ : Location} (h : ∀ n ∈ at_, Path.IsName n) : (path at_).names = at_ := by
  rw [Path.names, components_path h]
  simp [List.filterMap_map]

namespace Snapshot

variable {s : Snapshot} {p q cwd : Path} {at_ names : Location}

/-! ## What a path leads to -/

/-- A walk comes to stand at a file or a directory. -/
theorem Walks.stands {steps : List String} {place : Place} (h : s.Walks at_ steps place) (hentered : s.Entered at_)
    (hstands : s.Stands at_) {end_ : Location} (hplace : place = .existing end_) : s.Stands end_ := by
  induction h with
  | here =>
    cases hplace
    exact hstands
  | free => cases hplace
  | stay _ _ ih => exact ih hentered hstands hplace
  | @up at_ _ _ _ _ ih =>
    have habove : at_.dropLast <+: at_ := List.dropLast_prefix at_
    exact ih (hentered.mono habove) (hentered.stands hstands habove) hplace
  | name hdir _ _ hentry hlink _ ih => exact ih (hentered.append hdir _) ⟨_, hentry, hlink⟩ hplace
  | link _ _ _ _ _ ih =>
    refine ih ?_ ?_ hplace
    · split
      · exact entered_nil
      · exact hentered
    · split
      · exact stands_directory rfl
      · exact hstands

/-- A path leads to a file or a directory. -/
theorem locate_stands (h : s.locate p = .ok at_) : s.Stands at_ := by
  exact (s.walks_of_locate h).stands entered_nil (stands_directory rfl) rfl

/-- The path of the location that a path leads to leads there too. -/
theorem locate_again (h : s.locate p = .ok at_) : s.locate (Location.path at_) = .ok at_ :=
  locate_path (s.locate_named h) (locate_entered h) (locate_stands h)

/-! ## Canonical paths -/

/-- `p` is the path of the location it leads to. -/
def IsCanonical (s : Snapshot) (p : Path) : Prop := ∃ at_, s.locate p = .ok at_ ∧ p = Location.path at_

theorem isCanonical_path (h : s.locate p = .ok at_) : s.IsCanonical (Location.path at_) := ⟨at_, locate_again h, rfl⟩

/-- What is at a location has one canonical path. -/
theorem IsCanonical.eq (hp : s.IsCanonical p) (hq : s.IsCanonical q) (h : s.locate p = s.locate q) : p = q := by
  obtain ⟨at_, hlp, rfl⟩ := hp
  obtain ⟨at', hlq, rfl⟩ := hq
  rw [hlp, hlq] at h
  cases h
  rfl

theorem IsCanonical.normalize_eq (hp : s.IsCanonical p) (cwd : Path) : s.normalize p cwd = p := by
  obtain ⟨at_, hl, he⟩ := hp
  rw [s.normalize_of_locate cwd hl, ← he]

/-- A path is normalized to what it leads to, or else cleaned. -/
theorem normalize_cases (s : Snapshot) (p cwd : Path) :
    (∃ at_, s.locate (p.seenFrom cwd) = .ok at_ ∧ s.normalize p cwd = Location.path at_) ∨
      ∃ e, s.locate (p.seenFrom cwd) = .error e ∧ s.normalize p cwd = (p.seenFrom cwd).clean := by
  unfold normalize Path.seenFrom
  dsimp only
  cases hl : s.locate (if p.isAbsolute then p else cwd.join p.text) with
  | ok at_ => exact .inl ⟨at_, rfl, rfl⟩
  | error e => exact .inr ⟨e, rfl, rfl⟩

/-! ## Paths that go through links -/

/-- A link stands at a start of the names of `p`. -/
def HasLink (s : Snapshot) (p : Path) : Prop := ∃ above target, above <+: p.names ∧ s.entry? above = some (.link target)

/-- A walk without `..` that meets no link comes to where its names say. -/
theorem Walks.linkless {steps : List String} {place : Place} (h : s.Walks at_ steps place) (hdots : ".." ∉ steps)
    (hlinks : ∀ above target, above <+: steps.filter (· ≠ ".") → s.entry? (at_ ++ above) ≠ some (.link target)) :
    place.location = at_ ++ steps.filter (· ≠ ".") := by
  induction h with
  | here => simp [Place.location]
  | free _ hdot _ _ => simp [Place.location, hdot]
  | stay _ _ ih =>
    rw [List.filter_cons_of_neg (by simp)] at hlinks ⊢
    exact ih (List.not_mem_of_not_mem_cons hdots) hlinks
  | up => exact absurd List.mem_cons_self hdots
  | name _ hdot _ _ _ _ ih =>
    rw [List.filter_cons_of_pos (by simpa using hdot)] at hlinks ⊢
    rw [List.append_cons]
    refine ih (List.not_mem_of_not_mem_cons hdots) fun above target habove => ?_
    simpa using hlinks (_ :: above) target (by simpa using habove)
  | @link _ step _ _ target _ hdot _ hentry _ _ =>
    rw [List.filter_cons_of_pos (by simpa using hdot)] at hlinks
    exact absurd hentry (hlinks [step] target (by simp))

/-- A path without `.` and `..` is canonical if and only if it goes through no link. -/
theorem locate_path_eq_iff (h : ∀ n ∈ names, Path.IsName n) (hl : s.locate (Location.path names) = .ok at_) :
    at_ = names ↔ ¬ s.HasLink (Location.path names) := by
  unfold HasLink
  rw [Location.names_path h]
  constructor
  · rintro rfl ⟨above, target, habove, he⟩
    obtain ⟨e, he', hnolink⟩ := (locate_entered hl).stands (locate_stands hl) habove
    rw [he] at he'
    cases he'
    exact hnolink target rfl
  · intro hnone
    by_cases hne : names = []
    · subst hne
      cases hl
      rfl
    · have hwalk := s.walks_of_locate hl
      rw [stepsOf_path hne h] at hwalk
      have hdots : ".." ∉ names := fun hm => (h _ hm).dots rfl
      have hfilter : names.filter (· ≠ ".") = names :=
        List.filter_eq_self.2 fun n hn => by simpa using (h n hn).dot
      have hend := hwalk.linkless hdots fun above target habove he => ?_
      · rwa [hfilter] at hend
      · rw [hfilter] at habove
        exact hnone ⟨above, target, habove, he⟩

/-- `p` leads nowhere, but leads to something through a link once it is clean. -/
structure Strays (s : Snapshot) (p : Path) : Prop where
  nowhere : ∃ e, s.locate p = .error e
  somewhere : ∃ at_, s.locate p.clean = .ok at_
  link : s.HasLink p.clean

/-- What is seen from an absolute path is normalized to the path of a location. -/
theorem normalize_names (hcwd : cwd.isAbsolute = true) (p : Path) :
    ∃ names : Location, (∀ n ∈ names, Path.IsName n) ∧ s.normalize p cwd = Location.path names := by
  rcases s.normalize_cases p cwd with ⟨at_, hl, hn⟩ | ⟨-, -, hn⟩
  · exact ⟨at_, s.locate_named hl, hn⟩
  · rw [hn]
    exact Path.clean_of_isAbsolute (Path.seenFrom_isAbsolute hcwd)

/-- What a path is normalized to is canonical, if it leads anywhere, unless the path strays. -/
theorem normalize_isCanonical_iff (hcwd : cwd.isAbsolute = true) (hl : s.locate (s.normalize p cwd) = .ok at_) :
    s.IsCanonical (s.normalize p cwd) ↔ ¬ s.Strays (p.seenFrom cwd) := by
  rcases s.normalize_cases p cwd with ⟨at', hfound, hn⟩ | ⟨e, herror, hn⟩
  · rw [hn]
    refine iff_of_true (isCanonical_path hfound) ?_
    rintro ⟨⟨e, herror⟩, -, -⟩
    cases hfound.symm.trans herror
  · obtain ⟨names, hnames, he⟩ := normalize_names (s := s) hcwd p
    rw [he] at hl
    have hcanonical : s.IsCanonical (Location.path names) ↔ at_ = names := by
      constructor
      · rintro ⟨at', hl', heq⟩
        cases hl.symm.trans hl'
        exact ((Location.path_inj (s.locate_named hl) hnames).1 heq).symm
      · rintro rfl
        exact isCanonical_path hl
    rw [he, hcanonical, locate_path_eq_iff hnames hl, ← he, hn, not_iff_not]
    constructor
    · intro hlink
      exact ⟨⟨e, herror⟩, ⟨at_, by rw [← hn, he, hl]⟩, hlink⟩
    · exact Strays.link

/-! ## Normalizing again -/

/-- A normalized path stays as it is exactly if it leads nowhere or is canonical. -/
theorem normalize_eq_self_iff (hnames : ∀ n ∈ names, Path.IsName n) (cwd : Path) :
    s.normalize (Location.path names) cwd = Location.path names ↔
      (∃ e, s.locate (Location.path names) = .error e) ∨ s.IsCanonical (Location.path names) := by
  have hseen : (Location.path names).seenFrom cwd = Location.path names := if_pos (Location.isAbsolute_path names)
  rcases s.normalize_cases (Location.path names) cwd with ⟨at_, hl, hn⟩ | ⟨e, herror, hn⟩
  · rw [hseen] at hl
    rw [hn]
    constructor
    · intro he
      exact .inr ⟨at_, hl, he.symm⟩
    · rintro (⟨e, herror⟩ | ⟨at', hl', he⟩)
      · cases hl.symm.trans herror
      · cases hl.symm.trans hl'
        exact he.symm
  · rw [hseen] at herror hn
    rw [hn]
    exact iff_of_true (Location.path_isPlain hnames) (.inl ⟨e, herror⟩)

/-- Normalizing a normalized path changes nothing exactly if the path does not stray. -/
theorem normalize_normalize_iff (hcwd : cwd.isAbsolute = true) :
    s.normalize (s.normalize p cwd) cwd = s.normalize p cwd ↔ ¬ s.Strays (p.seenFrom cwd) := by
  obtain ⟨names, hnames, he⟩ := normalize_names (s := s) hcwd p
  have hself := normalize_eq_self_iff (s := s) hnames cwd
  rw [← he] at hself
  rw [hself]
  cases hl : s.locate (s.normalize p cwd) with
  | ok at_ => rw [normalize_isCanonical_iff hcwd hl]; simp
  | error e =>
    refine iff_of_true (.inl ⟨e, rfl⟩) ?_
    rintro ⟨⟨e', herror⟩, ⟨at_, hl'⟩, -⟩
    rcases s.normalize_cases p cwd with ⟨at', hfound, -⟩ | ⟨-, -, hn⟩
    · cases hfound.symm.trans herror
    · rw [hn] at hl
      cases hl.symm.trans hl'

/-- Normalizing a third time never changes anything. -/
theorem normalize_twice (hcwd : cwd.isAbsolute = true) (p : Path) :
    s.normalize (s.normalize (s.normalize p cwd) cwd) cwd = s.normalize (s.normalize p cwd) cwd := by
  obtain ⟨names, hnames, he⟩ := normalize_names (s := s) hcwd p
  cases hl : s.locate (Location.path names) with
  | ok at_ =>
    rw [he, s.normalize_of_locate cwd hl]
    exact (isCanonical_path hl).normalize_eq cwd
  | error e =>
    have hself := (normalize_eq_self_iff hnames cwd).2 (.inl ⟨e, hl⟩)
    rw [he, hself, hself]

end Snapshot

/-! ## Files of a walk -/

open Snapshot in
/-- What an import leads to is canonical. -/
theorem Resolve.resolve_isCanonical {s : Snapshot} {o : ResolveOptions} {x : String} {p q : Path}
    (h : resolve s o x p = some q) : s.IsCanonical q := by
  obtain ⟨found, hf, rfl⟩ := Option.map_eq_some_iff.1 h
  obtain ⟨at_, -, hl, -⟩ := s.locate_of_isFile (isFile_of_find? hf)
  rw [s.normalize_of_locate o.root hl]
  exact isCanonical_path hl

namespace Walk

variable {s : Snapshot} {o : ResolveOptions} {e p q : Path}

/-- What the entry leads to is canonical, but for the entry itself. -/
theorem Reached.isCanonical (h : Reached s o e p) (hne : p ≠ e) : s.IsCanonical p := by
  rcases Relation.ReflTransGen.cases_tail h with rfl | ⟨_, -, _, -, _, -, hx, -⟩
  · exact absurd rfl hne
  · exact Resolve.resolve_isCanonical hx

theorem locate_of_readable (h : s.Readable p) : ∃ at_, s.locate p = .ok at_ := by
  obtain ⟨text, ht⟩ := h
  obtain ⟨at_, -, hl, -⟩ := s.locate_of_isFile (Snapshot.isFile_of_readText ht)
  exact ⟨at_, hl⟩

/-- Every node is canonical, unless the entry strays. -/
theorem isCanonical_of_node {symbols : Bool} {entry cwd : Path} {r : SourceReader} (hcwd : cwd.isAbsolute = true)
    (hentry : ¬ s.Strays (entry.seenFrom cwd)) (hp : p ∈ (from_ s o symbols entry cwd r).graph.paths) :
    s.IsCanonical p := by
  obtain ⟨hreached, hreadable⟩ := ((from_isClosure s o symbols entry cwd r).nodes p).1 hp
  by_cases he : p = s.normalize entry cwd
  · obtain ⟨at_, hl⟩ := locate_of_readable hreadable
    rw [he] at hl ⊢
    exact (Snapshot.normalize_isCanonical_iff hcwd hl).2 hentry
  · exact hreached.isCanonical he

end Walk

namespace Snapshot

/-- Normalizing again changes nothing, but for a path that strays, and never after a second
time. So a file is a node of a walk once, under its canonical path, if the entry does not
stray. -/
theorem normalize_again (s : Snapshot) (cwd : Path) (hcwd : cwd.isAbsolute = true) :
    (∀ p, s.normalize (s.normalize p cwd) cwd = s.normalize p cwd ↔ ¬ s.Strays (p.seenFrom cwd)) ∧
    (∀ p, s.normalize (s.normalize (s.normalize p cwd) cwd) cwd = s.normalize (s.normalize p cwd) cwd) ∧
    ∀ (o : ResolveOptions) (symbols : Bool) (entry : Path) (r : SourceReader), ¬ s.Strays (entry.seenFrom cwd) →
      ∀ p ∈ (Walk.from_ s o symbols entry cwd r).graph.paths, s.IsCanonical p ∧
        ∀ q ∈ (Walk.from_ s o symbols entry cwd r).graph.paths, s.locate p = s.locate q → p = q := by
  refine ⟨fun _ => normalize_normalize_iff hcwd, normalize_twice hcwd, ?_⟩
  intro o symbols entry r hentry p hp
  have hcanonical := Walk.isCanonical_of_node hcwd hentry hp
  exact ⟨hcanonical, fun q hq => hcanonical.eq (Walk.isCanonical_of_node hcwd hentry hq)⟩

/-- A file that imports itself under the name of a link to it. -/
def linked : Snapshot := .ofEntries [(["real.ts"], .file "import './link'".toUTF8), (["link.ts"], .link "real.ts")]

/-- A walk from the link has one node, the file. -/
theorem linked_normalized_once :
    (Path.mk "/").isAbsolute = true ∧ ¬ linked.Strays ((Path.mk "link.ts").seenFrom ⟨"/"⟩) ∧
      linked.normalize ⟨"link.ts"⟩ ⟨"/"⟩ = ⟨"/real.ts"⟩ ∧
      linked.normalize (linked.normalize ⟨"link.ts"⟩ ⟨"/"⟩) ⟨"/"⟩ = linked.normalize ⟨"link.ts"⟩ ⟨"/"⟩ ∧
      (Walk.from_ linked { root := ⟨"/"⟩ } false ⟨"link.ts"⟩ ⟨"/"⟩).graph.paths = [⟨"/real.ts"⟩] ∧
      linked.IsCanonical ⟨"/real.ts"⟩ := by
  have hcwd : (Path.mk "/").isAbsolute = true := by decide
  obtain ⟨hagain, -, hnodes⟩ := normalize_again linked ⟨"/"⟩ hcwd
  have hfound : linked.locate ((Path.mk "link.ts").seenFrom ⟨"/"⟩) = .ok ["real.ts"] := by decide +kernel
  have hentry : ¬ linked.Strays ((Path.mk "link.ts").seenFrom ⟨"/"⟩) := by
    rintro ⟨⟨e, herror⟩, -, -⟩
    cases hfound.symm.trans herror
  have hpaths : (Walk.from_ linked { root := ⟨"/"⟩ } false ⟨"link.ts"⟩ ⟨"/"⟩).graph.paths = [⟨"/real.ts"⟩] := by
    decide +kernel
  refine ⟨hcwd, hentry, by decide +kernel, (hagain _).2 hentry, hpaths, ?_⟩
  exact (hnodes { root := ⟨"/"⟩ } false ⟨"link.ts"⟩ .fresh hentry _ (by rw [hpaths]; simp)).1

/-- By way of a directory that is missing, the link is normalized to itself first, and to the
file only then. A walk from there has the file as a node twice. -/
theorem stray_normalized_twice :
    linked.normalize ⟨"/missing/../link.ts"⟩ ⟨"/"⟩ = ⟨"/link.ts"⟩ ∧
      linked.normalize ⟨"/link.ts"⟩ ⟨"/"⟩ = ⟨"/real.ts"⟩ ∧
      linked.normalize (linked.normalize ⟨"/missing/../link.ts"⟩ ⟨"/"⟩) ⟨"/"⟩ ≠
        linked.normalize ⟨"/missing/../link.ts"⟩ ⟨"/"⟩ ∧
      (Walk.from_ linked { root := ⟨"/"⟩ } false ⟨"/missing/../link.ts"⟩ ⟨"/"⟩).graph.paths =
        [⟨"/link.ts"⟩, ⟨"/real.ts"⟩] := by
  decide +kernel

end Snapshot

end ImportAtlas
