import ImportAtlas.Proofs.PackagePruning
import ImportAtlas.Proofs.WalkProblems
import Mathlib.Data.List.TakeWhile
/-!
# The files imports lead to

What an import is found as has the name of a source file (`isSource_of_find?`): whichever
way a path comes to be tried, as it is written, with more at its end, as the index file of a
directory or with the ending of a source for that of compiled code, a name of that kind is
all that is tried. One kind of path is left aside, which has nothing before the ending that
it is tried with (`IsBare`).

What counts in a walk is the file behind that path. Only the links on the way to it are
followed by the tree, so it has the same name, unless the path itself is a link
(`EndsInLink`), which may stand for a file of any name. So a file of no known language that
a walk meets is its entry or behind such a link (`source_files_found`, `link_found`).
-/

namespace ImportAtlas

/-! ## Endings of texts -/

theorem Text.exists_joinWith_concat (sep : Char) (pieces : List (List Char)) (last : List Char) :
    ∃ front, joinWith sep (pieces ++ [last]) = front ++ last := by
  by_cases h : pieces = []
  · exact ⟨[], by simp [h, joinWith]⟩
  · refine ⟨joinWith sep pieces ++ [sep], ?_⟩
    rw [joinWith_append sep h (by simp), joinWith, List.append_assoc, List.singleton_append]

/-- What is put at the end of a text is put at the end of its last piece. -/
theorem Text.exists_splitOn_append {sep : Char} {ending : List Char} (h : sep ∉ ending) (front : List Char) :
    ∃ pieces last, splitOn sep front = pieces ++ [last] ∧ splitOn sep (front ++ ending) = pieces ++ [last ++ ending] := by
  rcases List.eq_nil_or_concat (splitOn sep front) with hnil | ⟨pieces, last, hsplit⟩
  · exact absurd hnil (splitOn_ne_nil sep front)
  · rw [List.concat_eq_append] at hsplit
    have hjoin : joinWith sep (pieces ++ [last]) = front := by rw [← hsplit, join_splitOn]
    have hpieces : ∀ piece ∈ pieces ++ [last], sep ∉ piece := fun piece hpiece =>
      not_mem_of_mem_splitOn (hsplit.symm ▸ hpiece)
    rw [List.forall_mem_append] at hpieces
    have hlast : sep ∉ last ++ ending := by simp [h, hpieces.2 last]
    refine ⟨pieces, last, hsplit, ?_⟩
    rw [← hjoin]
    by_cases hnone : pieces = []
    · rw [hnone]
      exact splitOn_of_not_mem hlast
    · rw [joinWith_append sep hnone (by simp), joinWith, List.append_assoc, List.cons_append, splitOn_append_sep,
        splitOn_joinWith sep hnone hpieces.1, splitOn_of_not_mem hlast]

namespace Path

variable {p : Path} {n : String}

/-- The components of a path end with its steps. -/
theorem getLast?_components {c : Component} (h : p.steps.getLast? = some c) : p.components.getLast? = some c := by
  obtain ⟨front, hsteps⟩ := List.getLast?_eq_some_iff.1 h
  rw [components_eq, hsteps, List.getLast?_eq_some_iff]
  split
  · exact ⟨.root :: front, rfl⟩
  · split
    · exact ⟨.current :: front, rfl⟩
    · exact ⟨front, rfl⟩

/-- The part after the last slash is the name of a file, if it is no idle part and not `..`. -/
theorem fileName?_of_parts {front : List (List Char)} {part : List Char} (h : p.parts = front ++ [part])
    (hidle : isIdle part = false) (hdots : part ≠ ['.', '.']) : p.fileName? = some (String.ofList part) := by
  have hlast : p.steps.getLast? = some (.name (String.ofList part)) := by
    rw [steps, h, List.filter_append, List.map_append]
    simp [hidle, Component.ofPart, hdots]
  unfold fileName?
  rw [getLast?_components hlast]

/-- The name of a file is the last step of its path. -/
theorem steps_of_fileName? (h : p.fileName? = some n) : p.steps.getLast? = some (.name n) := by
  unfold fileName? at h
  split at h
  · next m hlast =>
    cases h
    obtain ⟨front, hcs⟩ := List.getLast?_eq_some_iff.1 hlast
    rcases List.eq_nil_or_concat p.steps with hnil | ⟨init, c, hsteps⟩
    · rw [components_eq, hnil] at hlast
      split at hlast
      · simp at hlast
      · split at hlast <;> simp at hlast
    · have hc : p.steps.getLast? = some c := by simp [hsteps]
      rw [hc]
      exact (getLast?_components hc).symm.trans hlast
  · cases h

theorem slash_of_fileName? (h : p.fileName? = some n) : '/' ∉ n.toList :=
  (isStep_of_mem_steps (List.mem_of_getLast? (steps_of_fileName? h))).slash

/-- What stands between the last dot of a name and its end is its extension, unless the dot comes first. -/
theorem splitName_of_dot {before ext : List Char} (hdot : '.' ∉ ext) :
    (splitName (String.ofList (before ++ '.' :: ext))).2 =
      if before = [] then none else some (String.ofList ext) := by
  unfold splitName
  rw [String.toList_ofList, Text.cutLast_append hdot]
  cases before with
  | nil => rfl
  | cons c before => rfl

theorem splitName_eq_some {ext : String} (h : (splitName n).2 = some ext) :
    ∃ before, before ≠ [] ∧ n.toList = before ++ '.' :: ext.toList ∧ (splitName n).1 = String.ofList before := by
  unfold splitName at h ⊢
  split at h
  · cases h
  · cases h
  · next before after hnil hcut =>
    cases h
    exact ⟨before, hnil, by rw [String.toList_ofList]; exact Text.cutLast_eq_some hcut, rfl⟩

theorem extension?_of_parts {pieces : List (List Char)} {before ext : List Char}
    (h : p.parts = pieces ++ [before ++ '.' :: ext]) (hbefore : before ≠ []) (hdot : '.' ∉ ext) (hne : ext ≠ []) :
    p.extension? = some (String.ofList ext) := by
  have hlength : 3 ≤ (before ++ '.' :: ext).length := by
    have hpos := List.length_pos_iff.2 hbefore
    have hpos' := List.length_pos_iff.2 hne
    simp
    omega
  have hidle : isIdle (before ++ '.' :: ext) = false := by
    rw [isIdle, Bool.or_eq_false_iff, beq_eq_false_iff_ne, beq_eq_false_iff_ne]
    constructor <;> intro he <;> simp [he] at hlength
  have hdots : before ++ '.' :: ext ≠ ['.', '.'] := fun he => by simp [he] at hlength
  rw [extension?, fileName?_of_parts h hidle hdots, Option.bind_some, splitName_of_dot hdot, if_neg hbefore]

/-- A path that is joined with another ends in its text. -/
theorem exists_text_join (p : Path) (q : String) : ∃ front, (p.join q).text.toList = front ++ q.toList := by
  unfold join
  split
  · exact ⟨[], rfl⟩
  · split
    · exact ⟨p.text.toList, by simp⟩
    · exact ⟨p.text.toList, by simp⟩
    · exact ⟨p.text.toList ++ ['/'], by simp⟩

/-- The parts that count do not depend on the stem. -/
theorem filter_splitOn_drop (p : Path) :
    (Text.splitOn '/' (p.text.toList.drop p.stem)).filter (!isIdle ·) = p.parts.filter (!isIdle ·) := by
  unfold stem parts
  split
  · next hstem =>
    cases htext : p.text.toList with
    | nil => rfl
    | cons c cs =>
      rw [List.drop_succ_cons, List.drop_zero, Text.splitOn]
      split
      · simp [isIdle]
      · next hc =>
        have hdot : p.opensWithDot = true := by simpa [isAbsolute, htext, hc] using hstem
        unfold opensWithDot parts at hdot
        rw [htext, Text.splitOn, if_neg hc] at hdot
        split
        · next hnil => exact absurd hnil (Text.splitOn_ne_nil '/' cs)
        · next piece rest hcs =>
          rw [hcs] at hdot
          obtain ⟨rfl, rfl⟩ : c = '.' ∧ piece = [] := by simpa using hdot
          simp [hcs, isIdle]
  · rfl

/-- The name of a file is what is met first, from the end of its path. -/
theorem partsFromEnd_of_fileName? (h : p.fileName? = some n) : ∃ rest, p.partsFromEnd = n.toList :: rest := by
  have hlast := steps_of_fileName? h
  rw [steps, List.getLast?_map, ← filter_splitOn_drop, List.getLast?_filter, List.find?_eq_head?_dropWhile_not,
    Option.map_eq_some_iff] at hlast
  obtain ⟨part, hhead, hpart⟩ := hlast
  obtain ⟨rest, hrest⟩ := List.head?_eq_some_iff.1 hhead
  have hname : part = n.toList := by
    unfold Component.ofPart at hpart
    split at hpart
    · cases hpart
    · cases hpart
      rw [String.toList_ofList]
  refine ⟨rest, ?_⟩
  rw [partsFromEnd, ← hname, ← hrest]
  simp

/-- A path with another extension ends in it, after what its name has before the one it had. -/
theorem exists_text_withExtension {written : String} (h : p.extension? = some written) (ending : String) :
    ∃ front before, before ≠ [] ∧ '/' ∉ before ∧
      (p.withExtension ending).text.toList = front ++ (before ++ '.' :: ending.toList) := by
  obtain ⟨n, hname, hn⟩ := Option.bind_eq_some_iff.1 h
  obtain ⟨before, hbefore, hfront, hcut⟩ := splitName_eq_some hn
  obtain ⟨rest, hrest⟩ := partsFromEnd_of_fileName? hname
  have hslash : '/' ∉ before := by
    have hnslash := slash_of_fileName? hname
    rw [hfront, List.mem_append, not_or] at hnslash
    exact hnslash.1
  obtain ⟨front, hjoin⟩ := Text.exists_joinWith_concat '/' rest.reverse (before ++ '.' :: ending.toList)
  refine ⟨p.text.toList.take p.stem ++ front, before, hbefore, hslash, ?_⟩
  unfold withExtension
  rw [hname, hrest]
  dsimp only
  rw [hcut]
  simp [ofPartsFromEnd, hjoin]

end Path

/-! ## What is tried -/

/-- What stands after the last dot of the name of a source file. -/
structure Language.IsExtension (ext : List Char) : Prop where
  slash : '/' ∉ ext
  dot : '.' ∉ ext
  source : (ofExtension (String.ofList ext)).isSource = true

/-- A text that ends in a dot and an extension of source files, and is no more than a part of a name. -/
def Language.IsEnding (text : List Char) : Prop :=
  ∃ more ext, text = more ++ '.' :: ext ∧ '/' ∉ more ∧ IsExtension ext

theorem Language.IsExtension.ne_nil {ext : List Char} (h : IsExtension ext) : ext ≠ [] := by
  rintro rfl
  exact absurd h.source (by decide)

theorem Language.isSource_of_parts {p : Path} {pieces : List (List Char)} {before ext : List Char}
    (h : p.parts = pieces ++ [before ++ '.' :: ext]) (hbefore : before ≠ []) (hext : IsExtension ext) :
    (ofPath p).isSource = true := by
  rw [ofPath, Path.extension?_of_parts h hbefore hext.dot hext.ne_nil]
  exact hext.source

namespace ResolveOptions

/-- What is tried after a path is what the name of a source file may end in. -/
def TriesSources (o : ResolveOptions) : Prop := ∀ ending ∈ o.extensions, Language.IsEnding ending.toList

theorem triesSources_default {o : ResolveOptions} (h : o.extensions = ({ root := o.root } : ResolveOptions).extensions) :
    o.TriesSources := by
  unfold TriesSources
  rw [h]
  simp only [List.forall_mem_cons]
  refine ⟨⟨[], ['t', 's'], rfl, by decide, by decide, by decide, by decide⟩,
    ⟨[], ['t', 's', 'x'], rfl, by decide, by decide, by decide, by decide⟩,
    ⟨['.', 'd'], ['t', 's'], rfl, by decide, by decide, by decide, by decide⟩,
    ⟨[], ['j', 's'], rfl, by decide, by decide, by decide, by decide⟩,
    ⟨[], ['j', 's', 'x'], rfl, by decide, by decide, by decide, by decide⟩,
    ⟨[], ['m', 'j', 's'], rfl, by decide, by decide, by decide, by decide⟩,
    ⟨[], ['c', 'j', 's'], rfl, by decide, by decide, by decide, by decide⟩, by simp⟩

/-- The name of the file is one of the endings that are tried, and has no extension. -/
def IsBare (o : ResolveOptions) (p : Path) : Prop :=
  ∃ ending ∈ o.extensions, p.fileName? = some ending ∧ (Path.splitName ending).2 = none

-- What is tried for a path with a slash at its end.
example : IsBare { root := ⟨"/"⟩ } ((Path.mk "/dir/").append ".ts") :=
  ⟨".ts", by decide, by decide +kernel, by decide +kernel⟩

end ResolveOptions

namespace Resolve

variable {s : Snapshot} {o : ResolveOptions} {p c : Path} {x : String}

/-- With an ending after it a path names a source file, unless the ending is all there is of the name. -/
theorem isSource_append (ho : o.TriesSources) {ending : String} (hending : ending ∈ o.extensions)
    (hbare : ¬ o.IsBare (p.append ending)) : (Language.ofPath (p.append ending)).isSource = true := by
  obtain ⟨more, ext, hsplit, hmore, hext⟩ := ho ending hending
  have hslash : '/' ∉ ending.toList := by simp [hsplit, hmore, hext.slash]
  obtain ⟨pieces, last, -, hparts⟩ := Text.exists_splitOn_append hslash p.text.toList
  rw [← String.toList_append] at hparts
  by_cases hbefore : last ++ more = []
  · obtain ⟨rfl, rfl⟩ := List.append_eq_nil_iff.1 hbefore
    have hend : ending = String.ofList ([] ++ '.' :: ext) := by rw [← String.toList_inj, hsplit, String.toList_ofList]
    have hne : ext ≠ [] := hext.ne_nil
    refine absurd ⟨ending, hending, ?_, by rw [hend, Path.splitName_of_dot hext.dot, if_pos rfl]⟩ hbare
    have hname := Path.fileName?_of_parts (p := p.append ending) hparts (by simp [hsplit, hne, Path.isIdle]) ?_
    · simpa using hname
    · rw [List.nil_append, hsplit]
      intro hdots
      obtain rfl : ext = ['.'] := by simpa using hdots
      exact hext.dot (by simp)
  · rw [hsplit, ← List.append_assoc] at hparts
    exact Language.isSource_of_parts (p := p.append ending) hparts hbefore hext

theorem isSource_index (ho : o.TriesSources) {ending : String} (hending : ending ∈ o.extensions) (dir : Path) :
    (Language.ofPath (dir.join ("index" ++ ending))).isSource = true := by
  obtain ⟨more, ext, hsplit, hmore, hext⟩ := ho ending hending
  obtain ⟨front, htext⟩ := dir.exists_text_join ("index" ++ ending)
  have hslash : '/' ∉ ("index" ++ ending).toList := by simp [hsplit, hmore, hext.slash]
  obtain ⟨pieces, last, -, hparts⟩ := Text.exists_splitOn_append hslash front
  rw [← htext] at hparts
  have hindex : ("index" ++ ending).toList = ("index".toList ++ more) ++ '.' :: ext := by simp [hsplit]
  rw [hindex, ← List.append_assoc] at hparts
  exact Language.isSource_of_parts hparts (by simp) hext

/-- The endings of the sources of compiled code, after the dot. -/
def twinEndings : List String := ["ts", "tsx", "d.ts", "mts", "cts"]

theorem isEnding_of_mem_twinEndings : ∀ ending ∈ twinEndings, Language.IsEnding ('.' :: ending.toList) := by
  simp only [twinEndings, List.forall_mem_cons]
  refine ⟨⟨[], ['t', 's'], rfl, by decide, by decide, by decide, by decide⟩,
    ⟨[], ['t', 's', 'x'], rfl, by decide, by decide, by decide, by decide⟩,
    ⟨['.', 'd'], ['t', 's'], rfl, by decide, by decide, by decide, by decide⟩,
    ⟨[], ['m', 't', 's'], rfl, by decide, by decide, by decide, by decide⟩,
    ⟨[], ['c', 't', 's'], rfl, by decide, by decide, by decide, by decide⟩, by simp⟩

theorem exists_ending_of_mem_sourceTwins (h : c ∈ sourceTwins p) :
    ∃ ending written, p.extension? = some written ∧ ending ∈ twinEndings ∧ c = p.withExtension ending := by
  obtain ⟨ending, hending, rfl⟩ := List.mem_map.1 h
  split at hending
  · next hwritten => exact ⟨ending, _, hwritten, (by decide : ["ts", "tsx", "d.ts"] ⊆ twinEndings) hending, rfl⟩
  · next hwritten => exact ⟨ending, _, hwritten, (by decide : ["tsx"] ⊆ twinEndings) hending, rfl⟩
  · next hwritten => exact ⟨ending, _, hwritten, (by decide : ["mts"] ⊆ twinEndings) hending, rfl⟩
  · next hwritten => exact ⟨ending, _, hwritten, (by decide : ["cts"] ⊆ twinEndings) hending, rfl⟩
  · cases hending

/-- The source that compiled code comes from is a source file. -/
theorem isSource_sourceTwins (h : c ∈ sourceTwins p) : (Language.ofPath c).isSource = true := by
  obtain ⟨ending, written, hwritten, hending, rfl⟩ := exists_ending_of_mem_sourceTwins h
  obtain ⟨more, ext, hsplit, hmore, hext⟩ := isEnding_of_mem_twinEndings ending hending
  obtain ⟨front, before, hbefore, hslash, htext⟩ := Path.exists_text_withExtension hwritten ending
  rw [hsplit] at htext
  have hlast : '/' ∉ before ++ (more ++ '.' :: ext) := by simp [hslash, hmore, hext.slash]
  obtain ⟨pieces, last, -, hparts⟩ := Text.exists_splitOn_append hlast front
  rw [← htext, ← List.append_assoc, ← List.append_assoc] at hparts
  exact Language.isSource_of_parts hparts (by simp [hbefore]) hext

theorem isSource_fileCandidates (ho : o.TriesSources) (h : c ∈ fileCandidates o p) (hbare : ¬ o.IsBare c) :
    (Language.ofPath c).isSource = true := by
  unfold fileCandidates at h
  rw [List.mem_append, List.mem_append] at h
  rcases h with (h | h) | h
  · split at h
    · next hsource => rwa [List.mem_singleton.1 h]
    · cases h
  · obtain ⟨ending, hending, rfl⟩ := List.mem_map.1 h
    exact isSource_append ho hending hbare
  · exact isSource_sourceTwins h

theorem isSource_indexCandidates (ho : o.TriesSources) (h : c ∈ indexCandidates o p) :
    (Language.ofPath c).isSource = true := by
  obtain ⟨ending, hending, rfl⟩ := List.mem_map.1 h
  exact isSource_index ho hending p

theorem isSource_candidatesAt (ho : o.TriesSources) (h : c ∈ candidatesAt s o p) (hbare : ¬ o.IsBare c) :
    (Language.ofPath c).isSource = true := by
  rcases List.mem_append.1 h with h | h
  · exact isSource_fileCandidates ho h hbare
  · unfold directoryCandidates at h
    split at h
    · rcases List.mem_append.1 h with h | h
      · obtain ⟨entry, -, h⟩ := List.mem_flatMap.1 h
        rcases List.mem_append.1 h with h | h
        · exact isSource_fileCandidates ho h hbare
        · exact isSource_indexCandidates ho h
      · exact isSource_indexCandidates ho h
    · cases h

/-- Whatever is tried is tried at some place as a file or as a directory. -/
theorem exists_candidatesAt {importer : Path} (h : c ∈ candidates s o x importer) : ∃ p, c ∈ candidatesAt s o p := by
  unfold candidates at h
  dsimp only at h
  split at h
  · exact ⟨_, h⟩
  · split at h
    · exact ⟨_, h⟩
    · rw [List.mem_append, List.mem_append] at h
      rcases h with (h | h) | h
      · obtain ⟨a, -, h⟩ := List.mem_flatMap.1 h
        obtain ⟨matched, -, h⟩ := List.mem_flatMap.1 h
        obtain ⟨target, -, h⟩ := List.mem_flatMap.1 h
        exact ⟨target, h⟩
      · obtain ⟨base, -, h⟩ := List.mem_flatMap.1 h
        exact ⟨_, h⟩
      · obtain ⟨above, -, h⟩ := List.mem_flatMap.1 h
        dsimp only at h
        split at h
        · rcases List.mem_append.1 h with h | h <;> exact ⟨_, h⟩
        · cases h

/-- What an import is found as has the name of a source file. -/
theorem isSource_of_find? {importer : Path} (ho : o.TriesSources) (h : find? s o x importer = some c)
    (hbare : ¬ o.IsBare c) : (Language.ofPath c).isSource = true := by
  rw [find?_eq] at h
  obtain ⟨p, hc⟩ := exists_candidatesAt (List.mem_of_find?_eq_some h)
  exact isSource_candidatesAt ho hc hbare

end Resolve

/-! ## What is behind a path -/

namespace Snapshot

variable {s : Snapshot} {p : Path} {at_ end_ : Location} {n : String}

/-- The last step of `p` is a link, in the directory that the steps before it lead to. -/
def EndsInLink (s : Snapshot) (p : Path) : Prop :=
  ∃ above n at_ target, stepsOf p.text = above ++ [n] ∧ s.walkLinks maxLinks [] above = .ok (.existing at_) ∧
    s.entry? (at_ ++ [n]) = some (.link target)

/-- A walk to `end_` with `n` as its last step has come to a directory before. There `n` is a link, or leads
to `end_` as it says. -/
def LastStep (s : Snapshot) (n : String) (end_ : Location) (before : Except ReadError Place) : Prop :=
  ∃ at_, before = .ok (.existing at_) ∧ s.entry? at_ = some .directory ∧
    (end_ = (if n = "." then at_ else if n = ".." then at_.dropLast else at_ ++ [n]) ∨
      ∃ target, s.entry? (at_ ++ [n]) = some (.link target))

theorem walk_last {follow : Location → List String → Except ReadError Place}
    (hfollow : ∀ at_ steps, follow at_ (steps ++ [n]) = .ok (.existing end_) → s.LastStep n end_ (follow at_ steps))
    (steps : List String) (at_ : Location) (h : s.walk follow at_ (steps ++ [n]) = .ok (.existing end_)) :
    s.LastStep n end_ (s.walk follow at_ steps) := by
  induction steps generalizing at_ with
  | nil =>
    rw [List.nil_append] at h
    have hdir := directory_of_walk h
    refine ⟨at_, by rw [walk], hdir, ?_⟩
    by_cases hdot : n = "."
    · subst hdot
      rw [walk_dot hdir] at h
      cases h
      exact .inl rfl
    by_cases hdots : n = ".."
    · subst hdots
      rw [walk_dots hdir] at h
      cases h
      exact .inl rfl
    rw [walk_name hdir hdot hdots] at h
    split at h
    · cases h
    · next target he => exact .inr ⟨target, he⟩
    · cases h
      exact .inl (by rw [if_neg hdot, if_neg hdots])
  | cons step rest ih =>
    rw [List.cons_append] at h
    have hdir := directory_of_walk h
    by_cases hdot : step = "."
    · subst hdot
      rw [walk_dot hdir] at h ⊢
      exact ih at_ h
    by_cases hdots : step = ".."
    · subst hdots
      rw [walk_dots hdir] at h ⊢
      exact ih _ h
    rw [walk_name hdir hdot hdots] at h ⊢
    split at h
    · simp at h
    · rw [← List.append_assoc] at h
      exact hfollow _ _ h
    · exact ih _ h

theorem walkLinks_last (links : Nat) (at_ : Location) (steps : List String)
    (h : s.walkLinks links at_ (steps ++ [n]) = .ok (.existing end_)) :
    s.LastStep n end_ (s.walkLinks links at_ steps) := by
  induction links generalizing at_ steps with
  | zero =>
    unfold walkLinks at h ⊢
    exact walk_last (fun _ _ h => by cases h) steps at_ h
  | succ links ih =>
    unfold walkLinks at h ⊢
    exact walk_last ih steps at_ h

/-- The name of a file is the last step to it that counts. -/
theorem getLast?_stepsOf (h : p.fileName? = some n) :
    ((stepsOf p.text).filter (· ≠ ".")).getLast? = some n ∧ Path.IsName n := by
  have hlast := Path.steps_of_fileName? h
  refine ⟨?_, Path.isStep_of_mem_steps (List.mem_of_getLast? hlast)⟩
  rw [Path.steps, List.getLast?_map, Option.map_eq_some_iff] at hlast
  obtain ⟨part, hpart, hn⟩ := hlast
  rw [filter_stepsOf, List.getLast?_map, hpart, Option.map_some]
  unfold Path.Component.ofPart at hn
  split at hn
  · cases hn
  · cases hn
    rfl

/-- A file keeps its name under its canonical path, unless its path ends in a link. -/
theorem fileName?_normalize (hfile : s.isFile p = true) (hname : p.fileName? = some n) (hlink : ¬ s.EndsInLink p)
    (cwd : Path) : (s.normalize p cwd).fileName? = some n := by
  obtain ⟨at_, bytes, hl, he⟩ := s.locate_of_isFile hfile
  obtain ⟨hlast, hn⟩ := getLast?_stepsOf hname
  have hwalk := (s.walk_of_locate hl).2
  have hnamed := s.locate_named hl
  rcases List.eq_nil_or_concat (stepsOf p.text) with hnil | ⟨steps, m, hsteps⟩
  · simp [hnil] at hlast
  · rw [List.concat_eq_append] at hsteps
    rw [hsteps] at hwalk
    obtain ⟨above, hwalked, hdir, hend | ⟨target, htarget⟩⟩ := walkLinks_last _ _ _ hwalk
    · by_cases hdot : m = "."
      · rw [hend, if_pos hdot, hdir] at he
        cases he
      · obtain rfl : m = n := by simpa [hsteps, hdot] using hlast
        rw [if_neg hn.dot, if_neg hn.dots] at hend
        have hlast' : (Path.Component.root :: (above ++ [m]).map .name).getLast? = some (.name m) :=
          List.getLast?_eq_some_iff.2 ⟨.root :: above.map .name, by simp⟩
        rw [s.normalize_of_locate cwd hl, Path.fileName?, Location.components_path hnamed, hend, hlast']
    · exact absurd ⟨steps, m, above, target, hsteps, hwalked, htarget⟩ hlink

/-- So does its language stay the same. -/
theorem ofPath_normalize (hfile : s.isFile p = true) (hsource : (Language.ofPath p).isSource = true)
    (hlink : ¬ s.EndsInLink p) (cwd : Path) : Language.ofPath (s.normalize p cwd) = Language.ofPath p := by
  cases hname : p.fileName? with
  | none => exact absurd hsource (by simp [Language.ofPath, Path.extension?, hname, Language.isSource])
  | some n =>
    have hsame := fileName?_normalize hfile hname hlink cwd
    unfold Language.ofPath Path.extension?
    rw [hsame, hname]

end Snapshot

/-! ## Files of no known language -/

theorem Dialect.ofPath?_eq_none {p : Path} : Dialect.ofPath? p = none ↔ (Language.ofPath p).isSource = false := by
  unfold ofPath?
  cases Language.ofPath p <;> decide

namespace Walk

variable {s : Snapshot} {o : ResolveOptions} {p q : Path}

theorem unsupportedFile_mem_problemsAt (h : .unsupportedFile p ∈ problemsAt s o q) :
    p = q ∧ (Language.ofPath p).isSource = false := by
  unfold problemsAt at h
  split at h
  · simp at h
  · split at h
    · next hnone =>
      obtain rfl : p = q := by simpa using h
      exact ⟨rfl, Dialect.ofPath?_eq_none.1 hnone⟩
    · split at h
      · simp at h
      · obtain ⟨x, -, hx⟩ := List.mem_filterMap.1 h
        unfold unresolved? at hx
        split at hx <;> cases hx

end Walk

namespace Resolve

/-- The import `x` of the file at `importer` is found at a path that is a link itself, or is the bare ending
of a name. -/
def FoundAstray (s : Snapshot) (o : ResolveOptions) (x : String) (importer : Path) : Prop :=
  ∃ c, find? s o x importer = some c ∧ (s.EndsInLink c ∨ o.IsBare c)

/-- With the endings that are tried unless others are given, what an import is found as has the name of a
source file, and leads to a file with the same name and so to a source file, unless it is a link itself. So a
file that a walk finds to be in no known language is its entry, or an import found at a link. -/
theorem source_files_found (s : Snapshot) (o : ResolveOptions)
    (ho : o.extensions = ({ root := o.root } : ResolveOptions).extensions) :
    (∀ x importer q, resolve s o x importer = some q → ∃ c, find? s o x importer = some c ∧
      q = s.normalize c o.root ∧ (o.IsBare c ∨ (Language.ofPath c).isSource = true ∧
        (s.EndsInLink c ∨ Language.ofPath q = Language.ofPath c))) ∧
    ∀ (symbols : Bool) (entry cwd : Path) (r : SourceReader) (p : Path),
      .unsupportedFile p ∈ (Walk.from_ s o symbols entry cwd r).problems →
      p = s.normalize entry cwd ∨ ∃ importer m x, Walk.Reached s o (s.normalize entry cwd) importer ∧
        s.Good importer m ∧ x ∈ m.imports ∧ resolve s o x importer = some p ∧ FoundAstray s o x importer := by
  have hfound : ∀ x importer q, resolve s o x importer = some q → ∃ c, find? s o x importer = some c ∧
      q = s.normalize c o.root ∧ (o.IsBare c ∨ (Language.ofPath c).isSource = true ∧
        (s.EndsInLink c ∨ Language.ofPath q = Language.ofPath c)) := by
    intro x importer q h
    obtain ⟨c, hc, rfl⟩ := Option.map_eq_some_iff.1 h
    refine ⟨c, hc, rfl, ?_⟩
    by_cases hbare : o.IsBare c
    · exact .inl hbare
    · have hsource := isSource_of_find? (ResolveOptions.triesSources_default ho) hc hbare
      refine .inr ⟨hsource, ?_⟩
      by_cases hlink : s.EndsInLink c
      · exact .inl hlink
      · exact .inr (Snapshot.ofPath_normalize (isFile_of_find? hc) hsource hlink o.root)
  refine ⟨hfound, fun symbols entry cwd r p hp => ?_⟩
  obtain ⟨-, reached, -, hreached, hperm⟩ := Walk.problems_of_reached s o symbols entry cwd r
  obtain ⟨q, hq, hat⟩ := List.mem_flatMap.1 (hperm.mem_iff.1 hp)
  obtain ⟨rfl, hother⟩ := Walk.unsupportedFile_mem_problemsAt hat
  -- What is reached is the entry, or was found for an import of a file that is reached.
  rcases Relation.ReflTransGen.cases_tail ((hreached p).1 hq) with he | ⟨importer, himporter, m, hm, x, hx, hresolve, -⟩
  · exact .inl he
  · refine .inr ⟨importer, m, x, himporter, hm, hx, hresolve, ?_⟩
    obtain ⟨c, hc, -, hbare | ⟨hsource, hlink | hsame⟩⟩ := hfound x importer p hresolve
    · exact ⟨c, hc, .inr hbare⟩
    · exact ⟨c, hc, .inl hlink⟩
    · rw [hsame, hsource] at hother
      cases hother

/-- A source file that imports two others, of which one is a link to data. -/
def disguised : Snapshot :=
  .ofEntries [(["a.ts"], .file "import './x'; import './y'".toUTF8), (["x.ts"], .link "data.json"),
    (["data.json"], .file "{}".toUTF8), (["y.ts"], .file "".toUTF8)]

/-- The import of the source file leads to a source file, and what is reported was found at a link. -/
theorem disguised_source_files_found :
    ({ root := ⟨"/"⟩ } : ResolveOptions).extensions = ({ root := ⟨"/"⟩ } : ResolveOptions).extensions ∧
      resolve disguised { root := ⟨"/"⟩ } "./y" ⟨"/a.ts"⟩ = some ⟨"/y.ts"⟩ ∧
      (∃ c, find? disguised { root := ⟨"/"⟩ } "./y" ⟨"/a.ts"⟩ = some c ∧ ⟨"/y.ts"⟩ = disguised.normalize c ⟨"/"⟩ ∧
        (ResolveOptions.IsBare { root := ⟨"/"⟩ } c ∨ (Language.ofPath c).isSource = true ∧
          (disguised.EndsInLink c ∨ Language.ofPath ⟨"/y.ts"⟩ = Language.ofPath c))) ∧
      .unsupportedFile ⟨"/data.json"⟩ ∈
        (Walk.from_ disguised { root := ⟨"/"⟩ } false ⟨"a.ts"⟩ ⟨"/"⟩).problems ∧
      ∃ importer x, resolve disguised { root := ⟨"/"⟩ } x importer = some ⟨"/data.json"⟩ ∧
        FoundAstray disguised { root := ⟨"/"⟩ } x importer := by
  obtain ⟨hfound, hreported⟩ := source_files_found disguised { root := ⟨"/"⟩ } rfl
  have hy : resolve disguised { root := ⟨"/"⟩ } "./y" ⟨"/a.ts"⟩ = some ⟨"/y.ts"⟩ := by decide +kernel
  have hproblem : .unsupportedFile ⟨"/data.json"⟩ ∈
      (Walk.from_ disguised { root := ⟨"/"⟩ } false ⟨"a.ts"⟩ ⟨"/"⟩).problems := by decide +kernel
  refine ⟨rfl, hy, hfound _ _ _ hy, hproblem, ?_⟩
  rcases hreported false ⟨"a.ts"⟩ ⟨"/"⟩ .fresh _ hproblem with hentry | ⟨importer, -, x, -, -, -, hresolve, hastray⟩
  · exact absurd hentry (by decide +kernel)
  · exact ⟨importer, x, hresolve, hastray⟩

/-- An import that is found at a link to data resolves to data, and a walk reports what is not its entry as of no
known language. -/
theorem data_found_at_link :
    resolve disguised { root := ⟨"/"⟩ } "./x" ⟨"/a.ts"⟩ = some ⟨"/data.json"⟩ ∧
      (Language.ofPath ⟨"/data.json"⟩).isSource = false ∧ disguised.normalize ⟨"a.ts"⟩ ⟨"/"⟩ = ⟨"/a.ts"⟩ ∧
      (Walk.from_ disguised { root := ⟨"/"⟩ } false ⟨"a.ts"⟩ ⟨"/"⟩).problems = [.unsupportedFile ⟨"/data.json"⟩] := by
  decide +kernel

end Resolve

end ImportAtlas
