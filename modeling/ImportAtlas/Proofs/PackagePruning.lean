import ImportAtlas.Proofs.CanonicalPaths
/-!
# Looking for packages and leaving them out

Packages are looked for below a package directory, whose name is joined to a path, and left out
if a component of their path is that name. So a name with a slash in it finds packages, and
never leaves one out: what is below a package directory is in one exactly if the name has no
slash (`pruned_iff_no_slash`).

A package directory counts only below the root. Without links and without `..` a file is found
where its path says, so the path that is looked up and the one that is left out have the same
components (`components_normalize`).
-/

namespace ImportAtlas

namespace Path

variable {d : String}

/-- A non-empty relative path without `.` and `..`. -/
structure IsPackagePath (d : String) : Prop where
  nonempty : d ≠ ""
  relative : (Path.mk d).isAbsolute = false
  current : .current ∉ (Path.mk d).components
  parent : .parent ∉ (Path.mk d).components

theorem IsPackagePath.components_eq_steps (h : IsPackagePath d) : (Path.mk d).components = (Path.mk d).steps := by
  have hcurrent := h.current
  rw [components_eq, h.relative] at hcurrent ⊢
  split
  · next hfalse => cases hfalse
  · split
    · next hdot => simp [hdot] at hcurrent
    · rfl

theorem IsPackagePath.join_empty (h : IsPackagePath d) : (Path.mk "").join d = ⟨d⟩ := by
  unfold join
  rw [if_neg (by simp [h.relative])]
  simp

/-- Below any path, the empty one too, it adds its components. -/
theorem IsPackagePath.components_join (h : IsPackagePath d) (above : Path) :
    (above.join d).components = above.components ++ (Path.mk d).components := by
  by_cases hempty : above.text = ""
  · obtain ⟨text⟩ := above
    cases hempty
    rw [h.join_empty]
    rfl
  · rw [Path.components_join hempty h.relative, h.components_eq_steps]

theorem IsPackagePath.text_join_ne (h : IsPackagePath d) (above : Path) : (above.join d).text ≠ "" := by
  unfold join
  split
  · exact h.nonempty
  · split <;> simp [h.nonempty]

/-- Without a slash it is one name. -/
theorem IsPackagePath.components_of_no_slash (h : IsPackagePath d) (hslash : '/' ∉ d.toList) :
    (Path.mk d).components = [.name d] := by
  have hname : IsName d := by
    refine ⟨hslash, h.nonempty, ?_, ?_⟩
    · rintro rfl
      exact h.current (by decide)
    · rintro rfl
      exact h.parent (by decide)
  have hcomponents : (ofComponents [.name d]).components = [.name d] :=
    components_steps (List.cons_ne_nil _ _) (by simpa [Component.IsStep] using hname)
  rwa [show ofComponents [.name d] = ⟨d⟩ from h.join_empty] at hcomponents

end Path

/-! ## What is left out -/

namespace ResolveOptions

variable {o : ResolveOptions} {above p : Path} {rest : List Path.Component}

/-- What is below a package directory is in one exactly if the name has no slash. -/
theorem isInPackageDir_iff (ho : Path.IsPackagePath o.packageDir)
    (hroot : ¬ (above.join o.packageDir).components <+: o.root.components)
    (hp : p.components = (above.join o.packageDir).components ++ rest) :
    o.isInPackageDir p = true ↔ '/' ∉ o.packageDir.toList := by
  unfold isInPackageDir
  rw [List.contains_iff_mem]
  constructor
  · intro hmem
    refine Path.slash_of_name_mem_components (p := p) ?_
    cases hbelow : p.componentsBelow? o.root with
    | none => simpa [hbelow] using hmem
    | some below =>
      rw [Path.componentsBelow?_eq_some.1 hbelow]
      exact List.mem_append_right _ (by simpa [hbelow] using hmem)
  · intro hslash
    rw [ho.components_join, ho.components_of_no_slash hslash] at hroot hp
    cases hbelow : p.componentsBelow? o.root with
    | none => simp [hp]
    | some below =>
      -- The root ends above the package directory, so the name comes after it.
      have hsplit := hp.symm.trans (Path.componentsBelow?_eq_some.1 hbelow)
      rcases List.append_eq_append_iff.1 hsplit with ⟨more, hmore, -⟩ | ⟨more, hmore, hrest⟩
      · exact absurd ⟨more, hmore.symm⟩ hroot
      · have hne : more ≠ [] := by
          rintro rfl
          rw [List.append_nil] at hmore
          exact hroot ⟨[], by rw [List.append_nil, hmore]⟩
        have hlast : more.getLast? = some (.name o.packageDir) := by
          have hends := congrArg List.getLast? hmore
          rw [List.getLast?_concat, List.getLast?_append_of_ne_nil _ hne] at hends
          exact hends.symm
        simp only [Option.getD_some, hrest]
        exact List.mem_append_left _ (List.mem_of_getLast? hlast)

end ResolveOptions

/-! ## Trees without links -/

namespace Snapshot

variable {s : Snapshot} {p q : Path} {at_ : Location}

/-- No entry is a link. -/
def Linkless (s : Snapshot) : Prop := ∀ at_ target, s.entry? at_ ≠ some (.link target)

theorem linkless_of_entries (h : ∀ e ∈ s.entries, ∀ target, e.2 ≠ .link target) : s.Linkless := by
  intro at_ target he
  unfold entry? at he
  split at he
  · cases he
  · obtain ⟨above, below, hentries, -⟩ := List.lookup_eq_some_iff.1 he
    exact h (at_, .link target) (by simp [hentries]) target rfl

/-- What is walked of a path, but for dots, are its parts that count. -/
theorem filter_stepsOf (text : String) : (stepsOf text).filter (· ≠ ".") =
    ((Path.mk text).parts.filter (!Path.isIdle ·)).map String.ofList := by
  have hparts : (((Text.splitOn '/' text.toList).filter (· ≠ [])).map String.ofList).filter (· ≠ ".") =
      ((Path.mk text).parts.filter (!Path.isIdle ·)).map String.ofList := by
    rw [List.filter_map, List.filter_filter]
    congr 1
    refine List.filter_congr fun part _ => ?_
    have hdot : String.ofList part = "." ↔ part = ['.'] := by rw [← String.toList_inj, String.toList_ofList]; rfl
    rw [Bool.eq_iff_iff]
    simp [Path.isIdle, hdot, and_comm]
  unfold stepsOf
  split
  · rw [List.filter_append, hparts]
    simp
  · exact hparts

theorem dots_not_mem_stepsOf (h : .parent ∉ p.steps) : ".." ∉ stepsOf p.text := by
  intro hmem
  have hkept : ".." ∈ (stepsOf p.text).filter (· ≠ ".") := List.mem_filter.2 ⟨hmem, by decide⟩
  rw [filter_stepsOf] at hkept
  obtain ⟨part, hpart, heq⟩ := List.mem_map.1 hkept
  have hdots : part = ['.', '.'] := by simpa using congrArg String.toList heq
  exact h (List.mem_map.2 ⟨part, hpart, by rw [hdots]; rfl⟩)

/-- Without links and without `..` a file is where its path says. -/
theorem components_normalize (hs : s.Linkless) (hfile : s.isFile p = true) (hdots : .parent ∉ p.components) (cwd : Path) :
    (s.normalize p cwd).components = p.components := by
  obtain ⟨at_, bytes, hl, -⟩ := s.locate_of_isFile hfile
  rw [Path.components_of_isAbsolute (s.walk_of_locate hl).1] at hdots ⊢
  have hsteps : .parent ∉ p.steps := fun hmem => hdots (List.mem_cons_of_mem _ hmem)
  rw [s.normalize_of_locate cwd hl, Location.components_path (s.locate_named hl), Path.steps_eq_map_name hsteps,
    ← filter_stepsOf]
  have hend : at_ = (stepsOf p.text).filter (· ≠ ".") :=
    (s.walks_of_locate hl).linkless (dots_not_mem_stepsOf hsteps) fun _ _ _ => hs _ _
  rw [← hend]

end Snapshot

/-! ## Packages that are found -/

namespace Resolve

variable {s : Snapshot} {o : ResolveOptions} {x : String} {f above q : Path}

/-- The import `x` of the file at `f` leads through the package directories to `q`, which lies
below the one in `above`, by the names in its path. -/
structure FindsBelow (s : Snapshot) (o : ResolveOptions) (x : String) (f above q : Path) : Prop where
  found : find? s o x f = some q
  package : package? s o x (f.parent?.getD o.root) = some q
  above_mem : above ∈ (f.parent?.getD o.root).ancestors
  below : ∃ rest : List String, q.components = (above.join o.packageDir).components ++ rest.map .name

/-- There is no `..` above a file that can be read under its plain path. -/
theorem parent_not_mem_ancestors (hf : f.IsPlain) (hread : s.Readable f)
    (habove : above ∈ (f.parent?.getD o.root).ancestors) : .parent ∉ above.components := by
  obtain ⟨text, ht⟩ := hread
  obtain ⟨at_, bytes, hl, he⟩ := s.locate_of_isFile (Snapshot.isFile_of_readText ht)
  obtain ⟨names, hnames, rfl⟩ := hf.location ((s.walk_of_locate hl).1)
  rcases List.eq_nil_or_concat names with rfl | ⟨dir, name, rfl⟩
  · rw [Snapshot.locate_path hnames Snapshot.entered_nil (Snapshot.stands_directory rfl)] at hl
    cases hl
    simp [Snapshot.entry?] at he
  · rw [List.concat_eq_append, List.forall_mem_append] at hnames
    rw [List.concat_eq_append, Location.parent?_path_append hnames.1 (hnames.2 name List.mem_cons_self), Option.getD_some,
      Location.ancestors_path hnames.1] at habove
    obtain ⟨up, hup, rfl⟩ := List.mem_map.1 habove
    rw [Location.components_path fun n hn => hnames.1 n ((Location.mem_upwards.1 hup).subset hn)]
    simp

/-- What is found below a package directory has the same components under its canonical path. -/
theorem FindsBelow.components_normalize (h : FindsBelow s o x f above q) (hs : s.Linkless)
    (ho : Path.IsPackagePath o.packageDir) (hf : f.IsPlain) (hread : s.Readable f) :
    (s.normalize q o.root).components = q.components := by
  refine Snapshot.components_normalize hs (isFile_of_find? h.found) ?_ o.root
  obtain ⟨rest, hbelow⟩ := h.below
  rw [hbelow, ho.components_join]
  simp [parent_not_mem_ancestors hf hread h.above_mem, ho.parent]

end Resolve

/-! ## Nodes of a walk -/

namespace Walk

variable {s : Snapshot} {o : ResolveOptions} {symbols : Bool} {e f above q : Path} {m : SourceSummary} {x : String}

/-- The file at `f`, which `e` leads to, imports `x`, which leads to `q` in a package directory
that the root is not in. -/
structure ImportsPackage (s : Snapshot) (o : ResolveOptions) (e f above q : Path) : Prop where
  reached : Reached s o e f
  imports : ∃ m, s.Good f m ∧ ∃ x ∈ m.imports, Resolve.FindsBelow s o x f above q
  root : ¬ (above.join o.packageDir).components <+: o.root.components

theorem ImportsPackage.isInPackageDir_iff (h : ImportsPackage s o e f above q) (hs : s.Linkless)
    (ho : Path.IsPackagePath o.packageDir) (he : e.IsPlain) :
    o.isInPackageDir (s.normalize q o.root) = true ↔ '/' ∉ o.packageDir.toList := by
  obtain ⟨m, ⟨text, d, ht, -⟩, x, -, hfinds⟩ := h.imports
  obtain ⟨rest, hbelow⟩ := hfinds.below
  have hsame : (s.normalize q o.root).components = q.components :=
    hfinds.components_normalize hs ho (h.reached.isPlain he) ⟨text, ht⟩
  exact ResolveOptions.isInPackageDir_iff ho h.root (hsame.trans hbelow)

/-- A package that is not left out is followed. -/
theorem ImportsPackage.reached_target (h : ImportsPackage s o e f above q)
    (hout : o.isInPackageDir (s.normalize q o.root) = false) : Reached s o e (s.normalize q o.root) := by
  obtain ⟨m, hm, x, hx, hfinds⟩ := h.imports
  have hresolve : Resolve.resolve s o x f = some (s.normalize q o.root) := by
    rw [Resolve.resolve, hfinds.found]
    rfl
  exact h.reached.step ⟨m, hm, x, hx, hresolve, hout⟩

end Walk

namespace ResolveOptions

/-- What is below a package directory is left out exactly if the name of the directory has no
slash. So in a tree without links a package that is found is a node, besides the entry, exactly
if the name has one. -/
theorem pruned_iff_no_slash (o : ResolveOptions) (ho : Path.IsPackagePath o.packageDir) :
    (∀ (above : Path) (rest : String), (Path.mk rest).isAbsolute = false →
      ¬ (above.join o.packageDir).components <+: o.root.components →
      (o.isInPackageDir ((above.join o.packageDir).join rest) = true ↔ '/' ∉ o.packageDir.toList)) ∧
    ∀ (s : Snapshot) (symbols : Bool) (entry cwd : Path) (r : SourceReader) (f above q : Path), s.Linkless →
      Walk.ImportsPackage s o (s.normalize entry cwd) f above q →
      (s.normalize q o.root ∈ (Walk.from_ s o symbols entry cwd r).graph.paths ↔
        s.Readable (s.normalize q o.root) ∧
          ('/' ∈ o.packageDir.toList ∨ s.normalize q o.root = s.normalize entry cwd)) := by
  refine ⟨fun above rest hrest hroot => ?_, fun s symbols entry cwd r f above q hs hpackage => ?_⟩
  · exact isInPackageDir_iff ho hroot (Path.components_join (ho.text_join_ne above) hrest)
  · have hin := hpackage.isInPackageDir_iff hs ho (s.normalize_isPlain entry cwd)
    have hclosure := Walk.from_isClosure s o symbols entry cwd r
    -- Nodes are what can be read and is reached. What is in a package directory is reached as the entry only.
    rw [hclosure.nodes]
    by_cases hslash : '/' ∈ o.packageDir.toList
    · have hout : o.isInPackageDir (s.normalize q o.root) = false := by simpa [hslash] using hin
      simp [hslash, hpackage.reached_target hout]
    · simp only [hslash, not_false_eq_true, iff_true, false_or] at hin ⊢
      constructor
      · intro hnode
        refine ⟨hnode.2, ?_⟩
        by_contra hne
        have hout := hclosure.outside _ ((hclosure.nodes _).2 hnode) hne
        rw [hin] at hout
        cases hout
      · rintro ⟨hreadable, hentry⟩
        exact ⟨by rw [hentry]; exact .refl, hreadable⟩

/-- A file that imports a package of the package directory `dir`. -/
def packaged (dir : Location) : Snapshot :=
  .ofEntries [(["work", "m.ts"], .file "import 'x'".toUTF8), ("work" :: dir ++ ["x", "index.ts"], .file "".toUTF8)]

/-- The package is found, and left out. -/
theorem package_pruned :
    Path.IsPackagePath defaultPackageDir ∧ (packaged ["node_modules"]).Linkless ∧
      Walk.ImportsPackage (packaged ["node_modules"]) { root := ⟨"/work"⟩ }
        ((packaged ["node_modules"]).normalize ⟨"m.ts"⟩ ⟨"/work"⟩) ⟨"/work/m.ts"⟩ ⟨"/work"⟩
        ⟨"/work/node_modules/x/index.ts"⟩ ∧
      isInPackageDir { root := ⟨"/work"⟩ } ⟨"/work/node_modules/x/index.ts"⟩ = true ∧
      (packaged ["node_modules"]).normalize ⟨"/work/node_modules/x/index.ts"⟩ ⟨"/work"⟩ ∉
        (Walk.from_ (packaged ["node_modules"]) { root := ⟨"/work"⟩ } false ⟨"m.ts"⟩ ⟨"/work"⟩).graph.paths := by
  have ho : Path.IsPackagePath defaultPackageDir := ⟨by decide, by decide, by decide, by decide⟩
  have hs : (packaged ["node_modules"]).Linkless := by
    refine Snapshot.linkless_of_entries fun e he target htarget => ?_
    simp [packaged, Snapshot.ofEntries, Snapshot.insert] at he
    obtain ⟨above, -, rfl⟩ | rfl | ⟨⟨above, -, rfl⟩, -⟩ | rfl := he <;> cases htarget
  have hroot : ¬ ((Path.mk "/work").join defaultPackageDir).components <+: (Path.mk "/work").components := by decide +kernel
  have hfinds : Resolve.FindsBelow (packaged ["node_modules"]) { root := ⟨"/work"⟩ } "x" ⟨"/work/m.ts"⟩ ⟨"/work"⟩
      ⟨"/work/node_modules/x/index.ts"⟩ :=
    ⟨by decide +kernel, by decide +kernel, by decide +kernel, ["x", "index.ts"], by decide +kernel⟩
  have hpackage : Walk.ImportsPackage (packaged ["node_modules"]) { root := ⟨"/work"⟩ }
      ((packaged ["node_modules"]).normalize ⟨"m.ts"⟩ ⟨"/work"⟩) ⟨"/work/m.ts"⟩ ⟨"/work"⟩
      ⟨"/work/node_modules/x/index.ts"⟩ := by
    have hentry : (packaged ["node_modules"]).normalize ⟨"m.ts"⟩ ⟨"/work"⟩ = ⟨"/work/m.ts"⟩ := by decide +kernel
    refine ⟨by rw [hentry]; exact .refl, ⟨_, ⟨"import 'x'", .typeScript, ?_, ?_, rfl, ?_⟩, "x", ?_, hfinds⟩, hroot⟩
    · decide +kernel
    · decide +kernel
    · decide +kernel
    · decide +kernel
  obtain ⟨hprunes, hnodes⟩ := pruned_iff_no_slash { root := ⟨"/work"⟩ } ho
  refine ⟨ho, hs, hpackage, (hprunes ⟨"/work"⟩ "x/index.ts" (by decide) hroot).2 (by decide), fun hmem => ?_⟩
  rcases ((hnodes _ false ⟨"m.ts"⟩ ⟨"/work"⟩ .fresh _ _ _ hs hpackage).1 hmem).2 with hslash | hentry
  · exact absurd hslash (by decide)
  · exact absurd hentry (by decide +kernel)

/-- With a slash in the name of the package directory the package is found as well, but what is
below the directory is not in it, and the package is a node. A slash at the end of the name is
enough. -/
theorem slashed_package_kept :
    Path.IsPackagePath "third/party" ∧ Path.IsPackagePath "node_modules/" ∧
      ¬ ((Path.mk "/work").join "third/party").components <+: (Path.mk "/work").components ∧
      ((Path.mk "/work").join "third/party").join "x/index.ts" = ⟨"/work/third/party/x/index.ts"⟩ ∧
      isInPackageDir { root := ⟨"/work"⟩, packageDir := "third/party" } ⟨"/work/third/party/x/index.ts"⟩ = false ∧
      isInPackageDir { root := ⟨"/work"⟩, packageDir := "node_modules/" } ⟨"/work/node_modules/x/index.ts"⟩ = false ∧
      Resolve.package? (packaged ["third", "party"]) { root := ⟨"/work"⟩, packageDir := "third/party" } "x" ⟨"/work"⟩ =
        some ⟨"/work/third/party/x/index.ts"⟩ ∧
      (Walk.from_ (packaged ["third", "party"]) { root := ⟨"/work"⟩, packageDir := "third/party" } false
        ⟨"m.ts"⟩ ⟨"/work"⟩).graph.paths = [⟨"/work/m.ts"⟩, ⟨"/work/third/party/x/index.ts"⟩] := by
  refine ⟨⟨by decide, by decide, by decide, by decide⟩, ⟨by decide, by decide, by decide, by decide⟩, ?_⟩
  decide +kernel

end ResolveOptions

end ImportAtlas
