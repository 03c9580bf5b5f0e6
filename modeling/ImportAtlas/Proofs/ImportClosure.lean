import ImportAtlas.Proofs.Arrival
import ImportAtlas.Proofs.GraphPaths
import ImportAtlas.Proofs.Resolution
import Mathlib.Logic.Relation
/-!
# A walk gives the import closure

A walk ends, and its graph is the import closure of its entry (`walk_gives_closure`): the
nodes are the files that can be read among those the entry leads to, and the imports
are those between them.

`Invariant` is what holds of a walk at any time, in the middle of a cycle too: what is
visited is led to by the entry, the nodes are the visited files that can be read, and
every import of the graph is one. What an unfinished walk lacks is said by `Followed`,
which holds of a file once its imports are done with: `enter_visits` says that `enter`
leaves no file that it met unfollowed.
-/

namespace ImportAtlas

namespace Snapshot

/-- The file at `p` can be read as text. -/
def Readable (s : Snapshot) (p : Path) : Prop := ∃ text, s.readText p = .ok text

/-- The file at `p` can be read, in a dialect there is, and has no syntax errors:
`m` is what is known of it. -/
def Good (s : Snapshot) (p : Path) (m : SourceSummary) : Prop :=
  ∃ text d, s.readText p = .ok text ∧ Dialect.ofPath? p = some d ∧ readSource d text = m ∧ m.hasError = false

end Snapshot

namespace Walk

variable (s : Snapshot) (o : ResolveOptions)

/-- An import of the file at `p` leads to `t`, outside package directories. -/
def Imports (p t : Path) : Prop :=
  ∃ m, s.Good p m ∧ ∃ x ∈ m.imports, Resolve.resolve s o x p = some t ∧ o.isInPackageDir t = false

/-- The file at `e` leads to `p`, directly or through others. -/
def Reached (e p : Path) : Prop := Relation.ReflTransGen (Imports s o) e p

/-- What holds of a walk from `e` at any time. -/
structure Invariant (e : Path) (w : Walk) : Prop where
  reached : ∀ p ∈ w.visited, Reached s o e p
  graph : w.graph.WellFormed
  nodes : ∀ p, p ∈ w.graph.paths ↔ p ∈ w.visited ∧ s.Readable p
  joins : ∀ p t, w.graph.Joins p t → Imports s o p t

/-- What a walk has, it keeps: what is visited, the number of a file, the imports. -/
structure Extends (w w' : Walk) : Prop where
  visited : ∀ p ∈ w.visited, p ∈ w'.visited
  paths : ∀ (i : FileId) p, w.graph.paths[i]? = some p → w'.graph.paths[i]? = some p
  imports : ∀ e ∈ w.graph.imports, e ∈ w'.graph.imports

/-- The imports of `p` are done with. -/
def Followed (w : Walk) (p : Path) : Prop :=
  ∀ t, Imports s o p t → t ∈ w.visited ∧ (s.Readable t → w.graph.Joins p t)

/-- From `w` on to `w'` a walk from `e` did all there is to do at the files it met. -/
structure Grows (e : Path) (w w' : Walk) : Prop where
  inv : Invariant s o e w'
  keeps : Extends w w'
  followed : ∀ p ∈ w'.visited, p ∉ w.visited → Followed s o w' p

/-- Visiting with `go` does all there is to do, and gives the number of the file. -/
def Visits (e : Path) (go : Path → Walk → Option (Option FileId × Walk)) : Prop :=
  ∀ p w found w', Reached s o e p → Invariant s o e w → go p w = some (found, w') →
    Grows s o e w w' ∧ p ∈ w'.visited ∧ w'.graph.idOf? p = found

variable {s o} {symbols : Bool} {e p t : Path} {w w' w'' : Walk} {id : FileId}

/-! ## What walks keep -/

theorem Extends.refl (w : Walk) : Extends w w := ⟨fun _ h => h, fun _ _ h => h, fun _ h => h⟩

theorem Extends.trans (h : Extends w w') (h' : Extends w' w'') : Extends w w'' :=
  ⟨fun p hp => h'.visited p (h.visited p hp), fun i p hp => h'.paths i p (h.paths i p hp),
    fun e he => h'.imports e (h.imports e he)⟩

theorem Extends.joins (h : Extends w w') (hj : w.graph.Joins p t) : w'.graph.Joins p t := by
  obtain ⟨i, j, hm, hp, ht⟩ := hj
  exact ⟨i, j, h.imports _ hm, h.paths _ _ hp, h.paths _ _ ht⟩

theorem Followed.mono (h : Extends w w') (hf : Followed s o w p) : Followed s o w' p := by
  intro t ht
  obtain ⟨hv, hj⟩ := hf t ht
  exact ⟨h.visited t hv, fun hr => h.joins (hj hr)⟩

theorem Grows.refl (h : Invariant s o e w) : Grows s o e w w := ⟨h, .refl w, fun _ hp hn => absurd hp hn⟩

theorem Grows.trans (h : Grows s o e w w') (h' : Grows s o e w' w'') : Grows s o e w w'' := by
  refine ⟨h'.inv, h.keeps.trans h'.keeps, fun p hp hn => ?_⟩
  by_cases hw : p ∈ w'.visited
  · exact (h.followed p hw hn).mono h'.keeps
  · exact h'.followed p hp hw

/-- With only the problems or the reader changed. -/
theorem Invariant.of_eq (h : Invariant s o e w) (hv : w'.visited = w.visited) (hg : w'.graph = w.graph) :
    Invariant s o e w' := by
  refine ⟨?_, ?_, ?_, ?_⟩
  · rw [hv]; exact h.reached
  · rw [hg]; exact h.graph
  · rw [hv, hg]; exact h.nodes
  · rw [hg]; exact h.joins

theorem Extends.of_eq (hv : w'.visited = w.visited) (hg : w'.graph = w.graph) : Extends w w' := by
  refine ⟨?_, ?_, ?_⟩
  · rw [hv]; exact fun _ h => h
  · rw [hg]; exact fun _ _ h => h
  · rw [hg]; exact fun _ h => h

theorem Grows.of_eq (h : Invariant s o e w) (hv : w'.visited = w.visited) (hg : w'.graph = w.graph) :
    Grows s o e w w' :=
  ⟨h.of_eq hv hg, .of_eq hv hg, fun _ hp hn => absurd (hv ▸ hp) hn⟩

/-! ## Paths that are led to -/

theorem Reached.isPlain (he : e.IsPlain) (h : Reached s o e p) : p.IsPlain := by
  rcases Relation.ReflTransGen.cases_tail h with rfl | ⟨q, -, m, -, x, -, hx, -⟩
  · exact he
  · exact Resolve.resolve_isPlain hx

theorem Reached.step (h : Reached s o e p) (ht : Imports s o p t) : Reached s o e t := Relation.ReflTransGen.tail h ht

/-- Among the paths a walk meets, being visited is being in the list. -/
theorem Invariant.isVisited_iff (he : e.IsPlain) (hi : Invariant s o e w) (hp : Reached s o e p) :
    w.isVisited p = true ↔ p ∈ w.visited := by
  rw [isVisited, List.any_eq_true]
  constructor
  · rintro ⟨q, hq, hs⟩
    rw [← ((hi.reached q hq).isPlain he).eq (hp.isPlain he) hs]
    exact hq
  · exact fun h => ⟨p, h, Path.same_refl p⟩

theorem invariant_start (e : Path) (r : SourceReader) : Invariant s o e (start r) := by
  refine ⟨by simp [start], Graph.wellFormed_empty, by simp [start, Graph.empty, Graph.paths], ?_⟩
  rintro p t ⟨i, j, hm, -⟩
  simp [start, Graph.empty] at hm

/-! ## One file -/

/-- Specifiers are followed from a good file only, and there all of them. -/
theorem mem_specifiersOf {text x : String} (h : s.readText p = .ok text) :
    x ∈ specifiersOf p text ↔ ∃ m, s.Good p m ∧ x ∈ m.imports := by
  have hgood : ∀ m, s.Good p m ↔ summaryOf? p text = some m ∧ m.hasError = false := by
    intro m
    constructor
    · rintro ⟨text', d, ht, hd, rfl, hm⟩
      cases h.symm.trans ht
      exact ⟨by rw [summaryOf?, hd]; rfl, hm⟩
    · rintro ⟨hsummary, hm⟩
      obtain ⟨d, hd, rfl⟩ := Option.map_eq_some_iff.1 hsummary
      exact ⟨text, d, h, hd, rfl, hm⟩
  simp only [hgood]
  unfold specifiersOf
  cases summaryOf? p text with
  | none => simp
  | some m => cases herror : m.hasError <;> simp [herror]

/-- Nothing is imported from a file that cannot be read. -/
theorem not_imports {c : ReadError} (h : s.readText p = .error c) : ¬ Imports s o p t := by
  rintro ⟨m, ⟨text, d, ht, -⟩, -⟩
  cases h.symm.trans ht

theorem Invariant.arrive_unreadable {c : ReadError} (hi : Invariant s o e w) (hp : Reached s o e p)
    (h : s.readText p = .error c) : Invariant s o e (w.visit p) := by
  refine ⟨?_, hi.graph, fun q => ?_, hi.joins⟩
  · intro q hq
    rcases List.mem_cons.1 hq with rfl | hq
    · exact hp
    · exact hi.reached q hq
  · refine (hi.nodes q).trans ⟨fun hq => ⟨List.mem_cons_of_mem _ hq.1, hq.2⟩, fun ⟨hq, hr⟩ => ?_⟩
    rcases List.mem_cons.1 hq with rfl | hq
    · obtain ⟨text, ht⟩ := hr
      cases h.symm.trans ht
    · exact ⟨hq, hr⟩

/-- The walk with a file that is met first: the file has a number from now on. -/
theorem Invariant.arrive_readable {f : FileNode} {text : String} (he : e.IsPlain) (hi : Invariant s o e w)
    (hp : Reached s o e p) (hnew : p ∉ w.visited) (h : s.readText p = .ok text) (hf : f.path = p)
    (hv : w'.visited = p :: w.visited) (hg : w'.graph = (w.graph.addFile f).1) :
    Invariant s o e w' ∧ Extends w w' ∧ w'.graph.paths[(w.graph.addFile f).2]? = some p := by
  have hfresh : f.path ∉ w.graph.paths := fun hm => hnew (hf ▸ ((hi.nodes f.path).1 hm).1)
  have hadd := Graph.addFile_new hi.graph (hf ▸ hp.isPlain he) hfresh
  have hpaths : w'.graph.paths = w.graph.paths ++ [p] := by rw [hg, hadd, ← hf]; simp [Graph.paths]
  have himports : w'.graph.imports = w.graph.imports := by rw [hg, Graph.addFile_imports]
  have hlen : w.graph.paths.length = w.graph.fileCount := List.length_map _
  have hkeeps : Extends w w' := by
    refine ⟨fun q hq => hv ▸ List.mem_cons_of_mem _ hq, fun i q hq => ?_, fun _ h => himports ▸ h⟩
    rw [hpaths, List.getElem?_append_left (List.getElem?_eq_some_iff.1 hq).1, hq]
  refine ⟨⟨?_, ?_, fun q => ?_, fun q t hj => ?_⟩, hkeeps, ?_⟩
  · intro q hq
    rcases List.mem_cons.1 (hv ▸ hq) with rfl | hq
    · exact hp
    · exact hi.reached q hq
  · rw [hg]
    exact hi.graph.addFile (hf ▸ hp.isPlain he) hfresh
  · rw [hpaths, hv, List.mem_append, List.mem_singleton, List.mem_cons, hi.nodes q]
    constructor
    · rintro (⟨hq, hr⟩ | rfl)
      · exact ⟨.inr hq, hr⟩
      · exact ⟨.inl rfl, text, h⟩
    · rintro ⟨rfl | hq, hr⟩
      · exact .inr rfl
      · exact .inl ⟨hq, hr⟩
  · -- No import can be to the new number, which was not in use.
    obtain ⟨i, j, hm, hq, ht⟩ := hj
    rw [himports] at hm
    obtain ⟨hi', hj'⟩ := hi.graph.bounds i j hm
    rw [hpaths, List.getElem?_append_left hi'] at hq
    rw [hpaths, List.getElem?_append_left hj'] at ht
    exact hi.joins q t ⟨i, j, hm, hq, ht⟩
  · rw [hadd, hpaths, ← hlen, List.getElem?_append_right (Nat.le_refl _), Nat.sub_self]
    rfl

/-! ## One import -/

/-- The walk with an import between files it has. -/
theorem Grows.addImport {found : Option FileId} (he : e.IsPlain) (hi : Invariant s o e w)
    (hid : w.graph.paths[id]? = some p) (ht : Imports s o p t) (htv : t ∈ w.visited)
    (hfound : w.graph.idOf? t = found) :
    Grows s o e w (w.addImport id found) ∧ (s.Readable t → (w.addImport id found).graph.Joins p t) := by
  have htp : t.IsPlain := (hi.reached t htv).isPlain he
  cases found with
  | none =>
    -- A visited file without a number is one that cannot be read.
    refine ⟨.refl hi, fun hr => ?_⟩
    have hnot := (Graph.idOf?_eq_none hi.graph htp).1 hfound
    exact absurd ((hi.nodes t).2 ⟨htv, hr⟩) hnot
  | some j =>
    have hj := (Graph.idOf?_eq_some hi.graph htp).1 hfound
    have hpaths : (w.addImport id (some j)).graph.paths = w.graph.paths := Graph.addImport_paths _ _ _
    have hjoins : (w.addImport id (some j)).graph.Joins p t :=
      ⟨id, j, Graph.mem_addImport.2 (.inr rfl), by rw [hpaths, hid], by rw [hpaths, hj]⟩
    have hkeeps : Extends w (w.addImport id (some j)) :=
      ⟨fun _ h => h, fun i q hq => by rw [hpaths, hq], fun e he => Graph.mem_addImport.2 (.inl he)⟩
    refine ⟨⟨⟨hi.reached, ?_, fun q => ?_, fun q u hq => ?_⟩, hkeeps, fun q hq hn => absurd hq hn⟩, fun _ => hjoins⟩
    · exact hi.graph.addImport (List.getElem?_eq_some_iff.1 hid).1 (List.getElem?_eq_some_iff.1 hj).1
    · rw [hpaths]; exact hi.nodes q
    · obtain ⟨a, b, hm, ha, hb⟩ := hq
      rw [hpaths] at ha hb
      rcases Graph.mem_addImport.1 hm with hm | hm
      · exact hi.joins q u ⟨a, b, hm, ha, hb⟩
      · cases hm
        cases hid.symm.trans ha
        cases hj.symm.trans hb
        exact ht

variable {go : Path → Walk → Option (Option FileId × Walk)} {m : SourceSummary}

/-- What `follow` does at a specifier of a file that is a node. -/
theorem follow_grows {x : String} (he : e.IsPlain) (hv : Visits s o e go) (hi : Invariant s o e w)
    (hp : Reached s o e p) (hm : s.Good p m) (hx : x ∈ m.imports) (hid : w.graph.paths[id]? = some p)
    (h : follow s o go p id w x = some w') :
    Grows s o e w w' ∧ ∀ t, Resolve.resolve s o x p = some t → o.isInPackageDir t = false →
      t ∈ w'.visited ∧ (s.Readable t → w'.graph.Joins p t) := by
  unfold follow at h
  split at h
  · next hr =>
    cases h
    exact ⟨.of_eq hi rfl rfl, fun t ht => by cases hr.symm.trans ht⟩
  · next target hr =>
    split at h
    · next hpkg =>
      cases h
      refine ⟨.refl hi, fun t ht hout => ?_⟩
      cases hr.symm.trans ht
      rw [hpkg] at hout
      cases hout
    · next hpkg =>
      obtain ⟨⟨found, w₁⟩, hgo, rfl⟩ := Option.map_eq_some_iff.1 h
      have himp : Imports s o p target := ⟨m, hm, x, hx, hr, by simpa using hpkg⟩
      -- The target is visited first, and `p` keeps its number on the way.
      obtain ⟨hgrows, htv, hfound⟩ := hv _ _ _ _ (hp.step himp) hi hgo
      obtain ⟨hadd, hjoins⟩ := Grows.addImport he hgrows.inv (hgrows.keeps.paths _ _ hid) himp htv hfound
      refine ⟨hgrows.trans hadd, fun t ht _ => ?_⟩
      cases hr.symm.trans ht
      exact ⟨hadd.keeps.visited _ htv, hjoins⟩

/-- What is done at all specifiers of a file, one after the other. -/
theorem foldlM_follow_grows {xs : List String} (he : e.IsPlain) (hv : Visits s o e go) (hi : Invariant s o e w)
    (hp : Reached s o e p) (hid : w.graph.paths[id]? = some p) (hxs : ∀ x ∈ xs, ∃ m, s.Good p m ∧ x ∈ m.imports)
    (h : xs.foldlM (follow s o go p id) w = some w') :
    Grows s o e w w' ∧ ∀ x ∈ xs, ∀ t, Resolve.resolve s o x p = some t → o.isInPackageDir t = false →
      t ∈ w'.visited ∧ (s.Readable t → w'.graph.Joins p t) := by
  induction xs generalizing w with
  | nil => cases h; exact ⟨.refl hi, by simp⟩
  | cons x xs ih =>
    rw [List.foldlM_cons] at h
    obtain ⟨w₁, hfollow, hrest⟩ := Option.bind_eq_some_iff.1 h
    obtain ⟨m, hm, hx⟩ := hxs x List.mem_cons_self
    obtain ⟨hgrows, hdone⟩ := follow_grows he hv hi hp hm hx hid hfollow
    obtain ⟨hgrows', hdone'⟩ := ih hgrows.inv (hgrows.keeps.paths _ _ hid)
      (fun y hy => hxs y (List.mem_cons_of_mem _ hy)) hrest
    refine ⟨hgrows.trans hgrows', fun y hy t ht hout => ?_⟩
    rcases List.mem_cons.1 hy with rfl | hy
    · -- What was done at the first specifier is kept by the others.
      obtain ⟨htv, hj⟩ := hdone t ht hout
      exact ⟨hgrows'.keeps.visited t htv, fun hr => hgrows'.keeps.joins (hj hr)⟩
    · exact hdone' y hy t ht hout

/-! ## A visit -/

/-- A visit to a file that cannot be read. The file is the only one that is new, and it
has no imports. -/
theorem Invariant.visit_unreadable {c : ReadError} {problem : Problem} (he : e.IsPlain) (hi : Invariant s o e w)
    (hp : Reached s o e p) (hnew : p ∉ w.visited) (h : s.readText p = .error c) :
    Grows s o e w ((w.visit p).report problem) ∧ p ∈ ((w.visit p).report problem).visited ∧
      ((w.visit p).report problem).graph.idOf? p = none := by
  have hinv := hi.arrive_unreadable hp h
  have hnode : p ∉ w.graph.paths := fun hm => hnew ((hi.nodes p).1 hm).1
  have hkeeps : Extends w ((w.visit p).report problem) :=
    ⟨fun q hq => List.mem_cons_of_mem _ hq, fun _ _ h => h, fun _ h => h⟩
  refine ⟨⟨hinv.of_eq rfl rfl, hkeeps, fun q hq hn => ?_⟩, List.mem_cons_self, ?_⟩
  · rcases List.mem_cons.1 hq with rfl | hq
    · exact fun t ht => absurd ht (not_imports h)
    · exact absurd hq hn
  · exact (Graph.idOf?_eq_none hi.graph (hp.isPlain he)).2 hnode

/-- A visit to a file that can be read, after its specifiers `xs` are followed from the
walk `w₁` on, where the file has just become a node. -/
theorem Invariant.visit_readable {f : FileNode} {xs : List String} {text : String} {w₁ : Walk} (he : e.IsPlain)
    (hgo : Visits s o e go) (hi : Invariant s o e w) (hp : Reached s o e p) (hnew : p ∉ w.visited)
    (h : s.readText p = .ok text) (hf : f.path = p) (hv : w₁.visited = p :: w.visited)
    (hg : w₁.graph = (w.graph.addFile f).1) (hxs : ∀ x, x ∈ xs ↔ ∃ m, s.Good p m ∧ x ∈ m.imports)
    (hfold : xs.foldlM (follow s o go p (w.graph.addFile f).2) w₁ = some w') :
    Grows s o e w w' ∧ p ∈ w'.visited ∧ w'.graph.idOf? p = some (w.graph.addFile f).2 := by
  obtain ⟨hinv, hkeeps, hid⟩ := hi.arrive_readable he hp hnew h hf hv hg
  obtain ⟨hgrows, hdone⟩ := foldlM_follow_grows he hgo hinv hp hid (fun x hx => (hxs x).1 hx) hfold
  have hpv : p ∈ w₁.visited := hv ▸ List.mem_cons_self
  refine ⟨⟨hgrows.inv, hkeeps.trans hgrows.keeps, fun q hq hn => ?_⟩, hgrows.keeps.visited p hpv, ?_⟩
  · -- New are the file itself, whose imports are done with now, and what they led to.
    by_cases hqp : q = p
    · subst hqp
      rintro t ⟨m, hm, x, hx, ht, hout⟩
      exact hdone x ((hxs x).2 ⟨m, hm, hx⟩) t ht hout
    · refine hgrows.followed q hq fun hm => ?_
      rcases List.mem_cons.1 (hv ▸ hm) with hm | hm
      · exact hqp hm
      · exact hn hm
  · exact (Graph.idOf?_eq_some hgrows.inv.graph (hp.isPlain he)).2 (hgrows.keeps.paths _ _ hid)

/-- Whatever the fuel, a visit that comes to an end did all there is to do. -/
theorem enter_visits (he : e.IsPlain) (fuel : Nat) : Visits s o e (enter s o symbols fuel) := by
  -- On the fuel, since imports are entered with one less.
  induction fuel with
  | zero =>
    intro p w found w' hp hi h
    cases h
  | succ fuel ih =>
    intro p w found w' hp hi h
    unfold enter at h
    split at h
    · next hvis =>
      -- The file may be in the middle of its own visit: `Grows` asks nothing more of it here.
      cases h
      exact ⟨.refl hi, (hi.isVisited_iff he hp).1 hvis, rfl⟩
    · next hvis =>
      have hnew : p ∉ w.visited := fun hm => hvis ((hi.isVisited_iff he hp).2 hm)
      cases hread : s.readText p with
      | error c =>
        rw [arrive_unreadable hread] at h
        cases h
        exact hi.visit_unreadable he hp hnew hread
      | ok text =>
        obtain ⟨w₁, harrive, hv, hg, -⟩ := arrive_readable o symbols w hread
        rw [harrive] at h
        obtain ⟨w₂, hfold, he₂⟩ := Option.map_eq_some_iff.1 h
        cases he₂
        exact hi.visit_readable he ih hp hnew hread rfl hv hg (fun _ => mem_specifiersOf hread) hfold

/-! ## The end of a walk -/

/-- The locations of the tree that are not visited. -/
def unvisited (s : Snapshot) (w : Walk) : Nat := (s.entries.filter fun en => !w.isVisited (Location.path en.1)).length

theorem isVisited_mono (h : ∀ p ∈ w.visited, p ∈ w'.visited) (hp : w.isVisited p = true) : w'.isVisited p = true := by
  rw [isVisited, List.any_eq_true] at hp ⊢
  obtain ⟨q, hq, hs⟩ := hp
  exact ⟨q, h q hq, hs⟩

theorem unvisited_sublist (s : Snapshot) (h : ∀ p ∈ w.visited, p ∈ w'.visited) :
    (s.entries.filter fun en => !w'.isVisited (Location.path en.1)).Sublist
      (s.entries.filter fun en => !w.isVisited (Location.path en.1)) := by
  refine List.monotone_filter_right s.entries fun en hen => ?_
  rw [Bool.not_eq_true'] at hen ⊢
  cases hv : w.isVisited (Location.path en.1) with
  | false => rfl
  | true => rw [isVisited_mono h hv] at hen; cases hen

theorem unvisited_mono (h : ∀ p ∈ w.visited, p ∈ w'.visited) : unvisited s w' ≤ unvisited s w :=
  (unvisited_sublist s h).length_le

/-- Visiting a file of the tree leaves less to visit. -/
theorem unvisited_lt {at_ : Location} {en : Entry} (hm : (at_, en) ∈ s.entries)
    (hnew : w.isVisited (Location.path at_) = false) (hv : w'.visited = Location.path at_ :: w.visited) :
    unvisited s w' < unvisited s w := by
  have hvis : w'.isVisited (Location.path at_) = true := by
    rw [isVisited, hv, List.any_cons, Path.same_refl, Bool.true_or]
  have hkeep : ∀ q ∈ w.visited, q ∈ w'.visited := fun q hq => hv ▸ List.mem_cons_of_mem _ hq
  have hsub := unvisited_sublist s hkeep
  refine Nat.lt_of_le_of_ne hsub.length_le fun hlen => ?_
  -- Of the same length the two lists would be the same, and this location is in one only.
  have heq := hsub.eq_of_length hlen
  have hin : (at_, en) ∈ s.entries.filter fun en => !w.isVisited (Location.path en.1) :=
    List.mem_filter.2 ⟨hm, by rw [hnew]; rfl⟩
  rw [← heq, List.mem_filter, hvis] at hin
  exact absurd hin.2 (by simp)

/-- Visiting a file of the tree comes to an end, if there is fuel for the files that
are not visited. -/
def Ends (s : Snapshot) (o : ResolveOptions) (e : Path) (fuel : Nat)
    (go : Path → Walk → Option (Option FileId × Walk)) : Prop :=
  ∀ at_ en w, (at_, en) ∈ s.entries → Reached s o e (Location.path at_) → Invariant s o e w → unvisited s w < fuel →
    ∃ r, go (Location.path at_) w = some r

/-- An import of a good file does not keep the walk from ending. -/
theorem follow_ends {fuel : Nat} {x : String} (hends : Ends s o e fuel go) (hi : Invariant s o e w)
    (hp : Reached s o e p) (hm : s.Good p m) (hx : x ∈ m.imports) (hlt : unvisited s w < fuel) :
    ∃ w', follow s o go p id w x = some w' := by
  unfold follow
  split
  · exact ⟨_, rfl⟩
  · next target hr =>
    split
    · exact ⟨_, rfl⟩
    · next hpkg =>
      obtain ⟨at_, bytes, hmem, rfl⟩ := Resolve.resolve_file hr
      have himp : Imports s o p (Location.path at_) := ⟨m, hm, x, hx, hr, by simpa using hpkg⟩
      obtain ⟨r, hgo⟩ := hends at_ _ w hmem (hp.step himp) hi hlt
      rw [hgo]
      exact ⟨_, rfl⟩

theorem foldlM_follow_ends {fuel : Nat} {xs : List String} (he : e.IsPlain) (hv : Visits s o e go)
    (hends : Ends s o e fuel go) (hi : Invariant s o e w) (hp : Reached s o e p) (hid : w.graph.paths[id]? = some p)
    (hxs : ∀ x ∈ xs, ∃ m, s.Good p m ∧ x ∈ m.imports) (hlt : unvisited s w < fuel) :
    ∃ w', xs.foldlM (follow s o go p id) w = some w' := by
  induction xs generalizing w with
  | nil => exact ⟨w, rfl⟩
  | cons x xs ih =>
    obtain ⟨m, hm, hx⟩ := hxs x List.mem_cons_self
    obtain ⟨w₁, hfollow⟩ : ∃ w₁, follow s o go p id w x = some w₁ := follow_ends hends hi hp hm hx hlt
    obtain ⟨hgrows, -⟩ := follow_grows he hv hi hp hm hx hid hfollow
    obtain ⟨w₂, hrest⟩ := ih hgrows.inv (hgrows.keeps.paths _ _ hid) (fun y hy => hxs y (List.mem_cons_of_mem _ hy))
      (Nat.lt_of_le_of_lt (unvisited_mono hgrows.keeps.visited) hlt)
    exact ⟨w₂, by rw [List.foldlM_cons, hfollow]; exact hrest⟩

/-- A visit ends if there is fuel for what is not visited after its file. -/
theorem enter_succ_ends {fuel : Nat} (he : e.IsPlain) (hends : Ends s o e fuel (enter s o symbols fuel))
    (hp : Reached s o e p) (hi : Invariant s o e w)
    (hlt : ∀ w', w.isVisited p = false → w'.visited = p :: w.visited → unvisited s w' < fuel) :
    ∃ r, enter s o symbols (fuel + 1) p w = some r := by
  unfold enter
  split
  · exact ⟨_, rfl⟩
  · next hvis =>
    have hnew : p ∉ w.visited := fun hm => hvis ((hi.isVisited_iff he hp).2 hm)
    cases hread : s.readText p with
    | error c => rw [arrive_unreadable hread]; exact ⟨_, rfl⟩
    | ok text =>
      obtain ⟨w₁, harrive, hv, hg, -⟩ := arrive_readable o symbols w hread
      obtain ⟨hinv, -, hid⟩ := hi.arrive_readable he hp hnew hread rfl hv hg
      obtain ⟨w₂, hfold⟩ := foldlM_follow_ends he (enter_visits he fuel) hends hinv hp hid
        (fun x hx => (mem_specifiersOf hread).1 hx) (hlt w₁ (by simpa using hvis) hv)
      rw [harrive]
      exact ⟨_, Option.map_eq_some_iff.2 ⟨w₂, hfold, rfl⟩⟩

theorem enter_ends (he : e.IsPlain) (fuel : Nat) : Ends s o e fuel (enter s o symbols fuel) := by
  induction fuel with
  | zero =>
    intro at_ en w hm hp hi hlt
    exact absurd hlt (Nat.not_lt_zero _)
  | succ fuel ih =>
    intro at_ en w hm hp hi hlt
    refine enter_succ_ends he ih hp hi fun w' hnew hv => ?_
    have := unvisited_lt hm hnew hv
    omega

/-- The walk from `e` ends, whatever its reader read before. -/
theorem enter_depth_ends (he : e.IsPlain) (r : SourceReader) :
    ∃ found w, enter s o symbols (depth s) e (start r) = some (found, w) := by
  have hends : Ends s o e (s.entries.length + 1) (enter s o symbols (s.entries.length + 1)) := enter_ends he _
  -- The entry may be missing from the tree, so its own visit is not counted by `unvisited`.
  obtain ⟨⟨found, w⟩, h⟩ := enter_succ_ends he hends .refl (invariant_start e r) fun w' _ _ =>
    Nat.lt_succ_of_le (List.length_filter_le _ s.entries)
  exact ⟨found, w, h⟩

theorem from_eq {entry cwd : Path} {r : SourceReader} {found : Option FileId}
    (h : enter s o symbols (depth s) (s.normalize entry cwd) (start r) = some (found, w)) :
    from_ s o symbols entry cwd r = w := by
  unfold from_
  rw [h]

/-- A whole walk visits its entry, and follows every file it visits. -/
theorem from_closed (s : Snapshot) (o : ResolveOptions) (symbols : Bool) (entry cwd : Path) (r : SourceReader) :
    Invariant s o (s.normalize entry cwd) (from_ s o symbols entry cwd r) ∧
      s.normalize entry cwd ∈ (from_ s o symbols entry cwd r).visited ∧
      ∀ p ∈ (from_ s o symbols entry cwd r).visited, Followed s o (from_ s o symbols entry cwd r) p := by
  have he : (s.normalize entry cwd).IsPlain := s.normalize_isPlain entry cwd
  obtain ⟨found, w, hend⟩ :
      ∃ found w, enter s o symbols (depth s) (s.normalize entry cwd) (start r) = some (found, w) :=
    enter_depth_ends he r
  rw [from_eq hend]
  obtain ⟨hgrows, hv, -⟩ := enter_visits he (depth s) _ _ _ _ .refl (invariant_start _ r) hend
  exact ⟨hgrows.inv, hv, fun p hp => hgrows.followed p hp (by simp [start])⟩

/-! ## More fuel changes nothing -/

theorem follow_mono {go' : Path → Walk → Option (Option FileId × Walk)}
    (hgo : ∀ p w r, go p w = some r → go' p w = some r) {x : String} (h : follow s o go p id w x = some w') :
    follow s o go' p id w x = some w' := by
  rw [follow] at h ⊢
  split at h
  · exact h
  · split at h
    · next hpkg => rw [if_pos hpkg]; exact h
    · next hpkg =>
      obtain ⟨r, hr, rfl⟩ := Option.map_eq_some_iff.1 h
      rw [if_neg hpkg, hgo _ _ _ hr]
      rfl

theorem foldlM_follow_mono {go' : Path → Walk → Option (Option FileId × Walk)}
    (hgo : ∀ p w r, go p w = some r → go' p w = some r) {xs : List String}
    (h : xs.foldlM (follow s o go p id) w = some w') : xs.foldlM (follow s o go' p id) w = some w' := by
  induction xs generalizing w with
  | nil => exact h
  | cons x xs ih =>
    rw [List.foldlM_cons] at h ⊢
    obtain ⟨w₁, hfollow, hrest⟩ := Option.bind_eq_some_iff.1 h
    rw [follow_mono hgo hfollow]
    exact ih hrest

theorem enter_mono {fuel : Nat} {r : Option FileId × Walk} (h : enter s o symbols fuel p w = some r) :
    enter s o symbols (fuel + 1) p w = some r := by
  induction fuel generalizing p w r with
  | zero => cases h
  | succ fuel ih =>
    rw [enter] at h ⊢
    split at h
    · next hvis => rw [if_pos hvis]; exact h
    · next hvis =>
      rw [if_neg hvis]
      split at h
      · exact h
      · obtain ⟨w', hfold, rfl⟩ := Option.map_eq_some_iff.1 h
        rw [foldlM_follow_mono (fun _ _ _ => ih) hfold]
        rfl

theorem enter_le {fuel fuel' : Nat} {r : Option FileId × Walk} (hle : fuel ≤ fuel')
    (h : enter s o symbols fuel p w = some r) : enter s o symbols fuel' p w = some r := by
  induction hle with
  | refl => exact h
  | step _ ih => exact enter_mono ih

/-! ## The closure -/

/-- The nodes of `g` are the files that can be read among those `e` leads to, and its
imports are those between them, each once. -/
structure IsClosure (s : Snapshot) (o : ResolveOptions) (e : Path) (g : Graph) : Prop where
  nodes : ∀ p, p ∈ g.paths ↔ Reached s o e p ∧ s.Readable p
  nodesOnce : g.paths.Nodup
  imports : ∀ p t, (p, t) ∈ g.pairs ↔ p ∈ g.paths ∧ Imports s o p t ∧ s.Readable t
  importsOnce : g.pairs.Nodup ∧ g.pairs.length = g.edgeCount
  outside : ∀ p ∈ g.paths, p ≠ e → o.isInPackageDir p = false

/-- Where the entry is visited and everything visited is followed, everything the entry
leads to is visited. -/
theorem visited_of_reached (hv : e ∈ w.visited) (hf : ∀ p ∈ w.visited, Followed s o w p) (hp : Reached s o e p) :
    p ∈ w.visited := by
  induction hp with
  | refl => exact hv
  | tail _ ht ih => exact (hf _ ih _ ht).1

theorem isClosure_of_followed (hi : Invariant s o e w) (hv : e ∈ w.visited) (hf : ∀ p ∈ w.visited, Followed s o w p) :
    IsClosure s o e w.graph := by
  have hnodes : ∀ p, p ∈ w.graph.paths ↔ Reached s o e p ∧ s.Readable p := fun p =>
    (hi.nodes p).trans (and_congr_left' ⟨hi.reached p, visited_of_reached hv hf⟩)
  refine ⟨hnodes, hi.graph.nodup, fun p t => ?_, ⟨Graph.pairs_nodup hi.graph, Graph.pairs_length hi.graph⟩, ?_⟩
  · rw [Graph.mem_pairs]
    constructor
    · intro hj
      have himp := hi.joins p t hj
      obtain ⟨i, j, -, hp, ht⟩ := hj
      exact ⟨List.mem_of_getElem? hp, himp, ((hi.nodes t).1 (List.mem_of_getElem? ht)).2⟩
    · rintro ⟨hp, ht, hr⟩
      exact (hf p ((hi.nodes p).1 hp).1 t ht).2 hr
  · -- Only the entry is a node without being a target.
    intro p hp hne
    rcases Relation.ReflTransGen.cases_tail ((hnodes p).1 hp).1 with rfl | ⟨q, -, m, -, x, -, -, hout⟩
    · exact absurd rfl hne
    · exact hout

theorem from_isClosure (s : Snapshot) (o : ResolveOptions) (symbols : Bool) (entry cwd : Path) (r : SourceReader) :
    IsClosure s o (s.normalize entry cwd) (from_ s o symbols entry cwd r).graph := by
  obtain ⟨hinv, hvisited, hfollowed⟩ := from_closed s o symbols entry cwd r
  exact isClosure_of_followed hinv hvisited hfollowed

/-- A walk ends, and its graph is the import closure of its entry. No further depth would
change the walk. -/
theorem walk_gives_closure (s : Snapshot) (o : ResolveOptions) (symbols : Bool) (entry cwd : Path) (r : SourceReader) :
    (∃ found, ∀ fuel, depth s ≤ fuel →
      enter s o symbols fuel (s.normalize entry cwd) (start r) = some (found, from_ s o symbols entry cwd r)) ∧
    IsClosure s o (s.normalize entry cwd) (from_ s o symbols entry cwd r).graph := by
  have he : (s.normalize entry cwd).IsPlain := s.normalize_isPlain entry cwd
  obtain ⟨found, w, hend⟩ :
      ∃ found w, enter s o symbols (depth s) (s.normalize entry cwd) (start r) = some (found, w) :=
    enter_depth_ends he r
  rw [from_eq hend]
  refine ⟨⟨found, fun fuel hle => enter_le hle hend⟩, ?_⟩
  obtain ⟨hgrows, hv, -⟩ := enter_visits he (depth s) _ _ _ _ .refl (invariant_start _ r) hend
  exact isClosure_of_followed hgrows.inv hv fun p hp => hgrows.followed p hp (by simp [start])

end Walk

end ImportAtlas
