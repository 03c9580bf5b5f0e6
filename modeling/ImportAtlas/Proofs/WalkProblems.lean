import ImportAtlas.Proofs.ImportClosure
/-!
# A walk lists every problem once

What can be wrong with a file is told by the tree alone (`problemsAt`). A walk lists the
problems of the files it visits, and it visits each of the files its entry leads to
once: so its problems are theirs, as often as they are there (`problems_of_reached`).

`Lists` is what any stretch of a walk does, also one in the middle of a cycle: the files
it visits are new, and apart from `own`, which belongs to the file whose imports are
being followed, it lists what is wrong with these files and nothing else.
-/

namespace ImportAtlas.Walk

variable (s : Snapshot) (o : ResolveOptions)

/-- The problem with an import of the file at `p`, if it leads nowhere. -/
def unresolved? (p : Path) (specifier : String) : Option Problem :=
  if Resolve.resolve s o specifier p = none then some (.unresolvedImport specifier p) else none

/-- What is wrong with the file at `p`: it cannot be read, is in no known language, or has
syntax errors; else the imports that lead nowhere, each as often as it is there. -/
def problemsAt (p : Path) : List Problem :=
  match s.readText p with
  | .error cause => [.unreadableFile p cause]
  | .ok text =>
    match Dialect.ofPath? p with
    | none => [.unsupportedFile p]
    | some d =>
      if (readSource d text).hasError then [.malformedSource p]
      else (readSource d text).imports.filterMap (unresolved? s o p)

/-- From `w` on to `w'` a walk listed `own`, and what is wrong with the files it visited,
which are new. -/
def Lists (own : List Problem) (w w' : Walk) : Prop :=
  ∃ new, w'.visited = new ++ w.visited ∧ (w.visited.Nodup → w'.visited.Nodup) ∧
    w'.problems.Perm (w.problems ++ (own ++ new.flatMap (problemsAt s o)))

variable {s o} {symbols : Bool} {p : Path} {w w' w'' : Walk} {own own' : List Problem}

/-! ## Stretches of a walk -/

theorem Lists.refl (w : Walk) : Lists s o [] w w := ⟨[], rfl, id, by simp⟩

/-- Where nothing is visited, the problems listed are the walk's own. -/
theorem Lists.of_visited (hv : w'.visited = w.visited) (hp : w'.problems = w.problems ++ own) :
    Lists s o own w w' := ⟨[], hv, fun h => hv ▸ h, by simp [hp]⟩

theorem Lists.trans (h : Lists s o own w w') (h' : Lists s o own' w' w'') : Lists s o (own ++ own') w w'' := by
  obtain ⟨new, hv, hn, hp⟩ := h
  obtain ⟨new', hv', hn', hp'⟩ := h'
  refine ⟨new' ++ new, by rw [hv', hv, List.append_assoc], fun h => hn' (hn h), ?_⟩
  rw [List.perm_iff_count] at hp hp' ⊢
  intro x
  have hfirst := hp x
  have hthen := hp' x
  simp only [List.flatMap_append, List.count_append] at hfirst hthen ⊢
  omega

theorem Lists.addImport (h : Lists s o own w w') (source : FileId) (target : Option FileId) :
    Lists s o own w (w'.addImport source target) := by
  cases target <;> exact h

/-! ## One file -/

theorem not_mem_visited (h : ¬ w.isVisited p = true) : p ∉ w.visited := by
  intro hp
  apply h
  rw [isVisited, List.any_eq_true]
  exact ⟨p, hp, Path.same_refl p⟩

/-- A file that can be read is wrong as a whole, or in its specifiers. -/
theorem problemsAt_readable {text : String} (h : s.readText p = .ok text) :
    problemsAt s o p = (faultOf? p text).toList ++ (specifiersOf p text).filterMap (unresolved? s o p) := by
  unfold problemsAt faultOf? specifiersOf summaryOf?
  simp only [h]
  cases Dialect.ofPath? p with
  | none => rfl
  | some d =>
    dsimp only [Option.map_some]
    cases (readSource d text).hasError <;> rfl

/-- What is listed when a file is met, and what its specifiers add to that. -/
theorem arrive_problems (s : Snapshot) (o : ResolveOptions) (symbols : Bool) (p : Path) (w : Walk) :
    ∃ found xs w' listed, arrive s o symbols p w = (found, xs, w') ∧ w'.visited = p :: w.visited ∧
      w'.problems = w.problems ++ listed ∧ problemsAt s o p = listed ++ xs.filterMap (unresolved? s o p) ∧
      (found = none → xs = []) := by
  cases hread : s.readText p with
  | error cause =>
    refine ⟨none, [], _, [.unreadableFile p cause], arrive_unreadable hread, rfl, rfl, ?_, fun _ => rfl⟩
    simp [problemsAt, hread]
  | ok text =>
    obtain ⟨w', harrive, hv, -, hp⟩ := arrive_readable o symbols w hread
    exact ⟨_, _, w', _, harrive, hv, hp, problemsAt_readable hread, fun h => by cases h⟩

/-! ## One import, and all of a file -/

variable {go : Path → Walk → Option (Option FileId × Walk)} {id : FileId}

/-- An import is a problem of the file it stands in, if it leads nowhere, and else leads
to the problems of the files behind it. -/
theorem follow_lists {x : String} (hgo : ∀ p w found w', go p w = some (found, w') → Lists s o [] w w')
    (h : follow s o go p id w x = some w') : Lists s o (unresolved? s o p x).toList w w' := by
  unfold follow at h
  split at h
  · next hr =>
    cases h
    refine .of_visited rfl ?_
    simp [unresolved?, hr, report]
  · next target hr =>
    have hnone : unresolved? s o p x = none := by simp [unresolved?, hr]
    rw [hnone]
    split at h
    · cases h
      exact .refl _
    · obtain ⟨⟨found, w₁⟩, hvisit, rfl⟩ := Option.map_eq_some_iff.1 h
      exact (hgo _ _ _ _ hvisit).addImport id found

theorem foldlM_follow_lists {xs : List String} (hgo : ∀ p w found w', go p w = some (found, w') → Lists s o [] w w')
    (h : xs.foldlM (follow s o go p id) w = some w') : Lists s o (xs.filterMap (unresolved? s o p)) w w' := by
  induction xs generalizing w with
  | nil =>
    cases h
    exact .refl _
  | cons x xs ih =>
    rw [List.foldlM_cons] at h
    obtain ⟨w₁, hfollow, hrest⟩ := Option.bind_eq_some_iff.1 h
    have hsplit : (x :: xs).filterMap (unresolved? s o p) =
        (unresolved? s o p x).toList ++ xs.filterMap (unresolved? s o p) := by
      cases hx : unresolved? s o p x <;> simp [hx]
    rw [hsplit]
    exact (follow_lists hgo hfollow).trans (ih hrest)

/-! ## A visit -/

/-- A visit lists what is wrong with the files it visits, and nothing else. -/
theorem enter_lists (fuel : Nat) {found : Option FileId} (h : enter s o symbols fuel p w = some (found, w')) :
    Lists s o [] w w' := by
  -- On the fuel, since imports are entered with one less.
  induction fuel generalizing p w found w' with
  | zero => cases h
  | succ fuel ih =>
    unfold enter at h
    split at h
    · cases h
      exact .refl w
    · next hvis =>
      have hnew : p ∉ w.visited := not_mem_visited hvis
      obtain ⟨id?, xs, w₁, listed, harrive, hv, hp, hat, hnone⟩ := arrive_problems s o symbols p w
      rw [harrive] at h
      -- The file itself is visited, and its imports are followed from `w₁` on.
      have hrest : Lists s o (xs.filterMap (unresolved? s o p)) w₁ w' := by
        cases id? with
        | none =>
          cases h
          rw [hnone rfl]
          exact .refl _
        | some id =>
          obtain ⟨w₂, hfold, he⟩ := Option.map_eq_some_iff.1 h
          cases he
          exact foldlM_follow_lists (fun _ _ _ _ h => ih h) hfold
      obtain ⟨new, hv', hn', hp'⟩ := hrest
      refine ⟨new ++ [p], by rw [hv', hv]; simp, fun hn => hn' (by rw [hv]; exact hn.cons hnew), ?_⟩
      rw [List.perm_iff_count] at hp' ⊢
      intro x
      have hcount := hp' x
      simp only [hp, hat, List.flatMap_append, List.flatMap_cons, List.flatMap_nil, List.count_append,
        List.append_nil, List.count_nil] at hcount ⊢
      omega

/-! ## A walk -/

/-- The problems of a walk are those of the files its entry leads to, which it visits once
each: no problem is listed twice, and none is left out. -/
theorem problems_of_reached (s : Snapshot) (o : ResolveOptions) (symbols : Bool) (entry cwd : Path) (r : SourceReader) :
    (∃ found, ∀ fuel, depth s ≤ fuel →
      enter s o symbols fuel (s.normalize entry cwd) (start r) = some (found, from_ s o symbols entry cwd r)) ∧
    ∃ reached : List Path, reached.Nodup ∧ (∀ p, p ∈ reached ↔ Reached s o (s.normalize entry cwd) p) ∧
      (from_ s o symbols entry cwd r).problems.Perm (reached.flatMap (problemsAt s o)) := by
  have he : (s.normalize entry cwd).IsPlain := s.normalize_isPlain entry cwd
  obtain ⟨found, w, hend⟩ :
      ∃ found w, enter s o symbols (depth s) (s.normalize entry cwd) (start r) = some (found, w) :=
    enter_depth_ends he r
  rw [from_eq hend]
  refine ⟨⟨found, fun fuel hle => enter_le hle hend⟩, w.visited, ?_, fun p => ?_, ?_⟩
  · obtain ⟨new, hv, hn, -⟩ := enter_lists (depth s) hend
    exact hn (by simp [start])
  · obtain ⟨hgrows, hv, -⟩ := enter_visits he (depth s) _ _ _ _ .refl (invariant_start _ r) hend
    have hfollowed : ∀ q ∈ w.visited, Followed s o w q := fun q hq => hgrows.followed q hq (by simp [start])
    exact ⟨hgrows.inv.reached p, visited_of_reached hv hfollowed⟩
  · obtain ⟨new, hv, -, hp⟩ := enter_lists (depth s) hend
    simpa [start, hv] using hp

end ImportAtlas.Walk
