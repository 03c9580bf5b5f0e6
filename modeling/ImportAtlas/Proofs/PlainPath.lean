import ImportAtlas.Snapshot
/-!
# Paths in plain form

`clean` writes a path without idle parts, and what it writes it writes in one way
only: two plain paths with the same components are the same text (`IsPlain.eq`).
`normalize` always gives a plain path, so among normalized paths the comparison by
components that a walk makes is plain equality.

Joining a relative path adds its steps to the components, however the two are written
(`components_join`).
-/

namespace ImportAtlas

namespace Path

/-- A text that can stand between two slashes and is no idle part and no `..`. -/
structure IsName (n : String) : Prop where
  slash : '/' ∉ n.toList
  empty : n ≠ ""
  dot : n ≠ "."
  dots : n ≠ ".."

namespace Component

/-- The part of a path's text that a component is written as. -/
def part : Component → List Char
  | root => []
  | current => ['.']
  | parent => ['.', '.']
  | name n => n.toList

/-- A component that may stand anywhere in a path. -/
def IsStep : Component → Prop
  | parent => True
  | name n => IsName n
  | _ => False

end Component

variable {c : Component} {cs : List Component}

/-! ## Steps and their parts -/

theorem slash_part (h : c.IsStep) : '/' ∉ c.part := by
  cases c with
  | name n => exact h.slash
  | _ => simp_all [Component.IsStep, Component.part]

theorem part_busy (h : c.IsStep) : isIdle c.part = false := by
  cases c with
  | name n =>
    simp only [isIdle, Component.part, Bool.or_eq_false_iff, beq_eq_false_iff_ne]
    refine ⟨fun e => h.empty ?_, fun e => h.dot ?_⟩
    · rw [← String.toList_inj, e]; rfl
    · rw [← String.toList_inj, e]; rfl
  | _ => simp_all [Component.IsStep, Component.part, isIdle]

theorem ofPart_part (h : c.IsStep) : Component.ofPart c.part = c := by
  cases c with
  | name n =>
    have hn : n.toList ≠ ['.', '.'] := fun e => h.dots (by rw [← String.toList_inj, e]; rfl)
    rw [Component.ofPart, Component.part, if_neg hn, String.ofList_toList]
  | _ => simp_all [Component.IsStep, Component.part, Component.ofPart]

theorem isStep_ofPart {p : List Char} (hs : '/' ∉ p) (hb : isIdle p = false) : (Component.ofPart p).IsStep := by
  unfold Component.ofPart
  split
  · trivial
  · next hd =>
    simp only [isIdle, Bool.or_eq_false_iff, beq_eq_false_iff_ne] at hb
    refine ⟨by simpa using hs, fun e => hb.1 ?_, fun e => hb.2 ?_, fun e => hd ?_⟩
    all_goals simpa using congrArg String.toList e

/-- The steps of a path, in order. -/
def steps (p : Path) : List Component := (p.parts.filter (!isIdle ·)).map Component.ofPart

theorem isStep_of_mem_steps {p : Path} (h : c ∈ p.steps) : c.IsStep := by
  obtain ⟨part, hp, rfl⟩ := List.mem_map.1 h
  obtain ⟨hm, hb⟩ := List.mem_filter.1 hp
  exact isStep_ofPart (Text.not_mem_of_mem_splitOn hm) (by simpa using hb)

theorem filter_parts (h : ∀ c ∈ cs, c.IsStep) :
    (cs.map Component.part).filter (!isIdle ·) = cs.map Component.part := by
  rw [List.filter_eq_self]
  intro part hp
  obtain ⟨c, hc, rfl⟩ := List.mem_map.1 hp
  rw [part_busy (h c hc)]; rfl

theorem map_ofPart_part (h : ∀ c ∈ cs, c.IsStep) : (cs.map Component.part).map Component.ofPart = cs := by
  rw [List.map_map]
  exact (List.map_congr_left fun c hc => ofPart_part (h c hc)).trans (List.map_id _)

/-! ## Writing components down -/

/-- The text of steps with slashes between them. -/
def textOf (cs : List Component) : List Char := Text.joinWith '/' (cs.map Component.part)

theorem splitOn_textOf (hne : cs ≠ []) (h : ∀ c ∈ cs, c.IsStep) :
    Text.splitOn '/' (textOf cs) = cs.map Component.part := by
  refine Text.splitOn_joinWith '/' (by simpa using hne) fun part hp => ?_
  obtain ⟨c, hc, rfl⟩ := List.mem_map.1 hp
  exact slash_part (h c hc)

/-- Joining a step to a text that does not end in a slash. -/
theorem join_step {t : List Char} {n : String} (ht : t ≠ []) (hl : t.getLast? ≠ some '/') (hn : '/' ∉ n.toList) :
    (⟨String.ofList t⟩ : Path).join n = ⟨String.ofList (t ++ '/' :: n.toList)⟩ := by
  have habs : ¬ (Path.mk n).isAbsolute = true := by
    intro h
    simp only [isAbsolute, beq_iff_eq] at h
    exact hn (List.mem_of_mem_head? h)
  rw [join, if_neg habs]
  simp only [String.toList_ofList]
  split
  · next h => exact absurd (List.getLast?_eq_none_iff.1 h) ht
  · next h => exact absurd h hl
  · simp [← String.toList_inj]

/-- What `ofComponents` does with one component. -/
def attach (p : Path) : Component → Path
  | .root => ⟨"/"⟩
  | .current => p.join "."
  | .parent => p.join ".."
  | .name n => p.join n

theorem ofComponents_eq (cs : List Component) : ofComponents cs = cs.foldl attach ⟨""⟩ := rfl

theorem attach_step (h : c.IsStep) (p : Path) : p.attach c = p.join (String.ofList c.part) := by
  cases c with
  | parent => rfl
  | name n => simp [attach, Component.part]
  | root => exact h.elim
  | current => exact h.elim

theorem part_ne_nil (h : c.IsStep) : c.part ≠ [] := by
  intro e
  have := part_busy h
  simp [isIdle, e] at this

/-- A text that ends in a step does not end in a slash. -/
theorem getLast?_append_part (h : c.IsStep) (t : List Char) : (t ++ c.part).getLast? ≠ some '/' := by
  intro e
  rw [List.getLast?_append] at e
  cases hl : c.part.getLast? with
  | none => exact part_ne_nil h (List.getLast?_eq_none_iff.1 hl)
  | some x =>
    rw [hl, Option.some_or, Option.some.injEq] at e
    exact slash_part h (e ▸ List.mem_of_getLast? hl)

theorem foldl_attach {t : List Char} (ht : t ≠ []) (hl : t.getLast? ≠ some '/') (h : ∀ c ∈ cs, c.IsStep) :
    cs.foldl attach ⟨String.ofList t⟩ = ⟨String.ofList (t ++ cs.flatMap ('/' :: ·.part))⟩ := by
  induction cs generalizing t with
  | nil => simp
  | cons c cs ih =>
    have hc := h c List.mem_cons_self
    have hlast : (t ++ '/' :: c.part).getLast? ≠ some '/' := by
      simpa using getLast?_append_part hc (t ++ ['/'])
    rw [List.foldl_cons, attach_step hc, join_step ht hl (by simpa using slash_part hc), String.toList_ofList,
      ih (by simp) hlast fun d hd => h d (List.mem_cons_of_mem _ hd)]
    simp

/-- What steps are written as after the empty path or the root directory. -/
theorem foldl_attach_base {b : String} (hb : b = "" ∨ b = "/") (hne : cs ≠ []) (h : ∀ c ∈ cs, c.IsStep) :
    cs.foldl attach ⟨b⟩ = ⟨String.ofList (b.toList ++ textOf cs)⟩ := by
  cases cs with
  | nil => exact absurd rfl hne
  | cons c cs =>
    have hc := h c List.mem_cons_self
    -- The first step is joined without a slash; from there on there is one before each.
    have hjoin : (⟨b⟩ : Path).attach c = ⟨String.ofList (b.toList ++ c.part)⟩ := by
      have habs : ¬ (Path.mk (String.ofList c.part)).isAbsolute = true := by
        intro e
        simp only [isAbsolute, beq_iff_eq, String.toList_ofList] at e
        exact slash_part hc (List.mem_of_mem_head? e)
      rw [attach_step hc, join, if_neg habs]
      rcases hb with rfl | rfl <;> simp
    have hne : b.toList ++ c.part ≠ [] := by simp [part_ne_nil hc]
    have hrest : ∀ d ∈ cs, d.IsStep := fun d hd => h d (List.mem_cons_of_mem _ hd)
    rw [List.foldl_cons, hjoin, foldl_attach hne (getLast?_append_part hc _) hrest,
      textOf, List.map_cons, Text.joinWith_eq_flatMap, List.append_assoc, List.flatMap_map]

theorem ofComponents_steps (hne : cs ≠ []) (h : ∀ c ∈ cs, c.IsStep) :
    ofComponents cs = ⟨String.ofList (textOf cs)⟩ := by
  rw [ofComponents_eq, foldl_attach_base (.inl rfl) hne h]; rfl

theorem ofComponents_root (h : ∀ c ∈ cs, c.IsStep) :
    ofComponents (.root :: cs) = ⟨String.ofList ('/' :: textOf cs)⟩ := by
  rw [ofComponents_eq, List.foldl_cons]
  by_cases hne : cs = []
  · subst hne; rfl
  · exact foldl_attach_base (.inr rfl) hne h

/-! ## Reading components back -/

theorem head?_textOf (hne : cs ≠ []) (h : ∀ c ∈ cs, c.IsStep) : (textOf cs).head? ≠ some '/' := by
  cases cs with
  | nil => exact absurd rfl hne
  | cons c cs =>
    have hc := h c List.mem_cons_self
    rw [textOf, List.map_cons, Text.joinWith_eq_flatMap]
    cases hp : c.part with
    | nil => exact absurd hp (part_ne_nil hc)
    | cons x rest =>
      intro e
      rw [List.cons_append, List.head?_cons, Option.some.injEq] at e
      exact slash_part hc (by rw [hp, e]; exact List.mem_cons_self)

theorem components_steps (hne : cs ≠ []) (h : ∀ c ∈ cs, c.IsStep) : (ofComponents cs).components = cs := by
  have hparts : (ofComponents cs).parts = cs.map Component.part := by
    rw [ofComponents_steps hne h, parts, String.toList_ofList, splitOn_textOf hne h]
  have habs : (ofComponents cs).isAbsolute = false := by
    rw [ofComponents_steps hne h, isAbsolute, String.toList_ofList, beq_eq_false_iff_ne]
    exact head?_textOf hne h
  have hdot : (ofComponents cs).opensWithDot = false := by
    rw [opensWithDot, hparts, beq_eq_false_iff_ne]
    intro e
    obtain ⟨c, hc, hp⟩ := List.mem_map.1 (List.mem_of_mem_head? e)
    have := part_busy (h c hc)
    simp [hp, isIdle] at this
  simp only [components, habs, hdot, hparts, filter_parts h, map_ofPart_part h, Bool.false_eq_true, if_false]

theorem components_root (h : ∀ c ∈ cs, c.IsStep) : (ofComponents (.root :: cs)).components = .root :: cs := by
  have habs : (ofComponents (.root :: cs)).isAbsolute = true := by simp [ofComponents_root h, isAbsolute]
  have hsteps : (ofComponents (.root :: cs)).steps = cs := by
    rw [steps, ofComponents_root h, parts, String.toList_ofList, Text.splitOn, if_pos rfl]
    by_cases hne : cs = []
    · subst hne; rfl
    · rw [splitOn_textOf hne h, List.filter_cons_of_neg (by simp [isIdle]), filter_parts h, map_ofPart_part h]
  rw [components, if_pos habs]
  exact congrArg (Component.root :: ·) hsteps

/-! ## Cleaning -/

/-- Components as `cleanStep` keeps them, last first: names after the root, or
names after parents. -/
inductive Kept : List Component → Prop
  | none : Kept []
  | root : Kept [.root]
  | name {n : String} {above : List Component} : IsName n → Kept above → Kept (.name n :: above)
  | parent {above : List Component} : (∀ c ∈ above, c = .parent) → Kept above → Kept (.parent :: above)

theorem kept_cleanStep {kept : List Component} (hk : Kept kept) (h : c.IsStep ∨ c = .current) :
    Kept (cleanStep kept c) := by
  cases c with
  | root => simp [Component.IsStep] at h
  | current => exact hk
  | name n => exact .name (by simpa [Component.IsStep] using h) hk
  | parent =>
    cases hk with
    | none => exact .parent (by simp) .none
    | root => exact .root
    | name _ ha => exact ha
    | parent hp ha => exact .parent (by simpa using hp) (.parent hp ha)

/-- What is kept of a path is kept again. -/
theorem foldl_cleanStep_reverse {kept : List Component} (hk : Kept kept) :
    kept.reverse.foldl cleanStep [] = kept := by
  induction hk with
  | none => rfl
  | root => rfl
  | name _ _ ih => rw [List.reverse_cons, List.foldl_append, ih]; rfl
  | @parent above hp _ ih =>
    rw [List.reverse_cons, List.foldl_append, ih]
    cases above with
    | nil => rfl
    | cons c above => rw [hp c List.mem_cons_self]; rfl

theorem kept_shape {kept : List Component} (hk : Kept kept) :
    kept = [] ∨ ∃ cs, (∀ c ∈ cs, c.IsStep) ∧ (kept.reverse = .root :: cs ∨ cs ≠ [] ∧ kept.reverse = cs) := by
  induction hk with
  | none => exact .inl rfl
  | root => exact .inr ⟨[], by simp, .inl rfl⟩
  | @name n above hn _ ih =>
    refine .inr ?_
    rcases ih with rfl | ⟨cs, hcs, h⟩
    · exact ⟨[.name n], by simpa [Component.IsStep] using hn, .inr (by simp)⟩
    · refine ⟨cs ++ [.name n], ?_, ?_⟩
      · intro c hc
        rcases List.mem_append.1 hc with hc | hc
        · exact hcs c hc
        · rw [List.mem_singleton.1 hc]; exact hn
      · rcases h with h | ⟨-, h⟩ <;> simp [h]
  | @parent above hp _ _ =>
    refine .inr ⟨(Component.parent :: above).reverse, fun c hc => ?_, .inr ⟨by simp, rfl⟩⟩
    rcases List.mem_cons.1 (List.mem_reverse.1 hc) with rfl | hc
    · trivial
    · rw [hp c hc]; trivial

/-- What `clean` keeps of a path, last first. -/
def kept (p : Path) : List Component := p.components.foldl cleanStep []

theorem kept_kept (p : Path) : Kept p.kept := by
  have hfold : ∀ (cs : List Component) (k : List Component), Kept k → (∀ c ∈ cs, c.IsStep ∨ c = .current) →
      Kept (cs.foldl cleanStep k) := by
    intro cs
    induction cs with
    | nil => exact fun _ hk _ => hk
    | cons c cs ih =>
      intro k hk h
      exact ih _ (kept_cleanStep hk (h c List.mem_cons_self)) fun d hd => h d (List.mem_cons_of_mem _ hd)
  have hsteps : ∀ c ∈ p.steps, c.IsStep ∨ c = .current := fun c hc => .inl (isStep_of_mem_steps hc)
  rw [kept, components]
  split
  · exact hfold p.steps [.root] .root hsteps
  · split
    · exact hfold p.steps [] .none hsteps
    · exact hfold p.steps [] .none hsteps

theorem clean_eq (p : Path) : p.clean = if p.kept = [] then ⟨"."⟩ else ofComponents p.kept.reverse := by
  unfold clean
  split
  · next h => exact (if_pos (List.reverse_eq_nil_iff.1 h)).symm
  · next h => exact (if_neg fun e => h (congrArg List.reverse e)).symm

/-- Cleaning keeps of a clean path what it kept of the path it comes from. -/
theorem kept_clean (p : Path) : p.clean.kept = p.kept := by
  rw [clean_eq]
  split
  · next h => rw [h]; decide
  · next h =>
    obtain he | ⟨cs, hcs, hr⟩ := kept_shape (kept_kept p)
    · exact absurd he h
    · have hcomp : (ofComponents p.kept.reverse).components = p.kept.reverse := by
        rcases hr with hr | ⟨hne, hr⟩
        · rw [hr, components_root hcs]
        · rw [hr, components_steps hne hcs]
      rw [kept, hcomp, foldl_cleanStep_reverse (kept_kept p)]

/-! ## Plain paths -/

/-- Written as `clean` writes it. -/
def IsPlain (p : Path) : Prop := p.clean = p

instance (p : Path) : Decidable p.IsPlain := inferInstanceAs (Decidable (p.clean = p))

theorem clean_isPlain (p : Path) : p.clean.IsPlain := by rw [IsPlain, clean_eq, kept_clean, ← clean_eq]

/-- A plain path is told by its components. -/
theorem IsPlain.eq {p q : Path} (hp : p.IsPlain) (hq : q.IsPlain) (h : p.same q = true) : p = q := by
  have hk : p.kept = q.kept := by rw [kept, kept, eq_of_beq h]
  calc p = p.clean := hp.symm
    _ = q.clean := by rw [clean_eq, clean_eq, hk]
    _ = q := hq

theorem same_refl (p : Path) : p.same p = true := beq_self_eq_true _

theorem isAbsolute_iff {p : Path} : p.isAbsolute = true ↔ ∃ cs, p.text.toList = '/' :: cs := by
  rw [isAbsolute, beq_iff_eq, List.head?_eq_some_iff]

variable {p : Path} {q : String}

/-! ## The components of a path -/

theorem components_eq (p : Path) : p.components =
    if p.isAbsolute then .root :: p.steps else if p.opensWithDot then .current :: p.steps else p.steps := rfl

theorem components_of_isAbsolute (habs : p.isAbsolute = true) : p.components = .root :: p.steps := by
  rw [components_eq, if_pos habs]

/-- A component of a path has no slash. -/
theorem slash_of_name_mem_components {n : String} (h : .name n ∈ p.components) : '/' ∉ n.toList := by
  have hsteps : .name n ∈ p.steps := by
    rw [components_eq] at h
    split at h
    · simpa using h
    · split at h
      · simpa using h
      · exact h
  exact (isStep_of_mem_steps hsteps).slash

/-- Without `..` the steps are the parts that count. -/
theorem steps_eq_map_name (h : .parent ∉ p.steps) :
    p.steps = ((p.parts.filter (!isIdle ·)).map String.ofList).map .name := by
  rw [List.map_map]
  refine List.map_congr_left fun part hpart => ?_
  have hstep : Component.ofPart part ∈ p.steps := List.mem_map.2 ⟨part, hpart, rfl⟩
  unfold Component.ofPart at hstep ⊢
  split
  · next hdots =>
    rw [if_pos hdots] at hstep
    exact absurd hstep h
  · rfl

/-! ## Joined paths -/

/-- What is joined to a path adds its parts, but for an empty part at the end of the path. -/
theorem parts_join (hp : p.text ≠ "") (hq : (Path.mk q).isAbsolute = false) :
    ∃ ps, ps ≠ [] ∧ (p.parts = ps ∨ p.parts = ps ++ [[]]) ∧ (p.join q).parts = ps ++ (Path.mk q).parts := by
  unfold join parts
  rw [if_neg (by simp [hq])]
  split
  · next hnone =>
    rw [List.getLast?_eq_none_iff, String.toList_eq_nil_iff] at hnone
    exact absurd hnone hp
  · next hslash =>
    obtain ⟨cs, hcs⟩ := List.getLast?_eq_some_iff.1 hslash
    refine ⟨Text.splitOn '/' cs, Text.splitOn_ne_nil _ _, .inr ?_, ?_⟩
    · rw [hcs, Text.splitOn_append_sep]
      rfl
    · rw [String.toList_append, hcs, List.append_assoc, List.singleton_append, Text.splitOn_append_sep]
  · refine ⟨_, Text.splitOn_ne_nil _ _, .inl rfl, ?_⟩
    rw [String.toList_append, String.toList_append, List.append_assoc]
    exact Text.splitOn_append_sep '/' _ _

theorem isAbsolute_join (hp : p.text ≠ "") (hq : (Path.mk q).isAbsolute = false) :
    (p.join q).isAbsolute = p.isAbsolute := by
  obtain ⟨c, cs, hcs⟩ : ∃ c cs, p.text.toList = c :: cs := List.exists_cons_of_ne_nil (by simpa using hp)
  unfold join
  rw [if_neg (by simp [hq])]
  split <;> simp [isAbsolute, hcs]

/-- The components of a joined path are those of the path and the steps of what is joined. -/
theorem components_join (hp : p.text ≠ "") (hq : (Path.mk q).isAbsolute = false) :
    (p.join q).components = p.components ++ (Path.mk q).steps := by
  obtain ⟨ps, hne, hparts, hjoin⟩ := parts_join hp hq
  have hsteps : (p.join q).steps = p.steps ++ (Path.mk q).steps := by
    unfold steps
    rw [hjoin]
    rcases hparts with hparts | hparts <;> simp [hparts, isIdle]
  have hdot : (p.join q).opensWithDot = p.opensWithDot := by
    obtain ⟨first, more, rfl⟩ := List.exists_cons_of_ne_nil hne
    unfold opensWithDot
    rw [hjoin]
    rcases hparts with hparts | hparts <;> rw [hparts] <;> rfl
  rw [components_eq, components_eq, isAbsolute_join hp hq, hdot, hsteps]
  split
  · rfl
  · split <;> rfl

end Path

namespace Location

variable {at_ : Location}

theorem isStep_name (h : ∀ n ∈ at_, Path.IsName n) : ∀ c ∈ at_.map Path.Component.name, c.IsStep := by
  intro c hc
  obtain ⟨n, hn, rfl⟩ := List.mem_map.1 hc
  exact h n hn

/-- The path of a location, put together from components. -/
theorem path_eq_ofComponents (h : ∀ n ∈ at_, Path.IsName n) :
    Location.path at_ = Path.ofComponents (.root :: at_.map .name) := by
  have htext : ("/" ++ "/".intercalate at_).toList = '/' :: Path.textOf (at_.map .name) := by
    rw [String.toList_append, String.toList_intercalate, Path.textOf, Text.joinWith_eq_intercalate, List.map_map]
    rfl
  rw [Path.ofComponents_root (isStep_name h), Location.path, ← htext, String.ofList_toList]

theorem components_path (h : ∀ n ∈ at_, Path.IsName n) : (Location.path at_).components = .root :: at_.map .name := by
  rw [path_eq_ofComponents h, Path.components_root (isStep_name h)]

/-- The path of a location is plain. -/
theorem path_isPlain (h : ∀ n ∈ at_, Path.IsName n) : (Location.path at_).IsPlain := by
  have hfold : ∀ (ns : Location) (k : List Path.Component),
      (ns.map Path.Component.name).foldl Path.cleanStep k = (ns.map Path.Component.name).reverse ++ k := by
    intro ns
    induction ns with
    | nil => exact fun _ => rfl
    | cons n ns ih =>
      intro k
      rw [List.map_cons, List.foldl_cons, ih, List.reverse_cons, List.append_assoc]
      rfl
  have hkept : (Location.path at_).kept = (at_.map Path.Component.name).reverse ++ [.root] := by
    rw [Path.kept, components_path h, List.foldl_cons]
    exact hfold at_ [.root]
  rw [Path.IsPlain, Path.clean_eq, hkept, if_neg (by simp), List.reverse_append, List.reverse_reverse,
    path_eq_ofComponents h]
  rfl

end Location

namespace Path

variable {p : Path} {at_ : Location}

/-- From the root on, cleaning keeps names: `..` takes one back or stays at the root. -/
theorem foldl_cleanStep_root {cs : List Component} (h : ∀ c ∈ cs, c.IsStep) (hat : ∀ n ∈ at_, IsName n) :
    ∃ above : Location, (∀ n ∈ above, IsName n) ∧
      cs.foldl cleanStep (Component.root :: at_.map .name).reverse = (Component.root :: above.map .name).reverse := by
  -- What is kept is the root and then names, which each component leaves so.
  induction cs generalizing at_ with
  | nil => exact ⟨at_, hat, rfl⟩
  | cons c cs ih =>
    have hc := h c List.mem_cons_self
    have hcs : ∀ d ∈ cs, d.IsStep := fun d hd => h d (List.mem_cons_of_mem _ hd)
    rw [List.foldl_cons]
    cases c with
    | root => exact hc.elim
    | current => exact hc.elim
    | name n =>
      have hall : ∀ m ∈ at_ ++ [n], IsName m := List.forall_mem_append.2 ⟨hat, List.forall_mem_singleton.2 hc⟩
      have hstep : cleanStep (Component.root :: at_.map .name).reverse (.name n) =
          (Component.root :: (at_ ++ [n]).map .name).reverse := by simp [cleanStep]
      rw [hstep]
      exact ih hcs hall
    | parent =>
      rcases at_.eq_nil_or_concat with rfl | ⟨above, n, hlast⟩
      · exact ih hcs hat
      · rw [List.concat_eq_append] at hlast
        subst hlast
        have hstep : cleanStep (Component.root :: (above ++ [n]).map .name).reverse .parent =
            (Component.root :: above.map .name).reverse := by simp [cleanStep]
        rw [hstep]
        exact ih hcs (List.forall_mem_append.1 hat).1

/-- A clean absolute path is the path of a location. -/
theorem clean_of_isAbsolute (h : p.isAbsolute = true) :
    ∃ at_ : Location, (∀ n ∈ at_, IsName n) ∧ p.clean = Location.path at_ := by
  have hnone : ∀ n ∈ ([] : Location), IsName n := List.forall_mem_nil _
  obtain ⟨at_, hat, hfold⟩ := foldl_cleanStep_root (fun c hc => isStep_of_mem_steps (p := p) hc) hnone
  have hkept : p.kept = (Component.root :: at_.map .name).reverse := by
    rw [kept, components, if_pos h]
    exact hfold
  refine ⟨at_, hat, ?_⟩
  rw [clean_eq, hkept, if_neg (by simp), List.reverse_reverse, Location.path_eq_ofComponents hat]

/-- A plain absolute path is the path of a location. -/
theorem IsPlain.location (hp : p.IsPlain) (h : p.isAbsolute = true) :
    ∃ at_ : Location, (∀ n ∈ at_, IsName n) ∧ p = Location.path at_ := by
  obtain ⟨at_, hat, hclean⟩ := clean_of_isAbsolute h
  exact ⟨at_, hat, hp.symm.trans hclean⟩

end Path

end ImportAtlas
