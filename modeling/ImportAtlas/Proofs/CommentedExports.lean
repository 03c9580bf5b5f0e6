import ImportAtlas.Proofs.WrittenSymbols
import Mathlib.Data.List.Forall2
/-!
# Comments in exports

A comment that is put between two tokens of an export is one more node in the tree, wherever it
stands. What is looked up by its field or its kind is found as before, so the symbols keep their
kinds, and their names unless the comment stands in one (`symbols_commented`). What `declare` is
followed by is looked up by its place; a comment that stands there is taken for the declaration,
and the symbols are gone.
-/

namespace ImportAtlas.SyntaxTree

namespace Layout

/-! ## A comment more -/

def comment (gap w : List Char) : Layout := .mk gap none ⟨"comment", true, false⟩ [] w

/-- Nodes side by side, and perhaps another white space before the first one. -/
inductive Respaced : List Layout → List Layout → Prop
  | same (ts : List Layout) : Respaced ts ts
  | first (gap : List Char) (t : Layout) (ts : List Layout) : Respaced (t :: ts) (t.inGap gap :: ts)

/-- Nodes side by side without a comment and with it: it stands before one of them, after the last one, or in one
of them. What stands between nodes around it may be another white space. In a node in the field for a name it stands
only if `inName`. -/
inductive CommentedAmong (inName : Bool) : List Layout → List Layout → Prop
  | here {gap gap' w : List Char} {t : Layout} {ts : List Layout} :
      CommentedAmong inName (t :: ts) (comment gap w :: t.inGap gap' :: ts)
  | last {gap w : List Char} : CommentedAmong inName [] [comment gap w]
  | inside {gap rest : List Char} {field : Option String} {label : Label} {parts parts' ts ts' : List Layout}
      (hname : field = some "name" → inName = true) (h : CommentedAmong inName parts parts') (hts : Respaced ts ts') :
      CommentedAmong inName (.mk gap field label parts rest :: ts) (.mk gap field label parts' rest :: ts')
  | later {t : Layout} {ts ts' : List Layout} (h : CommentedAmong inName ts ts') :
      CommentedAmong inName (t :: ts) (t :: ts')

/-- A node without a comment in it and with it. -/
inductive Commented (inName : Bool) : Layout → Layout → Prop
  | mk {gap rest : List Char} {field : Option String} {label : Label} {parts parts' : List Layout}
      (hname : field = some "name" → inName = true) (h : CommentedAmong inName parts parts') :
      Commented inName (.mk gap field label parts rest) (.mk gap field label parts' rest)

variable {inName : Bool} {t t' stmt stmt' : Layout} {ts ts' : List Layout} {d : Dialect} {isDefault : Bool}
  {head head' : List Char}

/-! ## What is found -/

/-- A node with the comment in it or before it, or in or before another one. -/
def Kept (inName : Bool) (t t' : Layout) : Prop := (∃ gap, t' = t.inGap gap) ∨ Commented inName t t'

theorem inGap_self (t : Layout) : t.inGap t.gap = t := by cases t; rfl

theorem Kept.refl (t : Layout) : Kept inName t t := .inl ⟨t.gap, t.inGap_self.symm⟩

theorem Kept.field_eq (h : Kept inName t t') : t'.field = t.field := by
  rcases h with ⟨gap, rfl⟩ | h
  · exact field_inGap gap
  · cases h
    rfl

theorem Kept.label_eq (h : Kept inName t t') : t'.label = t.label := by
  rcases h with ⟨gap, rfl⟩ | h
  · exact label_inGap gap
  · cases h
    rfl

theorem Kept.kind_eq (h : Kept inName t t') : t'.kind = t.kind := by rw [Layout.kind, Layout.kind, h.label_eq]

/-- What nodes are told by besides what is in them. A comment is in no field. -/
structure TellsOutside (q : Layout → Bool) : Prop where
  same : ∀ t t' : Layout, t'.field = t.field → t'.label = t.label → q t' = q t
  comment : ∀ gap w, q (comment gap w) = false

theorem Respaced.kept (h : Respaced ts ts') : List.Forall₂ (Kept inName) ts ts' := by
  have hsame : ∀ ts, List.Forall₂ (Kept inName) ts ts := fun ts => List.forall₂_same.2 fun t _ => .refl t
  cases h with
  | same => exact hsame ts
  | first gap t ts => exact .cons (.inl ⟨gap, rfl⟩) (hsame ts)

theorem filter_kept (h : List.Forall₂ (Kept inName) ts ts') {q : Layout → Bool} (hq : TellsOutside q) :
    List.Forall₂ (Kept inName) (ts.filter q) (ts'.filter q) := by
  induction h with
  | nil => exact .nil
  | cons ht _ ih =>
    rw [List.filter_cons, List.filter_cons, hq.same _ _ ht.field_eq ht.label_eq]
    split
    · exact .cons ht ih
    · exact ih

/-- Nodes that are told by their fields and kinds are the same, but for the comment. -/
theorem CommentedAmong.filter (h : CommentedAmong inName ts ts') {q : Layout → Bool} (hq : TellsOutside q) :
    List.Forall₂ (Kept inName) (ts.filter q) (ts'.filter q) := by
  induction h with
  | @here gap gap' w t ts =>
    rw [List.filter_cons_of_neg (l := t.inGap gap' :: ts) (by simp [hq.comment])]
    exact filter_kept (Respaced.first gap' t ts).kept hq
  | last =>
    rw [List.filter_cons_of_neg (by simp [hq.comment])]
    exact .nil
  | inside hname h hts => exact filter_kept (.cons (.inr (.mk hname h)) hts.kept) hq
  | @later t ts ts' _ ih =>
    rw [List.filter_cons, List.filter_cons]
    split
    · exact .cons (.refl t) ih
    · exact ih

theorem tellsOutside_field (field : String) : TellsOutside (·.field = some field) :=
  ⟨fun t t' hfield _ => by rw [hfield], fun gap w => rfl⟩

/-- In a field there is a node without the comment and with it, or in neither case. -/
theorem CommentedAmong.find?_field (h : CommentedAmong inName ts ts') (field : String) :
    (ts.find? (·.field = some field) = none ∧ ts'.find? (·.field = some field) = none) ∨
      ∃ p p', ts.find? (·.field = some field) = some p ∧ ts'.find? (·.field = some field) = some p' ∧ Kept inName p p' := by
  have hfilter := h.filter (tellsOutside_field field)
  rw [← List.head?_filter, ← List.head?_filter]
  generalize ts.filter _ = us at hfilter
  generalize ts'.filter _ = us' at hfilter
  cases hfilter with
  | nil => exact .inl ⟨rfl, rfl⟩
  | cons h _ => exact .inr ⟨_, _, rfl, rfl, h⟩

theorem Kept.part?_cases (h : Kept inName t t') (field : String) :
    (t.part? field = none ∧ t'.part? field = none) ∨
      ∃ p p', t.part? field = some p ∧ t'.part? field = some p' ∧ Kept inName p p' := by
  rcases h with ⟨gap, rfl⟩ | h
  · rw [part?, part?, parts_inGap]
    cases t.parts.find? (·.field = some field) with
    | none => exact .inl ⟨rfl, rfl⟩
    | some p => exact .inr ⟨p, p, rfl, rfl, .refl p⟩
  · cases h with
    | mk _ h => exact h.find?_field field

/-! ## Names and kinds -/

/-- A symbol keeps its kind, and its name unless the comment stands in a name. -/
structure KeepsSymbol (inName : Bool) (s s' : Symbol) : Prop where
  kind : s'.kind = s.kind
  name : inName = false → s'.name = s.name

theorem KeepsSymbol.refl (s : Symbol) : KeepsSymbol inName s s := ⟨rfl, fun _ => rfl⟩

theorem Kept.written_eq (h : Kept inName t t') (hname : t.field = some "name") (houtside : inName = false) :
    t'.written = t.written := by
  rcases h with ⟨gap, rfl⟩ | h
  · rw [written, written, text_inGap]
  · cases h with
    | mk hinside => exact absurd (hinside hname) (by simp [houtside])

/-- What stands in the field for a name says the same name. -/
theorem Kept.name_cases (h : Kept inName t t') :
    (t.part? "name" = none ∧ t'.part? "name" = none) ∨
      ∃ n n', t.part? "name" = some n ∧ t'.part? "name" = some n' ∧ n'.kind = n.kind ∧
        (inName = false → n'.written = n.written) := by
  rcases h.part?_cases "name" with hnone | ⟨n, n', hn, hn', hkept⟩
  · exact .inl hnone
  · exact .inr ⟨n, n', hn, hn', hkept.kind_eq, hkept.written_eq (mem_of_part? hn).2⟩

theorem Kept.variableSymbol? (h : Kept inName t t') (keyword keyword' : String) :
    Option.Rel (KeepsSymbol inName) (t.variableSymbol? keyword) (t'.variableSymbol? keyword') := by
  rcases h.name_cases with ⟨hn, hn'⟩ | ⟨n, n', hn, hn', hkind, hname⟩
  · rw [Layout.variableSymbol?, Layout.variableSymbol?, hn, hn']
    exact .none
  · rw [Layout.variableSymbol?, Layout.variableSymbol?, hn, hn']
    dsimp only [Option.bind_eq_bind, Option.bind_some]
    rw [hkind]
    split
    · exact .none
    · exact .some ⟨rfl, hname⟩

theorem Kept.declared? (h : Kept inName t t') (stmt stmt' : Layout) :
    Option.Rel (KeepsSymbol inName) (declared? d stmt isDefault head t) (declared? d stmt' isDefault head' t') := by
  rw [Layout.declared?, Layout.declared?, h.kind_eq]
  cases (declarationKinds d).find? (·.1 = t.kind) with
  | none => exact .none
  | some entry =>
    rcases h.name_cases with ⟨hn, hn'⟩ | ⟨n, n', hn, hn', -, hname⟩
    · rw [hn, hn']
      cases isDefault with
      | false => exact .none
      | true => exact .some ⟨rfl, fun _ => rfl⟩
    · rw [hn, hn']
      exact .some ⟨rfl, hname⟩

theorem Kept.valueSymbol (h : Kept inName t t') (stmt stmt' : Layout) :
    KeepsSymbol inName (stmt.valueSymbol head t) (stmt'.valueSymbol head' t') := by
  rw [Layout.valueSymbol, Layout.valueSymbol, h.kind_eq]
  rcases h.name_cases with ⟨hn, hn'⟩ | ⟨n, n', hn, hn', -, hname⟩
  · rw [hn, hn']
    exact ⟨rfl, fun _ => rfl⟩
  · rw [hn, hn']
    exact ⟨rfl, hname⟩

theorem CommentedAmong.variableSymbols (h : CommentedAmong inName ts ts') (keyword keyword' : String) :
    List.Forall₂ (KeepsSymbol inName)
      (((ts.filter (·.isNamed)).filter (·.kind = "variable_declarator")).filterMap (variableSymbol? keyword))
      (((ts'.filter (·.isNamed)).filter (·.kind = "variable_declarator")).filterMap (variableSymbol? keyword')) := by
  have hq : TellsOutside fun t => decide (t.kind = "variable_declarator") && t.isNamed := by
    refine ⟨fun t t' _ hlabel => ?_, fun gap w => rfl⟩
    rw [Layout.kind, Layout.kind, Layout.isNamed, Layout.isNamed, hlabel]
  rw [List.filter_filter, List.filter_filter]
  exact List.rel_filterMap (fun _ _ hkept => hkept.variableSymbol? keyword keyword') (h.filter hq)

theorem forall₂_toList {α : Type} {R : α → α → Prop} {a? b? : Option α} (h : Option.Rel R a? b?) :
    List.Forall₂ R a?.toList b?.toList := by
  cases h with
  | none => exact .nil
  | some h => exact .cons h .nil

mutual

/-- The statement around a declaration and what stands before it in the statement tell neither names nor kinds. -/
theorem declarations_keep (stmt stmt' : Layout) {head head' : List Char} :
    ∀ t : Layout, List.Forall₂ (KeepsSymbol inName) (declarations d stmt isDefault head t)
      (declarations d stmt' isDefault head' t)
  | .mk gap field label parts rest => by
    rw [declarations, declarations]
    split
    · exact firstDeclarations_keep stmt stmt' parts
    split
    · exact List.forall₂_same.2 fun s _ => .refl s
    · exact forall₂_toList ((Kept.refl _).declared? stmt stmt')

theorem firstDeclarations_keep (stmt stmt' : Layout) {head head' : List Char} : ∀ ts : List Layout, List.Forall₂ (KeepsSymbol inName)
      (firstDeclarations d stmt isDefault head ts) (firstDeclarations d stmt' isDefault head' ts)
  | [] => .nil
  | t :: ts => by
    rw [firstDeclarations, firstDeclarations]
    split
    · exact declarations_keep stmt stmt' t
    · exact firstDeclarations_keep stmt stmt' ts

end

/-! ## Declarations -/

/-- What stands before a declaration tells nothing of it. -/
theorem declarations_inGap (gap : List Char) : declarations d stmt isDefault head (t.inGap gap) =
    declarations d stmt isDefault head t := by
  cases t
  rfl

theorem Respaced.firstDeclarations (h : Respaced ts ts') (stmt stmt' : Layout) :
    List.Forall₂ (KeepsSymbol inName) (firstDeclarations d stmt isDefault head ts)
      (firstDeclarations d stmt' isDefault head' ts') := by
  cases h with
  | same => exact firstDeclarations_keep stmt stmt' ts
  | first gap t ts =>
    have hnamed : (t.inGap gap).isNamed = t.isNamed := by rw [isNamed, isNamed, label_inGap]
    rw [Layout.firstDeclarations, Layout.firstDeclarations, hnamed, declarations_inGap]
    split
    · exact declarations_keep stmt stmt' t
    · exact firstDeclarations_keep stmt stmt' ts

/-- The comment stands before what is taken for the declaration after `declare`. -/
inductive HidesAmong : List Layout → List Layout → Prop
  | here {gap gap' w : List Char} {t : Layout} {ts : List Layout} :
      HidesAmong (t :: ts) (comment gap w :: t.inGap gap' :: ts)
  | later {t : Layout} {ts ts' : List Layout} (hnamed : t.isNamed = false) (h : HidesAmong ts ts') :
      HidesAmong (t :: ts) (t :: ts')
  | inside {gap rest : List Char} {field : Option String} {label : Label} {parts parts' ts ts' : List Layout}
      (hkind : label.kind = "ambient_declaration") (hnamed : label.isNamed = true) (h : HidesAmong parts parts') :
      HidesAmong (.mk gap field label parts rest :: ts) (.mk gap field label parts' rest :: ts')

theorem HidesAmong.firstDeclarations_eq (h : HidesAmong ts ts') (stmt : Layout) (head : List Char) :
    firstDeclarations d stmt isDefault head ts' = [] := by
  induction h generalizing head with
  | here => rw [firstDeclarations, if_pos (by rfl), declarations_comment rfl]
  | later hnamed _ ih => rw [firstDeclarations, hnamed, if_neg (by simp), ih]
  | @inside gap rest field label parts parts' ts ts' hkind hnamed _ ih =>
    have hnode : (mk gap field label parts' rest).isNamed = true := hnamed
    rw [firstDeclarations, if_pos hnode, declarations, if_pos hkind, ih]

/-- A declaration with the comment in it, where it is known what the first node after `declare` declares. -/
theorem CommentedAmong.declarations {gap rest : List Char} {field : Option String} {label : Label}
    {parts parts' : List Layout} (hname : field = some "name" → inName = true) (h : CommentedAmong inName parts parts')
    (stmt stmt' : Layout) (hfirst : HidesAmong parts parts' ∨ List.Forall₂ (KeepsSymbol inName) (firstDeclarations d stmt isDefault head parts)
      (firstDeclarations d stmt' isDefault head' parts')) :
    label.kind = "ambient_declaration" ∧ HidesAmong parts parts' ∨
      List.Forall₂ (KeepsSymbol inName) (declarations d stmt isDefault head (.mk gap field label parts rest))
        (declarations d stmt' isDefault head' (.mk gap field label parts' rest)) := by
  rw [Layout.declarations, Layout.declarations]
  by_cases hambient : label.kind = "ambient_declaration"
  · rw [if_pos hambient, if_pos hambient]
    exact hfirst.imp_left (⟨hambient, ·⟩)
  · rw [if_neg hambient, if_neg hambient]
    right
    split
    · exact h.variableSymbols _ _
    · exact forall₂_toList (Kept.declared? (.inr (.mk hname h)) stmt stmt')

/-- The comment hides what is declared, or it is passed over. -/
theorem CommentedAmong.firstDeclarations (h : CommentedAmong inName ts ts') (stmt stmt' : Layout)
    (head head' : List Char) : HidesAmong ts ts' ∨ List.Forall₂ (KeepsSymbol inName)
      (firstDeclarations d stmt isDefault head ts) (firstDeclarations d stmt' isDefault head' ts') := by
  induction h generalizing head head' with
  | here => exact .inl .here
  | last =>
    rw [Layout.firstDeclarations, Layout.firstDeclarations, if_pos (by rfl), declarations_comment rfl]
    exact .inr .nil
  | @inside gap rest field label parts parts' ts ts' hname h hts ih =>
    have hnode : ∀ parts, (mk gap field label parts rest).isNamed = label.isNamed := fun _ => rfl
    rw [Layout.firstDeclarations, Layout.firstDeclarations, hnode, hnode]
    cases hnamed : label.isNamed with
    | true =>
      rw [if_pos rfl, if_pos rfl]
      refine (h.declarations hname stmt stmt' (ih _ _)).imp_left ?_
      rintro ⟨hkind, hhides⟩
      exact .inside hkind hnamed hhides
    | false => exact .inr (hts.firstDeclarations stmt stmt')
  | @later t ts ts' h ih =>
    -- Behind the first named node the comment is not seen, behind a token it may still hide one.
    rw [Layout.firstDeclarations, Layout.firstDeclarations]
    cases hnamed : t.isNamed with
    | true => exact .inr (declarations_keep stmt stmt' t)
    | false => exact (ih _ _).imp_left (.later hnamed)

/-! ## Statements -/

/-- The comment stands between `declare` and what is declared. -/
def HidesDeclared (stmt stmt' : Layout) : Prop :=
  ∃ decl decl', stmt.part? "declaration" = some decl ∧ stmt'.part? "declaration" = some decl' ∧
    decl.kind = "ambient_declaration" ∧ decl'.kind = "ambient_declaration" ∧ HidesAmong decl.parts decl'.parts

theorem Respaced.any_kind (h : Respaced ts ts') (kind : String) : ts'.any (·.kind = kind) = ts.any (·.kind = kind) := by
  cases h with
  | same => rfl
  | first gap t ts => rw [List.any_cons, List.any_cons, Layout.kind, label_inGap, ← Layout.kind]

theorem CommentedAmong.any_kind (h : CommentedAmong inName ts ts') {kind : String} (hkind : kind ≠ "comment") :
    ts'.any (·.kind = kind) = ts.any (·.kind = kind) := by
  have hcomment : ∀ gap w, decide ((comment gap w).kind = kind) = false := fun _ _ => decide_eq_false (Ne.symm hkind)
  induction h with
  | @here gap gap' w t ts => rw [List.any_cons, hcomment, Bool.false_or, (Respaced.first gap' t ts).any_kind]
  | last => rw [List.any_cons, hcomment, Bool.false_or]
  | inside _ _ hts => rw [List.any_cons, List.any_cons, hts.any_kind]; rfl
  | later _ ih => rw [List.any_cons, List.any_cons, ih]

/-- What is declared is kept by a comment in the statement, unless the comment hides it. -/
theorem CommentedAmong.declaredBy (h : CommentedAmong inName stmt.parts stmt'.parts) :
    HidesDeclared stmt stmt' ∨ List.Forall₂ (KeepsSymbol inName) (declaredBy d stmt) (declaredBy d stmt') := by
  have hdefault : stmt'.hasToken "default" = stmt.hasToken "default" := h.any_kind (by decide)
  -- A declaration goes before a value, and both are in fields: a comment is never taken for one.
  rcases h.find?_field "declaration" with ⟨hnone, hnone'⟩ | ⟨decl, decl', hdecl, hdecl', hkept⟩
  · right
    rcases h.find?_field "value" with ⟨hv, hv'⟩ | ⟨value, value', hv, hv', hkept⟩
    · rw [declaredBy_nothing (spot?_eq_none hnone) (spot?_eq_none hv),
        declaredBy_nothing (spot?_eq_none hnone') (spot?_eq_none hv')]
      exact .nil
    · obtain ⟨head, hspot⟩ := exists_spot? hv
      obtain ⟨head', hspot'⟩ := exists_spot? hv'
      rw [declaredBy_value (spot?_eq_none hnone) hspot, declaredBy_value (spot?_eq_none hnone') hspot', hdefault]
      split
      · exact .cons (hkept.valueSymbol stmt stmt') .nil
      · exact .nil
  · obtain ⟨head, hspot⟩ := exists_spot? hdecl
    obtain ⟨head', hspot'⟩ := exists_spot? hdecl'
    rw [declaredBy_declaration hspot, declaredBy_declaration hspot', hdefault]
    rcases hkept with ⟨gap, rfl⟩ | hcommented
    · rw [declarations_inGap]
      exact .inr (declarations_keep stmt stmt' decl)
    · cases hcommented with
      | mk hname hparts =>
        refine (hparts.declarations hname stmt stmt' (hparts.firstDeclarations stmt stmt' _ _)).imp_left ?_
        rintro ⟨hkind, hhides⟩
        exact ⟨_, _, hdecl, hdecl', hkind, hkind, hhides⟩

theorem HidesDeclared.declaredBy_eq (h : HidesDeclared stmt stmt') : Layout.declaredBy d stmt' = [] := by
  obtain ⟨decl, decl', -, hdecl', -, hkind, hhides⟩ := h
  obtain ⟨head, hspot⟩ := exists_spot? hdecl'
  rw [declaredBy_declaration hspot, declarations_ambient hkind, hhides.firstDeclarations_eq]

end Layout

open Layout

/-- A comment in an export changes neither how many symbols it has nor what they are called and of which kind they are,
unless it stands between `declare` and what is declared: then they are gone. Only in a name that is put together of
several words can it change what is called so. -/
theorem symbols_commented {d : Dialect} {t t' : SourceTree} {above below : List Layout} {stmt stmt' : Layout} {inName : Bool}
    (hparts : t.root.parts = above ++ stmt :: below) (hparts' : t'.root.parts = above ++ stmt' :: below)
    (hlabel : stmt.label = ⟨"export_statement", true, false⟩) (h : Commented inName stmt stmt') :
    ∃ ss ss', exports d t.node t.source = exportsAfter d none above ++ (ss ++ exportsAfter d none below) ∧
      exports d t'.node t'.source = exportsAfter d none above ++ (ss' ++ exportsAfter d none below) ∧
      (HidesDeclared stmt stmt' → ss' = []) ∧
      (¬ HidesDeclared stmt stmt' → List.Forall₂ (KeepsSymbol inName) ss ss') := by
  have hlabel' : stmt'.label = ⟨"export_statement", true, false⟩ := by
    cases h
    exact hlabel
  have hamong : CommentedAmong inName stmt.parts stmt'.parts := by
    cases h with
    | mk _ h => exact h
  refine ⟨_, _, by rw [exports_eq, hparts, exports_around hlabel], by rw [exports_eq, hparts', exports_around hlabel'], ?_, ?_⟩
  · intro hhides
    rw [symbolsAfter_export hlabel', hhides.declaredBy_eq, List.map_nil]
  · intro hseen
    rw [symbolsAfter_export hlabel, symbolsAfter_export hlabel', List.forall₂_map_left_iff, List.forall₂_map_right_iff]
    exact (hamong.declaredBy.resolve_left hseen).imp fun _ _ hs => ⟨hs.kind, hs.name⟩

/-- Two variables, with what stands before the second one. -/
def twoVariables (comment? : List Layout) : Layout :=
  .node "" "export_statement" [.token "" "export", .inField "declaration" (.node " " "lexical_declaration" ([
    .inField "kind" (.token "" "const"),
    .node " " "variable_declarator" [.inField "name" (.leaf "" "identifier" "a"),
      .inField "type" (.node "" "type_annotation" [.token "" ":", .leaf " " "type_identifier" "A"]), .token " " "=",
      .inField "value" (.leaf " " "number" "1")],
    .token "" ","] ++ comment? ++ [
    .node " " "variable_declarator" [.inField "name" (.leaf "" "identifier" "b"), .token " " "=",
      .inField "value" (.leaf " " "number" "2")],
    .token "" ";"]))]

def plainTree : SourceTree := .ofParts [twoVariables []] ""

def commentedTree : SourceTree := .ofParts [twoVariables [comment [] "/* c */".toList]] ""

theorem symbols_commented_betweenVariables :
    plainTree.source = "export const a: A = 1, b = 2;" ∧
      commentedTree.source = "export const a: A = 1,/* c */ b = 2;" ∧
      ∃ ss ss', exports .typeScript plainTree.node plainTree.source = ss ∧
        exports .typeScript commentedTree.node commentedTree.source = ss' ∧ ss.map (·.name) = ["a", "b"] ∧
        List.Forall₂ (KeepsSymbol false) ss ss' := by
  refine ⟨by decide +kernel, by decide +kernel, ?_⟩
  have hcommented : Commented false (twoVariables []) (twoVariables [comment [] "/* c */".toList]) :=
    .mk (by decide) (.later (.inside (by decide) (.later (.later (.later (@CommentedAmong.here _ _ [' '] _ _ _)))) (.same [])))
  have hseen : ¬ HidesDeclared (twoVariables []) (twoVariables [comment [] "/* c */".toList]) := by
    rintro ⟨decl, decl', hdecl, -, hkind, -⟩
    cases hdecl
    exact absurd hkind (by decide)
  obtain ⟨ss, ss', hss, hss', -, hkept⟩ :=
    @symbols_commented .typeScript plainTree commentedTree [] [] _ _ _ rfl rfl rfl hcommented
  replace hss : exports .typeScript plainTree.node plainTree.source = ss := hss.trans (List.append_nil ss)
  replace hss' : exports .typeScript commentedTree.node commentedTree.source = ss' := hss'.trans (List.append_nil ss')
  refine ⟨ss, ss', hss, hss', ?_, hkept hseen⟩
  rw [← hss]
  decide +kernel

/-- A variable that is declared elsewhere, with what stands before its own declaration. -/
def declaredVariable (comment? : List Layout) : SourceTree := .ofParts [
  .node "" "export_statement" [.token "" "export", .inField "declaration" (.node " " "ambient_declaration" ([
    .token "" "declare"] ++ comment? ++ [.node " " "lexical_declaration" [.inField "kind" (.token "" "const"),
      .node " " "variable_declarator" [.inField "name" (.leaf "" "identifier" "x"),
        .inField "type" (.node "" "type_annotation" [.token "" ":", .leaf " " "predefined_type" "number"])],
      .token "" ";"]]))]] ""

/-- The variable is no longer found when a comment stands before what is declared. -/
theorem declared_variable_lost :
    let plain := declaredVariable []
    let commented := declaredVariable [comment [' '] "/* c */".toList]
    plain.source = "export declare const x: number;" ∧ commented.source = "export declare /* c */ const x: number;" ∧
      CommentedAmong false plain.root.parts commented.root.parts ∧
      (exports .typeScript plain.node plain.source).map (·.name) = ["x"] ∧
      exports .typeScript commented.node commented.source = [] := by
  have hcommented : CommentedAmong false (declaredVariable []).root.parts
      (declaredVariable [comment [' '] "/* c */".toList]).root.parts :=
    .inside (by decide) (.later (.inside (by decide) (.later (@CommentedAmong.here _ _ [' '] _ _ _)) (.same []))) (.same [])
  exact ⟨by decide +kernel, by decide +kernel, hcommented, by decide +kernel, by decide +kernel⟩

end ImportAtlas.SyntaxTree
