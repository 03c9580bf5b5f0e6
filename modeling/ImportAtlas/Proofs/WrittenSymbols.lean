import ImportAtlas.Proofs.Layouts
import ImportAtlas.SyntaxTree.Exports
import ImportAtlas.SyntaxTree.Modules
/-!
# Files told by their layouts

What a file imports and exports is told by the layout of its tree alone: the bytes and rows
that are looked up in the source give texts of nodes and of what stands before them
(`imports_eq`, `exports_eq`). So what is said of the two lists is said of layouts, where a
change in one place moves nothing else.
-/

namespace ImportAtlas.SyntaxTree

/-- What comes last of things side by side, or what was before all of them. -/
def lastAfter {α : Type} (previous : Option α) (xs : List α) : Option α := xs.getLast?.or previous

theorem withPrevious_append {α : Type} (previous : Option α) (xs ys : List α) :
    withPrevious previous (xs ++ ys) = withPrevious previous xs ++ withPrevious (lastAfter previous xs) ys := by
  induction xs generalizing previous with
  | nil => rfl
  | cons x xs ih =>
    have hlast : lastAfter (some x) xs = lastAfter previous (x :: xs) := by
      cases hxs : xs.getLast? <;> simp [lastAfter, List.getLast?_cons, hxs]
    rw [List.cons_append, withPrevious, withPrevious, ih, hlast, List.cons_append]

namespace Layout

/-- The text of a node, as it is read out of the source. -/
def written (t : Layout) : String := String.ofList t.text

def hasToken (t : Layout) (kind : String) : Bool := t.parts.any (·.kind = kind)

def firstOfKind (t : Layout) (kind : String) : Option Layout := t.namedParts.find? (·.kind = kind)

/-! ## The modules a file names -/

def nameIn? (t : Layout) : Option String :=
  let name := unquote t.written
  if name.isEmpty then none else some name

def requiredSource? (stmt : Layout) : Option Layout :=
  (stmt.firstOfKind "import_require_clause").bind fun clause =>
    (clause.part? "source").or (clause.firstOfKind "string")

def specifier? (stmt : Layout) : Option String :=
  match stmt.kind with
  | "import_statement" => ((stmt.part? "source").or stmt.requiredSource?).bind nameIn?
  | "export_statement" => (stmt.part? "source").bind nameIn?
  | _ => none

/-! ## What a file exports -/

def docAbove (previous : Option Layout) (stmt : Layout) : Option String :=
  previous.bind fun comment =>
    if comment.kind ≠ "comment" || 1 < stmt.gap.count '\n' then none else docOf comment.written

/-- A statement as it is shown for a declaration or value in it with the text `head` before it. -/
def signature (stmt : Layout) (head : List Char) (decl : Layout) (kind : SymbolKind) : String :=
  match decl.spot? "body" with
  | some (inside, _) => onOneLine (String.ofList (head ++ inside)) ++ bodyMark kind
  | none => onOneLine stmt.written

def variableSymbol? (keyword : String) (declarator : Layout) : Option Symbol := do
  let nameNode ← declarator.part? "name"
  if nameNode.kind ≠ "identifier" then none
  else
    let typing := ((declarator.part? "type").map fun t => onOneLine t.written).getD ""
    some ⟨nameNode.written, .value, "export " ++ keyword ++ " " ++ nameNode.written ++ typing, none⟩

def variableSymbols (decl : Layout) : List Symbol :=
  let keyword := (decl.parts.head?.map written).getD "const"
  (decl.namedParts.filter (·.kind = "variable_declarator")).filterMap (variableSymbol? keyword)

def declared? (d : Dialect) (stmt : Layout) (isDefault : Bool) (head : List Char) (decl : Layout) : Option Symbol := do
  let (_, kind) ← (declarationKinds d).find? (·.1 = decl.kind)
  let name ← ((decl.part? "name").map written).or (if isDefault then some defaultName else none)
  some ⟨name, kind, stmt.signature head decl kind, none⟩

mutual

def declarations (d : Dialect) (stmt : Layout) (isDefault : Bool) (head : List Char) : Layout → List Symbol
  | decl@(.mk _ _ label parts _) =>
    if label.kind = "ambient_declaration" then firstDeclarations d stmt isDefault head parts
    else if label.kind = "lexical_declaration" || label.kind = "variable_declaration" then decl.variableSymbols
    else (declared? d stmt isDefault head decl).toList

def firstDeclarations (d : Dialect) (stmt : Layout) (isDefault : Bool) (head : List Char) : List Layout → List Symbol
  | [] => []
  | t :: ts =>
    if t.isNamed then declarations d stmt isDefault (head ++ t.gap) t
    else firstDeclarations d stmt isDefault (head ++ t.gap ++ t.text) ts

end

def valueSymbol (stmt : Layout) (head : List Char) (value : Layout) : Symbol :=
  let kind := valueKind value.kind
  ⟨((value.part? "name").map written).getD defaultName, kind, stmt.signature head value kind, none⟩

def declaredBy (d : Dialect) (stmt : Layout) : List Symbol :=
  let isDefault := stmt.hasToken "default"
  match stmt.spot? "declaration" with
  | some (head, decl) => declarations d stmt isDefault head decl
  | none =>
    if isDefault then ((stmt.spot? "value").map fun (head, value) => stmt.valueSymbol head value).toList else []

def symbolsAfter (d : Dialect) (previous : Option Layout) (stmt : Layout) : List Symbol :=
  if stmt.isNamed && stmt.kind = "export_statement" then
    (declaredBy d stmt).map fun s => { s with doc := docAbove previous stmt }
  else []

/-- What statements side by side export. -/
def exportsAfter (d : Dialect) (previous : Option Layout) (parts : List Layout) : List Symbol :=
  (withPrevious previous parts).flatMap fun (previous, stmt) => symbolsAfter d previous stmt

variable {t stmt decl : Layout} {ts : List Layout} {before head : List Char} {source : String} {d : Dialect}
  {isDefault : Bool} {previous : Option Layout}

theorem exportsAfter_append (us : List Layout) :
    exportsAfter d previous (ts ++ us) = exportsAfter d previous ts ++ exportsAfter d (lastAfter previous ts) us := by
  rw [exportsAfter, withPrevious_append, List.flatMap_append, ← exportsAfter, ← exportsAfter]

theorem exportsAfter_cons : exportsAfter d previous (t :: ts) = symbolsAfter d previous t ++ exportsAfter d (some t) ts := by
  rw [exportsAfter, withPrevious, List.flatMap_cons, ← exportsAfter]

/-- What documents a statement is a comment before it, with no line between. -/
theorem docAbove_eq_some {doc : String} : docAbove previous stmt = some doc ↔
    ∃ comment, previous = some comment ∧ comment.kind = "comment" ∧ stmt.gap.count '\n' ≤ 1 ∧
      docOf comment.written = some doc := by
  cases previous with
  | none => simp [docAbove]
  | some comment => simp [docAbove, and_assoc]

theorem docAbove_other (h : t.kind ≠ "comment") : docAbove (some t) stmt = none := by simp [docAbove, h]

theorem exportsAfter_other (h : t.kind ≠ "comment") : exportsAfter d (some t) ts = exportsAfter d none ts := by
  cases ts with
  | nil => rfl
  | cons stmt ts => rw [exportsAfter_cons, exportsAfter_cons, symbolsAfter, symbolsAfter, docAbove_other h]; rfl

theorem symbolsAfter_export (h : stmt.label = ⟨"export_statement", true, false⟩) :
    symbolsAfter d previous stmt = (declaredBy d stmt).map fun s => { s with doc := docAbove previous stmt } := by
  rw [symbolsAfter, if_pos]
  simp [isNamed, kind, h]

/-- What a file exports that has an export between other statements. -/
theorem exports_around {us : List Layout} (h : stmt.label = ⟨"export_statement", true, false⟩) :
    exportsAfter d none (ts ++ stmt :: us) =
      exportsAfter d none ts ++ (symbolsAfter d (lastAfter none ts) stmt ++ exportsAfter d none us) := by
  have hkind : stmt.kind ≠ "comment" := by
    rw [kind, h]
    decide
  rw [exportsAfter_append, exportsAfter_cons, exportsAfter_other hkind]

/-- A comment declares nothing. -/
theorem declarations_comment (h : t.kind = "comment") : declarations d stmt isDefault head t = [] := by
  have hnone : (declarationKinds d).find? (·.1 = "comment") = none := by cases d <;> decide
  cases t with
  | mk gap own label parts rest =>
    have hlabel : label.kind = "comment" := h
    rw [declarations, if_neg (by rw [hlabel]; decide), if_neg (by rw [hlabel]; decide), declared?, h, hnone]
    rfl

theorem declarations_ambient (h : t.kind = "ambient_declaration") :
    declarations d stmt isDefault head t = firstDeclarations d stmt isDefault head t.parts := by
  cases t
  rw [declarations]
  exact if_pos h

theorem declaredBy_declaration (h : stmt.spot? "declaration" = some (head, decl)) :
    declaredBy d stmt = declarations d stmt (stmt.hasToken "default") head decl := by
  rw [declaredBy, h]

theorem declaredBy_value (hnone : stmt.spot? "declaration" = none) (h : stmt.spot? "value" = some (head, t)) :
    declaredBy d stmt = if stmt.hasToken "default" then [stmt.valueSymbol head t] else [] := by
  rw [declaredBy, hnone, h]
  rfl

theorem declaredBy_nothing (hnone : stmt.spot? "declaration" = none) (h : stmt.spot? "value" = none) :
    declaredBy d stmt = [] := by
  simp [declaredBy, hnone, h]

/-! ## Layouts and nodes tell the same -/

/-- What is found among nodes and among their layouts: the same one, where it stands in the source. -/
inductive Found (source : String) : Option Node → Option Layout → Prop
  | none : Found source none none
  | some {before : List Char} {t : Layout} (h : Sits source before t) : Found source (some (t.place before)) (some t)

namespace Found

variable {α : Type} {n? n'? : Option Node} {t? t'? : Option Layout}

theorem or (h : Found source n? t?) (h' : Found source n'? t'?) : Found source (n?.or n'?) (t?.or t'?) := by
  cases h with
  | none => exact h'
  | some h => exact .some h

theorem bind {f : Node → Option Node} {g : Layout → Option Layout} (h : Found source n? t?)
    (hfg : ∀ before t, Sits source before t → Found source (f (t.place before)) (g t)) :
    Found source (n?.bind f) (t?.bind g) := by
  cases h with
  | none => exact .none
  | some h => exact hfg _ _ h

theorem bind_eq {f : Node → Option α} {g : Layout → Option α} (h : Found source n? t?)
    (hfg : ∀ before t, Sits source before t → f (t.place before) = g t) : n?.bind f = t?.bind g := by
  cases h with
  | none => rfl
  | some h => exact hfg _ _ h

/-- The text of what is found. -/
theorem text? (h : Found source n? t?) : n?.bind (·.text? source) = t?.map written := by
  rw [Option.map_eq_bind]
  exact h.bind_eq fun _ _ => Sits.text?_place

end Found

/-- One of the children of a node is found as it is among their layouts. -/
theorem Sits.find? {p : Node → Bool} {q : Layout → Bool} (h : Sits source before t)
    (hpq : ∀ before u, p (u.place before) = q u) :
    Found source ((t.place before).children.find? p) (t.parts.find? q) := by
  rw [children_place, List.find?_map]
  have hq : t.parts.find? q = ((spots before t.parts).find? (q ·.2)).map (·.2) := by
    conv => lhs; rw [← map_spots before t.parts, List.find?_map]
    rfl
  have hp : (p ∘ fun s : List Char × Layout => s.2.place s.1) = (q ·.2) := funext fun s => hpq s.1 s.2
  rw [hq, hp]
  cases hs : (spots before t.parts).find? (q ·.2) with
  | none => exact .none
  | some s => exact .some (h.of_mem_spots (List.mem_of_find?_eq_some hs))

theorem Sits.childByField (h : Sits source before t) (field : String) :
    Found source ((t.place before).childByField field) (t.part? field) :=
  h.find? fun _ _ => by rw [field_place]

theorem Sits.firstOfKind (h : Sits source before t) (kind : String) :
    Found source ((t.place before).firstOfKind kind) (t.firstOfKind kind) := by
  rw [Node.firstOfKind, Node.namedChildren, List.find?_filter, Layout.firstOfKind, namedParts, List.find?_filter]
  exact h.find? fun _ _ => by rw [isNamed_place, kind_place]

theorem Sits.head? (h : Sits source before t) : Found source (t.place before).children.head? t.parts.head? := by
  have hfirst := h.find? (p := fun _ => true) (q := fun _ => true) fun _ _ => rfl
  rwa [← List.head?_filter, ← List.head?_filter, List.filter_true, List.filter_true] at hfirst

theorem hasToken_place (kind : String) : (t.place before).hasToken kind = t.hasToken kind := by
  rw [Node.hasToken, hasToken, children_place]
  conv => rhs; rw [← map_spots before t.parts]
  rw [List.any_map, List.any_map]
  simp [Function.comp_def]

theorem nameIn?_place (h : Sits source before t) : SyntaxTree.nameIn? (t.place before) source = t.nameIn? := by
  rw [SyntaxTree.nameIn?, h.text?_place, Option.bind_some, nameIn?, written]

theorem Sits.requiredSource? (h : Sits source before t) :
    Found source (SyntaxTree.requiredSource? (t.place before)) t.requiredSource? := by
  rw [SyntaxTree.requiredSource?, Layout.requiredSource?]
  exact (h.firstOfKind _).bind fun _ _ hclause => (hclause.childByField _).or (hclause.firstOfKind _)

theorem specifier?_import (h : t.kind = "import_statement") :
    t.specifier? = ((t.part? "source").or t.requiredSource?).bind nameIn? := by
  simp [specifier?, h]

theorem specifier?_export (h : t.kind = "export_statement") : t.specifier? = (t.part? "source").bind nameIn? := by
  simp [specifier?, h]

theorem specifier?_other (himport : t.kind ≠ "import_statement") (hexport : t.kind ≠ "export_statement") :
    t.specifier? = none := by
  unfold specifier?
  split
  · contradiction
  · contradiction
  · rfl

theorem specifier?_place (h : Sits source before t) : SyntaxTree.specifier? source (t.place before) = t.specifier? := by
  unfold SyntaxTree.specifier?
  split
  · next hkind =>
    rw [specifier?_import (by rw [← hkind, kind_place])]
    exact ((h.childByField _).or h.requiredSource?).bind_eq fun _ _ => nameIn?_place
  · next hkind =>
    rw [specifier?_export (by rw [← hkind, kind_place])]
    exact (h.childByField _).bind_eq fun _ _ => nameIn?_place
  · next himport hexport =>
    rw [kind_place] at himport hexport
    rw [specifier?_other himport hexport]

/-- The imports of a file are told by its layout. -/
theorem imports_eq (t : SourceTree) : imports t.node t.source = t.root.namedParts.filterMap specifier? := by
  rw [imports, Node.namedChildren, List.filterMap_filter, namedParts, List.filterMap_filter]
  refine t.root_sits.filterMap_children fun before p hp => ?_
  rw [isNamed_place, specifier?_place hp]

/-- The text from the start of a node up to a place in it. -/
theorem slice?_head {before head after : List Char} (h : source.toList = before ++ (head ++ after)) :
    Text.slice? source (pointAfter before).byte (pointAfter (before ++ head)).byte = some (String.ofList head) :=
  Text.slice?_of_append h

theorem signature_place (kind : SymbolKind) (hstmt : Sits source before stmt) (hdecl : Sits source (before ++ head) decl) :
    SyntaxTree.signature (stmt.place before) (decl.place (before ++ head)) kind source = stmt.signature head decl kind := by
  rw [SyntaxTree.signature, signature, childByField_place, start_place, stop_place]
  cases hbody : decl.spot? "body" with
  | none =>
    obtain ⟨after, hstmt⟩ := hstmt
    rw [Option.map_none]
    dsimp only
    rw [slice?_head hstmt, Option.getD_some, written]
  | some s =>
    -- Up to the body there are the text before the declaration and that before the body in the declaration.
    obtain ⟨inside, body⟩ := s
    obtain ⟨after, hafter⟩ := hdecl.of_spot? hbody
    have hsource : source.toList = before ++ ((head ++ inside) ++ (body.text ++ after)) := by simpa using hafter
    rw [Option.map_some]
    dsimp only
    rw [start_place, List.append_assoc, slice?_head hsource, Option.getD_some]

theorem variableSymbol?_place (keyword : String) (h : Sits source before t) :
    SyntaxTree.variableSymbol? keyword source (t.place before) = t.variableSymbol? keyword := by
  refine (h.childByField _).bind_eq fun before nameNode hname => ?_
  rw [(h.childByField _).text?, kind_place, hname.text?_place, written, Option.map_map]
  rfl

theorem variableSymbols_place (h : Sits source before decl) :
    SyntaxTree.variableSymbols (decl.place before) source = decl.variableSymbols := by
  rw [SyntaxTree.variableSymbols, variableSymbols, h.head?.text?, Node.namedChildren, namedParts, List.filter_filter,
    List.filter_filter, List.filterMap_filter, List.filterMap_filter]
  refine h.filterMap_children fun before p hp => ?_
  rw [isNamed_place, kind_place, variableSymbol?_place _ hp]

theorem declared?_place (d : Dialect) (isDefault : Bool) (hstmt : Sits source before stmt) (hdecl : Sits source (before ++ head) decl) :
    SyntaxTree.declared? d (stmt.place before) isDefault source (decl.place (before ++ head)) =
      declared? d stmt isDefault head decl := by
  rw [SyntaxTree.declared?, declared?, kind_place, (hdecl.childByField _).text?]
  simp only [signature_place _ hstmt hdecl]

theorem valueSymbol_place (hstmt : Sits source before stmt) (hvalue : Sits source (before ++ head) t) :
    SyntaxTree.valueSymbol (stmt.place before) (t.place (before ++ head)) source = stmt.valueSymbol head t := by
  rw [SyntaxTree.valueSymbol, valueSymbol, kind_place, (hvalue.childByField _).text?, signature_place _ hstmt hvalue]

mutual

theorem declarations_place (hstmt : Sits source before stmt) {head : List Char} :
    ∀ decl : Layout, Sits source (before ++ head) decl →
      SyntaxTree.declarations d (stmt.place before) isDefault source (decl.place (before ++ head)) =
        declarations d stmt isDefault head decl
  | .mk gap field label parts rest, hdecl => by
    have hdeclared := declared?_place d isDefault hstmt hdecl
    have hvariables := variableSymbols_place hdecl
    obtain ⟨after, hafter⟩ := hdecl
    rw [text, List.append_assoc (textOf parts)] at hafter
    rw [place] at hdeclared hvariables ⊢
    rw [SyntaxTree.declarations, declarations, hdeclared, hvariables, firstDeclarations_place hstmt parts hafter]

theorem firstDeclarations_place (hstmt : Sits source before stmt) {head after : List Char} :
    ∀ ts : List Layout, source.toList = before ++ head ++ (textOf ts ++ after) →
      SyntaxTree.firstDeclarations d (stmt.place before) isDefault source (placeAll (before ++ head) ts) =
        firstDeclarations d stmt isDefault head ts
  | [], _ => by rw [placeAll, SyntaxTree.firstDeclarations, firstDeclarations]
  | t :: ts, h => by
    have ht : Sits source (before ++ (head ++ t.gap)) t := ⟨textOf ts ++ after, by simpa [textOf] using h⟩
    have hts : source.toList = before ++ (head ++ t.gap ++ t.text) ++ (textOf ts ++ after) := by simpa [textOf] using h
    rw [placeAll, SyntaxTree.firstDeclarations, firstDeclarations, isNamed_place, List.append_assoc before,
      declarations_place hstmt t ht, List.append_assoc before, firstDeclarations_place hstmt ts hts]

end

theorem declaredBy_place (h : Sits source before stmt) :
    SyntaxTree.declaredBy d (stmt.place before) source = declaredBy d stmt := by
  rw [SyntaxTree.declaredBy, declaredBy, hasToken_place, childByField_place, childByField_place]
  cases hdecl : stmt.spot? "declaration" with
  | some s => exact declarations_place h _ (h.of_spot? hdecl)
  | none =>
    rw [Option.map_none]
    dsimp only
    cases hvalue : stmt.spot? "value" with
    | none => rfl
    | some s => rw [Option.map_some, Option.map_some, Option.map_some, valueSymbol_place h (h.of_spot? hvalue)]

/-- The node that ends where a text does, and its layout. -/
inductive EndsAt (source : String) : List Char → Option Node → Option Layout → Prop
  | none {before : List Char} : EndsAt source before none none
  | some {before : List Char} {t : Layout} (h : Sits source before t) :
      EndsAt source (before ++ t.text) (some (t.place before)) (some t)

variable {n? : Option Node} {t? : Option Layout}

theorem docAbove_place (h : EndsAt source before n? t?) :
    SyntaxTree.docAbove n? (stmt.place (before ++ stmt.gap)) source = docAbove t? stmt := by
  cases h with
  | none => rfl
  | @some before comment hcomment =>
    have hrow : (pointAfter (before ++ comment.text)).row + 1 < (pointAfter (before ++ comment.text ++ stmt.gap)).row ↔
        1 < stmt.gap.count '\n' := by
      simp only [pointAfter, List.count_append]
      omega
    rw [SyntaxTree.docAbove, docAbove, Option.bind_some, Option.bind_some, kind_place, stop_place, start_place,
      hcomment.text?_place, Option.bind_some, written]
    simp only [hrow]

theorem symbolsAfter_place (hprevious : EndsAt source before n? t?) (h : Sits source (before ++ stmt.gap) stmt) :
    SyntaxTree.symbolsAfter d source n? (stmt.place (before ++ stmt.gap)) = symbolsAfter d t? stmt := by
  rw [SyntaxTree.symbolsAfter, symbolsAfter, isNamed_place, kind_place, declaredBy_place h, docAbove_place hprevious]

theorem exportsAfter_place {after : List Char} (hprevious : EndsAt source before n? t?)
    (h : source.toList = before ++ (textOf ts ++ after)) :
    ((withPrevious n? (placeAll before ts)).flatMap fun (previous, stmt) => SyntaxTree.symbolsAfter d source previous stmt) =
      exportsAfter d t? ts := by
  -- Each statement is the one before for the next, and ends where the text before the next one begins.
  induction ts generalizing before n? t? with
  | nil => rfl
  | cons t ts ih =>
    have ht : Sits source (before ++ t.gap) t := ⟨textOf ts ++ after, by simpa [textOf] using h⟩
    have hts : source.toList = before ++ t.gap ++ t.text ++ (textOf ts ++ after) := by simpa [textOf] using h
    rw [placeAll, withPrevious, List.flatMap_cons, ih (.some ht) hts, exportsAfter_cons,
      ← symbolsAfter_place hprevious ht]

/-- The exports of a file are told by its layout. -/
theorem exports_eq (t : SourceTree) : exports d t.node t.source = exportsAfter d none t.root.parts := by
  obtain ⟨after, h⟩ := t.root_sits
  rw [text_eq, List.append_assoc] at h
  rw [exports, SourceTree.node, children_place, ← placeAll_eq]
  exact exportsAfter_place .none h

end Layout

end ImportAtlas.SyntaxTree
