import ImportAtlas.Proofs.StatementShapes
/-!
# What an export by default is called

A value that is exported by default has one symbol. It is called by the name of the value if it is a
function, a generator or a class, and `default` without one, unless the value is something else
that has a name in it: an element without content or a namespace lends its own
(`default_called_iff`).
-/

namespace ImportAtlas.SyntaxTree

/-! ## Expressions -/

/-- What functions and generators are made of. -/
def functionFields : List String := ["name", "type_parameters", "parameters", "return_type", "body"]

/-- The fields of the expressions of all dialects. -/
def commonFields : List (String × List String) := [
  ("array", []), ("arrow_function", ["parameter", "type_parameters", "parameters", "return_type", "body"]),
  ("assignment_expression", ["left", "right"]), ("augmented_assignment_expression", ["left", "operator", "right"]),
  ("await_expression", []), ("binary_expression", ["left", "operator", "right"]),
  ("call_expression", ["function", "optional_chain", "type_arguments", "arguments"]),
  ("class", ["decorator", "name", "type_parameters", "body"]), ("false", []), ("function_expression", functionFields),
  ("generator_function", functionFields), ("glimmer_template", ["open_tag", "close_tag"]), ("identifier", []),
  ("member_expression", ["object", "optional_chain", "property"]), ("meta_property", []),
  ("new_expression", ["constructor", "type_arguments", "arguments"]), ("null", []), ("number", []), ("object", []),
  ("parenthesized_expression", ["type"]), ("regex", ["pattern", "flags"]), ("string", []),
  ("subscript_expression", ["object", "optional_chain", "index"]), ("super", []), ("template_string", []),
  ("ternary_expression", ["condition", "consequence", "alternative"]), ("this", []), ("true", []),
  ("unary_expression", ["operator", "argument"]), ("undefined", []), ("update_expression", ["operator", "argument"]),
  ("yield_expression", [])]

/-- The fields of expressions with markup. -/
def markupFields : List (String × List String) := [
  ("jsx_element", ["open_tag", "close_tag"]), ("jsx_self_closing_element", ["name", "type_arguments", "attribute"])]

/-- The fields of expressions with types. -/
def typedFields : List (String × List String) := [
  ("as_expression", []), ("instantiation_expression", ["function", "type_arguments"]), ("internal_module", ["name", "body"]),
  ("non_null_expression", []), ("satisfies_expression", []), ("type_assertion", [])]

/-- The kinds of expressions, each with the fields of its node. -/
def expressionFields : Dialect → List (String × List String)
  | .javaScript => commonFields ++ markupFields
  | .typeScript => commonFields ++ typedFields
  | .tsx => commonFields ++ markupFields ++ typedFields

/-- A node of an expression: what is in it is in fields of its kind, and there is at most one name. -/
structure IsExpression (d : Dialect) (v : Layout) : Prop where
  fields : ∃ e ∈ expressionFields d, v.kind = e.1 ∧ ∀ p ∈ v.parts, ∀ f ∈ p.field, f ∈ e.2
  name : ∀ p ∈ v.parts, ∀ p' ∈ v.parts, p.field = some "name" → p'.field = some "name" → p.written = p'.written

/-- Expressions that may have a name of their own. -/
def namedKinds : List String := ["function_expression", "generator_function", "class"]

/-- Other expressions that have a name in them. -/
def lendingKinds : List String := ["jsx_self_closing_element", "internal_module"]

/-- An expression of some kinds with a name in it. -/
def HasName (kinds : List String) (v : Layout) (name : String) : Prop :=
  v.kind ∈ kinds ∧ ∃ p ∈ v.parts, p.field = some "name" ∧ p.written = name

/-- What a value is called: by its own name if it has one, `default` if not. -/
def IsCalled (v : Layout) (name : String) : Prop :=
  HasName namedKinds v name ∨ name = defaultName ∧ ∀ own, ¬ HasName namedKinds v own

variable {d : Dialect} {t : SourceTree} {stmt value p : Layout} {above below : List Layout}

/-- No other expressions have a name. -/
theorem IsExpression.kind_mem (h : IsExpression d value) (hp : p ∈ value.parts) (hname : p.field = some "name") :
    value.kind ∈ namedKinds ∨ value.kind ∈ lendingKinds := by
  have htable : ∀ e ∈ expressionFields d, "name" ∈ e.2 → e.1 ∈ namedKinds ∨ e.1 ∈ lendingKinds := by cases d <;> decide
  obtain ⟨e, he, hkind, hfields⟩ := h.fields
  rw [hkind]
  exact htable e he (hfields p hp "name" hname)

theorem HasName.not_lending {name tag : String} (h : HasName namedKinds value name) : ¬ HasName lendingKinds value tag := by
  have hdisjoint : ∀ kind ∈ namedKinds, kind ∉ lendingKinds := by decide
  exact fun hlent => hdisjoint _ h.1 hlent.1

/-- The name in a value is what it is called, unless the value only lends it. -/
theorem isCalled_iff (h : IsExpression d value) :
    IsCalled value (((value.part? "name").map (·.written)).getD defaultName) ↔
      ∀ tag, HasName lendingKinds value tag → tag = defaultName := by
  cases hpart : value.part? "name" with
  | none =>
    have hnone : ∀ {kinds name}, ¬ HasName kinds value name := by
      rintro kinds name ⟨-, p, hp, hname, -⟩
      exact Layout.part?_eq_none_iff.1 hpart p hp hname
    exact ⟨fun _ tag hlent => absurd hlent hnone, fun _ => .inr ⟨rfl, fun own => hnone⟩⟩
  | some p =>
    obtain ⟨hp, hname⟩ := Layout.mem_of_part? hpart
    rw [Option.map_some, Option.getD_some]
    -- The name is the value's own or a lent one, by the kind of the value.
    rcases h.kind_mem hp hname with hnamed | hlending
    · have hown : HasName namedKinds value p.written := ⟨hnamed, p, hp, hname, rfl⟩
      exact ⟨fun _ tag hlent => absurd hlent hown.not_lending, fun _ => .inl hown⟩
    · have hlent : HasName lendingKinds value p.written := ⟨hlending, p, hp, hname, rfl⟩
      constructor
      · rintro (hown | ⟨hdefault, -⟩)
        · exact absurd hlent hown.not_lending
        · rintro tag ⟨-, p', hp', hname', rfl⟩
          rw [h.name p' hp' p hp hname' hname, hdefault]
      · exact fun hdefault => .inr ⟨hdefault _ hlent, fun own hown => hown.not_lending hlent⟩

/-! ## Exports -/

/-- A statement that exports a value by default. -/
structure ExportsValue (stmt value : Layout) : Prop where
  label : stmt.label = ⟨"export_statement", true, false⟩
  shape : ∃ n, ∃ shape ∈ valueShapes, stmt.HasShape (decorators n ++ shape)
  mem : value ∈ stmt.parts
  field : value.field = some "value"

/-- The one symbol of a value that is exported by default. -/
theorem ExportsValue.symbolsAfter_eq (h : ExportsValue stmt value) (previous : Option Layout) :
    ∃ s, Layout.symbolsAfter d previous stmt = [s] ∧ s.name = ((value.part? "name").map (·.written)).getD defaultName := by
  obtain ⟨n, shape, hshape, hparts⟩ := h.shape
  have htable : ∀ shape ∈ valueShapes, shape.countP (·.field = some "declaration") = 0 ∧
      shape.countP (·.field = some "value") = 1 ∧ Slot.token "default" ∈ shape := by decide
  obtain ⟨hnone, hone, hslot⟩ := htable shape hshape
  have hdeclaration := Layout.spot?_eq_none (hparts.part?_eq_none ((countP_decorators (by decide) n).trans hnone))
  obtain ⟨head, hspot⟩ :=
    Layout.exists_spot? (hparts.part?_eq_some ((countP_decorators (by decide) n).trans hone) h.mem h.field)
  have hdefault : stmt.hasToken "default" = true := by
    obtain ⟨token, htoken, -, hlabel⟩ := hparts.exists_part (List.mem_append_right _ hslot)
    refine List.any_eq_true.2 ⟨token, htoken, ?_⟩
    rw [Layout.kind, hlabel _ rfl]
    rfl
  refine ⟨{ stmt.valueSymbol head value with doc := Layout.docAbove previous stmt }, ?_, rfl⟩
  rw [Layout.symbolsAfter_export h.label, Layout.declaredBy_value hdeclaration hspot, if_pos hdefault, List.map_singleton]

/-- A value that is exported by default has one symbol. It is called as the value is, exactly when the name is not
that of the tag of an element or of a namespace. -/
theorem default_called_iff (h : ExportsValue stmt value) (hvalue : IsExpression d value)
    (hparts : t.root.parts = above ++ stmt :: below) :
    ∃ s, exports d t.node t.source =
        Layout.exportsAfter d none above ++ s :: Layout.exportsAfter d none below ∧
      (IsCalled value s.name ↔ ∀ tag, HasName lendingKinds value tag → tag = defaultName) := by
  obtain ⟨s, hsymbols, hname⟩ := h.symbolsAfter_eq (d := d) (lastAfter none above)
  refine ⟨s, ?_, ?_⟩
  · rw [Layout.exports_eq, hparts, Layout.exports_around h.label, hsymbols, List.singleton_append]
  · rw [hname]
    exact isCalled_iff hvalue

/-- A call with an element among its arguments. -/
def renderedValue : Layout := .inField "value" (.node " " "call_expression" [
  .inField "function" (.leaf "" "identifier" "render"), .inField "arguments" (.node "" "arguments" [.token "" "(",
    .node "" "jsx_self_closing_element" [.token "" "<", .inField "name" (.leaf "" "identifier" "App"), .token " " "/>"],
    .token "" ")"])])

def renderedTree : SourceTree := .ofParts [
  .node "" "export_statement" [.token "" "export", .token " " "default", renderedValue, .token "" ";"]] ""

theorem default_called_render :
    renderedTree.source = "export default render(<App />);" ∧ IsCalled renderedValue "default" ∧
      exports .tsx renderedTree.node renderedTree.source =
        [⟨"default", .value, "export default render(<App />);", none⟩] := by
  have hexports : exports .tsx renderedTree.node renderedTree.source =
      [⟨"default", .value, "export default render(<App />);", none⟩] := by decide +kernel
  refine ⟨by decide +kernel, ?_, hexports⟩
  have hstatement : ExportsValue (.node "" "export_statement" [.token "" "export", .token " " "default", renderedValue,
      .token "" ";"]) renderedValue :=
    ⟨rfl, ⟨0, [.token "export", .token "default", .anyIn "value", .token ";"], by decide, by decide⟩,
      .tail _ (.tail _ (.head _)), rfl⟩
  have hvalue : IsExpression .tsx renderedValue :=
    ⟨⟨("call_expression", ["function", "optional_chain", "type_arguments", "arguments"]), by decide, rfl, by decide⟩, by decide⟩
  obtain ⟨s, hs, hcalled⟩ := @default_called_iff .tsx renderedTree _ _ [] [] hstatement hvalue rfl
  obtain ⟨rfl, -⟩ := List.cons.inj (hexports.symm.trans hs)
  exact hcalled.2 fun tag hlent => absurd hlent.1 (by decide)

/-- An element without content. -/
def elementValue : Layout := .inField "value" (.node " " "jsx_self_closing_element" [.token "" "<",
  .inField "name" (.leaf "" "identifier" "App"), .token " " "/>"])

def elementTree : SourceTree := .ofParts [
  .node "" "export_statement" [.token "" "export", .token " " "default", elementValue, .token "" ";"]] ""

/-- An element without content is called as its tag is. -/
theorem tag_lent :
    elementTree.source = "export default <App />;" ∧ IsExpression .tsx elementValue ∧ ¬ IsCalled elementValue "App" ∧
      exports .tsx elementTree.node elementTree.source = [⟨"App", .value, "export default <App />;", none⟩] := by
  refine ⟨by decide +kernel, ?_, ?_, by decide +kernel⟩
  · exact ⟨⟨("jsx_self_closing_element", ["name", "type_arguments", "attribute"]), by decide, rfl, by decide⟩, by decide⟩
  · rintro (⟨hkind, -⟩ | ⟨hdefault, -⟩)
    · exact absurd hkind (by decide)
    · exact absurd hdefault (by decide)

end ImportAtlas.SyntaxTree
