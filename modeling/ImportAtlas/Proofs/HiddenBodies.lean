import ImportAtlas.Proofs.WrittenSymbols
import Mathlib.Data.List.Forall2
/-!
# Bodies are not exported

Two files export the same if they differ only in the bodies of what they declare and export by
default, and in the values of variables (`exports_hidden`). All that comes after a changed
body stands elsewhere in the other file; the symbols do not tell.
-/

namespace ImportAtlas.SyntaxTree.Layout

/-! ## What may differ -/

/-- Two nodes that stand in the same place, whatever they are. -/
def SamePlace (t t' : Layout) : Prop := t'.gap = t.gap ∧ t'.field = t.field

/-- Nodes side by side that are the same but for the first one in a field. -/
inductive DifferIn (field : String) (R : Layout → Layout → Prop) : List Layout → List Layout → Prop
  | here {t t' : Layout} {ts : List Layout} (hfield : t.field = some field) (h : R t t') :
      DifferIn field R (t :: ts) (t' :: ts)
  | later {t : Layout} {ts ts' : List Layout} (hfield : t.field ≠ some field) (h : DifferIn field R ts ts') :
      DifferIn field R (t :: ts) (t :: ts')

/-- A node with another one in a field. -/
inductive ChangedIn (field : String) (R : Layout → Layout → Prop) : Layout → Layout → Prop
  | mk {gap : List Char} {own : Option String} {label : Label} {parts parts' : List Layout} {rest : List Char}
      (h : DifferIn field R parts parts') : ChangedIn field R (.mk gap own label parts rest) (.mk gap own label parts' rest)

/-- A declaration, or a value, with another body. -/
def OtherBody : Layout → Layout → Prop := ChangedIn "body" SamePlace

/-- A part of a declaration of variables that is the same, or a variable with another value. -/
def OtherValue (t t' : Layout) : Prop := t' = t ∨ ChangedIn "value" SamePlace t t'

/-- A declaration with other bodies or values. -/
inductive OtherInside : Layout → Layout → Prop
  | body {t t' : Layout} (hkind : t.kind ∉ ["ambient_declaration", "lexical_declaration", "variable_declaration"])
      (h : OtherBody t t') : OtherInside t t'
  | valued {gap : List Char} {own : Option String} {label : Label} {word : Layout} {parts parts' : List Layout}
      {rest : List Char} (hkind : label.kind = "lexical_declaration" ∨ label.kind = "variable_declaration")
      (h : List.Forall₂ OtherValue parts parts') :
      OtherInside (.mk gap own label (word :: parts) rest) (.mk gap own label (word :: parts') rest)
  /-- A declaration after `declare`, and after comments. -/
  | ambient {gap : List Char} {own : Option String} {label : Label} {before after : List Layout} {t t' : Layout}
      {rest : List Char} (hkind : label.kind = "ambient_declaration")
      (hbefore : ∀ p ∈ before, p.isNamed = true → p.kind = "comment") (hnamed : t.isNamed = true)
      (h : OtherInside t t') :
      OtherInside (.mk gap own label (before ++ t :: after) rest) (.mk gap own label (before ++ t' :: after) rest)

/-- A statement with other bodies or values in what it exports. -/
inductive OtherStatement : Layout → Layout → Prop
  | same {s : Layout} : OtherStatement s s
  | declaration {s s' : Layout} (hkind : s.kind = "export_statement") (h : ChangedIn "declaration" OtherInside s s') :
      OtherStatement s s'
  | value {s s' : Layout} (hkind : s.kind = "export_statement") (hnone : ∀ p ∈ s.parts, p.field ≠ some "declaration")
      (h : ChangedIn "value" OtherBody s s') : OtherStatement s s'

variable {field : String} {R : Layout → Layout → Prop} {t t' stmt stmt' : Layout} {ts ts' : List Layout}
  {before head : List Char} {d : Dialect} {isDefault : Bool}

/-! ## What stays -/

/-- Nodes that are told alike from outside. -/
structure AlikeOutside (t t' : Layout) : Prop where
  gap : t'.gap = t.gap
  field : t'.field = t.field
  label : t'.label = t.label

theorem AlikeOutside.refl (t : Layout) : AlikeOutside t t := ⟨rfl, rfl, rfl⟩

theorem AlikeOutside.kind (h : AlikeOutside t t') : t'.kind = t.kind := by rw [Layout.kind, Layout.kind, h.label]

theorem AlikeOutside.isNamed (h : AlikeOutside t t') : t'.isNamed = t.isNamed := by
  rw [Layout.isNamed, Layout.isNamed, h.label]

theorem AlikeOutside.samePlace (h : AlikeOutside t t') : SamePlace t t' := ⟨h.gap, h.field⟩

theorem ChangedIn.alike (h : ChangedIn field R t t') : AlikeOutside t t' := by
  cases h
  exact ⟨rfl, rfl, rfl⟩

theorem ChangedIn.parts (h : ChangedIn field R t t') : DifferIn field R t.parts t'.parts := by
  cases h with
  | mk h => exact h

theorem OtherInside.alike (h : OtherInside t t') : AlikeOutside t t' := by
  cases h with
  | body _ h => exact h.alike
  | valued | ambient => exact ⟨rfl, rfl, rfl⟩

theorem OtherStatement.alike (h : OtherStatement stmt stmt') : AlikeOutside stmt stmt' := by
  cases h with
  | same => exact .refl _
  | declaration _ h => exact h.alike
  | value _ _ h => exact h.alike

/-- In other fields nothing is changed. -/
theorem DifferIn.find?_field (h : DifferIn field R ts ts') (hR : ∀ t t', R t t' → SamePlace t t') {other : String}
    (hne : other ≠ field) : ts'.find? (·.field = some other) = ts.find? (·.field = some other) := by
  induction h with
  | @here t t' ts hfield h =>
    have hother : ∀ u : Layout, u.field = some field → decide (u.field = some other) = false := by
      intro u hu
      simp [hu, Ne.symm hne]
    rw [List.find?_cons_of_neg, List.find?_cons_of_neg]
    · simp [hother t hfield]
    · simp [hother t' ((hR _ _ h).2.trans hfield)]
  | later _ _ ih => rw [List.find?_cons, List.find?_cons, ih]

theorem ChangedIn.part?_eq (h : ChangedIn field R t t') (hR : ∀ t t', R t t' → SamePlace t t') {other : String}
    (hne : other ≠ field) : t'.part? other = t.part? other :=
  h.parts.find?_field hR hne

/-- What is in the field stands behind the same text. -/
theorem DifferIn.find?_spots (h : DifferIn field R ts ts') (hR : ∀ t t', R t t' → SamePlace t t') (before : List Char) :
    ∃ inside p p', (spots before ts).find? (·.2.field = some field) = some (inside, p) ∧
      (spots before ts').find? (·.2.field = some field) = some (inside, p') ∧ R p p' := by
  induction h generalizing before with
  | @here t t' ts hfield h =>
    obtain ⟨hgap, hsame⟩ := hR _ _ h
    refine ⟨before ++ t.gap, t, t', ?_, ?_, h⟩
    · rw [spots, List.find?_cons_of_pos (by simpa using hfield)]
    · rw [spots, List.find?_cons_of_pos (by simpa using hsame.trans hfield), hgap]
  | @later t ts ts' hfield _ ih =>
    obtain ⟨inside, p, p', hp, hp', h⟩ := ih (before ++ t.gap ++ t.text)
    refine ⟨inside, p, p', ?_, ?_, h⟩
    · rw [spots, List.find?_cons_of_neg (by simpa using hfield), hp]
    · rw [spots, List.find?_cons_of_neg (by simpa using hfield), hp']

theorem ChangedIn.spot? (h : ChangedIn field R t t') (hR : ∀ t t', R t t' → SamePlace t t') :
    ∃ inside p p', t.spot? field = some (inside, p) ∧ t'.spot? field = some (inside, p') ∧ R p p' :=
  h.parts.find?_spots hR []

theorem DifferIn.any_kind (h : DifferIn field R ts ts') (hR : ∀ t t', R t t' → AlikeOutside t t') (kind : String) :
    ts'.any (·.kind = kind) = ts.any (·.kind = kind) := by
  induction h with
  | here _ h => rw [List.any_cons, List.any_cons, (hR _ _ h).kind]
  | later _ _ ih => rw [List.any_cons, List.any_cons, ih]

theorem ChangedIn.hasToken_eq (h : ChangedIn field R t t') (hR : ∀ t t', R t t' → AlikeOutside t t') (kind : String) :
    t'.hasToken kind = t.hasToken kind :=
  h.parts.any_kind hR kind

/-! ## Declarations -/

theorem OtherBody.part?_name (h : OtherBody t t') : t'.part? "name" = t.part? "name" :=
  h.part?_eq (fun _ _ h => h) (by decide)

/-- The signature ends where the body begins. -/
theorem OtherBody.signature_eq (h : OtherBody t t') (stmt stmt' : Layout) (head : List Char) (kind : SymbolKind) :
    stmt'.signature head t' kind = stmt.signature head t kind := by
  obtain ⟨inside, p, p', hp, hp', -⟩ := h.spot? fun _ _ h => h
  rw [signature, signature, hp, hp']

theorem OtherBody.declared?_eq (h : OtherBody t t') (stmt stmt' : Layout) :
    declared? d stmt' isDefault head t' = declared? d stmt isDefault head t := by
  simp only [declared?, h.alike.kind, h.part?_name, h.signature_eq stmt stmt']

theorem OtherBody.valueSymbol_eq (h : OtherBody t t') (stmt stmt' : Layout) :
    stmt'.valueSymbol head t' = stmt.valueSymbol head t := by
  rw [valueSymbol, valueSymbol, h.alike.kind, h.part?_name, h.signature_eq stmt stmt']

theorem OtherValue.variableSymbol?_eq (h : OtherValue t t') (keyword : String) :
    t'.variableSymbol? keyword = t.variableSymbol? keyword := by
  rcases h with rfl | h
  · rfl
  · rw [variableSymbol?, variableSymbol?, h.part?_eq (fun _ _ h => h) (by decide),
      h.part?_eq (fun _ _ h => h) (by decide)]

theorem OtherValue.alike (h : OtherValue t t') : AlikeOutside t t' := by
  rcases h with rfl | h
  · exact .refl _
  · exact h.alike

theorem filterMap_otherValue (h : List.Forall₂ OtherValue ts ts') (keyword : String) :
    ((ts'.filter (·.isNamed)).filter (·.kind = "variable_declarator")).filterMap (variableSymbol? keyword) =
      ((ts.filter (·.isNamed)).filter (·.kind = "variable_declarator")).filterMap (variableSymbol? keyword) := by
  simp only [List.filter_filter, List.filterMap_filter]
  induction h with
  | nil => rfl
  | cons h _ ih => rw [List.filterMap_cons, List.filterMap_cons, h.alike.isNamed, h.alike.kind, h.variableSymbol?_eq, ih]

theorem firstDeclarations_eq {us us' : List Layout} (hts : ∀ t ∈ ts, t.isNamed = true → t.kind = "comment")
    (h : ∀ head, firstDeclarations d stmt' isDefault head us' = firstDeclarations d stmt isDefault head us) :
    firstDeclarations d stmt' isDefault head (ts ++ us') = firstDeclarations d stmt isDefault head (ts ++ us) := by
  induction ts generalizing head with
  | nil => exact h head
  | cons t ts ih =>
    obtain ⟨ht, hts⟩ := List.forall_mem_cons.1 hts
    rw [List.cons_append, List.cons_append, firstDeclarations, firstDeclarations, ih hts]
    cases hnamed : t.isNamed with
    | false => rfl
    | true => rw [declarations_comment (ht hnamed), declarations_comment (ht hnamed)]

theorem OtherInside.declarations_eq (h : OtherInside t t') (stmt stmt' : Layout) (head : List Char) :
    declarations d stmt' isDefault head t' = declarations d stmt isDefault head t := by
  induction h generalizing head with
  | @body t t' hkind h =>
    -- What is left out of the signature is all that differs.
    have hdeclared : declared? d stmt' isDefault head t' = declared? d stmt isDefault head t := h.declared?_eq stmt stmt'
    cases h with
    | @mk gap own label parts parts' rest h =>
      obtain ⟨hambient, hlexical, hvariable⟩ : label.kind ≠ "ambient_declaration" ∧ label.kind ≠ "lexical_declaration" ∧
          label.kind ≠ "variable_declaration" := by
        simpa [Layout.kind, Layout.label] using hkind
      rw [declarations, declarations, hdeclared]
      simp [hambient, hlexical, hvariable]
  | @valued gap own label word parts parts' rest hkind h =>
    have hne : label.kind ≠ "ambient_declaration" := by rcases hkind with hkind | hkind <;> rw [hkind] <;> decide
    have hvariables : (mk gap own label (word :: parts') rest).variableSymbols =
        (mk gap own label (word :: parts) rest).variableSymbols :=
      filterMap_otherValue (.cons (.inl rfl) h) _
    rw [declarations, declarations, if_neg hne, if_neg hne, hvariables]
    rcases hkind with hkind | hkind <;> simp [hkind]
  | @ambient gap own label before after t t' rest hkind hbefore hnamed h ih =>
    rw [declarations, declarations, if_pos hkind, if_pos hkind]
    refine firstDeclarations_eq hbefore fun head => ?_
    rw [firstDeclarations, firstDeclarations, h.alike.isNamed, h.alike.gap, if_pos hnamed, if_pos hnamed, ih]

/-! ## Statements and files -/

theorem OtherStatement.declaredBy_eq (h : OtherStatement stmt stmt') : declaredBy d stmt' = declaredBy d stmt := by
  cases h with
  | same => rfl
  | declaration hkind h =>
    obtain ⟨head, t, t', ht, ht', hinside⟩ := h.spot? fun _ _ h => h.alike.samePlace
    rw [declaredBy_declaration ht, declaredBy_declaration ht', h.hasToken_eq fun _ _ h => h.alike,
      hinside.declarations_eq stmt stmt' head]
  | value hkind hnone h =>
    obtain ⟨head, t, t', ht, ht', hbody⟩ := h.spot? fun _ _ h => h.alike.samePlace
    have hpart : stmt.part? "declaration" = none := part?_eq_none_iff.2 hnone
    have hpart' := (h.part?_eq (fun _ _ h => h.alike.samePlace) (by decide)).trans hpart
    rw [declaredBy_value (spot?_eq_none hpart) ht, declaredBy_value (spot?_eq_none hpart') ht', h.hasToken_eq fun _ _ h => h.alike,
      hbody.valueSymbol_eq stmt stmt']

/-- What stands above a statement documents it alike. -/
theorem docAbove_eq {previous previous' : Option Layout} (hprevious : Option.Rel OtherStatement previous previous')
    (h : AlikeOutside stmt stmt') : docAbove previous' stmt' = docAbove previous stmt := by
  cases hprevious with
  | none => rfl
  | @some s s' hs =>
    -- What differs is an export, and a comment is none.
    have hcomment : s.kind = "comment" → s' = s := by
      intro hkind
      cases hs with
      | same => rfl
      | declaration hexport | value hexport => exact absurd (hexport.symm.trans hkind) (by decide)
    rw [docAbove, docAbove, Option.bind_some, Option.bind_some, hs.alike.kind, h.gap]
    by_cases hkind : s.kind = "comment"
    · rw [hcomment hkind]
    · simp [hkind]

/-- What is exported does not tell the bodies and values of what is declared. -/
theorem exportsAfter_eq {previous previous' : Option Layout} (hprevious : Option.Rel OtherStatement previous previous')
    (h : List.Forall₂ OtherStatement ts ts') : exportsAfter d previous' ts' = exportsAfter d previous ts := by
  induction h generalizing previous previous' with
  | nil => rfl
  | cons h _ ih =>
    rw [exportsAfter_cons, exportsAfter_cons, ih (.some h), symbolsAfter, symbolsAfter, h.alike.isNamed, h.alike.kind,
      h.declaredBy_eq, docAbove_eq hprevious h.alike]

end Layout

open Layout

/-- Two files that differ only in bodies and values export the same. -/
theorem exports_hidden {d : Dialect} {t t' : SourceTree} (h : List.Forall₂ OtherStatement t.root.parts t'.root.parts) :
    exports d t'.node t'.source = exports d t.node t.source := by
  rw [exports_eq, exports_eq]
  exact exportsAfter_eq .none h

/-- A function, a documented variable, a class that is exported by default and a namespace, with two bodies, a value
and a body. -/
def declaringTree (inFunction value inClass inNamespace : Layout) : SourceTree := .ofParts [
  .node "" "export_statement" [.token "" "export", .inField "declaration" (.node " " "function_declaration" [
    .token "" "function", .inField "name" (.leaf " " "identifier" "f"),
    .inField "parameters" (.node "" "formal_parameters" [.token "" "(", .token "" ")"]), .inField "body" inFunction])],
  .leaf "\n" "comment" "/** d */",
  .node "\n" "export_statement" [.token "" "export", .inField "declaration" (.node " " "lexical_declaration" [
    .inField "kind" (.token "" "const"), .node " " "variable_declarator" [.inField "name" (.leaf "" "identifier" "x"),
      .inField "type" (.node "" "type_annotation" [.token "" ":", .leaf " " "type_identifier" "T"]),
      .token " " "=", .inField "value" value], .token "" ";"])],
  .node "\n" "export_statement" [.token "" "export", .token " " "default", .inField "value" (.node " " "class" [
    .token "" "class", .inField "body" inClass])],
  .node "\n" "export_statement" [.token "" "export", .inField "declaration" (.node " " "ambient_declaration" [
    .token "" "declare", .node " " "internal_module" [.token "" "namespace", .inField "name" (.leaf " " "identifier" "N"),
      .inField "body" inNamespace]])]] ""

/-- Two braces with a text between. -/
def inBraces (kind text : String) : Layout :=
  .node " " kind [.token "" "\x7b", .leaf "" "comment" text, .token "" "\x7d"]

def shortTree : SourceTree := declaringTree (.node " " "statement_block" [.token "" "\x7b", .token "" "\x7d"])
  (.leaf " " "number" "1") (.node " " "class_body" [.token "" "\x7b", .token "" "\x7d"])
  (.node " " "statement_block" [.token "" "\x7b", .token "" "\x7d"])

def longTree : SourceTree := declaringTree (inBraces "statement_block" "/*\n\n*/") (.leaf " " "string" "'aé'")
  (inBraces "class_body" "/* \x7d */") (inBraces "statement_block" "// ;\n")

theorem exports_of_longer_bodies :
    shortTree.source = "export function f() \x7b\x7d\n/** d */\nexport const x: T = 1;\nexport default class \x7b\x7d\nexport declare namespace N \x7b\x7d" ∧
      longTree.source = "export function f() \x7b/*\n\n*/\x7d\n/** d */\nexport const x: T = 'aé';\nexport default class \x7b/* \x7d */\x7d\nexport declare namespace N \x7b// ;\n\x7d" ∧
        exports .typeScript longTree.node longTree.source =
          [⟨"f", .function, "export function f();", none⟩, ⟨"x", .value, "export const x: T", some "d"⟩,
            ⟨"default", .typeLike, "export default class \x7b ... \x7d", none⟩,
            ⟨"N", .typeLike, "export declare namespace N \x7b ... \x7d", none⟩] := by
  refine ⟨by decide +kernel, by decide +kernel, ?_⟩
  have hstatements : List.Forall₂ OtherStatement shortTree.root.parts longTree.root.parts := by
    refine .cons ?_ (.cons .same (.cons ?_ (.cons ?_ (.cons ?_ .nil))))
    · refine .declaration rfl (.mk (.later (by decide) (.here rfl (.body (by decide) (.mk ?_)))))
      exact .later (by decide) (.later (by decide) (.later (by decide) (.here rfl ⟨rfl, rfl⟩)))
    · refine .declaration rfl (.mk (.later (by decide) (.here rfl (.valued (.inl rfl) (.cons ?_ (.cons (.inl rfl) .nil))))))
      exact .inr (.mk (.later (by decide) (.later (by decide) (.later (by decide) (.here rfl ⟨rfl, rfl⟩)))))
    · refine .value rfl (by decide) (.mk (.later (by decide) (.later (by decide) (.here rfl (.mk ?_)))))
      exact .later (by decide) (.here rfl ⟨rfl, rfl⟩)
    · refine .declaration rfl (.mk (.later (by decide) (.here rfl
        (@OtherInside.ambient _ _ _ [.token "" "declare"] [] _ _ _ rfl (by decide) rfl (.body (by decide) (.mk ?_))))))
      exact .later (by decide) (.later (by decide) (.here rfl ⟨rfl, rfl⟩))
  exact (exports_hidden hstatements).trans (by decide +kernel)

end ImportAtlas.SyntaxTree
