import ImportAtlas.Proofs.StatementShapes
/-!
# The imports of a file

A file names the modules that its statements have in quotes, where an import or an export of
what another module exports has them (`imports_are_named`). What stands deeper in the file, in
a function, a block or a namespace, names nothing, and neither does a call that imports when it
runs: of such statements only the kind is looked at.

The name is what stands between the quotes, unless it starts or ends with a quote itself: quotes
are taken off both ends, however many there are (`imports_quoted_iff`).
-/

namespace ImportAtlas.SyntaxTree

variable {q : Char} {name : List Char} {d : Dialect}

/-! ## Texts in quotes -/

/-- A name without quotes at its ends. -/
def IsBare (name : List Char) : Prop := (∀ c ∈ name.head?, isQuote c = false) ∧ ∀ c ∈ name.getLast?, isQuote c = false

/-- A name in quotes, as it is written. -/
def inQuotes (q : Char) (name : List Char) : List Char := [q] ++ (name ++ [q])

/-- The name that a text in quotes says. -/
def saidBy (literal : List Char) : Option String :=
  if Text.trimBy isQuote literal = [] then none else some (String.ofList (Text.trimBy isQuote literal))

theorem nameIn?_eq (t : Layout) : t.nameIn? = saidBy t.text := by
  rw [Layout.nameIn?, Layout.written, unquote, String.toList_ofList, saidBy]
  simp [String.isEmpty_iff]

theorem isBare_iff : IsBare name ↔ Text.trimBy isQuote name = name := Text.trimBy_eq_self.symm

theorem saidBy_eq_none {literal : List Char} : saidBy literal = none ↔ ∀ c ∈ literal, isQuote c = true := by
  obtain ⟨before, after, hliteral, hbefore, hafter⟩ := Text.exists_trimBy isQuote literal
  rw [saidBy, ite_eq_left_iff]
  constructor
  · intro h c hc
    have hnone : Text.trimBy isQuote literal = [] := by
      by_contra hne
      exact Option.some_ne_none _ (h hne)
    rw [hliteral, hnone, List.nil_append, List.mem_append] at hc
    exact hc.elim (hbefore c) (hafter c)
  · intro h hne
    refine absurd ?_ hne
    have hall : literal = literal ++ ([] ++ []) := by simp
    rw [hall, Text.trimBy_append h (by simp)]
    rfl

theorem saidBy_eq_some {literal : List Char} {said : String} :
    saidBy literal = some said ↔ ∃ before name after, literal = before ++ (name ++ after) ∧ (∀ c ∈ before, isQuote c = true) ∧
      (∀ c ∈ after, isQuote c = true) ∧ name ≠ [] ∧ IsBare name ∧ said = String.ofList name := by
  constructor
  · intro h
    obtain ⟨before, after, hliteral, hbefore, hafter⟩ := Text.exists_trimBy isQuote literal
    obtain ⟨hne, hsaid⟩ := Option.ite_none_left_eq_some.1 h
    exact ⟨before, _, after, hliteral, hbefore, hafter, hne, isBare_iff.2 (Text.trimBy_trimBy _ _),
      (Option.some_inj.1 hsaid).symm⟩
  · rintro ⟨before, name, after, rfl, hbefore, hafter, hne, hbare, rfl⟩
    rw [saidBy, Text.trimBy_append hbefore hafter, isBare_iff.1 hbare, if_neg hne]

/-- A name in quotes is said exactly when no quote stands at the ends of the name. -/
theorem saidBy_inQuotes_iff (hq : isQuote q = true) (hne : name ≠ []) :
    saidBy (inQuotes q name) = some (String.ofList name) ↔ IsBare name := by
  have hquote : ∀ c ∈ [q], isQuote c = true := List.forall_mem_singleton.2 hq
  rw [saidBy, inQuotes, Text.trimBy_append hquote hquote, isBare_iff]
  constructor
  · intro h
    obtain ⟨-, hsaid⟩ := Option.ite_none_left_eq_some.1 h
    exact String.ofList_inj.1 (Option.some_inj.1 hsaid)
  · intro h
    rw [h, if_neg hne]

/-- The names that texts in quotes say, in order. One of quotes alone says none, and a statement without
any does not either. -/
inductive Says : List (Option (List Char)) → List String → Prop
  | nil : Says [] []
  | silent {literals : List (Option (List Char))} {names : List String} (h : Says literals names) :
      Says (none :: literals) names
  | quotes {literal : List Char} {literals : List (Option (List Char))} {names : List String}
      (hquotes : ∀ c ∈ literal, isQuote c = true) (h : Says literals names) : Says (some literal :: literals) names
  | name {before name after : List Char} {literals : List (Option (List Char))} {names : List String}
      (hbefore : ∀ c ∈ before, isQuote c = true) (hafter : ∀ c ∈ after, isQuote c = true) (hne : name ≠ [])
      (hbare : IsBare name) (h : Says literals names) :
      Says (some (before ++ (name ++ after)) :: literals) (String.ofList name :: names)

theorem says_iff {literals : List (Option (List Char))} {names : List String} :
    Says literals names ↔ literals.filterMap (·.bind saidBy) = names := by
  constructor
  · intro h
    induction h with
    | nil => rfl
    | silent _ ih => rw [List.filterMap_cons, Option.bind_none, ih]
    | quotes hquotes _ ih => rw [List.filterMap_cons, Option.bind_some, saidBy_eq_none.2 hquotes, ih]
    | name hbefore hafter hne hbare _ ih =>
      rw [List.filterMap_cons, Option.bind_some, saidBy_eq_some.2 ⟨_, _, _, rfl, hbefore, hafter, hne, hbare, rfl⟩, ih]
  · rintro rfl
    induction literals with
    | nil => exact .nil
    | cons literal? literals ih =>
      cases literal? with
      | none => exact .silent ih
      | some literal =>
        rw [List.filterMap_cons, Option.bind_some]
        cases hsaid : saidBy literal with
        | none => exact .quotes (saidBy_eq_none.1 hsaid) ih
        | some said =>
          obtain ⟨before, name, after, rfl, hbefore, hafter, hne, hbare, rfl⟩ := saidBy_eq_some.1 hsaid
          exact .name hbefore hafter hne hbare ih

/-! ## Statements -/

/-- What a statement names is what is said where its form has a text in quotes. -/
theorem Form.specifier?_eq {t : Layout} {literal? : Option (List Char)} (h : Form d t literal?) :
    t.specifier? = literal?.bind saidBy := by
  cases h with
  | imported hkind hshape h hliteral hfield =>
    rw [Layout.specifier?_import hkind, h.part?_eq_some (importShapes_source _ hshape) hliteral hfield, Option.some_or,
      Option.bind_some, Option.bind_some, nameIn?_eq]
  | required hkind hshape h hclause hlabel hclauseShape hin hliteral hstring =>
    obtain ⟨hnone, hlabels, hone⟩ := requireShapes_clause _ hshape
    rw [Layout.specifier?_import hkind, h.part?_eq_none hnone, Option.none_or, Layout.requiredSource?,
      h.firstOfKind_eq_some hlabels (by decide) hone hclause hlabel, Option.bind_some,
      requireClause_string hclauseShape hin hliteral hstring, Option.bind_some, Option.bind_some, nameIn?_eq]
  | exportedFrom hkind hshape h hliteral hfield =>
    rw [Layout.specifier?_export hkind, h.part?_eq_some (fromShapes_source _ hshape) hliteral hfield, Option.bind_some,
      Option.bind_some, nameIn?_eq]
  | exported hkind n hshape h =>
    rw [Layout.specifier?_export hkind, h.part?_eq_none (localShapes_source _ hshape)]
    rfl
  | other himport hexport => rw [Layout.specifier?_other himport hexport, Option.bind_none]

theorem imports_forms {t : SourceTree} {literals : List (Option (List Char))}
    (h : List.Forall₂ (Form d) t.root.namedParts literals) : imports t.node t.source = literals.filterMap (·.bind saidBy) := by
  rw [Layout.imports_eq]
  generalize t.root.namedParts = stmts at h
  induction h with
  | nil => rfl
  | cons hform _ ih => rw [List.filterMap_cons, List.filterMap_cons, hform.specifier?_eq, ih]

/-! ## Files -/

/-- The imports of a file are the names that the texts in quotes of its statements say, in order and as often as
they do. -/
theorem imports_are_named {d : Dialect} {t : SourceTree} {literals : List (Option (List Char))}
    (h : List.Forall₂ (Form d) t.root.namedParts literals) (names : List String) :
    Says literals names ↔ imports t.node t.source = names := by
  rw [imports_forms h, says_iff]

/-- A text in quotes without escapes. -/
def quotedNode (gap quote content : String) : Layout :=
  .node gap "string" [.token "" quote, .leaf "" "string_fragment" content, .token "" quote]

theorem text_quotedNode (gap quote content : String) :
    ((quotedNode gap quote content).inField "source").text = quote.toList ++ (content.toList ++ quote.toList) := by
  simp [quotedNode, Layout.node, Layout.token, Layout.leaf, Layout.inField, Layout.text, Layout.textOf, Layout.gap]

/-- Two quotes with nothing between. -/
def emptyNode : Layout := .inField "source" (.node " " "string" [.token "" "'", .token "" "'"])

/-- Modules named in the ways there are, and one in a namespace that is not. -/
def namingTree : SourceTree := .ofParts [
  .node "" "import_statement" [.token "" "import", .inField "source" (quotedNode " " "'" "a"), .token "" ";"],
  .node "\n" "import_statement" [.token "" "import", .token " " "type",
    .node " " "import_clause" [.node "" "namespace_import" [.token "" "*", .token " " "as", .leaf " " "identifier" "t"]],
    .token " " "from", .leaf " " "comment" "/* late */", .inField "source" (quotedNode " " "'" "./t")],
  .node "\n" "import_statement" [.token "" "import", .node " " "import_require_clause" [.leaf "" "identifier" "q",
    .token " " "=", .token " " "require", .token "" "(", .inField "source" (quotedNode "" "\"" "q"), .token "" ")"]],
  .node "\n" "export_statement" [.token "" "export", .node " " "export_clause" [.token "" "\x7b",
    .node " " "export_specifier" [.inField "name" (.leaf "" "identifier" "x")], .token " " "\x7d"],
    .token " " "from", emptyNode, .token "" ";"],
  .node "\n" "expression_statement" [.node "" "internal_module" [.token "" "namespace",
    .inField "name" (.leaf " " "identifier" "n"), .inField "body" (.node " " "statement_block" [.token "" "\x7b",
      .node " " "export_statement" [.token "" "export", .token " " "*", .token " " "from",
        .inField "source" (quotedNode " " "'" "m")], .token " " "\x7d"])]]] ""

theorem imports_named_in_tree :
    namingTree.source = "import 'a';\nimport type * as t from /* late */ './t'\nimport q = require(\"q\")\nexport \x7b x \x7d from '';\nnamespace n \x7b export * from 'm' \x7d" ∧
      imports namingTree.node namingTree.source = ["a", "./t", "q"] := by
  refine ⟨by decide +kernel, ?_⟩
  have hforms : List.Forall₂ (Form .typeScript) namingTree.root.namedParts
      [some ((quotedNode " " "'" "a").inField "source").text, some ((quotedNode " " "'" "./t").inField "source").text,
        some ((quotedNode "" "\"" "q").inField "source").text, some emptyNode.text, none] := by
    refine .cons ?_ (.cons ?_ (.cons ?_ (.cons ?_ (.cons ?_ .nil))))
    · exact @Form.imported _ _ [.token "import", .source, .token ";"] _ rfl (by decide) (by decide) (.tail _ (.head _)) rfl
    · exact @Form.imported _ _ [.token "import", .token "type", .node "import_clause", .token "from", .source] _ rfl
        (by decide) (by decide) (.tail _ (.tail _ (.tail _ (.tail _ (.tail _ (.head _)))))) rfl
    · refine @Form.required _ _ [.token "import", .node "import_require_clause"]
        [.node "identifier", .token "=", .token "require", .token "(", .source, .token ")"] _ _ rfl (by decide) (by decide)
        (.tail _ (.head _)) rfl (by decide) ?_ (.tail _ (.tail _ (.tail _ (.tail _ (.head _))))) rfl
      decide
    · exact @Form.exportedFrom _ _ [.token "export", .node "export_clause", .token "from", .source, .token ";"] _ rfl
        (by decide) (by decide) (.tail _ (.tail _ (.tail _ (.head _)))) rfl
    · exact .other (by decide) (by decide)
  refine (imports_are_named hforms _).1 ?_
  rw [text_quotedNode, text_quotedNode, text_quotedNode]
  refine .name ?_ ?_ ?_ ?_ (.name ?_ ?_ ?_ ?_ (.name ?_ ?_ ?_ ?_ (.quotes ?_ (.silent .nil))))
  all_goals simp [emptyNode, Layout.node, Layout.token, Layout.inField, Layout.text, Layout.textOf, Layout.gap, IsBare, isQuote]

/-- A file names what one of its statements has in quotes, between what the statements before and after it name,
exactly when no quote stands at the ends of the name. -/
theorem imports_quoted_iff {d : Dialect} {t : SourceTree} {q : Char} {name : List Char}
    {above below : List (Option (List Char))} {names names' : List String} (hq : isQuote q = true) (hne : name ≠ [])
    (h : List.Forall₂ (Form d) t.root.namedParts (above ++ some (inQuotes q name) :: below)) (habove : Says above names)
    (hbelow : Says below names') :
    imports t.node t.source = names ++ String.ofList name :: names' ↔ IsBare name := by
  rw [imports_forms h, List.filterMap_append, List.filterMap_cons, says_iff.1 habove, says_iff.1 hbelow,
    List.append_cancel_left_eq, Option.bind_some, ← saidBy_inQuotes_iff hq hne]
  cases hsaid : saidBy (inQuotes q name) with
  | none => simp
  | some said => simp

/-- Two statements; the name in the second one has an apostrophe inside. -/
def quotingTree : SourceTree := .ofParts [
  .node "" "import_statement" [.token "" "import", .node " " "import_clause" [.leaf "" "identifier" "a"],
    .token " " "from", .inField "source" (quotedNode " " "'" "a")],
  .node "\n" "export_statement" [.token "" "export", .token " " "*", .token " " "from",
    .inField "source" (quotedNode " " "\"" "it's"), .token "" ";"]] ""

theorem imports_quoted_apostrophe :
    quotingTree.source = "import a from 'a'\nexport * from \"it's\";" ∧
      imports quotingTree.node quotingTree.source = ["a", "it's"] := by
  refine ⟨by decide +kernel, ?_⟩
  have hforms : List.Forall₂ (Form .typeScript) quotingTree.root.namedParts
      ([some ((quotedNode " " "'" "a").inField "source").text] ++
        some ((quotedNode " " "\"" "it's").inField "source").text :: []) := by
    refine .cons ?_ (.cons ?_ .nil)
    · exact @Form.imported _ _ [.token "import", .node "import_clause", .token "from", .source] _ rfl (by decide)
        (by decide) (.tail _ (.tail _ (.tail _ (.head _)))) rfl
    · exact @Form.exportedFrom _ _ [.token "export", .token "*", .token "from", .source, .token ";"] _ rfl (by decide)
        (by decide) (.tail _ (.tail _ (.tail _ (.head _)))) rfl
  rw [text_quotedNode, text_quotedNode] at hforms
  have habove : Says [some ("'".toList ++ ("a".toList ++ "'".toList))] ["a"] :=
    .name (by simp [isQuote]) (by simp [isQuote]) (by simp) (by simp [IsBare, isQuote]) .nil
  exact (imports_quoted_iff (q := '"') (by decide) (by simp) hforms habove .nil).2 (by simp [IsBare, isQuote])

/-- A name that starts with an apostrophe. -/
def apostropheTree : SourceTree := .ofParts [
  .node "" "import_statement" [.token "" "import", .inField "source" (quotedNode " " "\"" "'a"), .token "" ";"]] ""

/-- The apostrophe that a name starts with is lost. -/
theorem leading_apostrophe_lost :
    apostropheTree.source = "import \"'a\";" ∧
      List.Forall₂ (Form .typeScript) apostropheTree.root.namedParts [some (inQuotes '"' "'a".toList)] ∧
        imports apostropheTree.node apostropheTree.source = ["a"] := by
  have hforms : List.Forall₂ (Form .typeScript) apostropheTree.root.namedParts
      [some ((quotedNode " " "\"" "'a").inField "source").text] := by
    refine .cons ?_ .nil
    exact @Form.imported _ _ [.token "import", .source, .token ";"] _ rfl (by decide) (by decide) (.tail _ (.head _)) rfl
  rw [text_quotedNode] at hforms
  exact ⟨by decide +kernel, hforms, by decide +kernel⟩

end ImportAtlas.SyntaxTree
