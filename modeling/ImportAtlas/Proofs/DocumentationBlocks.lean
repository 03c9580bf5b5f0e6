import ImportAtlas.Proofs.WrittenSymbols
/-!
# Blocks of documentation

Lines written as a block of documentation are what the block says (`docOf_blockOf`), and no other end of a
text that holds the block says the same (`docOf_suffix_unique`). So an export right below the block is
documented by the lines exactly if the node before it is the block, and by nothing with a line between
(`documented_block_iff`). The block may be in another node: a statement before it whose end is not found
on its line takes it in (`block_taken_in`).
-/

namespace ImportAtlas

variable {p : Char → Bool} {c sep : Char} {cs : List Char}

/-! ## What stays of a text -/

theorem Text.count_dropWhile (h : p c = false) : (cs.dropWhile p).count c = cs.count c := by
  have hnone : c ∉ cs.takeWhile p := fun hc => by
    rw [List.all_eq_true.1 List.all_takeWhile c hc] at h
    cases h
  conv => rhs; rw [← List.takeWhile_append_dropWhile (p := p) (l := cs)]
  rw [List.count_append, List.count_eq_zero.2 hnone, Nat.zero_add]

theorem Text.count_trimBy (h : p c = false) : (trimBy p cs).count c = cs.count c := by
  rw [trimBy, List.count_reverse, count_dropWhile h, List.count_reverse, count_dropWhile h]

theorem Text.count_joinWith {pieces : List (List Char)} (h : c ≠ sep) :
    (joinWith sep pieces).count c = pieces.flatten.count c := by
  induction pieces with
  | nil => rfl
  | cons piece rest ih =>
    by_cases hrest : rest = []
    · simp [hrest, joinWith]
    · rw [joinWith_cons sep piece hrest, List.flatten_cons, List.count_append, List.count_append,
        List.count_cons_of_ne (Ne.symm h), ih]

/-- Two texts with the same character before the last stretches without it are alike in what is before it and in what
is after it. -/
theorem Text.append_cons_inj {cs' after after' : List Char} (hafter : sep ∉ after) (hafter' : sep ∉ after')
    (h : cs ++ sep :: after = cs' ++ sep :: after') : cs = cs' ∧ after = after' := by
  have hcut := congrArg (cutLast sep) h
  rw [cutLast_append hafter, cutLast_append hafter'] at hcut
  exact Prod.mk.inj (Option.some.inj hcut)

namespace SyntaxTree

variable {l w before : List Char} {lines : List (List Char)}

/-! ## What a comment says -/

/-- The lines that the inside of a comment says. -/
def docLines (body : List Char) : List (List Char) := ((Text.splitOn '\n' body).map docLine).filter (· ≠ [])

theorem docLine_return (line : List Char) : docLine (line ++ ['\r']) = docLine line := by
  have htrim : Text.trim ([] ++ (line ++ ['\r'])) = Text.trim line := Text.trimBy_append (by simp) (by simp [Text.isBlank])
  rw [docLine, docLine, ← htrim, List.nil_append]

theorem filter_lines (body : List Char) : ((Text.lines body).map docLine).filter (· ≠ []) = docLines body := by
  have hended : ∀ piece, docLine ((Text.dropEnd? ['\r'] piece).getD piece) = docLine piece := by
    intro piece
    cases hdrop : Text.dropEnd? ['\r'] piece with
    | none => rfl
    | some rest =>
      rw [Text.dropEnd?_eq_some.1 hdrop]
      exact (docLine_return rest).symm
  rcases List.eq_nil_or_concat (Text.splitOn '\n' body) with hnil | ⟨pieces, last, hsplit⟩
  · exact absurd hnil (Text.splitOn_ne_nil '\n' body)
  · rw [List.concat_eq_append] at hsplit
    cases last <;> simp [Text.lines, docLines, hsplit, hended, Function.comp_def, show docLine [] = [] by decide]

theorem docOf_eq_some {comment doc : String} :
    docOf comment = some doc ↔ ∃ body, comment.toList = ['/', '*', '*'] ++ (body ++ ['*', '/']) ∧ docLines body ≠ [] ∧
      doc = String.ofList (Text.joinWith '\n' (docLines body)) := by
  have hopening : "/**".toList = ['/', '*', '*'] := by decide
  have hclosing : "*/".toList = ['*', '/'] := by decide
  simp only [docOf, Option.bind_eq_some_iff, Text.dropStart?_eq_some, Text.dropEnd?_eq_some, filter_lines, hopening,
    hclosing]
  constructor
  · rintro ⟨body, ⟨_, hstart, rfl⟩, hdoc⟩
    refine ⟨body, hstart, ?_⟩
    split at hdoc
    · cases hdoc
    · next hne =>
      cases hdoc
      exact ⟨hne, rfl⟩
  · rintro ⟨body, hstart, hne, rfl⟩
    refine ⟨body, ⟨_, hstart, rfl⟩, ?_⟩
    split
    · next hnil => exact absurd hnil hne
    · rfl

/-- No slash of a line is taken off. -/
theorem count_docLine (line : List Char) : (docLine line).count '/' = line.count '/' := by
  have htrim : ∀ cs, (Text.trim cs).count '/' = cs.count '/' := fun cs => Text.count_trimBy (by decide)
  unfold docLine
  rw [← htrim line]
  split
  · next rest h => rw [htrim, h, List.count_cons_of_ne (by decide)]
  · rw [htrim]

theorem count_docLines (body : List Char) : (docLines body).flatten.count '/' = body.count '/' := by
  have hpieces : ∀ pieces : List (List Char), ((pieces.map docLine).filter (· ≠ [])).flatten.count '/' =
      pieces.flatten.count '/' := by
    intro pieces
    rw [List.flatten_filter_ne_nil, List.count_flatten, List.count_flatten, List.map_map]
    exact congrArg List.sum (List.map_congr_left fun piece _ => count_docLine piece)
  rw [docLines, hpieces, ← Text.count_joinWith (show '/' ≠ '\n' by decide), Text.join_splitOn]

/-- A comment has two slashes that it does not say. -/
theorem docOf_count {comment doc : String} (h : docOf comment = some doc) :
    comment.toList.count '/' = doc.toList.count '/' + 2 := by
  obtain ⟨body, hcomment, -, rfl⟩ := docOf_eq_some.1 h
  rw [hcomment, String.toList_ofList, Text.count_joinWith (by decide), count_docLines, List.count_append,
    List.count_append, show ['/', '*', '*'].count '/' = 1 by decide, show ['*', '/'].count '/' = 1 by decide]
  omega

/-- Of the ends of a comment, no other one says the same. -/
theorem docOf_suffix_unique {comment comment' : List Char} {doc : String} (h : docOf (String.ofList comment) = some doc)
    (h' : docOf (String.ofList comment') = some doc) (hsuffix : comment <:+ comment') : comment = comment' := by
  have hcount : comment.count '/' = comment'.count '/' := by
    have hslashes := (docOf_count h).trans (docOf_count h').symm
    rwa [String.toList_ofList, String.toList_ofList] at hslashes
  obtain ⟨front, rfl⟩ := hsuffix
  rw [List.count_append] at hcount
  obtain ⟨body, hstart, -, -⟩ := docOf_eq_some.1 h'
  rw [String.toList_ofList] at hstart
  cases front with
  | nil => rfl
  | cons c front =>
    obtain ⟨rfl, -⟩ := List.cons.inj hstart
    rw [List.count_cons_self] at hcount
    omega

/-! ## Lines written as a block -/

/-- A line that can stand in a block as it is. -/
structure IsDocLine (l : List Char) : Prop where
  ne_nil : l ≠ []
  trimmed : Text.trim l = l
  one_line : '\n' ∉ l

def starred (l : List Char) : List Char := [' ', '*', ' '] ++ l

/-- Lines with a star before each, and the blank that the end of the block stands behind. -/
def starredLines : List (List Char) → List Char
  | [] => [' ']
  | l :: lines => starred l ++ '\n' :: starredLines lines

/-- Lines written as a block of documentation. -/
def blockOf (lines : List (List Char)) : List Char :=
  ['/', '*', '*'] ++ ('\n' :: starredLines lines ++ ['*', '/'])

theorem docLine_starred (hne : l ≠ []) (h : Text.trim l = l) : docLine (starred l) = l := by
  obtain ⟨hstart, hend⟩ := Text.trimBy_eq_self.1 h
  have hblank : ∀ cs, Text.trim ([' '] ++ (cs ++ [])) = Text.trim cs := fun cs =>
    Text.trimBy_append (by simp [Text.isBlank]) (by simp)
  have hstar : Text.trim (starred l) = '*' :: ' ' :: l := by
    have hline : starred l = [' '] ++ ('*' :: ' ' :: l ++ []) := by simp [starred]
    rw [hline, hblank]
    refine Text.trimBy_eq_self.2 ⟨by simp [Text.isBlank], ?_⟩
    rw [List.getLast?_cons_cons, List.getLast?_cons_of_ne_nil hne]
    exact hend
  rw [docLine, hstar]
  show Text.trim (' ' :: l) = l
  have hrest := hblank l
  rwa [List.append_nil, h] at hrest

theorem docLines_append (body body' : List Char) : docLines (body ++ '\n' :: body') = docLines body ++ docLines body' := by
  rw [docLines, Text.splitOn_append_sep, List.map_append, List.filter_append]
  rfl

theorem docLines_starredLines (h : ∀ l ∈ lines, IsDocLine l) : docLines (starredLines lines) = lines := by
  induction lines with
  | nil => decide
  | cons l lines ih =>
    obtain ⟨hl, hlines⟩ := List.forall_mem_cons.1 h
    have honly : docLines (starred l) = [l] := by
      rw [docLines, Text.splitOn_of_not_mem (by simp [starred, hl.one_line]), List.map_singleton,
        docLine_starred hl.ne_nil hl.trimmed, List.filter_cons_of_pos (by simpa using hl.ne_nil), List.filter_nil]
    rw [starredLines, docLines_append, honly, ih hlines, List.singleton_append]

/-- A block says the lines it is written of. -/
theorem docOf_blockOf (hne : lines ≠ []) (h : ∀ l ∈ lines, IsDocLine l) :
    docOf (String.ofList (blockOf lines)) = some (String.ofList (Text.joinWith '\n' lines)) := by
  have hbody : docLines ('\n' :: starredLines lines) = lines := by
    rw [← List.nil_append ('\n' :: _), docLines_append, docLines_starredLines h]
    rfl
  refine docOf_eq_some.2 ⟨'\n' :: starredLines lines, String.toList_ofList, ?_, ?_⟩
  · rwa [hbody]
  · rw [hbody]

theorem blockOf_concat (lines : List (List Char)) : ∃ front, blockOf lines = front ++ ['/'] :=
  ⟨['/', '*', '*'] ++ ('\n' :: starredLines lines ++ ['*']), by simp [blockOf]⟩

/-! ## What stands above an export -/

open Layout

variable {d : Dialect} {above below : List Layout} {comment stmt : Layout} {front gap : List Char} {doc : String}

/-- What ends with a slash ends at the same place, if there is no other one after it. -/
theorem slash_inj {text text' : List Char} (hgap : '/' ∉ gap) (hw : '/' ∉ w)
    (h : front ++ (text ++ ['/'] ++ gap) = before ++ (text' ++ ['/'] ++ w)) :
    front ++ (text ++ ['/']) = before ++ (text' ++ ['/']) ∧ gap = w := by
  have hslash : (front ++ text) ++ '/' :: gap = (before ++ text') ++ '/' :: w := by simpa using h
  obtain ⟨hfront, rfl⟩ := Text.append_cons_inj hgap hw hslash
  refine ⟨?_, rfl⟩
  rw [← List.append_assoc, ← List.append_assoc, hfront]

/-- What documents an export is a comment that ends where a block above the export does. -/
theorem comment_above (hgap : '/' ∉ stmt.gap) (hw : '/' ∉ w)
    (htext : front ++ (textOf above ++ stmt.gap) = before ++ (blockOf lines ++ w))
    (hdoc : Layout.docAbove above.getLast? stmt = some doc) :
    ∃ comment, above.getLast? = some comment ∧ comment.kind = "comment" ∧ docOf comment.written = some doc ∧
      comment.text <:+ before ++ blockOf lines ∧ w.count '\n' ≤ 1 := by
  obtain ⟨comment, hlast, hkind, hcount, hsays⟩ := docAbove_eq_some.1 hdoc
  obtain ⟨others, rfl⟩ := List.getLast?_eq_some_iff.1 hlast
  obtain ⟨body, hbody, -, -⟩ := docOf_eq_some.1 hsays
  obtain ⟨start, hblock⟩ := blockOf_concat lines
  rw [written, String.toList_ofList] at hbody
  have hwhole : (front ++ textOf others ++ comment.gap) ++ (['/', '*', '*'] ++ body ++ ['*'] ++ ['/'] ++ stmt.gap) =
      before ++ (start ++ ['/'] ++ w) := by
    rw [← hblock, ← htext, textOf_append, textOf, textOf, hbody]
    simp
  obtain ⟨hends, rfl⟩ := slash_inj hgap hw hwhole
  refine ⟨comment, hlast, hkind, hsays, ⟨front ++ textOf others ++ comment.gap, ?_⟩, hcount⟩
  rw [hblock, ← hends, hbody]
  simp

/-- Below a block of lines, with nothing but white space between, an export on the next line is documented by the
lines exactly if the node before it is the block, and one further down by nothing. -/
theorem documented_block_iff {t : SourceTree} (hparts : t.root.parts = above ++ stmt :: below)
    (hlabel : stmt.label = ⟨"export_statement", true, false⟩) (hgap : '/' ∉ stmt.gap) (hne : lines ≠ [])
    (hlines : ∀ l ∈ lines, IsDocLine l) (hw : ∀ c ∈ w, Text.isBlank c = true)
    (htext : t.root.gap ++ (textOf above ++ stmt.gap) = before ++ (blockOf lines ++ w)) :
    ∃ doc ss, exports d t.node t.source = exportsAfter d none above ++ (ss ++ exportsAfter d none below) ∧
      (∀ s ∈ ss, s.doc = doc) ∧ (1 < w.count '\n' → doc = none) ∧
      (w.count '\n' ≤ 1 → (doc = some (String.ofList (Text.joinWith '\n' lines)) ↔
        ∃ comment, above.getLast? = some comment ∧ comment.kind = "comment" ∧ comment.text = blockOf lines)) := by
  have hslash : '/' ∉ w := fun hmem => by cases hw _ hmem
  have hlast : lastAfter none above = above.getLast? := by simp [lastAfter]
  refine ⟨Layout.docAbove above.getLast? stmt, _, by rw [exports_eq, hparts, exports_around hlabel], ?_, ?_, ?_⟩
  · intro s hs
    rw [symbolsAfter_export hlabel, hlast] at hs
    obtain ⟨_, -, rfl⟩ := List.mem_map.1 hs
    rfl
  · intro hblank
    refine Option.eq_none_iff_forall_ne_some.2 fun doc hdoc => ?_
    obtain ⟨_, -, -, -, -, hcount⟩ := comment_above hgap hslash htext hdoc
    omega
  · intro hline
    have hsays := docOf_blockOf hne hlines
    constructor
    · intro hdoc
      obtain ⟨comment, hcomment, hkind, hsame, hsuffix, -⟩ := comment_above hgap hslash htext hdoc
      refine ⟨comment, hcomment, hkind, ?_⟩
      -- The comment and the block end at the same place, so one is an end of the other. Both are comments from
      -- start to end, and so they are equal.
      rcases List.suffix_or_suffix_of_suffix hsuffix (List.suffix_append before (blockOf lines)) with hend | hend
      · exact docOf_suffix_unique hsame hsays hend
      · exact (docOf_suffix_unique hsays hsame hend).symm
    · rintro ⟨comment, hcomment, hkind, hblock⟩
      obtain ⟨others, rfl⟩ := List.getLast?_eq_some_iff.1 hcomment
      obtain ⟨start, hstart⟩ := blockOf_concat lines
      have hends : (t.root.gap ++ textOf others ++ comment.gap) ++ (start ++ ['/'] ++ stmt.gap) =
          before ++ (start ++ ['/'] ++ w) := by
        rw [← hstart, ← htext, textOf_append, textOf, textOf, hblock]
        simp
      obtain ⟨-, rfl⟩ := slash_inj hgap hslash hends
      refine docAbove_eq_some.2 ⟨comment, hcomment, hkind, hline, ?_⟩
      rw [written, hblock, hsays]

/-- A declaration of variables, each with a number. -/
def numbersNode (gap : String) (names : List Layout) (ending : List Layout) : Layout :=
  .node gap "lexical_declaration" (.inField "kind" (.token "" "const") :: names ++ ending)

def numberNode (name number : String) : Layout :=
  .node " " "variable_declarator" [.inField "name" (.leaf "" "identifier" name), .token " " "=",
    .inField "value" (.leaf " " "number" number)]

/-- A block whose lines begin like the marks that are taken off, below an import. -/
def markedStatements : List Layout := [
  .node "" "import_statement" [.token "" "import", .inField "source" (.node " " "string" [.token "" "'",
    .leaf "" "string_fragment" "./c", .token "" "'"]), .token "" ";"],
  .leaf "\n" "comment" "/**\n * * x\n * /y\n */"]

def markedExport : Layout := .node "\n" "export_statement" [.token "" "export",
  .inField "declaration" (numbersNode " " [numberNode "a" "1", .token "" ",", numberNode "b" "2"] [.token "" ";"])]

theorem documented_block_marks :
    let t := SourceTree.ofParts (markedStatements ++ [markedExport]) ""
    t.source = "import './c';\n/**\n * * x\n * /y\n */\nexport const a = 1, b = 2;" ∧
      ∀ s ∈ exports .typeScript t.node t.source, s.doc = some "* x\n/y" := by
  refine ⟨by decide +kernel, ?_⟩
  have hlines : ∀ l ∈ ["* x".toList, "/y".toList], IsDocLine l := by
    rw [List.forall_mem_cons, List.forall_mem_singleton]
    exact ⟨⟨by decide, by decide, by decide⟩, ⟨by decide, by decide, by decide⟩⟩
  have htext : (SourceTree.ofParts (markedStatements ++ [markedExport]) "").root.gap ++
      (textOf markedStatements ++ markedExport.gap) =
        "import './c';\n".toList ++ (blockOf ["* x".toList, "/y".toList] ++ ['\n']) := by
    decide +kernel
  obtain ⟨doc, ss, hexports, hdoc, -, hiff⟩ :=
    @documented_block_iff ['\n'] _ _ .typeScript markedStatements [] markedExport
      (.ofParts (markedStatements ++ [markedExport]) "") rfl rfl (by decide) (by simp) hlines (by simp [Text.isBlank]) htext
  obtain rfl := (hiff (by decide)).2 ⟨_, rfl, rfl, by decide +kernel⟩
  intro s hs
  rw [hexports, show exportsAfter .typeScript none markedStatements = [] by decide +kernel, List.nil_append] at hs
  rw [hdoc s ((List.append_nil ss) ▸ hs)]
  decide +kernel

/-- A block below a statement without a semicolon that takes it in: a blank that is not one of ASCII ends its line. -/
def takenTree : SourceTree := .ofParts [
  numbersNode "" [numberNode "a" "1"] [.leaf "\u00a0\n" "comment" "/**\n * d\n */"],
  .node "\n" "export_statement" [.token "" "export",
    .inField "declaration" (numbersNode " " [numberNode "b" "2"] [])]] ""

theorem block_taken_in :
    takenTree.source = "const a = 1\u00a0\n" ++ String.ofList (blockOf ["d".toList]) ++ "\nexport const b = 2" ∧
      (∀ l ∈ ["d".toList], IsDocLine l) ∧
      exports .typeScript takenTree.node takenTree.source = [⟨"b", .value, "export const b", none⟩] := by
  refine ⟨by decide +kernel, ?_, by decide +kernel⟩
  rw [List.forall_mem_singleton]
  exact ⟨by decide, by decide, by decide⟩

end SyntaxTree

end ImportAtlas
