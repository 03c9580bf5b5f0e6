import ImportAtlas.Proofs.DotTokens
/-!
# What the text of a picture says

A reader of pictures, which knows nothing of graphs: it cuts the text into tokens, puts
the tokens together to settings, records, clusters, labels and edges, and divides the
text of each record into fields and lines. Braces must match, and nothing may follow the
last one.

From the text of a graph's picture it gets the settings of the header, and then the
statements that were to be written, with the names of files and symbols as they are
(`read_render`). So no name ends a string, opens a field or adds a statement.
-/

namespace ImportAtlas

namespace Dot

/-! ## Reading -/

/-- A text without the backslashes that protect what comes after them. -/
def unguard : List Char → List Char
  | '\\' :: c :: cs => c :: unguard cs
  | c :: cs => c :: unguard cs
  | [] => []

def plain (raw : List Char) : String := String.ofList (unguard raw)

/-- A field of a record: the lines that are ended, and what comes after them. -/
structure Field where
  lines : List String
  rest : String
  deriving DecidableEq, Repr

/-- The fields in the rest of a record's text, up to its closing brace. The first of them
begins with `lines` and the text `now`. -/
def fields? (lines : List String) (now : List Char) : List Char → Option (List Field)
  | [] => none
  | ['\x7d'] => some [⟨lines, String.ofList now⟩]
  | '\\' :: 'l' :: cs => fields? (lines ++ [String.ofList now]) [] cs
  | '\\' :: c :: cs => fields? lines (now ++ [c]) cs
  | '|' :: cs => (fields? [] [] cs).map (⟨lines, String.ofList now⟩ :: ·)
  | c :: cs => if c ∈ ['\x7b', '\x7d', '<', '>'] then none else fields? lines (now ++ [c]) cs

/-- What a statement of a picture says. -/
inductive Phrase
  | setting (kind name value : String)
  | record (id : String) (fields : List Field)
  | opening (name : String)
  | label (path : String)
  | closing
  | edge (source target : String)
  deriving DecidableEq, Repr

def Token.value? : Token → Option String
  | .quoted raw => some (plain raw)
  | .word w => some w
  | .sign _ => none

/-- What the rest of a picture's text says, inside of `depth` braces: each phrase with the
number of braces it stands in. -/
def phrases? : Nat → List Token → Option (List (Nat × Phrase))
  | 1, [.sign '\x7d'] => some []
  | depth + 2, .sign '\x7d' :: ts => (phrases? (depth + 1) ts).map ((depth + 1, .closing) :: ·)
  | depth, .quoted source :: .word "->" :: .quoted target :: ts =>
    (phrases? depth ts).map ((depth, .edge (plain source) (plain target)) :: ·)
  | depth, .quoted id :: .sign '[' :: .word "label" :: .sign '=' :: .quoted ('\x7b' :: text) :: .sign ']' :: ts =>
    (fields? [] [] text).bind fun fields => (phrases? depth ts).map ((depth, .record (plain id) fields) :: ·)
  | depth, .word "label" :: .sign '=' :: .quoted path :: ts =>
    (phrases? depth ts).map ((depth, .label (plain path)) :: ·)
  | depth, .word "subgraph" :: .word name :: .sign '\x7b' :: ts =>
    (phrases? (depth + 1) ts).map ((depth, .opening name) :: ·)
  | depth, .word kind :: .sign '[' :: .word name :: .sign '=' :: token :: .sign ']' :: .sign ';' :: ts =>
    token.value?.bind fun value => (phrases? depth ts).map ((depth, .setting kind name value) :: ·)
  | _, _ => none

section

variable {depth : Nat} (ts : List Token)

theorem phrases?_closing : phrases? (depth + 2) (.sign '\x7d' :: ts) =
    (phrases? (depth + 1) ts).map ((depth + 1, .closing) :: ·) := rfl

theorem phrases?_edge (source target : List Char) : phrases? depth (.quoted source :: .word "->" :: .quoted target :: ts) =
    (phrases? depth ts).map ((depth, .edge (plain source) (plain target)) :: ·) := by
  rcases depth with - | - | depth <;> rfl

theorem phrases?_record (id text : List Char) :
    phrases? depth (.quoted id :: .sign '[' :: .word "label" :: .sign '=' :: .quoted ('\x7b' :: text) :: .sign ']' :: ts) =
      (fields? [] [] text).bind fun fields => (phrases? depth ts).map ((depth, .record (plain id) fields) :: ·) := by
  rcases depth with - | - | depth <;> rfl

theorem phrases?_label (path : List Char) : phrases? depth (.word "label" :: .sign '=' :: .quoted path :: ts) =
    (phrases? depth ts).map ((depth, .label (plain path)) :: ·) := by
  rcases depth with - | - | depth <;> rfl

theorem phrases?_opening (name : String) : phrases? depth (.word "subgraph" :: .word name :: .sign '\x7b' :: ts) =
    (phrases? (depth + 1) ts).map ((depth, .opening name) :: ·) := by
  rcases depth with - | - | depth <;> rfl

end

def read (text : String) : Option (List (Nat × Phrase)) :=
  (tokens? text).bind fun
    | .word "digraph" :: .word "g" :: .sign '\x7b' :: ts => phrases? 1 ts
    | _ => none

/-! ## What is to be read -/

/-- The lines of a file in the record of a directory. -/
def rowLines (e : String × List String) : List String := e.1 :: e.2.map ("+ " ++ ·)

def Label.contents : Label → List Field
  | .fields title names => ⟨[], title⟩ :: names.map fun ns => ⟨ns, ""⟩
  | .rows title files => [⟨[title], ""⟩, ⟨files.flatMap rowLines, ""⟩]

def Statement.phrase : Statement → Phrase
  | .record id l => .record id l.contents
  | .opening n => .opening (clusterName n)
  | .label path => .label path
  | .closing => .closing
  | .edge e => .edge e.source e.target

def headerPhrases : List (Nat × Phrase) :=
  [(1, .setting "graph" "splines" "polyline"), (1, .setting "node" "shape" "record"),
    (1, .setting "edge" "color" "#00000033")]

/-! ## Quoted texts -/

theorem unguard_guarded (c : Char) (cs : List Char) : unguard ('\\' :: c :: cs) = c :: unguard cs := rfl

theorem unguard_quoteChar (c : Char) (cs : List Char) : unguard (quoteChar c ++ cs) = c :: unguard cs := by
  unfold quoteChar
  split
  · exact unguard_guarded c cs
  · next h =>
    rw [List.singleton_append, unguard]
    rintro _ _ rfl
    simp at h

theorem plain_quote (s : String) : plain (quote s).toList = s := by
  have hchars : ∀ cs : List Char, unguard (cs.flatMap quoteChar) = cs := by
    intro cs
    induction cs with
    | nil => rfl
    | cons c cs ih => rw [List.flatMap_cons, unguard_quoteChar, ih]
  rw [plain, quote, String.toList_ofList, hchars, String.ofList_toList]

/-- `s` with a backslash before each `c`. -/
def protect (c : Char) (s : String) : String :=
  String.ofList (s.toList.flatMap fun d => if d = c then ['\\', d] else [d])

/-- Quoting may be done in two passes, if the backslashes come first. -/
theorem quote_eq_passes (s : String) : quote s = protect '"' (protect '\\' s) := by
  unfold quote protect
  rw [String.toList_ofList, List.flatMap_assoc]
  congr 1
  refine List.flatMap_congr fun c _ => ?_
  unfold quoteChar
  by_cases hback : c = '\\'
  · subst hback; rfl
  · by_cases hquote : c = '"'
    · subst hquote; rfl
    · simp [hback, hquote]

example : quote "\"" ≠ protect '\\' (protect '"' "\"") := by decide

/-! ## Records -/

section Records

variable {lines : List String} {now rest : List Char}

theorem fields?_lineEnd :
    fields? lines now (lineEnd.toList ++ rest) = fields? (lines ++ [String.ofList now]) [] rest := by
  show fields? lines now ('\\' :: 'l' :: rest) = _
  rw [fields?]

theorem fields?_bar :
    fields? lines now ("|".toList ++ rest) = (fields? [] [] rest).map (⟨lines, String.ofList now⟩ :: ·) := by
  show fields? lines now ('|' :: rest) = _
  rw [fields?]

theorem fields?_fieldChar (c : Char) : fields? lines now (fieldChar c ++ rest) = fields? lines (now ++ [c]) rest := by
  unfold fieldChar
  split
  · next h =>
    show fields? lines now ('\\' :: c :: rest) = _
    rw [fields?]
    rintro rfl
    simp at h
  · next h =>
    simp only [Bool.or_eq_true, decide_eq_true_eq, not_or] at h
    rw [List.singleton_append, fields?, if_neg]
    all_goals simp_all

/-- A name is read as it is, whatever it holds. -/
theorem fields?_field (s : String) :
    fields? lines now ((field s).toList ++ rest) = fields? lines (now ++ s.toList) rest := by
  rw [field, String.toList_ofList]
  induction s.toList generalizing now with
  | nil => simp
  | cons c cs ih =>
    rw [List.flatMap_cons, List.append_assoc, fields?_fieldChar, ih, List.append_assoc, List.singleton_append]

theorem fields?_names (names : List String) :
    fields? lines [] ((String.join (names.map fun n => field n ++ lineEnd)).toList ++ rest) =
      fields? (lines ++ names) [] rest := by
  induction names generalizing lines with
  | nil => simp
  | cons n names ih =>
    simp only [List.map_cons, String.join_cons, String.toList_append, List.append_assoc]
    rw [fields?_field, fields?_lineEnd, ih, List.nil_append, String.ofList_toList, List.append_assoc,
      List.singleton_append]

theorem fields?_fields (fields : List (List String)) :
    fields? lines now ((String.join (fields.map fun names =>
        "|" ++ String.join (names.map fun n => field n ++ lineEnd))).toList ++ "\x7d".toList) =
      some (⟨lines, String.ofList now⟩ :: fields.map fun names => ⟨names, ""⟩) := by
  induction fields generalizing lines now with
  | nil => rfl
  | cons names fields ih =>
    simp only [List.map_cons, String.join_cons, String.toList_append, List.append_assoc] at ih ⊢
    rw [fields?_bar, fields?_names, ih]
    rfl

theorem fields?_row (names : List String) :
    fields? lines now
        ((String.join (names.map fun n => lineEnd ++ "+ " ++ field n)).toList ++ (lineEnd.toList ++ rest)) =
      fields? (lines ++ String.ofList now :: names.map ("+ " ++ ·)) [] rest := by
  induction names generalizing lines now with
  | nil => exact fields?_lineEnd
  | cons n names ih =>
    -- The line end stands before each name, and ends the line of the one before.
    have hplus : ∀ rest', fields? (lines ++ [String.ofList now]) [] ("+ ".toList ++ rest') =
        fields? (lines ++ [String.ofList now]) "+ ".toList rest' := fun _ => rfl
    have hname : String.ofList ("+ ".toList ++ n.toList) = "+ " ++ n := by
      rw [← String.toList_append, String.ofList_toList]
    simp only [List.map_cons, String.join_cons, String.toList_append, List.append_assoc] at ih ⊢
    rw [fields?_lineEnd, hplus, fields?_field, ih, hname, List.append_assoc]
    rfl

theorem intercalate_lineEnd {rows : List String} (h : rows ≠ []) :
    lineEnd.intercalate rows ++ lineEnd = String.join (rows.map (· ++ lineEnd)) := by
  induction rows with
  | nil => exact absurd rfl h
  | cons r rows ih =>
    cases rows with
    | nil => simp
    | cons r' rows =>
      rw [String.intercalate_cons_cons, List.map_cons, String.join_cons, ← ih (by simp)]
      simp only [String.append_assoc]

theorem fields?_rows (files : List (String × List String)) :
    fields? lines []
        ((String.join ((files.map fun (path, names) =>
          field path ++ String.join (names.map fun n => lineEnd ++ "+ " ++ field n)).map (· ++ lineEnd))).toList ++
          "\x7d".toList) =
      some [⟨lines ++ files.flatMap rowLines, ""⟩] := by
  induction files generalizing lines with
  | nil => simp; rfl
  | cons e files ih =>
    simp only [List.map_cons, String.join_cons, String.toList_append, List.append_assoc]
    rw [fields?_field, fields?_row, ih, List.nil_append, String.ofList_toList, List.flatMap_cons, rowLines,
      List.append_assoc]

/-- A directory that stands for files has a row for each; there is at least one. -/
def Label.Filled : Label → Prop
  | .fields _ _ => True
  | .rows _ files => files ≠ []

theorem fields?_text {l : Label} (h : l.Filled) :
    fields? [] [] (l.text.toList ++ "\x7d".toList) = some l.contents := by
  cases l with
  | fields title names =>
    rw [Label.text, String.toList_append, List.append_assoc, fields?_field, fields?_fields, List.nil_append,
      String.ofList_toList, Label.contents]
  | rows title files =>
    -- Without any row the last line end would end an empty line.
    have hrows : fields? [] [] _ = some [⟨[] ++ _, ""⟩] := fields?_rows files
    rw [← intercalate_lineEnd (by simpa [Label.Filled] using h)] at hrows
    rw [Label.text]
    simp only [String.toList_append, List.append_assoc] at hrows ⊢
    rw [fields?_field, fields?_lineEnd, fields?_bar, hrows]
    simp [Label.contents]

end Records

/-! ## Statements -/

/-- The statements `ss`, read inside of `depth` braces, are read as what they are to say, and
end inside of `depth'` braces. -/
def Reads (depth : Nat) (ss : List (Nat × Statement)) (depth' : Nat) : Prop :=
  ∀ ts, phrases? depth (ss.flatMap (·.2.tokens) ++ ts) =
    (phrases? depth' ts).map ((ss.map fun s => (s.1, s.2.phrase)) ++ ·)

namespace Reads

variable {depth depth' depth'' : Nat} {ss ss' : List (Nat × Statement)}

theorem nil : Reads depth [] depth := by
  intro ts
  simp

theorem append (h : Reads depth ss depth') (h' : Reads depth' ss' depth'') : Reads depth (ss ++ ss') depth'' := by
  intro ts
  rw [List.flatMap_append, List.append_assoc, h, h', Option.map_map]
  simp [Function.comp_def]

theorem record (id : String) {l : Label} (h : l.Filled) : Reads depth [(depth, .record id l)] depth := by
  intro ts
  have htext : ("\x7b" ++ l.text ++ "\x7d").toList = '\x7b' :: (l.text.toList ++ "\x7d".toList) := by simp
  show phrases? depth (.quoted _ :: .sign '[' :: .word "label" :: .sign '=' :: .quoted _ :: .sign ']' :: ts) = _
  rw [htext, phrases?_record, fields?_text h, plain_quote]
  rfl

theorem opening (n : Nat) : Reads depth [(depth, .opening n)] (depth + 1) := by
  intro ts
  show phrases? depth (.word "subgraph" :: .word _ :: .sign '\x7b' :: ts) = _
  rw [phrases?_opening]
  rfl

theorem label (path : String) : Reads depth [(depth, .label path)] depth := by
  intro ts
  show phrases? depth (.word "label" :: .sign '=' :: .quoted _ :: ts) = _
  rw [phrases?_label, plain_quote]
  rfl

theorem closing : Reads (depth + 2) [(depth + 1, .closing)] (depth + 1) := by
  intro ts
  exact phrases?_closing ts

theorem edge (e : Edge) : Reads depth [(depth, .edge e)] depth := by
  intro ts
  show phrases? depth (.quoted _ :: .word "->" :: .quoted _ :: ts) = _
  rw [phrases?_edge, plain_quote, plain_quote]
  rfl

end Reads

end Dot

/-- A directory that is drawn as one node stands for some file. -/
def Node.Filled : Node → Prop
  | file _ => True
  | folded _ files => files ≠ []

theorem Node.filled_record {n : Node} (h : n.Filled) (symbols : Bool) : (n.record symbols).2.Filled := by
  cases n with
  | file f => trivial
  | folded path files =>
    cases symbols with
    | false => trivial
    | true => simpa [Node.record, Dot.Label.ofFolded, Dot.Label.Filled, Filled] using h

namespace Dot

theorem reads_statementsOf {symbols : Bool} {level : Nat} {ds : List Drawn}
    (h : ∀ d ∈ ds, ∀ next, Reads level (statements symbols level next d) level) (next : Nat) :
    Reads level (statementsOf symbols level next ds) level := by
  induction ds generalizing next with
  | nil => exact .nil
  | cons d ds ih =>
    rw [statementsOf]
    exact (h d List.mem_cons_self next).append (ih (fun d hd => h d (List.mem_cons_of_mem _ hd)) _)

theorem reads_statements (symbols : Bool) {d : Drawn} (h : ∀ n ∈ d.nodes, n.Filled) (level next : Nat) :
    Reads (level + 1) (statements symbols (level + 1) next d) (level + 1) := by
  induction d generalizing level next with
  | file f =>
    rw [statements]
    exact .record _ (Node.filled_record (n := .file f) trivial symbols)
  | folded path files =>
    rw [statements]
    exact .record _ (Node.filled_record (n := .folded path files) (h _ (by simp [Drawn.nodes])) symbols)
  | cluster path items ih =>
    have hitems : Reads (level + 2) (statementsOf symbols (level + 2) (next + 1) items) (level + 2) := by
      refine reads_statementsOf (fun d hd next => ih d hd (fun n hn => h n ?_) _ next) _
      rw [Drawn.nodes]
      exact List.mem_flatMap.2 ⟨d, hd, hn⟩
    rw [statements]
    exact (Reads.opening next).append ((Reads.label path).append (hitems.append .closing))

theorem reads_edgeStatements (d : Drawing) : Reads 1 (edgeStatements d) 1 := by
  rw [edgeStatements]
  induction d.edges with
  | nil => exact .nil
  | cons e es ih => exact (Reads.edge e).append ih

theorem filled_drawing (g : Graph) (options : DrawOptions) (rules : CollapseRules) (filter : PathFilter) :
    ∀ n ∈ (g.drawing options rules filter).nodes, n.Filled := by
  intro n hn
  have hdraws := g.drawing_draws options rules filter
  cases n with
  | file f => trivial
  | folded path fs =>
    obtain ⟨e, he, hs⟩ := hdraws.mem_folded.1 ⟨fs, hn⟩
    rintro rfl
    have hinside := (hdraws.inside path [] hn).symm.subset
      (List.mem_map_of_mem (List.mem_filter.2 ⟨he, by simpa using hs⟩))
    exact absurd hinside List.not_mem_nil

theorem phrases?_header (ts : List Token) :
    phrases? 1 (headerTokens.drop 3 ++ ts) = (phrases? 1 ts).map (headerPhrases ++ ·) := by
  have hsettings : phrases? 1 (headerTokens.drop 3 ++ ts) =
      (((phrases? 1 ts).map ((1, .setting "edge" "color" "#00000033") :: ·)).map
        ((1, .setting "node" "shape" "record") :: ·)).map ((1, .setting "graph" "splines" "polyline") :: ·) := rfl
  rw [hsettings, Option.map_map, Option.map_map]
  rfl

/-- Of the text of a graph's picture a reader gets the settings of the header and then what
the statements are to say, in order, at the depths they were written at. -/
theorem read_render (g : Graph) (options : DrawOptions) (rules : CollapseRules) (filter : PathFilter) :
    read (render g options rules filter) =
      some (headerPhrases ++ (printed g options rules filter).map fun s => (s.1, s.2.phrase)) := by
  have hnodes : Reads 1 (nodeStatements options.symbols (g.drawing options rules filter)) 1 := by
    refine reads_statementsOf (fun d hd next => reads_statements _ (fun n hn => ?_) 0 next) 0
    exact filled_drawing g options rules filter n (List.mem_flatMap.2 ⟨d, hd, hn⟩)
  have hall : Reads 1 (printed g options rules filter) 1 := hnodes.append (reads_edgeStatements _)
  unfold read
  rw [tokens?_render, Option.bind_some, List.append_assoc]
  show phrases? 1 (headerTokens.drop 3 ++ _) = _
  have hend : phrases? 1 [.sign '\x7d'] = some [] := rfl
  rw [phrases?_header, hall, hend]
  simp

example : read (render (graphOf ["./\"];\x7d"] []) {} .none .all) =
    some (headerPhrases ++ [(1, .record "./\"];\x7d" [⟨[], "./\"];\x7d"⟩])]) := by
  decide +kernel

end Dot

end ImportAtlas
