import ImportAtlas.Proofs.DrawnRecords
/-!
# Names stay inside their quotes

The text of a picture is cut into tokens: what stands between two quotes, words and
signs. Between quotes a backslash protects the character after it, and the first quote
that is not protected ends the token. Whatever characters the names of files and
symbols hold, the tokens are those of the header, of the statements one after the
other, and a closing brace (`tokens?_render`).
-/

namespace ImportAtlas

namespace Dot

inductive Token
  /-- What stands between two quotes, as it is written. -/
  | quoted (raw : List Char)
  | word (w : String)
  | sign (c : Char)
  deriving DecidableEq, Repr

/-- Where a reader is: outside quotes after the beginning of a word, inside quotes, or
inside quotes after a backslash that protects what comes next. -/
inductive Place
  | outside (word : List Char)
  | quoted (raw : List Char)
  | guarded (raw : List Char)
  deriving DecidableEq, Repr

/-- A reader of a text: the tokens that are done, and where it is. -/
structure Scan where
  done : List Token
  place : Place
  deriving DecidableEq, Repr

def signs : List Char := ['\x7b', '\x7d', '[', ']', '=', ';']

def wordOf (cs : List Char) : List Token := if cs = [] then [] else [.word (String.ofList cs)]

namespace Scan

def start : Scan := ⟨[], .outside []⟩

def step (s : Scan) (c : Char) : Scan :=
  match s.place with
  | .outside w =>
    if c = '"' then ⟨s.done ++ wordOf w, .quoted []⟩
    else if c ∈ signs then ⟨s.done ++ wordOf w ++ [.sign c], .outside []⟩
    else if c.isWhitespace then ⟨s.done ++ wordOf w, .outside []⟩
    else ⟨s.done, .outside (w ++ [c])⟩
  | .quoted raw =>
    if c = '\\' then ⟨s.done, .guarded raw⟩
    else if c = '"' then ⟨s.done ++ [.quoted raw], .outside []⟩
    else ⟨s.done, .quoted (raw ++ [c])⟩
  | .guarded raw => ⟨s.done, .quoted (raw ++ ['\\', c])⟩

def run (s : Scan) (cs : List Char) : Scan := cs.foldl step s

theorem run_append (s : Scan) (cs cs' : List Char) : s.run (cs ++ cs') = (s.run cs).run cs' := List.foldl_append

/-- What is done stays and has no part in what comes next. -/
theorem run_done (done : List Token) (place : Place) (cs : List Char) :
    run ⟨done, place⟩ cs = ⟨done ++ (run ⟨[], place⟩ cs).done, (run ⟨[], place⟩ cs).place⟩ := by
  induction cs generalizing done place with
  | nil => simp [run]
  | cons c cs ih =>
    have hstep : step ⟨done, place⟩ c = ⟨done ++ (step ⟨[], place⟩ c).done, (step ⟨[], place⟩ c).place⟩ := by
      cases place <;> simp only [step] <;> (repeat' split) <;> simp
    have hrun : ∀ s : Scan, run s (c :: cs) = run (step s c) cs := fun _ => rfl
    rw [hrun, hrun, hstep, ih, ih (step ⟨[], place⟩ c).done, List.append_assoc]

end Scan

/-- The tokens of a text, if all its quotes are closed. -/
def tokens? (text : String) : Option (List Token) :=
  match Scan.start.run text.toList with
  | ⟨done, .outside w⟩ => some (done ++ wordOf w)
  | _ => none

/-- A text with these tokens, after which a new one begins. -/
def Scans (text : String) (ts : List Token) : Prop := Scan.start.run text.toList = ⟨ts, .outside []⟩

instance (text : String) (ts : List Token) : Decidable (Scans text ts) :=
  inferInstanceAs (Decidable (Scan.start.run text.toList = ⟨ts, .outside []⟩))

theorem tokens?_of_scans {text : String} {ts : List Token} (h : Scans text ts) : tokens? text = some ts := by
  unfold tokens?
  rw [h]
  simp [wordOf]

namespace Scans

variable {text text' : String} {ts ts' : List Token}

theorem append (h : Scans text ts) (h' : Scans text' ts') : Scans (text ++ text') (ts ++ ts') := by
  unfold Scans Scan.start at *
  rw [String.toList_append, Scan.run_append, h, Scan.run_done, h']

theorem join {α : Type} {xs : List α} {list : α → String} {tokens : α → List Token}
    (h : ∀ x ∈ xs, Scans (list x) (tokens x)) : Scans (String.join (xs.map list)) (xs.flatMap tokens) := by
  induction xs with
  | nil => rfl
  | cons x xs ih =>
    rw [List.map_cons, String.join_cons, List.flatMap_cons]
    exact (h x List.mem_cons_self).append (ih fun y hy => h y (List.mem_cons_of_mem _ hy))

end Scans

/-! ## Inside quotes -/

/-- A text that does not end the quotes it stands in. -/
def Contained (text : String) : Prop :=
  ∀ done raw, Scan.run ⟨done, .quoted raw⟩ text.toList = ⟨done, .quoted (raw ++ text.toList)⟩

namespace Contained

variable {text text' : String}

theorem append (h : Contained text) (h' : Contained text') : Contained (text ++ text') := by
  intro done raw
  rw [String.toList_append, Scan.run_append, h, h', List.append_assoc]

theorem join {texts : List String} (h : ∀ t ∈ texts, Contained t) : Contained (String.join texts) := by
  induction texts with
  | nil =>
    intro done raw
    simp [Scan.run]
  | cons t texts ih =>
    rw [String.join_cons]
    exact (h t List.mem_cons_self).append (ih fun t' ht => h t' (List.mem_cons_of_mem _ ht))

theorem intercalate {sep : String} (hsep : Contained sep) {texts : List String} (h : ∀ t ∈ texts, Contained t) :
    Contained (sep.intercalate texts) := by
  induction texts with
  | nil =>
    intro done raw
    simp [Scan.run]
  | cons t texts ih =>
    have ht := h t List.mem_cons_self
    have hrest : ∀ t' ∈ texts, Contained t' := fun t' ht' => h t' (List.mem_cons_of_mem _ ht')
    cases texts with
    | nil => exact ht
    | cons t' texts =>
      rw [String.intercalate_cons_cons]
      exact (ht.append hsep).append (ih hrest)

/-- What is written for each character may be protected, or must not end the quotes. -/
theorem flatMap {f : Char → List Char} (h : ∀ c, f c = ['\\', c] ∨ f c = [c] ∧ c ≠ '\\' ∧ c ≠ '"') (s : String) :
    Contained (String.ofList (s.toList.flatMap f)) := by
  intro done raw
  rw [String.toList_ofList]
  induction s.toList generalizing raw with
  | nil => simp [Scan.run]
  | cons c cs ih =>
    rw [List.flatMap_cons, Scan.run_append]
    rcases h c with hc | ⟨hc, hback, hquote⟩
    · have hrun : Scan.run ⟨done, .quoted raw⟩ (f c) = ⟨done, .quoted (raw ++ f c)⟩ := by
        simp [hc, Scan.run, Scan.step]
      rw [hrun, ih, List.append_assoc]
    · have hrun : Scan.run ⟨done, .quoted raw⟩ (f c) = ⟨done, .quoted (raw ++ f c)⟩ := by
        simp [hc, Scan.run, Scan.step, hback, hquote]
      rw [hrun, ih, List.append_assoc]

theorem quote (s : String) : Contained (quote s) := by
  refine flatMap (fun c => ?_) s
  unfold quoteChar
  split
  · exact .inl rfl
  · next h => exact .inr ⟨rfl, by simpa using h⟩

theorem field (s : String) : Contained (field s) := by
  refine flatMap (fun c => ?_) s
  unfold fieldChar
  split
  · exact .inl rfl
  · next h =>
    simp only [Bool.or_eq_true, decide_eq_true_eq, not_or] at h
    exact .inr ⟨rfl, h.1.1.1.1.1.1, h.1.1.1.1.1.2⟩

theorem lineEnd : Contained lineEnd := by
  intro done raw
  rfl

theorem bar : Contained "|" := by
  intro done raw
  rfl

theorem plus : Contained "+ " := by
  intro done raw
  simp [Scan.run, Scan.step]

/-- No name in a record ends the record's text. -/
theorem label (l : Label) : Contained l.text := by
  cases l with
  | fields title names =>
    refine (field title).append (join fun t ht => ?_)
    obtain ⟨ns, -, rfl⟩ := List.mem_map.1 ht
    refine bar.append (join fun t ht => ?_)
    obtain ⟨n, -, rfl⟩ := List.mem_map.1 ht
    exact (field n).append lineEnd
  | rows title files =>
    refine ((((field title).append lineEnd).append bar).append (intercalate lineEnd fun t ht => ?_)).append lineEnd
    obtain ⟨⟨path, ns⟩, -, rfl⟩ := List.mem_map.1 ht
    refine (field path).append (join fun t ht => ?_)
    obtain ⟨n, -, rfl⟩ := List.mem_map.1 ht
    exact (lineEnd.append plus).append (field n)

end Contained

/-! ## Words -/

/-- A character that a word goes on with. -/
def inWord (c : Char) : Prop := c ≠ '"' ∧ c ∉ signs ∧ c.isWhitespace = false

theorem inWord_of_isDigit {c : Char} (h : c.isDigit = true) : inWord c := by
  have hne : ∀ b : Char, b.isDigit = false → c ≠ b := by
    rintro b hb rfl
    cases hb.symm.trans h
  refine ⟨hne _ rfl, ?_, ?_⟩
  · simp [signs, hne]
  · simp [Char.isWhitespace, hne]

theorem run_word {done : List Token} {w cs : List Char} (h : ∀ c ∈ cs, inWord c) :
    Scan.run ⟨done, .outside w⟩ cs = ⟨done, .outside (w ++ cs)⟩ := by
  induction cs generalizing w with
  | nil => simp [Scan.run]
  | cons c cs ih =>
    obtain ⟨hquote, hsign, hblank⟩ := h c List.mem_cons_self
    have hstep : Scan.step ⟨done, .outside w⟩ c = ⟨done, .outside (w ++ [c])⟩ := by
      simp [Scan.step, hquote, hsign, hblank]
    have hrest := ih (w := w ++ [c]) fun c' hc => h c' (List.mem_cons_of_mem _ hc)
    rw [List.append_assoc, List.singleton_append] at hrest
    rw [← hrest, ← hstep]
    rfl

/-- The name of a cluster. -/
def clusterName (n : Nat) : String := "cluster_" ++ toString n

/-- The number of a cluster belongs to its name. -/
theorem scans_clusterName (n : Nat) : Scans (clusterName n ++ " ") [.word (clusterName n)] := by
  have hdigits : ∀ c ∈ (toString n).toList, inWord c := by
    intro c hc
    rw [Nat.toString_eq_ofList_toDigits, String.toList_ofList] at hc
    exact inWord_of_isDigit (Nat.isDigit_of_mem_toDigits (by decide) (by decide) hc)
  have hname : Scan.start.run (clusterName n).toList = ⟨[], .outside (clusterName n).toList⟩ := by
    have hstart : Scan.start.run "cluster_".toList = ⟨[], .outside "cluster_".toList⟩ := rfl
    rw [clusterName, String.toList_append, Scan.run_append, hstart, run_word hdigits]
  have hne : (clusterName n).toList ≠ [] := by simp [clusterName]
  unfold Scans
  rw [String.toList_append, Scan.run_append, hname]
  simp [Scan.run, Scan.step, signs, wordOf, hne]

/-! ## Statements -/

/-- A text that stays inside its quotes is one token. -/
theorem Scans.quoted {text : String} (h : Contained text) : Scans ("\"" ++ text ++ "\"") [.quoted text.toList] := by
  have hopen : Scan.start.run "\"".toList = ⟨[], .quoted []⟩ := rfl
  unfold Scans
  rw [String.toList_append, String.toList_append, Scan.run_append, Scan.run_append, hopen, h, List.nil_append]
  rfl

def Statement.tokens : Statement → List Token
  | .record id l =>
    [.quoted (quote id).toList, .sign '[', .word "label", .sign '=', .quoted ("\x7b" ++ l.text ++ "\x7d").toList,
      .sign ']']
  | .opening n => [.word "subgraph", .word (clusterName n), .sign '\x7b']
  | .label path => [.word "label", .sign '=', .quoted (quote path).toList]
  | .closing => [.sign '\x7d']
  | .edge e => [.quoted (quote e.source).toList, .word "->", .quoted (quote e.target).toList]

theorem scans_record (id : String) (l : Label) : Scans (Statement.record id l).text (Statement.record id l).tokens := by
  have htext : (Statement.record id l).text =
      "\"" ++ quote id ++ "\"" ++ " [label=" ++ ("\"" ++ ("\x7b" ++ l.text ++ "\x7d") ++ "\"") ++ "]" := by
    unfold Statement.text
    apply String.toList_inj.1
    simp
  have hbefore : Scans " [label=" [.sign '[', .word "label", .sign '='] := by decide
  have hafter : Scans "]" [.sign ']'] := by decide
  have hbraces : Contained ("\x7b" ++ l.text ++ "\x7d") :=
    (Contained.append (fun _ _ => rfl) (.label l)).append fun _ _ => rfl
  rw [htext]
  exact (((Scans.quoted (.quote id)).append hbefore).append (.quoted hbraces)).append hafter

theorem scans_opening (n : Nat) : Scans (Statement.opening n).text (Statement.opening n).tokens := by
  have htext : (Statement.opening n).text = "subgraph " ++ (clusterName n ++ " ") ++ "\x7b" := by
    unfold Statement.text clusterName
    apply String.toList_inj.1
    simp
  have hbefore : Scans "subgraph " [.word "subgraph"] := by decide
  have hafter : Scans "\x7b" [.sign '\x7b'] := by decide
  rw [htext]
  exact (hbefore.append (scans_clusterName n)).append hafter

theorem scans_label (path : String) : Scans (Statement.label path).text (Statement.label path).tokens := by
  have htext : (Statement.label path).text = "label=" ++ ("\"" ++ quote path ++ "\"") := by
    unfold Statement.text
    apply String.toList_inj.1
    simp
  have hbefore : Scans "label=" [.word "label", .sign '='] := by decide
  rw [htext]
  exact hbefore.append (.quoted (.quote path))

theorem scans_edge (e : Edge) : Scans (Statement.edge e).text (Statement.edge e).tokens := by
  have htext : (Statement.edge e).text =
      "\"" ++ quote e.source ++ "\"" ++ " -> " ++ ("\"" ++ quote e.target ++ "\"") := by
    unfold Statement.text
    apply String.toList_inj.1
    simp
  have hbetween : Scans " -> " [.word "->"] := by decide
  rw [htext]
  exact ((Scans.quoted (.quote e.source)).append hbetween).append (.quoted (.quote e.target))

theorem scans_statement (s : Statement) : Scans s.text s.tokens := by
  cases s with
  | record id l => exact scans_record id l
  | opening n => exact scans_opening n
  | label path => exact scans_label path
  | closing => decide
  | edge e => exact scans_edge e

theorem scans_line (s : Nat × Statement) : Scans (line s) s.2.tokens := by
  have hblanks : Scans "  " [] := by decide
  have hindent : ∀ level : Nat, Scans (String.join (List.replicate level "  ")) [] := by
    intro level
    induction level with
    | zero => decide
    | succ level ih =>
      rw [List.replicate_succ, String.join_cons]
      exact hblanks.append ih
  have hend : Scans "\n" [] := by decide
  have h := ((hindent s.1).append (scans_statement s.2)).append hend
  rwa [List.nil_append, List.append_nil] at h

/-! ## Pictures -/

def headerTokens : List Token :=
  [.word "digraph", .word "g", .sign '\x7b',
    .word "graph", .sign '[', .word "splines", .sign '=', .word "polyline", .sign ']', .sign ';',
    .word "node", .sign '[', .word "shape", .sign '=', .word "record", .sign ']', .sign ';',
    .word "edge", .sign '[', .word "color", .sign '=', .quoted "#00000033".toList, .sign ']', .sign ';']

theorem scans_header : Scans header headerTokens := by
  decide +kernel

/-- The tokens of a picture's text are those of its statements, whatever the names hold. -/
theorem tokens?_render (g : Graph) (options : DrawOptions) (rules : CollapseRules) (filter : PathFilter) :
    tokens? (render g options rules filter) =
      some (headerTokens ++ (printed g options rules filter).flatMap (·.2.tokens) ++ [.sign '\x7d']) := by
  have hend : Scans "\x7d\n" [.sign '\x7d'] := by decide
  have hblank : Scans "\n" [] := by decide
  have hlines : ∀ ss : List (Nat × Statement), Scans (String.join (ss.map line)) (ss.flatMap (·.2.tokens)) :=
    fun ss => .join fun s _ => scans_line s
  have h := (((scans_header.append (hlines (nodeStatements options.symbols (g.drawing options rules filter)))).append
    hblank).append (hlines (edgeStatements (g.drawing options rules filter)))).append hend
  apply tokens?_of_scans
  rw [printed, List.flatMap_append, ← List.append_assoc]
  rwa [List.append_nil] at h

end Dot

end ImportAtlas
