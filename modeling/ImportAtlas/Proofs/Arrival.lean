import ImportAtlas.Walk
/-!
# One file of a walk

What a walk does with a file that it meets first, before it follows any import
(`arrive_readable`). It depends on the file's own text, on whether symbols are collected, and
on nothing else of the walk: not on the files that were read before.
-/

namespace ImportAtlas

/-- What a reader makes of a file does not depend on what it read before. -/
theorem SourceReader.read_fst (r : SourceReader) (p : Path) (text : String) :
    (r.read p text).1 = match Dialect.ofPath? p with
      | none => .error (.unsupportedFile p)
      | some d => .ok (readSource d text) := by
  unfold read
  cases hd : Dialect.ofPath? p with
  | none => rfl
  | some d =>
    have hset : (r.setTo d).dialect = some d := by
      unfold setTo
      split
      · next h => exact h
      · rfl
    simp only [hset]

namespace Walk

/-- What is known of a file that holds `text`, if it is in a language there is. -/
def summaryOf? (p : Path) (text : String) : Option SourceSummary := (Dialect.ofPath? p).map (readSource · text)

/-- The node of a file. Symbols that stand before a syntax error are collected too. -/
def nodeOf (o : ResolveOptions) (symbols : Bool) (p : Path) (text : String) : FileNode :=
  ⟨p, ShortPath.of p o.root, if symbols then ((summaryOf? p text).map (·.exports)).getD [] else []⟩

/-- What is wrong with a file as a whole. -/
def faultOf? (p : Path) (text : String) : Option Problem :=
  match summaryOf? p text with
  | none => some (.unsupportedFile p)
  | some m => if m.hasError then some (.malformedSource p) else none

/-- The specifiers that are followed from a file. -/
def specifiersOf (p : Path) (text : String) : List String :=
  match summaryOf? p text with
  | none => []
  | some m => if m.hasError then [] else m.imports

variable {s : Snapshot} {p : Path} {w : Walk}

theorem arrive_unreadable {o : ResolveOptions} {symbols : Bool} {c : ReadError} (h : s.readText p = .error c) :
    arrive s o symbols p w = (none, [], (w.visit p).report (.unreadableFile p c)) := by
  unfold arrive
  simp only [h]

/-- A file that can be read becomes a node. -/
theorem arrive_readable (o : ResolveOptions) (symbols : Bool) (w : Walk) {text : String} (h : s.readText p = .ok text) :
    ∃ w', arrive s o symbols p w =
        (some (w.graph.addFile (nodeOf o symbols p text)).2, specifiersOf p text, w') ∧
      w'.visited = p :: w.visited ∧ w'.graph = (w.graph.addFile (nodeOf o symbols p text)).1 ∧
      w'.problems = w.problems ++ (faultOf? p text).toList := by
  have hread := SourceReader.read_fst (w.visit p).reader p text
  unfold arrive nodeOf specifiersOf faultOf? summaryOf?
  simp only [h]
  cases hd : Dialect.ofPath? p with
  | none =>
    simp only [hd] at hread
    rw [hread]
    exact ⟨_, rfl, rfl, rfl, rfl⟩
  | some d =>
    simp only [hd] at hread
    rw [hread]
    simp only [Option.map_some]
    cases (readSource d text).hasError with
    | true => exact ⟨_, rfl, rfl, rfl, rfl⟩
    | false => exact ⟨_, rfl, rfl, rfl, (List.append_nil _).symm⟩

end Walk

end ImportAtlas
