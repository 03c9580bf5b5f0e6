import ImportAtlas.Path
import ImportAtlas.Sorting
import ImportAtlas.Symbol
/-!
# Import graphs

Files and the imports between them. A file is told by its path: adding a path
that is there already changes nothing. An import is a pair of files, recorded
once.

Every list the graph is read by is sorted, except `files`, which keeps the order
in which the files came.
-/

namespace ImportAtlas

/-- A source file: its path, the path it is shown as, and what it exports. -/
structure FileNode where
  path : Path
  short : String
  symbols : List Symbol
  deriving DecidableEq, Repr

/-- The symbols of one kind, in the order they are declared. -/
def FileNode.symbolsOf (f : FileNode) (kind : SymbolKind) : List Symbol :=
  f.symbols.filter (·.kind = kind)

/-- `source` imports `target`, both as they are shown. -/
structure Edge where
  source : String
  target : String
  deriving DecidableEq, Repr

namespace Edge

/-- By source, then by target. -/
def lt (a b : Edge) : Bool :=
  decide (a.source < b.source) || (a.source == b.source && decide (a.target < b.target))

/-- An edge from a place to itself. -/
def isLoop (e : Edge) : Bool := e.source == e.target

theorem eq_of_not_lt (a b : Edge) (h : a.lt b = false) (h' : b.lt a = false) : a = b := by
  simp only [lt, Bool.or_eq_false_iff, decide_eq_false_iff_not, Bool.and_eq_false_iff, beq_eq_false_iff_ne] at h h'
  have hsource : a.source = b.source := String.le_antisymm h'.1 h.1
  have htarget : a.target = b.target :=
    String.le_antisymm (h'.2.resolve_left fun hne => hne hsource.symm) (h.2.resolve_left fun hne => hne hsource)
  cases a
  cases b
  cases hsource
  cases htarget
  rfl

theorem lt_iff {a b : Edge} : a.lt b = true ↔ a.source < b.source ∨ a.source = b.source ∧ a.target < b.target := by
  simp [lt]

theorem lt_irrefl (a : Edge) : a.lt a = false := by simp [lt]

theorem lt_trans (a b c : Edge) (h : a.lt b = true) (h' : b.lt c = true) : a.lt c = true := by
  rw [lt_iff] at h h' ⊢
  rcases h with h | ⟨hs, ht⟩
  · rcases h' with h' | ⟨hs', -⟩
    · exact .inl (String.lt_trans h h')
    · exact .inl (hs' ▸ h)
  · rcases h' with h' | ⟨hs', ht'⟩
    · exact .inl (hs ▸ h')
    · exact .inr ⟨hs.trans hs', String.lt_trans ht ht'⟩

end Edge

/-- The number of a file in the order of arrival. -/
abbrev FileId := Nat

/-- Numbers looked up by path; `insert` leaves no two entries with the same path. -/
structure PathIndex where
  entries : List (Path × FileId)
  deriving DecidableEq, Repr

namespace PathIndex

def empty : PathIndex := ⟨[]⟩

def get? (ix : PathIndex) (p : Path) : Option FileId := (ix.entries.find? (·.1.same p)).map (·.2)

/-- With the number for the path, in place of the one it had. -/
def insert (ix : PathIndex) (p : Path) (i : FileId) : PathIndex :=
  ⟨(p, i) :: ix.entries.filter (!·.1.same p)⟩

@[simp] theorem get?_empty (p : Path) : empty.get? p = none := rfl

theorem get?_insert (ix : PathIndex) (p q : Path) (i : FileId) :
    (ix.insert p i).get? q = if p.same q then some i else ix.get? q := by
  unfold insert get?
  rw [List.find?_cons]
  split
  · next h => simp [h]
  · next h =>
    rw [List.find?_filter, if_neg (by simp [h])]
    congr 2
    funext e
    -- An entry that is left out has the path of `p`, so not that of `q`.
    cases hq : e.1.same q with
    | false => simp
    | true =>
      cases hp : e.1.same p with
      | false => rfl
      | true =>
        unfold Path.same at h hp hq
        simp only [beq_iff_eq] at hp hq
        simp [← hp, hq] at h

/-- The places of files by their paths. -/
def ofFiles (files : List FileNode) : PathIndex := files.zipIdx.foldl (fun ix (f, i) => ix.insert f.path i) .empty

end PathIndex

/-- Files in the order they came, imports between them, and the numbers of the
files by their paths. -/
structure Graph where
  files : List FileNode
  imports : List (FileId × FileId)
  byPath : PathIndex
  deriving DecidableEq, Repr

namespace Graph

def empty : Graph := ⟨[], [], .empty⟩

instance : Inhabited Graph := ⟨empty⟩

/-- The number of the file with this path. -/
def idOf? (g : Graph) (p : Path) : Option FileId := g.byPath.get? p

def file? (g : Graph) (i : FileId) : Option FileNode := g.files[i]?

/-- The graph with the file in it, and the file's number. A file whose path is
there already stays as it is. -/
def addFile (g : Graph) (f : FileNode) : Graph × FileId :=
  match g.byPath.get? f.path with
  | some i => (g, i)
  | none =>
    let i := g.files.length
    (⟨g.files ++ [f], g.imports, g.byPath.insert f.path i⟩, i)

/-- The graph with the import in it, and whether it is new. -/
def addImport (g : Graph) (source target : FileId) : Graph × Bool :=
  if (source, target) ∈ g.imports then (g, false)
  else (⟨g.files, g.imports ++ [(source, target)], g.byPath⟩, true)

/-- `addImport` between numbers that may not be in use; nothing then. -/
def addImport? (g : Graph) (source target : FileId) : Option (Graph × Bool) :=
  if source < g.files.length ∧ target < g.files.length then some (g.addImport source target) else none

/-- The graph with a file changed. The path it is looked up by stays the one it
was added with. -/
def modify (g : Graph) (i : FileId) (f : FileNode → FileNode) : Graph := ⟨g.files.modify i f, g.imports, g.byPath⟩

def fileCount (g : Graph) : Nat := g.files.length

def edgeCount (g : Graph) : Nat := g.imports.length

/-- The imports as they are shown, each once, in order. -/
def edges (g : Graph) : List Edge :=
  sortedSet Edge.lt (g.imports.filterMap fun (i, j) =>
    match g.file? i, g.file? j with
    | some a, some b => some ⟨a.short, b.short⟩
    | _, _ => none)

theorem mem_edges {g : Graph} {e : Edge} :
    e ∈ g.edges ↔ ∃ i j a b, (i, j) ∈ g.imports ∧ g.file? i = some a ∧ g.file? j = some b ∧ e = ⟨a.short, b.short⟩ := by
  rw [edges, mem_sortedSet Edge.eq_of_not_lt, List.mem_filterMap]
  constructor
  · rintro ⟨⟨i, j⟩, hm, h⟩
    dsimp only at h
    split at h
    · next a b ha hb => exact ⟨i, j, a, b, hm, ha, hb, (Option.some.inj h).symm⟩
    · cases h
  · rintro ⟨i, j, a, b, hm, ha, hb, rfl⟩
    exact ⟨(i, j), hm, by simp only [ha, hb]⟩

/-- The paths the files are shown as, each once, in order. -/
def shortPaths (g : Graph) : List String := sortedSet (fun a b => decide (a < b)) (g.files.map (·.short))

/-- How many files and imports there are, in words. -/
def summary (g : Graph) : String :=
  "DependencyGraph \x7b file_count: " ++ toString g.fileCount ++ ", edge_count: " ++ toString g.edgeCount ++ " \x7d"

end Graph

end ImportAtlas
