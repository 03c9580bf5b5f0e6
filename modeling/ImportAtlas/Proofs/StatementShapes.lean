import ImportAtlas.Proofs.WrittenSymbols
import Mathlib.Data.List.Forall2
/-!
# Shapes of statements

What a statement that imports or exports is made of: the tokens and nodes of each way to write
one, in order, as the grammars have them. Comments may stand between any two. A `Form` tells
which way a statement is written, and with it the text in quotes that names a module, if
there is one.
-/

namespace ImportAtlas.SyntaxTree

/-! ## Slots -/

/-- What stands at one place of a node: in a field, or in none, and what it is, if that is always the same. -/
structure Slot where
  field : Option String
  label : Option Label
  deriving DecidableEq

namespace Slot

def token (kind : String) : Slot := ⟨none, some ⟨kind, false, false⟩⟩

def node (kind : String) : Slot := ⟨none, some ⟨kind, true, false⟩⟩

def inField (field kind : String) : Slot := ⟨some field, some ⟨kind, true, false⟩⟩

/-- Whatever node is in a field. -/
def anyIn (field : String) : Slot := ⟨some field, none⟩

/-- The text in quotes that names a module. -/
def source : Slot := inField "source" "string"

def Fits (s : Slot) (t : Layout) : Prop := t.field = s.field ∧ ∀ l ∈ s.label, t.label = l

instance (s : Slot) (t : Layout) : Decidable (s.Fits t) :=
  inferInstanceAs (Decidable (t.field = s.field ∧ ∀ l ∈ s.label, t.label = l))

end Slot

/-- What is related to something in the other list. -/
theorem exists_of_mem_forall₂ {α β : Type} {R : α → β → Prop} {as : List α} {bs : List β} {a : α}
    (h : List.Forall₂ R as bs) (ha : a ∈ as) : ∃ b ∈ bs, R a b := by
  induction h with
  | nil => cases ha
  | @cons a' b as bs hb _ ih =>
    rcases List.mem_cons.1 ha with rfl | ha
    · exact ⟨b, List.mem_cons_self, hb⟩
    · obtain ⟨b', hb', h⟩ := ih ha
      exact ⟨b', List.mem_cons_of_mem _ hb', h⟩

/-- All ways to take one of each of several choices, side by side. -/
def sequences : List (List (List Slot)) → List (List Slot)
  | [] => [[]]
  | choice :: choices => choice.flatMap fun slots => (sequences choices).map (slots ++ ·)

/-- What may be there or not. -/
def maybe (s : Slot) : List (List Slot) := [[], [s]]

namespace Layout

/-- What the grammars allow anywhere. -/
def isComment (t : Layout) : Bool := t.kind = "comment" || t.kind = "html_comment"

/-- What a node is made of besides comments, which are in no field. -/
structure HasShape (t : Layout) (shape : List Slot) : Prop where
  fits : List.Forall₂ Slot.Fits shape (t.parts.filter (!·.isComment))
  comments : ∀ p ∈ t.parts, p.isComment = true → p.field = none

instance (t : Layout) (shape : List Slot) : Decidable (t.HasShape shape) :=
  decidable_of_iff (List.Forall₂ Slot.Fits shape (t.parts.filter (!·.isComment)) ∧
    ∀ p ∈ t.parts, p.isComment = true → p.field = none) ⟨fun h => ⟨h.1, h.2⟩, fun h => ⟨h.1, h.2⟩⟩

variable {t p : Layout} {shape : List Slot} {q : Layout → Bool} {r : Slot → Bool}

/-- As many nodes as the shape has slots for. -/
theorem HasShape.length_filter (h : t.HasShape shape) (hq : ∀ s ∈ shape, ∀ p, s.Fits p → q p = r s)
    (hcomment : ∀ p, p.isComment = true → p.field = none → q p = false) : (t.parts.filter q).length = shape.countP r := by
  have hsame : ∀ {slots : List Slot} {ps : List Layout}, List.Forall₂ Slot.Fits slots ps →
      (∀ s ∈ slots, ∀ p, s.Fits p → q p = r s) → (ps.filter q).length = slots.countP r := by
    intro slots ps hfits hq
    induction hfits with
    | nil => rfl
    | @cons s p slots ps hp _ ih =>
      obtain ⟨hs, hslots⟩ := List.forall_mem_cons.1 hq
      rw [List.countP_cons, List.filter_cons, hs p hp, ← ih hslots]
      split <;> rfl
  -- The nodes that are no comments fit the slots one by one, and `q` takes no comment.
  rw [← hsame h.fits hq, List.filter_filter]
  refine congrArg List.length (List.filter_congr fun p hp => ?_)
  cases hp' : p.isComment with
  | false => simp
  | true => simp [hcomment p hp' (h.comments p hp hp')]

/-- The one node for the one slot is found. -/
theorem HasShape.find?_eq_some (h : t.HasShape shape) (hq : ∀ s ∈ shape, ∀ p, s.Fits p → q p = r s)
    (hcomment : ∀ p, p.isComment = true → p.field = none → q p = false) (hone : shape.countP r = 1)
    (hp : p ∈ t.parts) (hqp : q p = true) : t.parts.find? q = some p := by
  have hlength := (h.length_filter hq hcomment).trans hone
  obtain ⟨p', hfilter⟩ := List.length_eq_one_iff.1 hlength
  have hmem : p ∈ t.parts.filter q := List.mem_filter.2 ⟨hp, hqp⟩
  rw [hfilter, List.mem_singleton] at hmem
  rw [← List.head?_filter, hfilter, hmem, List.head?_cons]

theorem HasShape.find?_eq_none (h : t.HasShape shape) (hq : ∀ s ∈ shape, ∀ p, s.Fits p → q p = r s)
    (hcomment : ∀ p, p.isComment = true → p.field = none → q p = false) (hnone : shape.countP r = 0) :
    t.parts.find? q = none := by
  have hlength := (h.length_filter hq hcomment).trans hnone
  rw [← List.head?_filter, List.length_eq_zero_iff.1 hlength, List.head?_nil]

/-- A slot has a node. -/
theorem HasShape.exists_part {s : Slot} (h : t.HasShape shape) (hs : s ∈ shape) : ∃ p ∈ t.parts, s.Fits p := by
  obtain ⟨p, hp, hfits⟩ := exists_of_mem_forall₂ h.fits hs
  exact ⟨p, (List.mem_filter.1 hp).1, hfits⟩

/-- A node in a field has a slot. -/
theorem HasShape.exists_fits {field : String} (h : t.HasShape shape) (hp : p ∈ t.parts) (hfield : p.field = some field) :
    ∃ s ∈ shape, s.Fits p := by
  refine exists_of_mem_forall₂ (R := flip Slot.Fits) h.fits.flip (List.mem_filter.2 ⟨hp, ?_⟩)
  cases hcomment : p.isComment with
  | false => rfl
  | true =>
    rw [h.comments p hp hcomment] at hfield
    cases hfield

/-! ### Nodes in a field -/

variable {field kind : String}

theorem Slot.Fits.field_eq {s : Slot} (h : s.Fits p) : decide (p.field = some field) = decide (s.field = some field) := by
  rw [h.1]

theorem HasShape.part?_eq_some (h : t.HasShape shape) (hone : shape.countP (·.field = some field) = 1)
    (hp : p ∈ t.parts) (hfield : p.field = some field) : t.part? field = some p :=
  h.find?_eq_some (fun _ _ _ hfits => Slot.Fits.field_eq hfits) (fun _ _ hnone => by simp [hnone]) hone hp (by simpa)

theorem HasShape.part?_eq_none (h : t.HasShape shape) (hnone : shape.countP (·.field = some field) = 0) :
    t.part? field = none :=
  h.find?_eq_none (fun _ _ _ hfits => Slot.Fits.field_eq hfits) (fun _ _ hnone => by simp [hnone]) hnone

/-- A slot for a node of a kind. -/
def IsOfKind (kind : String) (s : Slot) : Bool := s.label.any fun l => l.isNamed && l.kind = kind

/-- A node of some kind, where each slot says of which kind its node is. -/
theorem HasShape.firstOfKind_eq_some (h : t.HasShape shape) (hlabels : ∀ s ∈ shape, s.label.isSome = true)
    (hkind : kind ≠ "comment" ∧ kind ≠ "html_comment") (hone : shape.countP (IsOfKind kind) = 1)
    (hp : p ∈ t.parts) (hlabel : p.label = ⟨kind, true, false⟩) : t.firstOfKind kind = some p := by
  rw [firstOfKind, namedParts, List.find?_filter]
  refine h.find?_eq_some (fun s hs p hfits => ?_) (fun p hp _ => ?_) hone hp ?_
  · obtain ⟨l, hl⟩ := Option.isSome_iff_exists.1 (hlabels s hs)
    simp [IsOfKind, isNamed, Layout.kind, hfits.2 l hl, hl]
  · have hne : p.kind ≠ kind := by
      rintro rfl
      rw [isComment, Bool.or_eq_true, decide_eq_true_eq, decide_eq_true_eq] at hp
      exact hp.elim hkind.1 hkind.2
    simp [hne]
  · simp [isNamed, Layout.kind, hlabel]

end Layout

/-! ## Statements that import and export -/

section Shapes

open Slot

/-- Words that say that only types are meant. -/
def typeMarks (d : Dialect) : List (List Slot) :=
  if d.hasTypes then [[], [token "type"], [token "typeof"]] else [[]]

/-- Imports of names of a module, or of the module for what it does. -/
def importShapes (d : Dialect) : List (List Slot) :=
  sequences [[[token "import"]], typeMarks d, [[node "import_clause", token "from", source], [source]],
    maybe (node "import_attribute"), maybe (token ";")]

/-- Imports by `require`. -/
def requireShapes (d : Dialect) : List (List Slot) :=
  if d.hasTypes then
    sequences [[[token "import"]], typeMarks d, [[node "import_require_clause"]], maybe (node "import_attribute"),
      maybe (token ";")]
  else []

/-- What is said after `import` in an import by `require`. The text in quotes is in a field in some
versions of the grammar. -/
def requireClauseShapes : List (List Slot) :=
  sequences [[[node "identifier", token "=", token "require", token "("]], [[source], [node "string"]], [[token ")"]]]

/-- Names in braces, which may be said to be names of types. -/
def exportClauses (d : Dialect) : List (List Slot) :=
  if d.hasTypes then [[node "export_clause"], [token "type", node "export_clause"]] else [[node "export_clause"]]

/-- Exports of what another module exports. -/
def fromShapes (d : Dialect) : List (List Slot) :=
  sequences [[[token "export"]], [[token "*"], [node "namespace_export"]] ++ exportClauses d, [[token "from", source]],
    maybe (token ";")]

/-- Exports of names of the file itself. -/
def nameShapes (d : Dialect) : List (List Slot) :=
  sequences [[[token "export"]], exportClauses d, maybe (token ";")] ++
    if d.hasTypes then
      sequences [[[token "export"]], [[token "=", ⟨none, none⟩], [token "as", token "namespace", node "identifier"]],
        maybe (token ";")] ++ [[token "export", token "import", node "import_alias"]]
    else []

/-- Exports of declarations. -/
def declarationShapes : List (List Slot) :=
  [[token "export", anyIn "declaration"], [token "export", token "default", anyIn "declaration"]]

/-- Exports of a value by default. -/
def valueShapes : List (List Slot) :=
  sequences [[[token "export", token "default", anyIn "value"]], maybe (token ";")]

/-- What may stand before an export that declares something. -/
def decorators (n : Nat) : List Slot := List.replicate n (inField "decorator" "decorator")

end Shapes

open Layout

/-- How a statement is written, and the text in quotes by which it names a module. -/
inductive Form (d : Dialect) (t : Layout) : Option (List Char) → Prop
  | imported {shape : List Slot} {literal : Layout} (hkind : t.kind = "import_statement") (hshape : shape ∈ importShapes d)
      (h : t.HasShape shape) (hliteral : literal ∈ t.parts) (hfield : literal.field = some "source") :
      Form d t (some literal.text)
  | required {shape clauseShape : List Slot} {clause literal : Layout} (hkind : t.kind = "import_statement")
      (hshape : shape ∈ requireShapes d) (h : t.HasShape shape) (hclause : clause ∈ t.parts)
      (hlabel : clause.label = ⟨"import_require_clause", true, false⟩) (hclauseShape : clauseShape ∈ requireClauseShapes)
      (hin : clause.HasShape clauseShape) (hliteral : literal ∈ clause.parts)
      (hstring : literal.label = ⟨"string", true, false⟩) : Form d t (some literal.text)
  | exportedFrom {shape : List Slot} {literal : Layout} (hkind : t.kind = "export_statement")
      (hshape : shape ∈ fromShapes d) (h : t.HasShape shape) (hliteral : literal ∈ t.parts)
      (hfield : literal.field = some "source") : Form d t (some literal.text)
  | exported {shape : List Slot} (hkind : t.kind = "export_statement") (n : Nat)
      (hshape : shape ∈ nameShapes d ++ (declarationShapes ++ valueShapes).map (decorators n ++ ·)) (h : t.HasShape shape) :
      Form d t none
  /-- Whatever is in it. -/
  | other (himport : t.kind ≠ "import_statement") (hexport : t.kind ≠ "export_statement") : Form d t none

/-! ## Where the text in quotes is -/

variable {d : Dialect} {t literal clause : Layout} {shape : List Slot}

theorem importShapes_source : ∀ shape ∈ importShapes d, shape.countP (·.field = some "source") = 1 := by
  cases d <;> decide

theorem fromShapes_source : ∀ shape ∈ fromShapes d, shape.countP (·.field = some "source") = 1 := by
  cases d <;> decide

theorem requireShapes_clause : ∀ shape ∈ requireShapes d, shape.countP (·.field = some "source") = 0 ∧
    (∀ s ∈ shape, s.label.isSome = true) ∧ shape.countP (IsOfKind "import_require_clause") = 1 := by
  cases d <;> decide

theorem requireClauseShapes_string : ∀ shape ∈ requireClauseShapes, (∀ s ∈ shape, s.label.isSome = true) ∧
    shape.countP (IsOfKind "string") = 1 ∧ ∀ s ∈ shape, s.field = some "source" → s.label = some ⟨"string", true, false⟩ := by
  decide

theorem countP_decorators {field : String} (hfield : field ≠ "decorator") (n : Nat) :
    (decorators n ++ shape).countP (·.field = some field) = shape.countP (·.field = some field) := by
  rw [List.countP_append, decorators, List.countP_replicate]
  simp [Slot.inField, Ne.symm hfield]

theorem localShapes_source {n : Nat} :
    ∀ shape ∈ nameShapes d ++ (declarationShapes ++ valueShapes).map (decorators n ++ ·),
      shape.countP (·.field = some "source") = 0 := by
  have hnames : ∀ shape ∈ nameShapes d, shape.countP (·.field = some "source") = 0 := by cases d <;> decide
  have hdeclared : ∀ shape ∈ declarationShapes ++ valueShapes, shape.countP (·.field = some "source") = 0 := by decide
  intro shape hshape
  rcases List.mem_append.1 hshape with hshape | hshape
  · exact hnames shape hshape
  · obtain ⟨declared, hmem, rfl⟩ := List.mem_map.1 hshape
    rw [countP_decorators (by decide)]
    exact hdeclared declared hmem

/-- What is found first in the field for the text in quotes, or of its kind, is that text. -/
theorem requireClause_string (hshape : shape ∈ requireClauseShapes) (h : clause.HasShape shape)
    (hliteral : literal ∈ clause.parts) (hlabel : literal.label = ⟨"string", true, false⟩) :
    (clause.part? "source").or (clause.firstOfKind "string") = some literal := by
  obtain ⟨hlabels, hone, hfield⟩ := requireClauseShapes_string shape hshape
  have hstring := h.firstOfKind_eq_some hlabels (by decide) hone hliteral hlabel
  cases hsource : clause.part? "source" with
  | none => rw [Option.none_or, hstring]
  | some p =>
    -- What is in the field is of the kind, and there is only one node of the kind.
    obtain ⟨hp, hpfield⟩ := mem_of_part? hsource
    obtain ⟨s, hs, hfits⟩ := h.exists_fits hp hpfield
    have hplabel := hfits.2 _ (hfield s hs (hfits.1.symm.trans hpfield))
    rw [Option.some_or, ← h.firstOfKind_eq_some hlabels (by decide) hone hp hplabel, hstring]

end ImportAtlas.SyntaxTree
