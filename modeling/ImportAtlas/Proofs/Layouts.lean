import ImportAtlas.SyntaxTree.Node
import Mathlib.Data.List.Basic
/-!
# Trees with their texts

A syntax tree cuts the text it is the tree of: a node is what stands before its first
part, the parts with what stands between them, and what follows the last one
(`Layout`). Nothing of the text is left out, whatever the parser is, so what a file
holds and where its nodes are can both be told from the layout: `Layout.text` and
`Layout.place`.

The text of a node that is placed in a source is the text of its layout
(`Sits.text?_place`), and the nodes in it are placed in the same source
(`Sits.of_mem_spots`). Trees that have a layout are those whose nodes stand in the source
one after another and each inside its parent (`exists_sourceTree`).
-/

namespace ImportAtlas.SyntaxTree

/-- A node with all of its text: what stands before it in its parent, the nodes in it
and what follows the last of them. -/
inductive Layout
  | mk (gap : List Char) (field : Option String) (label : Label) (parts : List Layout) (rest : List Char)

namespace Layout

def gap : Layout → List Char
  | mk gap _ _ _ _ => gap

def field : Layout → Option String
  | mk _ field _ _ _ => field

def label : Layout → Label
  | mk _ _ label _ _ => label

def parts : Layout → List Layout
  | mk _ _ _ parts _ => parts

def rest : Layout → List Char
  | mk _ _ _ _ rest => rest

def kind (t : Layout) : String := t.label.kind

def isNamed (t : Layout) : Bool := t.label.isNamed

def namedParts (t : Layout) : List Layout := t.parts.filter (·.isNamed)

def part? (t : Layout) (field : String) : Option Layout := t.parts.find? (·.field = some field)

/-- A token that is nothing but its text. -/
def token (gap text : String) : Layout := mk gap.toList none ⟨text, false, false⟩ [] text.toList

/-- A node of a kind without nodes in it. -/
def leaf (gap kind text : String) : Layout := mk gap.toList none ⟨kind, true, false⟩ [] text.toList

/-- A node of a kind that begins and ends with nodes in it. -/
def node (gap kind : String) (parts : List Layout) : Layout := mk gap.toList none ⟨kind, true, false⟩ parts []

def inField (field : String) : Layout → Layout
  | mk gap _ label parts rest => mk gap field label parts rest

mutual

/-- The text of a node, without what stands before it. -/
def text : Layout → List Char
  | mk _ _ _ parts rest => textOf parts ++ rest

/-- The text of nodes side by side. -/
def textOf : List Layout → List Char
  | [] => []
  | t :: ts => t.gap ++ t.text ++ textOf ts

end

/-- The place in a text after `before`. -/
def pointAfter (before : List Char) : Point := ⟨Text.byteLength before, before.count '\n'⟩

mutual

/-- The node where it stands after a text. -/
def place (before : List Char) : Layout → Node
  | mk _ field label parts rest =>
    .mk field label (pointAfter before) (pointAfter (before ++ (textOf parts ++ rest))) (placeAll before parts)

/-- Nodes side by side, where they stand after a text. -/
def placeAll (before : List Char) : List Layout → List Node
  | [] => []
  | t :: ts => t.place (before ++ t.gap) :: placeAll (before ++ t.gap ++ t.text) ts

end

/-- Nodes side by side, each with the text before it. -/
def spots (before : List Char) : List Layout → List (List Char × Layout)
  | [] => []
  | t :: ts => (before ++ t.gap, t) :: spots (before ++ t.gap ++ t.text) ts

/-- The node with another text before it. -/
def inGap (gap : List Char) : Layout → Layout
  | mk _ field label parts rest => mk gap field label parts rest

/-- The node in a field, with the text before it in its parent. -/
def spot? (t : Layout) (field : String) : Option (List Char × Layout) := (spots [] t.parts).find? (·.2.field = some field)

variable {t p : Layout} {ts : List Layout} {before front : List Char} {source : String}

theorem text_eq (t : Layout) : t.text = textOf t.parts ++ t.rest := by cases t; rw [text]; rfl

@[simp] theorem field_place : (t.place before).field = t.field := by cases t; rw [place]; rfl

@[simp] theorem label_place : (t.place before).label = t.label := by cases t; rw [place]; rfl

@[simp] theorem kind_place : (t.place before).kind = t.kind := by rw [Node.kind, label_place, kind]

@[simp] theorem isNamed_place : (t.place before).isNamed = t.isNamed := by rw [Node.isNamed, label_place, isNamed]

@[simp] theorem start_place : (t.place before).start = pointAfter before := by cases t; rw [place]; rfl

@[simp] theorem stop_place : (t.place before).stop = pointAfter (before ++ t.text) := by
  cases t
  rw [place, text]
  rfl

@[simp] theorem gap_inGap (gap : List Char) : (t.inGap gap).gap = gap := by cases t; rfl

@[simp] theorem field_inGap (gap : List Char) : (t.inGap gap).field = t.field := by cases t; rfl

@[simp] theorem label_inGap (gap : List Char) : (t.inGap gap).label = t.label := by cases t; rfl

@[simp] theorem parts_inGap (gap : List Char) : (t.inGap gap).parts = t.parts := by cases t; rfl

@[simp] theorem text_inGap (gap : List Char) : (t.inGap gap).text = t.text := by cases t; rw [inGap, text, text]

@[simp] theorem place_inGap (gap : List Char) : (t.inGap gap).place before = t.place before := by
  cases t
  rw [inGap, place, place]

theorem placeAll_eq : placeAll before ts = (spots before ts).map fun s => s.2.place s.1 := by
  induction ts generalizing before with
  | nil => rw [placeAll, spots, List.map_nil]
  | cons t ts ih => rw [placeAll, spots, List.map_cons, ih]

/-- The children of a node are the nodes in its layout, each at its spot. -/
theorem children_place : (t.place before).children = (spots before t.parts).map fun s => s.2.place s.1 := by
  cases t
  rw [place, Node.children, placeAll_eq]
  rfl

theorem textOf_append {us : List Layout} : textOf (ts ++ us) = textOf ts ++ textOf us := by
  induction ts with
  | nil => simp [textOf]
  | cons t ts ih => simp [textOf, ih]

/-- Behind a longer text the spots are as much further on. -/
theorem spots_shift : spots (front ++ before) ts = (spots before ts).map fun s => (front ++ s.1, s.2) := by
  induction ts generalizing before with
  | nil => rfl
  | cons t ts ih => simp [spots, ← ih]

theorem map_spots (before : List Char) (ts : List Layout) : (spots before ts).map (·.2) = ts := by
  induction ts generalizing before with
  | nil => rfl
  | cons t ts ih => rw [spots, List.map_cons, ih]

theorem mem_of_part? {field : String} (h : t.part? field = some p) : p ∈ t.parts ∧ p.field = some field :=
  ⟨List.mem_of_find?_eq_some h, by simpa using List.find?_some h⟩

theorem part?_eq_none_iff {field : String} : t.part? field = none ↔ ∀ p ∈ t.parts, p.field ≠ some field := by
  simp [part?]

theorem map_spot? (t : Layout) (field : String) : (t.spot? field).map (·.2) = t.part? field := by
  rw [spot?, part?]
  conv => rhs; rw [← map_spots [] t.parts, List.find?_map]
  rfl

theorem exists_spot? {field : String} (h : t.part? field = some p) : ∃ head, t.spot? field = some (head, p) := by
  rw [← map_spot?, Option.map_eq_some_iff] at h
  obtain ⟨⟨head, p⟩, hspot, rfl⟩ := h
  exact ⟨head, hspot⟩

theorem spot?_eq_none {field : String} (h : t.part? field = none) : t.spot? field = none := by
  rwa [← map_spot?, Option.map_eq_none_iff] at h

/-- The node in a field of a node that stands somewhere. -/
theorem childByField_place (field : String) :
    (t.place before).childByField field = (t.spot? field).map fun s => s.2.place (before ++ s.1) := by
  have hspots : spots before t.parts = (spots [] t.parts).map fun s => (before ++ s.1, s.2) := by
    conv => lhs; rw [← List.append_nil before, spots_shift]
  rw [Node.childByField, children_place, hspots, List.map_map, List.find?_map]
  simp [Function.comp_def, spot?]

/-- A node that stands in a source after a text. -/
def Sits (source : String) (before : List Char) (t : Layout) : Prop :=
  ∃ after, source.toList = before ++ (t.text ++ after)

/-- The bytes a node stands for are its text. -/
theorem Sits.text?_place (h : Sits source before t) : (t.place before).text? source = some (String.ofList t.text) := by
  obtain ⟨after, h⟩ := h
  rw [Node.text?, start_place, stop_place]
  exact Text.slice?_of_append h

theorem mem_spots {s : List Char × Layout} (h : s ∈ spots before ts) :
    ∃ us vs, ts = us ++ s.2 :: vs ∧ s.1 = before ++ (textOf us ++ s.2.gap) := by
  induction ts generalizing before with
  | nil => cases h
  | cons t ts ih =>
    rw [spots] at h
    rcases List.mem_cons.1 h with rfl | h
    · exact ⟨[], ts, rfl, by simp [textOf]⟩
    · obtain ⟨us, vs, rfl, hs⟩ := ih h
      exact ⟨t :: us, vs, rfl, by simp [hs, textOf]⟩

/-- The nodes in one that stands in a source stand in the same source. -/
theorem Sits.of_mem_spots {s : List Char × Layout} (h : Sits source before t) (hs : s ∈ spots before t.parts) :
    Sits source s.1 s.2 := by
  obtain ⟨after, h⟩ := h
  obtain ⟨us, vs, hparts, hbefore⟩ := mem_spots hs
  refine ⟨textOf vs ++ t.rest ++ after, ?_⟩
  rw [h, text_eq, hparts, textOf_append, textOf, hbefore]
  simp

theorem Sits.of_spot? {field : String} {s : List Char × Layout} (h : Sits source before t) (hs : t.spot? field = some s) :
    Sits source (before ++ s.1) s.2 := by
  have hmem := List.mem_map_of_mem (f := fun s => (before ++ s.1, s.2)) (List.mem_of_find?_eq_some hs)
  rw [← spots_shift, List.append_nil] at hmem
  exact h.of_mem_spots hmem

/-- What is told of each child of a node is told of each node in its layout. -/
theorem Sits.filterMap_children {α : Type} {f : Node → Option α} {g : Layout → Option α} (h : Sits source before t)
    (hfg : ∀ before p, Sits source before p → f (p.place before) = g p) :
    (t.place before).children.filterMap f = t.parts.filterMap g := by
  conv => rhs; rw [← map_spots before t.parts]
  rw [children_place, List.filterMap_map, List.filterMap_map]
  exact List.filterMap_congr fun s hs => hfg _ _ (h.of_mem_spots hs)

end Layout

/-- A source file with its syntax tree. -/
structure SourceTree where
  root : Layout
  /-- What follows the tree. -/
  trail : List Char := []

namespace SourceTree

def source (t : SourceTree) : String := String.ofList (t.root.gap ++ (t.root.text ++ t.trail))

def node (t : SourceTree) : Node := t.root.place t.root.gap

/-- A file of statements side by side. -/
def ofParts (parts : List Layout) (trail : String) : SourceTree := ⟨.node "" "program" parts, trail.toList⟩

theorem root_sits (t : SourceTree) : t.root.Sits t.source t.root.gap := ⟨t.trail, String.toList_ofList⟩

end SourceTree

/-! ## Which trees have a layout -/

/-- A place in a source. -/
def IsPoint (source : List Char) (p : Point) : Prop := ∃ before, before <+: source ∧ p = Layout.pointAfter before

mutual

/-- A node stands in a source if its ends are places in it and its children stand between them, one
after another. -/
def Node.StandsIn (source : List Char) : Node → Prop
  | mk _ _ start stop children =>
    IsPoint source start ∧ IsPoint source stop ∧ Node.StandBetween source start stop children

def Node.StandBetween (source : List Char) (start stop : Point) : List Node → Prop
  | [] => start.byte ≤ stop.byte
  | n :: ns => start.byte ≤ n.start.byte ∧ n.StandsIn source ∧ Node.StandBetween source n.stop stop ns

end

theorem prefix_of_byteLength_le {source before before' : List Char} (h : before <+: source) (h' : before' <+: source)
    (hle : Text.byteLength before ≤ Text.byteLength before') : before <+: before' := by
  rcases List.prefix_or_prefix_of_prefix h h' with hprefix | ⟨between, rfl⟩
  · exact hprefix
  · cases between with
    | nil => simp
    | cons c between =>
      have hpos := c.utf8Size_pos
      rw [Text.byteLength_append, Text.byteLength] at hle
      omega

namespace Layout

variable {source : String} {before upTo : List Char}

theorem Sits.prefix_source {t : Layout} (h : Sits source before t) : before ++ t.text <+: source.toList := by
  obtain ⟨after, h⟩ := h
  exact ⟨after, by rw [h, List.append_assoc]⟩

mutual

theorem exists_place : ∀ n : Node, n.StandsIn source.toList → ∃ before t, n = place before t ∧ Sits source before t
  | .mk field label start stop children, h => by
    rw [Node.StandsIn] at h
    obtain ⟨⟨before, hbefore, rfl⟩, ⟨upTo, ⟨after, hupTo⟩, rfl⟩, hchildren⟩ := h
    obtain ⟨ts, rest, rfl, rfl⟩ := exists_placeAll children hbefore ⟨after, hupTo⟩ hchildren
    refine ⟨before, .mk [] field label ts rest, by rw [place], after, ?_⟩
    rw [text, ← hupTo, List.append_assoc before]

theorem exists_placeAll : ∀ {before upTo : List Char} (ns : List Node), before <+: source.toList → upTo <+: source.toList →
    Node.StandBetween source.toList (pointAfter before) (pointAfter upTo) ns →
      ∃ ts rest, ns = placeAll before ts ∧ upTo = before ++ (textOf ts ++ rest)
  | before, upTo, [], hbefore, hupTo, h => by
    rw [Node.StandBetween] at h
    obtain ⟨rest, rfl⟩ := prefix_of_byteLength_le hbefore hupTo h
    exact ⟨[], rest, by rw [placeAll], by rw [textOf, List.nil_append]⟩
  | before, upTo, n :: ns, hbefore, hupTo, h => by
    rw [Node.StandBetween] at h
    obtain ⟨hle, hn, hns⟩ := h
    obtain ⟨before', t, rfl, ht⟩ := exists_place n hn
    -- What stands before the node is what the source has between the end of the one before it and its start.
    rw [start_place] at hle
    obtain ⟨gap, rfl⟩ := prefix_of_byteLength_le hbefore ((List.prefix_append _ _).trans ht.prefix_source) hle
    rw [stop_place] at hns
    obtain ⟨ts, rest, rfl, rfl⟩ := exists_placeAll ns ht.prefix_source hupTo hns
    refine ⟨t.inGap gap :: ts, rest, ?_, ?_⟩
    · rw [placeAll, place_inGap, gap_inGap, text_inGap]
    · rw [textOf, gap_inGap, text_inGap]
      simp

end

mutual

theorem Sits.standsIn : ∀ {before : List Char} (t : Layout), Sits source before t → (t.place before).StandsIn source.toList
  | before, .mk gap field label parts rest, h => by
    obtain ⟨after, h⟩ := h
    rw [text, List.append_assoc (textOf parts)] at h
    rw [place, Node.StandsIn]
    exact ⟨⟨before, ⟨_, h.symm⟩, rfl⟩, ⟨_, ⟨after, by simp [h]⟩, rfl⟩, standBetween parts h⟩

theorem standBetween : ∀ {before rest after : List Char} (ts : List Layout),
    source.toList = before ++ (textOf ts ++ (rest ++ after)) →
      Node.StandBetween source.toList (pointAfter before) (pointAfter (before ++ (textOf ts ++ rest))) (placeAll before ts)
  | before, rest, after, [], h => by
    rw [placeAll, Node.StandBetween, textOf]
    simp [pointAfter, Text.byteLength_append]
  | before, rest, after, t :: ts, h => by
    have ht : Sits source (before ++ t.gap) t := ⟨textOf ts ++ (rest ++ after), by simpa [textOf] using h⟩
    have hts : source.toList = before ++ t.gap ++ t.text ++ (textOf ts ++ (rest ++ after)) := by simpa [textOf] using h
    have hmore := standBetween ts hts
    rw [placeAll, Node.StandBetween, start_place, stop_place]
    refine ⟨by simp [pointAfter, Text.byteLength_append], ht.standsIn t, ?_⟩
    rw [textOf]
    simpa using hmore

end

end Layout

/-- Trees with layouts are those that stand in their source. -/
theorem exists_sourceTree {root : Node} {source : String} :
    root.StandsIn source.toList ↔ ∃ t : SourceTree, t.node = root ∧ t.source = source := by
  constructor
  · intro h
    obtain ⟨before, t, rfl, after, hsource⟩ := Layout.exists_place root h
    refine ⟨⟨t.inGap before, after⟩, ?_, ?_⟩
    · rw [SourceTree.node, Layout.gap_inGap, Layout.place_inGap]
    · rw [SourceTree.source, Layout.gap_inGap, Layout.text_inGap, ← hsource, String.ofList_toList]
  · rintro ⟨t, rfl, rfl⟩
    exact t.root_sits.standsIn

end ImportAtlas.SyntaxTree
