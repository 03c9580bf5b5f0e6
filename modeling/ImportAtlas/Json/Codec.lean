import ImportAtlas.Json.Shape
import ImportAtlas.Language
import ImportAtlas.NodeLink
import ImportAtlas.Settings
/-!
# What is written as JSON

A codec says how the values of a type are written as JSON and how they are read
back. There is one for each type that leaves the program.
-/

namespace ImportAtlas.Json

/-- The written form of a type. -/
structure Codec (α : Type) where
  shape : Shape
  encode : α → Json
  decode? : Json → Option α

namespace Codec

variable {α : Type}

def write (c : Codec α) (x : α) : String := (c.encode x).compact

def writePretty (c : Codec α) (x : α) : String := (c.encode x).pretty

/-- Reads a text that is one value of the type. -/
def parse (c : Codec α) (text : String) : Except Fault α := do
  let j ← Json.parse c.shape text.toList
  match c.decode? j with
  | some x => return x
  | none => throw .mismatch

end Codec

/-- A record's fields, in order, each of them required. -/
def Fields.required : List (String × Shape) → Fields
  | [] => .nil
  | (name, shape) :: rest => .cons name shape .required (required rest)

/-- The text a value is. -/
def asText? : Json → Option String
  | text s => some s
  | _ => none

/-- The texts a value is a list of. -/
def asTexts? : Json → Option (List String)
  | list items => items.mapM asText?
  | _ => none

/-- The list a value is, each item read by `f`. -/
def asList? {α : Type} (f : Json → Option α) : Json → Option (List α)
  | list items => items.mapM f
  | _ => none

def ofTexts (ss : List String) : Json := list (ss.map text)

def languageCodec : Codec Language where
  shape := .choice (Language.all.map (·.label))
  encode l := text l.label
  decode? j := j.asText?.bind Language.ofLabel?

def edgeCodec : Codec Edge where
  shape := .record false (.required [("from", .text), ("to", .text)])
  encode e := object [("from", text e.source), ("to", text e.target)]
  decode?
    | object [(_, text a), (_, text b)] => some ⟨a, b⟩
    | _ => none

def symbolCodec : Codec Symbol where
  shape := .record false <|
    .cons "name" .text .required <| .cons "kind" (.choice (SymbolKind.all.map (·.label))) .required <|
    .cons "rendered_signature" .text .required <| .cons "documentation" (.option .text) .optional .nil
  encode s := object [("name", text s.name), ("kind", text s.kind.label), ("rendered_signature", text s.signature),
    ("documentation", match s.doc with
      | some d => text d
      | none => null)]
  decode?
    | object [(_, text name), (_, text kind), (_, text signature), (_, doc)] =>
      (SymbolKind.ofLabel? kind).map fun k => ⟨name, k, signature, doc.asText?⟩
    | _ => none

def fileCodec : Codec FileNode where
  shape := .record false
    (.required [("path", .text), ("short_path", .text), ("exported_symbols", .list symbolCodec.shape)])
  encode f := object [("path", text f.path.text), ("short_path", text f.short),
    ("exported_symbols", list (f.symbols.map symbolCodec.encode))]
  decode?
    | object [(_, text path), (_, text short), (_, symbols)] =>
      (symbols.asList? symbolCodec.decode?).map fun ss => ⟨⟨path⟩, short, ss⟩
    | _ => none

/-- The default of each setting stands for it where it is not written. -/
def settingsCodec : Codec Settings where
  shape :=
    let texts : Shape := .list .text
    .record true <|
    .cons "groups" .bool (.default (bool true)) <| .cons "symbols" .bool (.default (bool false)) <|
    .cons "collapse" texts (.default (list [])) <| .cons "collapse_exclude" texts (.default (list [])) <|
    .cons "include" texts (.default (list [])) <| .cons "exclude" texts (.default (list [])) <|
    .cons "package_dir" .text (.default (text defaultPackageDir)) .nil
  encode s := object [("groups", bool s.groups), ("symbols", bool s.symbols), ("collapse", ofTexts s.collapse),
    ("collapse_exclude", ofTexts s.keep), ("include", ofTexts s.shown), ("exclude", ofTexts s.hidden),
    ("package_dir", text s.packageDir)]
  decode?
    | object [(_, bool groups), (_, bool symbols), (_, collapse), (_, keep), (_, shown), (_, hidden), (_, text dir)] => do
      return ⟨groups, symbols, ← collapse.asTexts?, ← keep.asTexts?, ← shown.asTexts?, ← hidden.asTexts?, dir⟩
    | _ => none

def graphNodeCodec : Codec GraphNode where
  shape := .record false (.required [("id", .text), ("group", .word32)])
  encode n := object [("id", text n.id), ("group", number n.group)]
  decode?
    | object [(_, text id), (_, number group)] => some ⟨id, group⟩
    | _ => none

def graphLinkCodec : Codec GraphLink where
  shape := .record false (.required [("source", .text), ("target", .text), ("value", .word32)])
  encode l := object [("source", text l.source), ("target", text l.target), ("value", number l.value)]
  decode?
    | object [(_, text source), (_, text target), (_, number value)] => some ⟨source, target, value⟩
    | _ => none

def nodeLinkCodec : Codec NodeLink where
  shape := .record false (.required [("nodes", .list graphNodeCodec.shape), ("links", .list graphLinkCodec.shape)])
  encode g := object [("nodes", list (g.nodes.map graphNodeCodec.encode)),
    ("links", list (g.links.map graphLinkCodec.encode))]
  decode?
    | object [(_, nodes), (_, links)] => do
      return ⟨← nodes.asList? graphNodeCodec.decode?, ← links.asList? graphLinkCodec.decode?⟩
    | _ => none

end ImportAtlas.Json
