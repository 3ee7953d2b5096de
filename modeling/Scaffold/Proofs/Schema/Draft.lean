import Scaffold.Proofs.Schema.Block
import Scaffold.Proofs.Text.Lines
import Scaffold.Schema.Model

/-!
Drafts: schemas as they are meant, before they are text. A `ModelDraft` is written down by
`ModelDraft.lines` and says by `ModelDraft.model` which model is meant; a `Sheet` is a sequence of
model drafts and of what may stand between them (`Interlude`): blank lines, comments, and closed
blocks that declare no model.

Everything a draft needs in order to be written down as meant is part of its type: names are words,
margins are blank, a lookup key holds nothing that would end it.
-/

namespace Scaffold.Schema

open Text

/-- A name as schemas spell it. -/
structure Name where
  text : List Char
  isWord_text : isWord text = true

def Name.string (name : Name) : String :=
  String.ofList name.text

/-- Blank space within a line. -/
structure Margin where
  text : List Char
  isBlank_text : IsBlankText text
  no_newline : '\n' ∉ text

/-! ### Fields -/

/-- A marker behind a type. -/
inductive Marker where
  | optional
  | array
deriving DecidableEq

def Marker.text : Marker → List Char
  | .optional => ['?']
  | .array => ['[', ']']

/-- An attribute of a field. The value of a default is made of word characters. -/
inductive Attribute where
  | id
  | unique
  | default (value : List Char) (isWordChar_value : ∀ c ∈ value, isWordChar c = true)

def Attribute.text : Attribute → List Char
  | .id => "@id".toList
  | .unique => "@unique".toList
  | .default value _ => "@default(".toList ++ value ++ [')']

@[simp] theorem Attribute.text_default {value : List Char}
    (h : ∀ c ∈ value, isWordChar c = true) :
    (default value h).text = "@default(".toList ++ value ++ [')'] := rfl

def Attribute.isId : Attribute → Bool
  | .id => true
  | _ => false

def Attribute.isUnique : Attribute → Bool
  | .unique => true
  | _ => false

def Attribute.isDefault : Attribute → Bool
  | .default .. => true
  | _ => false

/-- A field, with its markers and attributes in the order of writing. -/
structure FieldDraft where
  name : Name
  type : Name
  markers : List Marker
  attributes : List Attribute

namespace FieldDraft

/-- The markers as they are written. -/
def markersText (draft : FieldDraft) : List Char :=
  draft.markers.flatMap Marker.text

/-- The attributes as they are written, with a space before each. -/
def attributesText (draft : FieldDraft) : List Char :=
  draft.attributes.flatMap fun given => ' ' :: given.text

/-- The declaration of the field. -/
def text (draft : FieldDraft) : List Char :=
  draft.name.text ++ ' ' :: (draft.type.text ++ draft.markersText ++ draft.attributesText)

/-- Whether the type is another model: it begins with a capital letter and is no scalar. -/
def refersToModel (draft : FieldDraft) : Bool :=
  draft.type.text.head?.any Char.isUpper &&
    !(Scalar.all.map Scalar.name).contains draft.type.string

/-- The field that is meant, declared on a given line. -/
def field (draft : FieldDraft) (line : Nat) : Field where
  name := draft.name.string
  type := draft.type.string
  isOptional := draft.markers.contains .optional
  isId := draft.attributes.any Attribute.isId
  isUnique := draft.attributes.any Attribute.isUnique
  hasDefault := draft.attributes.any Attribute.isDefault
  isArray := draft.markers.contains .array
  relation := if draft.refersToModel then some draft.type.string else none
  line

end FieldDraft

/-! ### Composite identities -/

/-- The key of a composite identity. It holds nothing that ends a string or an argument. -/
structure KeyDraft where
  text : List Char
  text_ne_nil : text ≠ []
  no_quote : '"' ∉ text
  no_comma : ',' ∉ text
  no_backslash : '\\' ∉ text
  no_newline : '\n' ∉ text

/-- A composite identity: at least one field, and a key if lookups name one. -/
structure IdentityDraft where
  fields : List Name
  fields_ne_nil : fields ≠ []
  key : Option KeyDraft

namespace IdentityDraft

/-- The fields as they are enumerated. -/
def list (draft : IdentityDraft) : List Char :=
  enumeration (draft.fields.map Name.text)

/-- The annotation. Without a key it holds the list alone, with one the arguments are named. -/
def text (draft : IdentityDraft) : List Char :=
  match draft.key with
  | none => "@@id([".toList ++ draft.list ++ "])".toList
  | some key =>
    "@@id(fields: [".toList ++ draft.list ++ "], name: \"".toList ++ key.text ++ "\")".toList

/-- The identity that is meant. -/
def compositeId (draft : IdentityDraft) : CompositeId where
  fields := draft.fields.map Name.string
  key := draft.key.map fun key => String.ofList key.text
  fields_ne_nil := by simpa using draft.fields_ne_nil

end IdentityDraft

/-! ### Models -/

/-- A model: its fields in order, and its composite identity if it has one. -/
structure ModelDraft where
  name : Name
  fields : List FieldDraft
  identity : Option IdentityDraft

namespace ModelDraft

/-- The declarations of the body, in order. -/
def body (draft : ModelDraft) : List (List Char) :=
  draft.fields.map FieldDraft.text ++ draft.identity.toList.map IdentityDraft.text

/-- The block of the model, with a margin before each line of its body. -/
def lines (margin : Margin) (draft : ModelDraft) : List (List Char) :=
  ("model ".toList ++ draft.name.text ++ " \x7b".toList) ::
    draft.body.map (margin.text ++ ·) ++ [['}']]

/-- The model that is meant by a block whose header is on a given line. The fields stand on the
lines below it. -/
def model (draft : ModelDraft) (line : Nat) : Model where
  name := draft.name.string
  fields := (draft.fields.zipIdx (line + 1)).map fun (field, number) => field.field number
  compositeId := draft.identity.map IdentityDraft.compositeId

end ModelDraft

/-! ### Sheets -/

/-- A text within a line, behind the opening brace of a block or in its body. -/
structure Fragment where
  text : List Char
  no_newline : '\n' ∉ text

/-- A closed block that declares no model. The first of its fragments stands behind the opening
brace, each other one on a line of its own, and the last one closes it. -/
structure ForeignBlock where
  margin : Margin
  keyword : Name
  keyword_ne : keyword.text ≠ "model".toList
  gap : Margin
  gap_ne_nil : gap.text ≠ []
  name : Name
  pad : Margin
  opened : List Fragment
  not_closes : ∀ fragment ∈ opened, closesBlock (trim fragment.text) = false
  last : Fragment
  closes : closesBlock (trim last.text) = true

/-- The header of a foreign block, up to its opening brace. -/
def ForeignBlock.header (block : ForeignBlock) : List Char :=
  block.margin.text ++ (block.keyword.text ++ block.gap.text ++ block.name.text ++ block.pad.text) ++
    ['{']

def ForeignBlock.lines (block : ForeignBlock) : List (List Char) :=
  (block.opened.map Fragment.text ++ [block.last.text]).modifyHead (block.header ++ ·)

/-- What may stand before, between and behind the models of a schema. -/
inductive Interlude where
  | blank (margin : Margin)
  | comment (margin : Margin) (remark : Fragment)
  | block (foreign : ForeignBlock)

def Interlude.lines : Interlude → List (List Char)
  | .blank margin => [margin.text]
  | .comment margin remark => [margin.text ++ "//".toList ++ remark.text]
  | .block foreign => foreign.lines

/-- A part of a schema. -/
inductive Passage where
  | model (draft : ModelDraft)
  | interlude (between : Interlude)

def Passage.lines (margin : Margin) : Passage → List (List Char)
  | .model draft => draft.lines margin
  | .interlude between => between.lines

/-- The models that a passage means, if its first line has a given number. -/
def Passage.models (line : Nat) : Passage → List Model
  | .model draft => [draft.model line]
  | .interlude _ => []

/-- A schema as it is meant. -/
abbrev Sheet := List Passage

namespace Sheet

/-- The lines of a schema. -/
def lines (margin : Margin) (sheet : Sheet) : List (List Char) :=
  sheet.flatMap (Passage.lines margin)

/-- The source of a schema, each line ended by a line feed. -/
def source (margin : Margin) (sheet : Sheet) : String :=
  String.ofList (unlines (sheet.lines margin))

/-- The models that a schema means, in order, if its first line has a given number. -/
def models (margin : Margin) (line : Nat) : Sheet → List Model
  | [] => []
  | passage :: rest => passage.models line ++ models margin (line + (passage.lines margin).length) rest

end Sheet

end Scaffold.Schema
