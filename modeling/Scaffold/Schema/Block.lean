import Scaffold.Text.Blank
import Scaffold.Text.Cut
import Scaffold.Text.Lines
import Scaffold.Text.Word
import Scaffold.Schema.Diagnostic

/-!
The blocks of a schema: `keyword Name`, an opening brace, body lines and a closing brace. Blocks
do not nest: the first closing brace that stands neither in a string nor in a comment closes the
block, and what follows it on its line is dropped.

`Scan.ofSource` walks the trimmed lines of a source with the block that is open, if one is. Each
line is one `step`, and completes a block, is reported, or neither.
-/

namespace Scaffold.Schema

open Text

/-- A trimmed line and its number in the source, counted from one. -/
structure SourceLine where
  number : Nat
  text : List Char
deriving DecidableEq, Repr

/-- The numbered and trimmed lines of a source. -/
def sourceLines (source : List Char) : List SourceLine :=
  ((lines source).zipIdx 1).map fun (line, number) => ⟨number, trim line⟩

/-- Whether a line is a comment as a whole. -/
def isComment : List Char → Bool
  | '/' :: '/' :: _ => true
  | _ => false

/-- Where a walk over a line stands: in plain text, in a string, or behind a backslash in a
string. -/
inductive LexMode where
  | plain
  | quoted
  | escaped
deriving DecidableEq, Repr

/-- The mode behind a character. -/
def LexMode.next : LexMode → Char → LexMode
  | .plain, c => if c = '"' then .quoted else .plain
  | .quoted, c => if c = '"' then .plain else if c = '\\' then .escaped else .quoted
  | .escaped, _ => .quoted

/-- The text before and after the first closing brace in plain text, if one comes before a
comment and the end. -/
def cutAtBrace? (mode : LexMode) : List Char → Option (List Char × List Char)
  | [] => none
  | c :: rest =>
    if mode = .plain ∧ c = '}' then some ([], rest)
    else if mode = .plain ∧ isComment (c :: rest) = true then none
    else (cutAtBrace? (mode.next c) rest).map fun cut => (c :: cut.1, cut.2)

/-- A block of the schema. -/
structure Block where
  keyword : String
  name : String
  /-- The line of the header. -/
  line : Nat
  /-- The lines of the body that are not empty, in order. -/
  body : List SourceLine
deriving DecidableEq, Repr

/-- Whether the block declares a model. -/
def Block.isModel (block : Block) : Bool :=
  block.keyword == "model"

/-- The block with one more body line. -/
def Block.push (block : Block) (line : SourceLine) : Block :=
  { block with body := block.body ++ [line] }

/-- A block after one of its lines: still open, or closed by it. -/
inductive Fed where
  | stillOpen (block : Block)
  | closed (block : Block)
deriving DecidableEq, Repr

/-- Feeds a block the text of one of its lines. -/
def Block.feed (block : Block) (line : SourceLine) : Fed :=
  if line.text.isEmpty then .stillOpen block
  else if isComment line.text then .stillOpen (block.push line)
  else
    match cutAtBrace? .plain line.text with
    | none => .stillOpen (block.push line)
    | some (before, _) =>
      let last := trim before
      if last.isEmpty then .closed block else .closed (block.push ⟨line.number, last⟩)

/-- The header on a line, and the text behind its opening brace: two words before the brace,
the keyword and the name. -/
def header? (line : SourceLine) : Option (Block × List Char) :=
  match cutAt? '{' line.text with
  | none => none
  | some (head, rest) =>
    match words head with
    | [keyword, name] =>
      if isWord keyword && isWord name then
        some (⟨String.ofList keyword, String.ofList name, line.number, []⟩, rest)
      else none
    | _ => none

/-- What a line of the source brings to light. -/
inductive Finding where
  | complete (block : Block)
  | problem (diagnostic : Diagnostic)
deriving DecidableEq, Repr

/-- The state and the finding after a block was fed. -/
def Fed.outcome : Fed → Option Block × Option Finding
  | .stillOpen block => (some block, none)
  | .closed block => (none, some (.complete block))

/-- One line of the source, read with the block that is open before it. -/
def step (openBlock : Option Block) (line : SourceLine) : Option Block × Option Finding :=
  match openBlock with
  | some block => (block.feed line).outcome
  | none =>
    if line.text.isEmpty || isComment line.text then (none, none)
    else
      match header? line with
      | some (block, rest) => (block.feed ⟨line.number, trim rest⟩).outcome
      | none => (none, some (.problem ⟨line.number, .strayLine, String.ofList line.text⟩))

/-- The block left open by some lines and their findings, in order. -/
def walk (openBlock : Option Block) : List SourceLine → Option Block × List Finding
  | [] => (openBlock, [])
  | line :: rest =>
    let here := step openBlock line
    let later := walk here.1 rest
    (later.1, here.2.toList ++ later.2)

/-- The report of a block that is open at the end of the source. -/
def Block.unclosed (block : Block) : Diagnostic :=
  ⟨block.line, .unclosedBlock block.keyword block.name, s!"{block.keyword} {block.name} \x7b"⟩

/-- The closed blocks of a source and its structural problems. -/
structure Scan where
  blocks : List Block
  diagnostics : List Diagnostic
deriving DecidableEq, Repr

/-- The block of a finding. -/
def Finding.block? : Finding → Option Block
  | .complete block => some block
  | .problem _ => none

/-- The diagnostic of a finding. -/
def Finding.diagnostic? : Finding → Option Diagnostic
  | .complete _ => none
  | .problem diagnostic => some diagnostic

/-- The scan of some lines. A block that stays open is no block; it is reported last. -/
def Scan.ofLines (source : List SourceLine) : Scan :=
  let (openBlock, findings) := walk none source
  { blocks := findings.filterMap Finding.block?
    diagnostics := findings.filterMap Finding.diagnostic? ++ (openBlock.map Block.unclosed).toList }

/-- The scan of a source. -/
def Scan.ofSource (source : List Char) : Scan :=
  ofLines (sourceLines source)

/-- A walk over lines and then more lines is two walks. -/
theorem walk_append (openBlock : Option Block) (first second : List SourceLine) :
    walk openBlock (first ++ second) =
      ((walk (walk openBlock first).1 second).1,
        (walk openBlock first).2 ++ (walk (walk openBlock first).1 second).2) := by
  induction first generalizing openBlock with
  | nil => simp [walk]
  | cons line rest ih => simp [walk, ih, List.append_assoc]

end Scaffold.Schema
