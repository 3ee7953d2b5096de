/-!
Diagnostics: what a schema text gets wrong. Reading a schema never fails; a line that is not
understood is left out and reported with its number, the problem and its trimmed text.
-/

namespace Scaffold.Schema

/-- What is wrong with a line. -/
inductive Problem where
  /-- A line stands outside of every block and opens none. -/
  | strayLine
  /-- The text ends before the block does. -/
  | unclosedBlock (keyword name : String)
  /-- A body line is neither a field nor an attribute of the block. -/
  | unrecognized (model : String)
  /-- A second composite identity, which does not count. -/
  | duplicateIdentity (model : String)
  /-- A composite identity that lists no fields. -/
  | identityWithoutFields
deriving DecidableEq, Repr

/-- The wording of a problem. -/
def Problem.message : Problem → String
  | .strayLine => "unexpected line outside of a block"
  | .unclosedBlock keyword name => s!"{keyword} `{name}` is never closed"
  | .unrecognized model => s!"unrecognized declaration in model `{model}`"
  | .duplicateIdentity model => s!"duplicate @@id in model `{model}` ignored"
  | .identityWithoutFields => "@@id without a field list"

/-- A problem at a line of the source, counted from one. -/
structure Diagnostic where
  line : Nat
  problem : Problem
  text : String
deriving DecidableEq, Repr

/-- A report of a message about the text of a line. -/
def report (line : Nat) (message text : String) : String :=
  s!"line {line}: {message}: `{text}`"

/-- The diagnostic as it is shown. -/
def Diagnostic.display (diagnostic : Diagnostic) : String :=
  report diagnostic.line diagnostic.problem.message diagnostic.text

end Scaffold.Schema
