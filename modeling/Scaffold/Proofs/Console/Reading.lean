import Scaffold.Console.Run

/-!
Programs that only read. A relation between two ways of carrying out programs that is kept by their
steps (`ReadingRelation`) holds for loading the settings, reading the schema and listing its models.
-/

namespace Scaffold.Console

open Disk (Readable)
open Generation (Generator)

/-- A relation between programs over two disks that is kept by the steps of programs that only
read. -/
structure ReadingRelation (m n : Type → Type) [Monad m] [Monad n] [Readable m] [Readable n] where
  Rel : {α : Type} → m α → n α → Prop
  pure : ∀ {α : Type} (value : α), Rel (pure value) (pure value)
  bind : ∀ {α β : Type} {first : m α} {other : n α} {next : α → m β} {otherNext : α → n β},
    Rel first other → (∀ value, Rel (next value) (otherNext value)) →
      Rel (first >>= next) (other >>= otherNext)
  standing? : ∀ path, Rel (Readable.standing? path) (Readable.standing? path)
  readText : ∀ path, Rel (Readable.readText path) (Readable.readText path)

namespace ReadingRelation

variable {m n : Type → Type} [Monad m] [Monad n] [Readable m] [Readable n]
  (relation : ReadingRelation m n)

/-- A settings file is read once, and what its text means is decided without the disk. -/
theorem loadFile (path : String) :
    relation.Rel (Settings.loadFile path) (Settings.loadFile path) := by
  refine relation.bind (relation.readText path) fun result => ?_
  cases result with
  | error fault => exact relation.pure _
  | ok text =>
    simp only
    split
    · exact relation.pure _
    · exact relation.pure _

/-- Settings are looked for before they are read, and the relation is kept by that question too. -/
theorem load (asked : Option String) :
    relation.Rel (Settings.load asked) (Settings.load asked) := by
  refine relation.bind (relation.standing? _) fun standing => ?_
  split
  · exact relation.loadFile _
  · exact relation.pure _
  · exact relation.pure _

/-- The arguments override the settings after these are loaded, and no disk is needed for it. -/
theorem prepare (setup : Setup) :
    relation.Rel (Console.prepare setup) (Console.prepare setup) := by
  refine relation.bind (relation.load setup.file) fun result => ?_
  cases result with
  | error error => exact relation.pure _
  | ok loaded => exact relation.pure _

theorem loadSchema (generator : Generator) :
    relation.Rel generator.loadSchema generator.loadSchema := by
  refine relation.bind (relation.readText _) fun result => ?_
  cases result with
  | error fault => exact relation.pure _
  | ok text => exact relation.pure _

/-- A listing only reads the schema, whichever form its output has. -/
theorem runList (generator : Generator) (asJson : Bool) :
    relation.Rel (Console.runList generator asJson) (Console.runList generator asJson) := by
  refine relation.bind (relation.loadSchema generator) fun result => ?_
  cases result with
  | error failure => exact relation.pure _
  | ok schema => exact relation.pure _

end ReadingRelation

end Scaffold.Console
