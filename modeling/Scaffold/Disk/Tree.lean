import Scaffold.Disk.Access
import Scaffold.Disk.Content
import Scaffold.Disk.Path

/-!
A disk in memory: a tree of files and directories, given by what stands at each place. A place
is the list of steps that lead to it from the working directory, or from the root of the system.
These two and the directories above the working directory are always there. Paths are resolved
one step after the other, and every step but the last has to lead to a directory.

The tree answers the requests of `Disk.Readable` and `Disk.Writable` in the state monad.
-/

namespace Scaffold.Disk

/-- A place on a disk: the steps to it from the working directory. A place behind the root of the
system begins with `systemRoot`. -/
abbrev Place := List String

/-- The step to the root of the system, which is no name. -/
def systemRoot : String := "/"

/-- Whether a place is the working directory, a directory above it or the root of the system. -/
def Place.isFixed (place : Place) : Bool :=
  place == [systemRoot] || place.all fun step => step == leave

/-- The place of the directory that a place is in. The root of the system is in itself. -/
def Place.outer (place : Place) : Place :=
  if place == [systemRoot] then place
  else if place.isFixed then place ++ [leave]
  else place.dropLast

/-- Whether a place is in the working directory or below it. -/
def Place.isInside (place : Place) : Bool :=
  place.head? != some leave && place.head? != some systemRoot

/-- What stands at a place. -/
inductive Node where
  | file (content : Content)
  | directory
deriving DecidableEq

/-- The standing of a node. -/
def Node.standing : Node → Standing
  | .file _ => .file
  | .directory => .directory

/-- A disk in memory. -/
structure Tree where
  /-- What stands at the places of the tree, those apart where a directory always is. -/
  nodes : List (Place × Node)
deriving DecidableEq

namespace Tree

/-- The tree with nothing in the working directory. -/
def empty : Tree := ⟨[]⟩

/-- What stands at a place. -/
def node? (tree : Tree) (place : Place) : Option Node :=
  if place.isFixed then some .directory else tree.nodes.lookup place

/-- What stands at a place, if its last step can be a name. -/
def look (tree : Tree) (place : Place) : Except Fault (Option Node) :=
  if place.getLast?.any fun step => decide (maxStepBytes < step.utf8ByteSize) then .error .tooLong
  else .ok (tree.node? place)

/-- The pairs with a new value at a key, which keeps its position if it has one. -/
def assign (place : Place) (node : Node) : List (Place × Node) → List (Place × Node)
  | [] => [(place, node)]
  | (other, old) :: rest =>
    if other = place then (place, node) :: rest else (other, old) :: assign place node rest

/-- The tree with a node at a place. -/
def set (tree : Tree) (place : Place) (node : Node) : Tree :=
  ⟨assign place node tree.nodes⟩

/-- The tree without a place and all that is below it. -/
def erase (tree : Tree) (place : Place) : Tree :=
  ⟨tree.nodes.filter fun entry => !place.isPrefixOf entry.1⟩

/-- A key of the assigned pairs has the new value at the assigned place, and elsewhere the old
one. -/
theorem lookup_assign (place other : Place) (node : Node) (nodes : List (Place × Node)) :
    (assign place node nodes).lookup other =
      if other = place then some node else nodes.lookup other := by
  induction nodes with
  | nil =>
    by_cases h : other = place
    · simp [assign, h]
    · have differs : (other == place) = false := beq_eq_false_iff_ne.mpr h
      simp [assign, List.lookup_cons, differs, h]
  | cons entry rest ih =>
    obtain ⟨key, old⟩ := entry
    by_cases found : key = place
    · by_cases h : other = place
      · simp [assign, found, h]
      · have differs : (other == place) = false := beq_eq_false_iff_ne.mpr h
        simp [assign, found, List.lookup_cons, differs, h]
    · by_cases same : other = key
      · have h : other ≠ place := fun equal => found (same.symm.trans equal)
        simp [assign, same, found]
      · have differs : (other == key) = false := beq_eq_false_iff_ne.mpr same
        simp [assign, found, List.lookup_cons, differs, ih]

/-- Setting a node changes what stands at its place, and nothing else. -/
theorem node?_set (tree : Tree) {place : Place} (free : place.isFixed = false) (node : Node)
    (other : Place) :
    (tree.set place node).node? other = if other = place then some node else tree.node? other := by
  by_cases fixed : other.isFixed = true
  · have differs : other ≠ place := fun equal => by simp [equal, free] at fixed
    rw [if_neg differs]
    simp [node?, fixed]
  · simp only [node?, fixed, set]
    exact lookup_assign place other node tree.nodes

/-- Of pairs that are kept by their keys, a key that is kept has the value it had. -/
theorem lookup_filter (keeps : Place → Bool) (other : Place) (nodes : List (Place × Node)) :
    (nodes.filter fun entry => keeps entry.1).lookup other =
      if keeps other then nodes.lookup other else none := by
  induction nodes with
  | nil => simp
  | cons entry rest ih =>
    obtain ⟨key, node⟩ := entry
    by_cases same : other = key
    · cases kept : keeps key <;> simp [same, kept] at ih ⊢
      exact ih
    · have differs : (other == key) = false := beq_eq_false_iff_ne.mpr same
      cases kept : keeps key <;> simp [List.lookup_cons, differs, kept, ih]

/-- Erasing a place takes away what stands there and below it, and nothing else. -/
theorem node?_erase (tree : Tree) (place : Place) {other : Place} (free : other.isFixed = false) :
    (tree.erase place).node? other = if place.isPrefixOf other then none else tree.node? other := by
  simp only [node?, free, erase]
  rw [lookup_filter (fun key => !place.isPrefixOf key)]
  cases place.isPrefixOf other <;> simp

/-- The place that some steps lead to from a directory. Nothing has to stand there. -/
def walk (tree : Tree) (place : Place) : List String → Except Fault Place
  | [] => .ok place
  | step :: rest =>
    if step = stay then walk tree place rest
    else if step = leave then walk tree place.outer rest
    else if rest.isEmpty then .ok (place ++ [step])
    else
      match tree.look (place ++ [step]) with
      | .error fault => .error fault
      | .ok none => .error .missing
      | .ok (some (.file _)) => .error .notDirectory
      | .ok (some .directory) => walk tree (place ++ [step]) rest

/-- The place where the steps of a path begin. -/
def start (path : String) : Place :=
  if isAbsolute path then [systemRoot] else []

/-- The place that a path means. The empty path means none. -/
def resolve (tree : Tree) (path : String) : Except Fault Place :=
  match faultOfPath? path with
  | some fault => .error fault
  | none => if path.isEmpty then .error .missing else tree.walk (start path) (steps path)

/-- What stands at a path. -/
def find (tree : Tree) (path : String) : Except Fault Node := do
  match ← tree.look (← tree.resolve path) with
  | none => .error .missing
  | some (.file content) => if wantsDirectory path then .error .notDirectory else .ok (.file content)
  | some .directory => .ok .directory

/-- The standing of a path, if anything stands there. -/
def standing? (tree : Tree) (path : String) : Option Standing :=
  (tree.find path).toOption.map Node.standing

/-- The text of the file at a path. -/
def readText (tree : Tree) (path : String) : Except Fault String := do
  match ← tree.find path with
  | .directory => .error .isDirectory
  | .file (.text text) => .ok text
  | .file (.binary _) => .error .notText

/-- The tree with a new directory at the end of some steps from a place, where nothing may
stand. -/
def makeDirectory (tree : Tree) (place : Place) (path : List String) : Except Fault Tree := do
  let target ← tree.walk place path
  match ← tree.look target with
  | some _ => .error .exists
  | none => .ok (tree.set target .directory)

/-- Whether some steps from a place lead to a directory. -/
def leadsToDirectory (tree : Tree) (place : Place) (path : List String) : Bool :=
  match tree.walk place path with
  | .ok target => tree.node? target == some .directory
  | .error _ => false

/-- The tree with a directory at the end of some steps from a place. One that is there already is
left alone. -/
def attemptDirectory (tree : Tree) (place : Place) (path : List String) :
    Tree × Except Fault Unit :=
  match tree.makeDirectory place path with
  | .ok made => (made, .ok ())
  | .error fault =>
    if tree.leadsToDirectory place path then (tree, .ok ()) else (tree, .error fault)

/-- The tree with a directory at the end of some steps from a place. Where one above it is
missing, `makeAbove` makes that first; what it made stays if it fails. -/
def makeAfter (tree : Tree) (makeAbove : Tree → Tree × Except Fault Unit) (place : Place)
    (path : List String) : Tree × Except Fault Unit :=
  match tree.attemptDirectory place path with
  | (_, .error .missing) =>
    match makeAbove tree with
    | (made, .ok ()) => made.attemptDirectory place path
    | failed => failed
  | done => done

/-- Makes the directory at the end of some steps from a place, given backwards, and those above
it. -/
def makeBackwards (tree : Tree) (place : Place) : List String → Tree × Except Fault Unit
  | [] => (tree, .ok ())
  | last :: above =>
    tree.makeAfter (fun tree => tree.makeBackwards place above) place (last :: above).reverse

/-- Makes the directory at a path and the missing directories above it. A dot at the end of the
path is a step like any other, and cannot be made. -/
def makeDirectories (tree : Tree) (path : String) : Tree × Except Fault Unit :=
  let place := start path
  let above := ((steps path).filter fun step => step != stay).dropLast
  match faultOfPath? path with
  | some fault => (tree, .error fault)
  | none =>
    tree.makeAfter (fun tree => tree.makeBackwards place above.reverse) place (steps path)

/-- The tree without what stands at a path and all that is below it, if anything stands there. -/
def remove? (tree : Tree) (path : String) : Option Tree :=
  match tree.resolve path, tree.find path with
  | .ok place, .ok _ => some (tree.erase place)
  | _, _ => none

/-- Gives the file at a path a new text. -/
def writeText (tree : Tree) (path text : String) : Except Fault Tree := do
  let place ← tree.resolve path
  if wantsDirectory path then .error .isDirectory
  else
    match ← tree.look place with
    | some .directory => .error .isDirectory
    | _ => .ok (tree.set place (.file (.text text)))

/-- The path of a place as it is shown. Directories end in a slash. -/
def showPlace (place : Place) (node : Node) : String :=
  "/".intercalate place ++ (if node.standing = .directory then "/" else "")

/-- The places in and below the working directory and the content of their files, in the order
of the shown paths. -/
def listing (tree : Tree) : List (String × Option String) :=
  let inside := tree.nodes.filter fun entry => Place.isInside entry.1
  let shown := inside.map fun (place, node) =>
    (showPlace place node,
      match node with
      | .file content => some content.display
      | .directory => none)
  shown.mergeSort fun first second => decide (first.1 ≤ second.1)

end Tree

instance : Readable (StateM Tree) where
  standing? path := fun tree => (tree.standing? path, tree)
  readText path := fun tree => (tree.readText path, tree)

instance : Writable (StateM Tree) where
  makeDirectories path := fun tree =>
    let (made, result) := tree.makeDirectories path
    (result, made)
  writeText path text := fun tree =>
    match tree.writeText path text with
    | .ok written => (.ok (), written)
    | .error fault => (.error fault, tree)

end Scaffold.Disk
