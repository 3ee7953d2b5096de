import Scaffold.Artifact.ClassFile
import Scaffold.Schema.Model

/-!
How generated code refers to an entity by its identity. Every form goes over the same list of
names, `identityNames`: the parameters of a method, the arguments that pass them on, the query
of the database client, the segments of a route.
-/

namespace Scaffold.Artifact

open Schema (Identity)

/-- The names that make up an identity. -/
def identityNames : Identity → List String
  | .single => ["id"]
  | .composite fields _ => fields

/-- The type of every part of an identity. -/
def identityType : String := "number"

/-- The key that looks up a composite identity: the declared one, or all fields in one word. -/
def lookupKey (fields : List String) (declared : Option String) : String :=
  declared.getD ("_".intercalate fields)

/-- The parameters that an identity is handed over in. -/
def identityParameters (identity : Identity) : List Parameter :=
  (identityNames identity).map fun name => { name, type := identityType }

/-- The parameters that take an identity from the segments of a route. -/
def routeParameters (identity : Identity) : List Parameter :=
  (identityNames identity).map fun name =>
    { decorator := some ("@Param(" ++ quoted name ++ ", ParseIntPipe)"), name, type := identityType }

/-- The arguments that pass an identity on. -/
def identityArguments (identity : Identity) : List String :=
  identityNames identity

/-- The condition of a query for one entity. -/
def whereClause : Identity → String
  | .single => braced "id"
  | .composite fields key =>
    braced (lookupKey fields key ++ ": " ++ braced (commaSeparated fields))

/-- The method that finds one entity. -/
def finder : Identity → String
  | .single => "findById"
  | .composite .. => "findByCompositeId"

/-- The route of one entity: a segment for each name. -/
def route (identity : Identity) : String :=
  "/".intercalate ((identityNames identity).map fun name => ":" ++ name)

/-- How a sentence speaks of the identity. -/
def lookupPhrase : Identity → String
  | .single => "by id"
  | .composite .. => "by composite id"

end Scaffold.Artifact
