import Scaffold.Artifact.Controller
import Scaffold.Artifact.Repository
import Scaffold.Proofs.Artifact.MethodView

/-!
The places of a method where an identity stands: its numeric parameters, the arguments it passes
on, the condition of its query, the segments of its route, and the names by which it takes them
from there. Each place is read from the method's text, and each gives back the names that the
place was made of, in their order.
-/

namespace Scaffold.Artifact

open Text
open Schema (Identity)

/-! ### Reading the places -/

/-- The argument in single quotes that a decorator begins with. -/
def quotedArgument? (decorator : String) : Option String :=
  (cutAt? '(' decorator.toList).bind fun (_, rest) =>
    (dropPrefix? ['\''] rest).bind fun rest =>
      (cutAt? '\'' rest).map fun (inner, _) => String.ofList inner

/-- The names of numeric parameters. -/
def numericNames (parameters : List Parameter) : List String :=
  (parameters.filter fun parameter => parameter.type == identityType).map Parameter.name

/-- The names by which parameters are taken from a route. -/
def paramNames (parameters : List Parameter) : List String :=
  parameters.filterMap fun parameter => parameter.decorator.bind quotedArgument?

/-- The segments of the route in some decorators, each without the colon before it. -/
def routeNames? (decorators : List String) : Option (List String) :=
  (decorators.findSome? quotedArgument?).bind fun route =>
    (route.toList.splitOn '/').mapM fun segment => (dropPrefix? [':'] segment).map String.ofList

/-- The fields in the condition of a query: those in its innermost braces. -/
def whereNames? (arguments : String) : Option (List String) :=
  (dropPrefix? "\x7b where: ".toList arguments.toList).bind fun rest =>
    (cutAtLast? '\x7b' rest).bind fun (_, inner) =>
      (cutAt? '\x7d' inner).map fun (fields, _) => namesIn fields

/-- The quoted text right behind the first parenthesis is found, whatever follows it. -/
theorem quotedArgument?_quoted {front inner rest : List Char} (hfront : '(' ∉ front)
    (hinner : '\'' ∉ inner) {decorator : String}
    (h : decorator.toList = front ++ '(' :: '\'' :: (inner ++ '\'' :: rest)) :
    quotedArgument? decorator = some (String.ofList inner) := by
  have hquote : dropPrefix? ['\''] ('\'' :: (inner ++ '\'' :: rest)) =
      some (inner ++ '\'' :: rest) :=
    dropPrefix?_append ['\''] _
  rw [quotedArgument?, h, cutAt?_append hfront, Option.bind_some]
  simp only [hquote, Option.bind_some, cutAt?_append hinner, Option.map_some]

/-- A decorator whose parenthesis is followed by something else has no such argument, even if there
are quotes further on. -/
theorem quotedArgument?_eq_none {front rest : List Char} (hfront : '(' ∉ front) {decorator : String}
    (h : decorator.toList = front ++ '(' :: rest) (hrest : ∀ c ∈ rest.head?, c ≠ '\'') :
    quotedArgument? decorator = none := by
  have hquote : dropPrefix? ['\''] rest = none := by
    cases rest with
    | nil => rfl
    | cons c more => exact dropPrefix?_eq_none (hrest c (by simp)).symm [] more
  rw [quotedArgument?, h, cutAt?_append hfront, Option.bind_some]
  simp only [hquote, Option.bind_none]

/-! ### Parameters -/

@[simp] theorem numericNames_nil : numericNames [] = [] := rfl

theorem numericNames_append (first second : List Parameter) :
    numericNames (first ++ second) = numericNames first ++ numericNames second := by
  simp [numericNames]

theorem paramNames_append (first second : List Parameter) :
    paramNames (first ++ second) = paramNames first ++ paramNames second :=
  List.filterMap_append

/-- A parameter of another type is none of the numeric ones. -/
theorem numericNames_singleton {parameter : Parameter} (h : parameter.type ≠ identityType) :
    numericNames [parameter] = [] := by
  simp [numericNames, h]

/-- Among parameters that are all numeric none is left out. -/
theorem numericNames_eq_map {parameters : List Parameter}
    (h : ∀ parameter ∈ parameters, parameter.type = identityType) :
    numericNames parameters = parameters.map Parameter.name := by
  have hall : ∀ parameter ∈ parameters, (parameter.type == identityType) = true :=
    fun parameter hparameter => beq_iff_eq.mpr (h parameter hparameter)
  rw [numericNames, List.filter_eq_self.mpr hall]

section Identity

variable (identity : Identity)

theorem numericNames_identityParameters :
    numericNames (identityParameters identity) = identityNames identity := by
  have htype : ∀ parameter ∈ identityParameters identity, parameter.type = identityType :=
    List.forall_mem_map.mpr fun _ _ => rfl
  rw [numericNames_eq_map htype]
  simp [identityParameters, Function.comp_def]

/-- Decorators do not change the type of a parameter. -/
theorem numericNames_routeParameters :
    numericNames (routeParameters identity) = identityNames identity := by
  have htype : ∀ parameter ∈ routeParameters identity, parameter.type = identityType :=
    List.forall_mem_map.mpr fun _ _ => rfl
  rw [numericNames_eq_map htype]
  simp [routeParameters, Function.comp_def]

/-- The name that a parameter is taken from the route by is the name that it has in the method. -/
theorem paramNames_routeParameters
    (h : ∀ name ∈ identityNames identity, isWord name.toList = true) :
    paramNames (routeParameters identity) = identityNames identity := by
  have hparams : paramNames (routeParameters identity) = ((identityNames identity).map fun name =>
      "@Param(" ++ quoted name ++ ", ParseIntPipe)").filterMap quotedArgument? := by
    simp only [paramNames, routeParameters, List.filterMap_map]
    rfl
  rw [hparams]
  refine filterMap_map_eq_self fun name hname => ?_
  have hquote : '\'' ∉ name.toList := not_mem_of_isWord (h name hname) (by decide)
  have hdecorator : ("@Param(" ++ quoted name ++ ", ParseIntPipe)").toList =
      "@Param".toList ++ '(' :: '\'' :: (name.toList ++ '\'' :: ", ParseIntPipe)".toList) := by
    simp [quoted]
  rw [quotedArgument?_quoted (by decide) hquote hdecorator, String.ofList_toList]

/-- The body of a request is no part of its route. -/
theorem paramNames_bodyParameter (name type : String) : paramNames [bodyParameter name type] = [] := by
  have hbody : quotedArgument? "@Body()" = none := by decide
  simp [paramNames, bodyParameter, hbody]

end Identity

/-! ### Routes and conditions -/

section Route

variable {names : List String}

/-- The segments of a route are the names that it was made of. -/
theorem routeNames?_of_findSome? (names_ne_nil : names ≠ [])
    (h : ∀ name ∈ names, isWord name.toList = true) {decorators : List String}
    (hroute : decorators.findSome? quotedArgument? =
      some ("/".intercalate (names.map fun name => ":" ++ name))) :
    routeNames? decorators = some names := by
  have htext : ("/".intercalate (names.map fun name => ":" ++ name)).toList =
      ['/'].intercalate (names.map fun name => ':' :: name.toList) := by
    rw [String.toList_intercalate]
    simp [Function.comp_def]
  have hsplit : (['/'].intercalate (names.map fun name => ':' :: name.toList)).splitOn '/' =
      names.map fun name => ':' :: name.toList := by
    refine List.splitOn_intercalate '/' ?_ (by simpa using names_ne_nil)
    refine List.forall_mem_map.mpr fun name hname => ?_
    have hslash : '/' ∉ name.toList := not_mem_of_isWord (h name hname) (by decide)
    simp [hslash]
  rw [routeNames?, hroute, Option.bind_some, htext, hsplit]
  refine mapM_map_eq_some fun name _ => ?_
  have hcolon : dropPrefix? [':'] (':' :: name.toList) = some name.toList :=
    dropPrefix?_append [':'] name.toList
  rw [hcolon, Option.map_some, String.ofList_toList]

/-- The fields in the innermost braces of a condition are the names that they were made of. -/
theorem whereNames?_of_toList (h : ∀ name ∈ names, isWord name.toList = true)
    {arguments : String} {front behind : List Char} (hbehind : '\x7b' ∉ behind)
    (harguments : arguments.toList = "\x7b where: ".toList ++ (front ++ '\x7b' ::
      ([' '] ++ (commaSeparated names).toList ++ [' '] ++ '\x7d' :: behind))) :
    whereNames? arguments = some names := by
  have hopen : '\x7b' ∉ (commaSeparated names).toList :=
    not_mem_intercalate (by decide) fun name hname => not_mem_of_isWord (h name hname) (by decide)
  have hclose : '\x7d' ∉ (commaSeparated names).toList :=
    not_mem_intercalate (by decide) fun name hname => not_mem_of_isWord (h name hname) (by decide)
  have hinner : '\x7b' ∉ [' '] ++ (commaSeparated names).toList ++ [' '] ++ '\x7d' :: behind := by
    simp [hopen, hbehind]
  have hfields : '\x7d' ∉ [' '] ++ (commaSeparated names).toList ++ [' '] := by
    simp [hclose]
  rw [whereNames?, harguments, dropPrefix?_append, Option.bind_some, cutAtLast?_append hinner,
    Option.bind_some]
  simp only [cutAt?_append hfields, Option.map_some]
  rw [namesIn_commaSeparated h (by decide) (by decide)]

end Route

end Scaffold.Artifact
