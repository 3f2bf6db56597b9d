import ModuleScaffold.Text.LetterCase
import ModuleScaffold.Value.Problem
import ModuleScaffold.Value.Layout

/-!
# Routes

A route has a method, a matcher, the middlewares that run on it and any further properties. Its
method and matcher are its key.

`Route.compare` is the order in which routes are written: by group, then method; within a method
longer matchers come first, then those with fewer parameters, then by the text of the matcher.
-/

namespace ModuleScaffold

/-- The methods a route can be registered for. -/
inductive Method
  /-- Read. -/
  | get
  /-- Create or act. -/
  | post
  /-- Replace. -/
  | put
  /-- Change in part. -/
  | patch
  /-- Remove. -/
  | delete
  /-- Ask for options. -/
  | options
  /-- Read the header alone. -/
  | head
  deriving DecidableEq, Repr

namespace Method

/-- The methods in the order of route keys. -/
def all : List Method := [get, post, put, patch, delete, options, head]

/-- The name of a method. -/
def name : Method → String
  | get => "GET"
  | post => "POST"
  | put => "PUT"
  | patch => "PATCH"
  | delete => "DELETE"
  | options => "OPTIONS"
  | head => "HEAD"

/-- The place of a method in the order of route keys. -/
def index : Method → Nat
  | get => 0
  | post => 1
  | put => 2
  | patch => 3
  | delete => 4
  | options => 5
  | head => 6

/-- The place of a method among the routes of its group. -/
def rank : Method → Nat
  | get => 0
  | post => 1
  | put => 2
  | patch => 3
  | delete => 4
  | head => 5
  | options => 6

/-- The method with the given name, in capital or small letters. -/
def ofName? (name : String) : Option Method :=
  all.find? fun m => m.name.toList == name.toList.map Char.toUpper

end Method

/-- A route. -/
structure Route where
  /-- The method. -/
  method : Method
  /-- The paths the route is registered for. -/
  matcher : String
  /-- The middlewares, in the order in which they run. -/
  middlewares : List Call
  /-- Further properties, in the order of the source. -/
  extra : List (String × Value)
  deriving Repr

namespace Route

/-- Whether two routes have the same method and matcher. -/
def sameKey (a b : Route) : Bool :=
  a.method == b.method && a.matcher == b.matcher

/-- The order of route keys: by method, then matcher. -/
def keyBefore (a b : Route) : Bool :=
  a.method.index < b.method.index || (a.method == b.method && a.matcher < b.matcher)

/-- Equality of lists of calls. -/
def sameCalls : List Call → List Call → Bool
  | [], [] => true
  | a :: as, b :: bs => a.same b && sameCalls as bs
  | _, _ => false

/-- Equality of routes. -/
def same (a b : Route) : Bool :=
  a.sameKey b && sameCalls a.middlewares b.middlewares && Value.sameMembers a.extra b.extra

/-- The first reason why one of several middlewares cannot be written. -/
def callsProblem? : List Call → Option Value.Problem
  | [] => none
  | c :: cs =>
    match c.problem? with
    | some p => some p
    | none => callsProblem? cs

/-- The first reason why one of the further properties cannot be written. -/
def extraProblem? : List (String × Value) → Option Value.Problem
  | [] => none
  | (k, v) :: ms =>
    if k.isEmpty then some .emptyRouteKey
    else match v.problem? with
      | some p => some p
      | none => extraProblem? ms

/-- The first reason why a route cannot be written. -/
def problem? (route : Route) : Option Value.Problem :=
  match callsProblem? route.middlewares with
  | some p => some p
  | none => extraProblem? route.extra

/-- The references in the middlewares and the further properties. -/
def references (route : Route) : List String :=
  route.middlewares.flatMap Call.references ++ Value.referencesMembers route.extra

/-! ### Segments -/

/-- The pieces of the matcher between slashes that are not empty. -/
def segments (route : Route) : List (List Char) :=
  (Text.fields (· == '/') route.matcher.toList).filter (! ·.isEmpty)

/-- The number of segments. -/
def segmentCount (route : Route) : Nat :=
  route.segments.length

/-- The number of segments that stand for a parameter. -/
def paramCount (route : Route) : Nat :=
  (route.segments.filter (·.head? == some ':')).length

/-- Whether a segment stands for a parameter. -/
def hasParam (route : Route) : Bool :=
  0 < route.paramCount

/-! ### Groups and order -/

/-- The groups in which routes are written. -/
inductive Group
  /-- Routes that read. -/
  | get
  /-- Posts to a collection. -/
  | create
  /-- Posts to an item, and the other changes. -/
  | update
  /-- Removals. -/
  | delete
  /-- All others. -/
  | other
  deriving DecidableEq, Repr

/-- The place of a group among the groups. -/
def Group.index : Group → Nat
  | get => 0
  | create => 1
  | update => 2
  | delete => 3
  | other => 4

/-- The comment above the routes of a group. -/
def Group.banner : Group → String
  | get => "// GET routes"
  | create => "// CREATE routes"
  | update => "// UPDATE routes"
  | delete => "// DELETE routes"
  | other => "// OTHER routes"

/-- The group of a route. -/
def group (route : Route) : Group :=
  match route.method with
  | .get => .get
  | .post => if route.hasParam then .update else .create
  | .put | .patch => .update
  | .delete => .delete
  | .options | .head => .other

/-- The order in which routes are written. -/
def compare (a b : Route) : Ordering :=
  (Ord.compare a.group.index b.group.index).then
    ((Ord.compare a.method.rank b.method.rank).then
      ((Ord.compare b.segmentCount a.segmentCount).then
        ((Ord.compare a.paramCount b.paramCount).then
          (Ord.compare a.matcher b.matcher))))

/-- Routes in the order in which they are written. -/
def sort (routes : List Route) : List Route :=
  routes.mergeSort fun a b => a.compare b != .gt

/-! ### Writing -/

/-- The route as the members of an object. -/
def members (route : Route) : List (String × Value) :=
  ("matcher", .string route.matcher) :: ("method", .string route.method.name)
    :: ("middlewares", .array (route.middlewares.map Call.toValue)) :: route.extra

/-- A route as an element of the list of routes. -/
def render (route : Route) : List Char :=
  Value.brokenObject route.members 4

end Route

end ModuleScaffold
