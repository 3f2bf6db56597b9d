import ModuleScaffold.Json.Record

/-!
# Module schemas

What is to be generated: a module with its models. A model has fields; a field has a type and may
relate the model to another one. A model may be the parent of the module, which owns its root
route, or the child of another model, below a route prefix of its own.

`Module.ofText` reads a module from JSON. Keys that are missing stand for no parent, no fields, no
relation, no validation and no further calls.
-/

namespace ModuleScaffold

namespace Schema

/-- The type of a field. -/
inductive FieldType
  /-- A text. -/
  | text
  /-- A number. -/
  | number
  /-- A truth value. -/
  | boolean
  /-- A point in time. -/
  | date
  deriving DecidableEq, Repr

/-- The types by name. -/
def FieldType.names : List (String × FieldType) :=
  [("text", .text), ("number", .number), ("boolean", .boolean), ("date", .date)]

/-- The name of a type. -/
def FieldType.name : FieldType → String
  | text => "text"
  | number => "number"
  | boolean => "boolean"
  | date => "date"

/-- How a model is related to another one. -/
inductive RelationKind
  /-- Its items belong to one item of the other model. -/
  | belongsTo
  /-- Its items have many items of the other model. -/
  | hasMany
  /-- Both have many items of each other. -/
  | manyToMany
  deriving DecidableEq, Repr

/-- The kinds of relations by name. -/
def RelationKind.names : List (String × RelationKind) :=
  [("belongsTo", .belongsTo), ("hasMany", .hasMany), ("manyToMany", .manyToMany)]

/-- The name of a kind. -/
def RelationKind.name : RelationKind → String
  | belongsTo => "belongsTo"
  | hasMany => "hasMany"
  | manyToMany => "manyToMany"

/-- A relation to another model. -/
structure Relation where
  /-- The kind of the relation. -/
  kind : RelationKind
  /-- The name of the other model. -/
  model : String
  /-- The field of the other model that holds the relation. -/
  mappedBy : Option String := none
  /-- The table that holds the relation. -/
  through : Option String := none
  deriving DecidableEq, Repr

/-- A field of a model. -/
structure Field where
  /-- Its name. -/
  name : String
  /-- Its type. -/
  type : FieldType
  /-- The relation it stands for. -/
  relation : Option Relation := none
  /-- A further check on its values. -/
  validation : Option String := none
  /-- Further calls in its definition. -/
  chainables : List String := []
  deriving DecidableEq, Repr

/-- The parent of a model. -/
structure Parent where
  /-- The name of the parent. -/
  model : String
  /-- The route below which the model's routes live. -/
  routePrefix : String
  deriving DecidableEq, Repr

/-- A model. -/
structure Model where
  /-- Its name. -/
  name : String
  /-- The word for one item. -/
  singular : String
  /-- The word for several items. -/
  plural : String
  /-- Whether it owns the root route of the module. -/
  isParent : Bool := false
  /-- Its parent. -/
  parent : Option Parent := none
  /-- Its fields. -/
  fields : List Field := []
  deriving DecidableEq, Repr

/-- A module. -/
structure Module where
  /-- Its name. -/
  name : String
  /-- Its plural in routes. -/
  plural : String
  /-- Its models. -/
  models : List Model
  deriving DecidableEq, Repr

/-- The model of the given name. -/
def Module.model? (m : Module) (name : String) : Option Model :=
  m.models.find? (·.name == name)

/-- The models whose parent has the name of the given model. -/
def Module.childrenOf (m : Module) (parent : Model) : List Model :=
  m.models.filter fun model => (model.parent.map (·.model == parent.name)).getD false

/-! ### Reading -/

/-- The shape of a relation. -/
def Relation.shape : Json.Shape Relation where
  name := "struct Relation"
  blank := ⟨.belongsTo, "", none, none⟩
  members := [
    .of "type" false (Json.readVariant RelationKind.names) fun v r => { r with kind := v },
    .of "model" false Json.readString fun v r => { r with model := v },
    .of "mappedBy" true (Json.readOption Json.readString) fun v r => { r with mappedBy := v },
    .of "through" true (Json.readOption Json.readString) fun v r => { r with through := v }]

/-- The shape of a field. -/
def Field.shape : Json.Shape Field where
  name := "struct FieldSchema"
  blank := ⟨"", .text, none, none, []⟩
  members := [
    .of "name" false Json.readString fun v f => { f with name := v },
    .of "type" false (Json.readVariant FieldType.names) fun v f => { f with type := v },
    .of "relation" true (Json.readOption (Json.readRecord Relation.shape))
      fun v f => { f with relation := v },
    .of "validation" true (Json.readOption Json.readString) fun v f => { f with validation := v },
    .of "chainables" true (Json.readList Json.readString) fun v f => { f with chainables := v }]

/-- The shape of a parent. -/
def Parent.shape : Json.Shape Parent where
  name := "struct ParentRef"
  blank := ⟨"", ""⟩
  members := [
    .of "model" false Json.readString fun v p => { p with model := v },
    .of "routePrefix" false Json.readString fun v p => { p with routePrefix := v }]

/-- The shape of a model. -/
def Model.shape : Json.Shape Model where
  name := "struct ModelSchema"
  blank := ⟨"", "", "", false, none, []⟩
  members := [
    .of "name" false Json.readString fun v m => { m with name := v },
    .of "singular" false Json.readString fun v m => { m with singular := v },
    .of "plural" false Json.readString fun v m => { m with plural := v },
    .of "isParent" true Json.readBool fun v m => { m with isParent := v },
    .of "parent" true (Json.readOption (Json.readRecord Parent.shape))
      fun v m => { m with parent := v },
    .of "fields" true (Json.readList (Json.readRecord Field.shape))
      fun v m => { m with fields := v }]

/-- The shape of a module. -/
def Module.shape : Json.Shape Module where
  name := "struct ModuleSchema"
  blank := ⟨"", "", []⟩
  members := [
    .of "moduleName" false Json.readString fun v m => { m with name := v },
    .of "plural" false Json.readString fun v m => { m with plural := v },
    .of "models" false (Json.readList (Json.readRecord Model.shape))
      fun v m => { m with models := v }]

/-- The module that a JSON text describes. -/
def Module.ofText (text : String) : Except Json.Problem Module :=
  Json.readText (Json.readRecord Module.shape) text

end Schema

end ModuleScaffold
