import ModuleScaffold.Schema
import ModuleScaffold.Text.Identifier

/-!
# Checking a module

A module is accepted if its names can be used in paths and in source text and every reference
leads to one of its models. The first problem is reported: first those of the module, then those
of the names of the models in order, then those of the parents and the fields.
-/

namespace ModuleScaffold

namespace Schema

/-- What is wrong with a word that stands between the slashes of a path. -/
inductive WordProblem
  /-- It is empty. -/
  | empty
  /-- It has a blank or a slash. -/
  | forbidden (word : String)
  deriving DecidableEq, Repr

/-- The problem in words. -/
def WordProblem.message : WordProblem → String
  | empty => "must not be empty"
  | forbidden word => "'" ++ word ++ "' must not contain whitespace or '/'"

/-- Why a module is not accepted. -/
inductive Problem
  /-- Its name is blank. -/
  | blankName
  /-- Its plural cannot stand in a path. -/
  | modulePlural (reason : WordProblem)
  /-- It has no models. -/
  | noModels (name : String)
  /-- The name of a model is no identifier. -/
  | modelName (name : String)
  /-- Two models have the same name. -/
  | repeatedModel (name : String)
  /-- The singular of a model cannot stand in a path. -/
  | singular (model : String) (reason : WordProblem)
  /-- The plural of a model cannot stand in a path. -/
  | plural (model : String) (reason : WordProblem)
  /-- A model refers to one that there is not, or to itself as its parent. -/
  | unknownModel (model target : String)
  /-- The route prefix of a model is empty. -/
  | emptyPrefix (model : String)
  /-- The name of a field is no identifier. -/
  | fieldName (model field : String)
  /-- Two fields of a model have the same name. -/
  | repeatedField (model field : String)
  deriving DecidableEq, Repr

/-- The problem in words. -/
def Problem.message : Problem → String
  | blankName => "moduleName must not be empty"
  | modulePlural reason => "plural: " ++ reason.message
  | noModels name => "module '" ++ name ++ "' has no models"
  | modelName name => "'" ++ name ++ "' is not a valid model name"
  | repeatedModel name => "Duplicate model name: " ++ name
  | singular model reason => model ++ ".singular: " ++ reason.message
  | plural model reason => model ++ ".plural: " ++ reason.message
  | unknownModel model target =>
    "Model '" ++ model ++ "' references unknown model '" ++ target ++ "'"
  | emptyPrefix model => model ++ ".parent.routePrefix must not be empty"
  | fieldName model field => model ++ ": '" ++ field ++ "' is not a valid field name"
  | repeatedField model field => model ++ ": duplicate field '" ++ field ++ "'"

/-- Fails with a problem unless the condition holds. -/
def require (condition : Bool) (problem : Problem) : Except Problem Unit :=
  if condition then .ok () else .error problem

/-- What is wrong with a word as a segment of a path, if anything is. -/
def wordProblem? (word : String) : Option WordProblem :=
  if word.isEmpty then some .empty
  else if word.toList.any fun c => Text.isBlank c || c == '/' then some (.forbidden word)
  else none

/-- Fails unless the word can stand in a path. -/
def requireWord (word : String) (problem : WordProblem → Problem) : Except Problem Unit :=
  match wordProblem? word with
  | some reason => .error (problem reason)
  | none => .ok ()

/-- Checks the names of models, after models with the names `seen`. -/
def checkNames (seen : List String) : List Model → Except Problem Unit
  | [] => .ok ()
  | m :: ms => do
    require (Text.isIdentifier m.name) (.modelName m.name)
    require (! seen.contains m.name) (.repeatedModel m.name)
    requireWord m.singular (.singular m.name)
    requireWord m.plural (.plural m.name)
    checkNames (m.name :: seen) ms

/-- A route prefix without slashes at its ends. -/
def Parent.route (parent : Parent) : String :=
  Text.trimMatches (· == '/') parent.routePrefix

/-- Checks the parent of a model. -/
def checkParent (m : Module) (model : Model) : Except Problem Unit :=
  match model.parent with
  | none => .ok ()
  | some parent => do
    require (parent.model != model.name && (m.model? parent.model).isSome)
      (.unknownModel model.name parent.model)
    require (! parent.route.isEmpty) (.emptyPrefix model.name)

/-- Checks the relation of a field of a model. -/
def checkRelation (m : Module) (model : Model) (field : Field) : Except Problem Unit :=
  match field.relation with
  | none => .ok ()
  | some relation =>
    require (m.model? relation.model).isSome (.unknownModel model.name relation.model)

/-- Checks the fields of a model, after fields with the names `seen`. -/
def checkFields (m : Module) (model : Model) (seen : List String) : List Field → Except Problem Unit
  | [] => .ok ()
  | f :: fs => do
    require (Text.isIdentifier f.name) (.fieldName model.name f.name)
    require (! seen.contains f.name) (.repeatedField model.name f.name)
    checkRelation m model f
    checkFields m model (f.name :: seen) fs

/-- Checks the references and the fields of models. -/
def checkModels (m : Module) : List Model → Except Problem Unit
  | [] => .ok ()
  | model :: rest => do
    checkParent m model
    checkFields m model [] model.fields
    checkModels m rest

/-- Checks a module. -/
def Module.check (m : Module) : Except Problem Unit := do
  require (! (Text.trim m.name).isEmpty) .blankName
  requireWord m.plural .modulePlural
  require (! m.models.isEmpty) (.noModels m.name)
  checkNames [] m.models
  checkModels m m.models

end Schema

end ModuleScaffold
