import ModuleScaffold.Text.Words

/-!
# Helpers of templates

Templates have names written in some style by *helpers*. The helpers are a table under the
control of the caller; a template that uses a helper that is not in the table fails at the first
such use, which is reported with its line in the template.
-/

namespace ModuleScaffold

namespace Template

/-- The name of the helper that writes a style. -/
def helperName : Text.Style → String
  | .pascal => "pascal_case"
  | .camel => "camel_case"
  | .snake => "snake_case"
  | .kebab => "kebab_case"
  | .title => "title_case"

/-- The style whose helper has the given name. -/
def styleOf? (name : String) : Option Text.Style :=
  Text.Style.all.find? (helperName · == name)

/-- A table of helpers. -/
structure Helpers where
  /-- The helpers by name. -/
  entries : List (String × (String → String)) := []

namespace Helpers

/-- The table without helpers. -/
def empty : Helpers := {}

/-- The entries with a helper in the place of the one of the same name, or at the end. -/
def replaceIn (name : String) (helper : String → String) :
    List (String × (String → String)) → List (String × (String → String))
  | [] => [(name, helper)]
  | e :: es => if e.1 == name then (e.1, helper) :: es else e :: replaceIn name helper es

/-- The table with a helper added, or replaced if the name is taken. -/
def add (helpers : Helpers) (name : String) (helper : String → String) : Helpers :=
  ⟨replaceIn name helper helpers.entries⟩

/-- The table in which every style has its helper. -/
def standard : Helpers :=
  ⟨Text.Style.all.map fun style => (helperName style, style.apply)⟩

/-- The helper of the given name. -/
def find? (helpers : Helpers) (name : String) : Option (String → String) :=
  helpers.entries.lookup name

end Helpers

/-- The use of a helper that is not in the table. -/
structure Unknown where
  /-- The name of the helper. -/
  helper : String
  /-- The line of the template. -/
  line : Nat
  deriving DecidableEq, Repr

/-- A name as the helper of a style writes it, in the given line of the template. -/
def Helpers.use (helpers : Helpers) (style : Text.Style) (line : Nat) (name : String) :
    Except Unknown String :=
  match helpers.find? (helperName style) with
  | some write => .ok (write name)
  | none => .error ⟨helperName style, line⟩

end Template

end ModuleScaffold
