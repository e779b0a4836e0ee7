/-!
# Scopes

The names that are in scope, with their values. A binding hides the earlier ones of its name.
-/

namespace Workflow

/-- Named values. An inner binding stands before an outer one and hides it. -/
abbrev Scope (A : Type) := List (String × A)

namespace Scope

variable {A : Type}

def find? (scope : Scope A) (name : String) : Option A :=
  scope.lookup name

def bind (scope : Scope A) (name : Option String) (value : A) : Scope A :=
  match name with
  | some name => (name, value) :: scope
  | none => scope

end Scope

end Workflow
