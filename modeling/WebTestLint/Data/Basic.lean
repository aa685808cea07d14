import WebTestLint.Text.Affix

/-!
Data sets. Each row of a step's data names some parameters and gives their values; a statement refers
to a parameter as `$data.name`.
-/

namespace WebTestLint

structure DataSet where
  name : String
  parameters : List (String × String)
deriving DecidableEq, Repr

namespace DataSet

/-- The value of a parameter; of several with one name, the first. -/
def get? (dataSet : DataSet) (name : String) : Option String :=
  (dataSet.parameters.find? (·.1 == name)).map (·.2)

def hasAll (dataSet : DataSet) (names : List String) : Bool :=
  names.all fun name => (dataSet.get? name).isSome

theorem get?_isSome_iff (dataSet : DataSet) (name : String) :
    (dataSet.get? name).isSome ↔ ∃ parameter ∈ dataSet.parameters, parameter.1 = name := by
  simp [get?, List.find?_isSome]

end DataSet

abbrev Data := List DataSet

/-- The name in a `$data.name` reference. It holds at least one character and no dot. -/
def Data.parameterName? (text : String) : Option String :=
  match dropStart? "$data.".toList text.toList with
  | some name => if name.isEmpty || name.contains '.' then none else some (String.ofList name)
  | none => none

end WebTestLint
