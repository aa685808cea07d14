import WebTestLint.Verdict.Basic

/-!
Checks of data: every row must have the parameter that a statement refers to.
-/

namespace WebTestLint

def DataSet.check (name : String) (dataSet : DataSet) : Verdict :=
  if dataSet.hasAll [name] then .valid (.dataSet dataSet)
  else
    .invalid ((Failure.of (.dataSet dataSet) .dataSet .dataSetIncomplete).setContext
      "data-parameter-name" (.text name))

namespace Data

def check (name : String) (data : Data) : Verdict :=
  if data.isEmpty then .invalid (.of (.data data) .data .dataEmpty)
  else
    match data.findSome? fun dataSet => (dataSet.check name).failure? with
    | some cause => .invalid ((Failure.of (.data data) .data .dataDataSetInvalid).causedBy cause)
    | none => .valid (.data data)

end Data

end WebTestLint
