import WebTestLint.Report.Json
import WebTestLint.Report.Text

/-!
The formats of a report.
-/

namespace WebTestLint.Report

inductive Format where
  | text
  | json
deriving DecidableEq, Repr

namespace Format

def name : Format → String
  | text => "text"
  | json => "json"

def ofName? (name : String) : Option Format := [text, json].find? (·.name == name)

theorem ofName?_name (format : Format) : ofName? format.name = some format := by
  cases format <;> decide

def write : Format → List File → String
  | text => Report.text
  | json => Report.json

end Format

end WebTestLint.Report
