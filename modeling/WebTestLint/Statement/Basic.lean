/-!
Statements: the lines of a step. An action does something to the page, an assertion says what the page
must then show. Both keep the line they were read from.
-/

namespace WebTestLint

/-- What an action carries: `click`, `submit` and `wait-for` name an element, `set` names an element
and a value for it, `wait` has a duration. -/
inductive Action.Kind where
  | interaction (identifier : String)
  | input (identifier value : String)
  | wait (duration : String)
  | noArguments
  | unknown
deriving DecidableEq, Repr

structure Action where
  source : String
  command : String
  arguments : String
  kind : Action.Kind
deriving DecidableEq, Repr

namespace Action

def identifier? (action : Action) : Option String :=
  match action.kind with
  | .interaction identifier | .input identifier _ => some identifier
  | _ => none

def value? (action : Action) : Option String :=
  match action.kind with
  | .input _ value => some value
  | _ => none

def duration? (action : Action) : Option String :=
  match action.kind with
  | .wait duration => some duration
  | _ => none

end Action

structure Assertion where
  source : String
  identifier : String
  operator : String
  value? : Option String
deriving DecidableEq, Repr

inductive Statement where
  | action (action : Action)
  | assertion (assertion : Assertion)
deriving DecidableEq, Repr

def Statement.source : Statement → String
  | .action line => line.source
  | .assertion line => line.source

end WebTestLint
