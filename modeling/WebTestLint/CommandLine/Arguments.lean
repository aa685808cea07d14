import WebTestLint.Document.Kind
import WebTestLint.Report.Format

/-!
The arguments of the command line: patterns for files, behind a command if all documents are of one kind,
and options in between. A command is only looked for where no list of patterns has begun; an option ends
such a list. Behind two dashes every argument is a pattern.
-/

namespace WebTestLint.CommandLine

inductive Stop where
  | help
  | version
  | unknownOption (option : String)
  | repeatedOption (option : String)
  | surplusValue (option : String)
  | missingFormat
  | unknownFormat (name : String)
  | unknownCommand (name : String)
  | missingPatterns
deriving DecidableEq, Repr

namespace Stop

def isFault : Stop → Bool
  | help | version => false
  | _ => true

def message : Stop → String
  | help =>
    "Validates browser test and page documents without running them\n\n" ++
    "Usage: stepcheck [OPTIONS] [PATTERNS]... [COMMAND]\n\n" ++
    "Commands:\n" ++
    "  test  Validate test documents\n" ++
    "  page  Validate page documents\n" ++
    "  help  Print this message\n\n" ++
    "Arguments:\n" ++
    "  [PATTERNS]...  Patterns to match documents\n\n" ++
    "Options:\n" ++
    "  -v, --verbose                        Enable verbose output\n" ++
    "      --output-format <OUTPUT_FORMAT>  Output format: text or json\n" ++
    "  -h, --help                           Print help\n" ++
    "  -V, --version                        Print version\n"
  | version => "stepcheck 1.0.0\n"
  | unknownOption option => "error: unexpected argument '" ++ option ++ "' found\n"
  | repeatedOption option =>
    "error: the argument '" ++ option ++ "' cannot be used multiple times\n"
  | surplusValue option => "error: the argument '" ++ option ++ "' takes no value\n"
  | missingFormat => "error: '--output-format' needs a value: text or json\n"
  | unknownFormat name => "error: invalid value '" ++ name ++ "' for '--output-format'\n"
  | unknownCommand name => "error: unrecognized command '" ++ name ++ "'\n"
  | missingPatterns => "error: patterns for the documents are required\n"

end Stop

/-- What has been read of the arguments. Each option may be given once in front of a command and once
behind it; of two formats the one behind the command counts. -/
structure Arguments where
  kind? : Option Document.Kind
  patterns : List String
  isVerbose : Bool
  format? : Option Report.Format
  outerFormat? : Option Report.Format
deriving DecidableEq, Repr

namespace Arguments

def empty : Arguments := ⟨none, [], false, none, none⟩

def enter (arguments : Arguments) (kind : Document.Kind) : Arguments :=
  { empty with kind? := some kind, outerFormat? := arguments.format? }

def addPatterns (arguments : Arguments) (patterns : List String) : Arguments :=
  { arguments with patterns := arguments.patterns ++ patterns }

def setFormat (arguments : Arguments) (name : String) : Except Stop Arguments :=
  match Report.Format.ofName? name, arguments.format? with
  | none, _ => .error (.unknownFormat name)
  | some _, some _ => .error (.repeatedOption "--output-format")
  | some format, none => .ok { arguments with format? := some format }

def setVerbose (arguments : Arguments) : Except Stop Arguments :=
  if arguments.isVerbose then .error (.repeatedOption "--verbose")
  else .ok { arguments with isVerbose := true }

/-- Takes an option without a value. Only the program itself has a version, its commands have none. -/
def addFlag (arguments : Arguments) (option : String) : Except Stop Arguments :=
  if option = "--verbose" || option = "-v" then arguments.setVerbose
  else if option = "--help" || option = "-h" then .error .help
  else if (option = "--version" || option = "-V") && arguments.kind?.isNone then .error .version
  else .error (.unknownOption option)

def addSetting (arguments : Arguments) (option value : String) : Except Stop Arguments :=
  if option = "--output-format" then arguments.setFormat value
  else if option = "--verbose" || option = "--help" ||
      option = "--version" && arguments.kind?.isNone then
    .error (.surplusValue option)
  else .error (.unknownOption option)

def finish (arguments : Arguments) : Except Stop Arguments :=
  if arguments.kind?.isSome && arguments.patterns.isEmpty then .error .missingPatterns
  else .ok arguments

def format (arguments : Arguments) : Report.Format :=
  (arguments.format? <|> arguments.outerFormat?).getD .text

/-- The patterns to resolve. Without any it is the folder itself. -/
def targets (arguments : Arguments) : List String :=
  if arguments.patterns.isEmpty then ["."] else arguments.patterns

end Arguments

def commandOf? (argument : String) : Option Document.Kind :=
  if argument = "test" then some .test else if argument = "page" then some .page else none

def helpOn : List String → Stop
  | [] => .help
  | [command] => if command ∈ ["test", "page", "help"] then .help else .unknownCommand command
  | command :: other :: _ =>
    .unknownCommand (if command ∈ ["test", "page", "help"] then other else command)

def isOption (argument : String) : Bool :=
  match argument.toList with
  | '-' :: _ :: _ => true
  | _ => false

/-- Takes an option that stands for itself: long ones have two dashes, of short ones many can follow one
dash. -/
def addOption (arguments : Arguments) (option : String) : Except Stop Arguments :=
  match option.toList with
  | '-' :: '-' :: text =>
    match text.dropWhile (· != '=') with
    | [] => arguments.addFlag option
    | _ :: value =>
      arguments.addSetting (String.ofList ('-' :: '-' :: text.takeWhile (· != '=')))
        (String.ofList value)
  | letters =>
    (letters.drop 1).foldlM (fun arguments letter =>
      arguments.addFlag (String.ofList ['-', letter])) arguments

/-- Reads arguments; `inList` tells whether a list of patterns has begun. -/
def read (arguments : Arguments) (inList : Bool) : List String → Except Stop Arguments
  | [] => arguments.finish
  | "--" :: patterns => (arguments.addPatterns patterns).finish
  | "--output-format" :: rest =>
    match rest with
    | [] => .error .missingFormat
    | name :: rest =>
      if isOption name then .error .missingFormat
      else do read (← arguments.setFormat name) false rest
  | argument :: rest =>
    if isOption argument then do read (← addOption arguments argument) false rest
    else if !inList && arguments.kind?.isNone && argument = "help" then .error (helpOn rest)
    else
      match commandOf? argument with
      | some kind =>
        if !inList && arguments.kind?.isNone then read (arguments.enter kind) false rest
        else read (arguments.addPatterns [argument]) true rest
      | none => read (arguments.addPatterns [argument]) true rest

def parse : List String → Except Stop Arguments := read .empty false

end WebTestLint.CommandLine
