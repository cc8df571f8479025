import TableAlgebra.Demo.Canned
import TableAlgebra.Demo.Sample
import TableAlgebra.Report

/-!
The command line, from arguments and environment to exit code and output. The
commands are `demo`, `list`, `explain` and `dump`. Arguments are taken from
left to right; the first one that is wrong ends the run with exit code 2.
-/
namespace TableAlgebra
namespace CommandLine

inductive Argument where
  | escape
  | long (name : String) (value : Option String)
  | short (letters : List Char)
  | word (text : String)
deriving DecidableEq, Repr

def Argument.ofString (text : String) : Argument :=
  match text.toList with
  | ['-', '-'] => .escape
  | '-' :: '-' :: rest =>
    let name := String.ofList (rest.takeWhile (· != '='))
    match rest.dropWhile (· != '=') with
    | [] => .long name none
    | _ :: value => .long name (some (String.ofList value))
  | '-' :: c :: rest => .short (c :: rest)
  | _ => .word text

inductive OptionName where
  | query
  | output
  | padding
  | nulls
deriving DecidableEq, Repr

def OptionName.ofLong? : String → Option OptionName
  | "query" => some query
  | "output" => some output
  | "padding" => some padding
  | "nulls" => some nulls
  | _ => none

def OptionName.ofShort? : Char → Option OptionName
  | 'q' => some query
  | 'o' => some output
  | _ => none

structure DemoOptions where
  query : Option String
  output : Option OutputFormat
  padding : Option PaddingPolicy
  nulls : Option NullOrder
deriving DecidableEq, Repr, Inhabited

def DemoOptions.empty : DemoOptions := ⟨none, none, none, none⟩

def DemoOptions.set? (options : DemoOptions) (name : OptionName) (value : String) :
    Option DemoOptions :=
  match name with
  | .query => if options.query.isSome then none else some { options with query := some value }
  | .output =>
    if options.output.isSome then none
    else (OutputFormat.ofName? value).map fun f => { options with output := some f }
  | .padding =>
    if options.padding.isSome then none
    else (PaddingPolicy.parse value).toOption.map fun p => { options with padding := some p }
  | .nulls =>
    if options.nulls.isSome then none
    else (NullOrder.parse value).toOption.map fun n => { options with nulls := some n }

inductive Command where
  | demo (options : DemoOptions)
  | list
  | explain
  | dump
  | help
deriving DecidableEq, Repr

structure Progress where
  takesOptions : Bool
  verbose : Bool
  options : DemoOptions
deriving DecidableEq, Repr

namespace Progress

def start (takesOptions : Bool) : Progress := ⟨takesOptions, false, .empty⟩

def setVerbose? (p : Progress) : Option Progress :=
  if p.verbose then none else some { p with verbose := true }

def set? (p : Progress) (name : OptionName) (value : String) : Option Progress :=
  (p.options.set? name value).map fun options => { p with options }

def longOption? (p : Progress) (name : String) : Option OptionName :=
  if p.takesOptions then OptionName.ofLong? name else none

def shortOption? (p : Progress) (c : Char) : Option OptionName :=
  if p.takesOptions then OptionName.ofShort? c else none

end Progress

inductive Step where
  | wrong
  | help
  | next (p : Progress)
  | needsValue (p : Progress) (name : OptionName)

def Step.ofOption : Option Progress → Step
  | some p => next p
  | none => wrong

/-- Letters behind one hyphen: flags, up to an option that takes the rest as its
value, with or without an equals sign. -/
def readLetters (p : Progress) : List Char → Step
  | [] => .next p
  | c :: rest =>
    if c = 'h' then .help
    else if c = 'v' then
      match p.setVerbose? with
      | some p => readLetters p rest
      | none => .wrong
    else
      match p.shortOption? c, rest with
      | none, _ => .wrong
      | some name, [] => .needsValue p name
      | some name, '=' :: value => .ofOption (p.set? name (String.ofList value))
      | some name, value => .ofOption (p.set? name (String.ofList value))

def readLong (p : Progress) (name : String) (value : Option String) : Step :=
  match p.longOption? name, value with
  | some option, some value => .ofOption (p.set? option value)
  | some option, none => .needsValue p option
  | none, some _ => .wrong
  | none, none =>
    if name = "help" then .help
    else if name = "verbose" then .ofOption p.setVerbose?
    else .wrong

/-- One argument that is no value. Two bare hyphens may stand last. -/
def stepOf (p : Progress) (isLast : Bool) : Argument → Step
  | .escape => if isLast then .next p else .wrong
  | .long name value => readLong p name value
  | .short letters => readLetters p letters
  | .word _ => .wrong

def readArguments (command : DemoOptions → Command) (p : Progress) :
    List String → Option Command
  | [] => some (command p.options)
  | argument :: rest =>
    match stepOf p rest.isEmpty (Argument.ofString argument) with
    | .wrong => none
    | .help => some .help
    | .next p => readArguments command p rest
    | .needsValue p name =>
      match rest with
      | [] => none
      | value :: rest =>
        match Argument.ofString value with
        | .word value =>
          match p.set? name value with
          | some p => readArguments command p rest
          | none => none
        | _ => none

def commandNames : List String := ["demo", "list", "explain", "dump", "help"]

def readHelp : List String → Option Command
  | [] => some .help
  | [name] => if name ∈ commandNames then some .help else none
  | _ => none

def readNamed (name : String) (rest : List String) : Option Command :=
  match name with
  | "demo" => readArguments .demo (.start true) rest
  | "list" => readArguments (fun _ => .list) (.start false) rest
  | "explain" => readArguments (fun _ => .explain) (.start false) rest
  | "dump" => readArguments (fun _ => .dump) (.start false) rest
  | "help" => readHelp rest
  | _ => none

def readCommand (p : Progress) : List String → Option Command
  | [] => none
  | argument :: rest =>
    match Argument.ofString argument with
    | .word name => readNamed name rest
    | other =>
      match stepOf p false other with
      | .next p => readCommand p rest
      | .help => some .help
      | _ => none

def parse? (arguments : List String) : Option Command := readCommand (.start false) arguments

structure Outcome where
  exitCode : Nat
  output : String
  failure : Option String
deriving DecidableEq, Repr

def Outcome.success (output : String) : Outcome := ⟨0, output, none⟩
def Outcome.failed (output message : String) : Outcome := ⟨1, output, some ("Error: " ++ message)⟩
def Outcome.usage : Outcome := ⟨2, "", none⟩

def showResult (query : CannedQuery) (format : OutputFormat) (result : Table) : String :=
  (if format = .table then "-- " ++ query.sql ++ "\n" else "") ++ result.render format ++
    if format = .jsonl then "" else "\n"

def runQueries (settings : Settings) (format : OutputFormat) (shown : String) :
    List CannedQuery → Outcome
  | [] => .success shown
  | query :: rest =>
    match query.run Sample.database settings with
    | .error cause => .failed shown cause.message
    | .ok result => runQueries settings format (shown ++ showResult query format result) rest

def demoSettings (options : DemoOptions) (environment : String → Option String) : Settings :=
  let settings := Settings.ofEnvironment environment
  ⟨options.padding.getD settings.padding, options.nulls.getD settings.nulls⟩

def runDemo (options : DemoOptions) (environment : String → Option String) : Outcome :=
  let settings := demoSettings options environment
  let format := options.output.getD .table
  match options.query with
  | none => runQueries settings format "" CannedQuery.all
  | some name =>
    match CannedQuery.find? name with
    | none => .failed "" ("unknown query '" ++ name ++ "'")
    | some query => runQueries settings format "" [query]

def listLine (query : CannedQuery) : String :=
  query.name ++ String.ofList (List.replicate (10 - query.name.length) ' ') ++ " " ++
    query.sql ++ "\n"

def runExplain (environment : String → Option String) : Outcome :=
  match CannedQuery.headcountStages Sample.database (Settings.ofEnvironment environment) with
  | .error cause => .failed "" cause.message
  | .ok (pipeline, _) => .success (pipeline.explainJson.indentedText ++ "\n")

def run (arguments : List String) (environment : String → Option String) : Outcome :=
  match parse? arguments with
  | none => .usage
  | some (.demo options) => runDemo options environment
  | some .list => .success (String.join (CannedQuery.all.map listLine))
  | some .explain => runExplain environment
  | some .dump => .success (Sample.database.toJson.indentedText ++ "\n")
  | some .help => .success ""

end CommandLine
end TableAlgebra
