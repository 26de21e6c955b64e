import EarleyChart.Chart.Printer
import EarleyChart.Document.Language
import EarleyChart.Grammar.Description
import EarleyChart.Value.Json

/-!
Contract: the command line, as a function of its arguments and the files it reads.

The arguments name one file and may name a grammar, a lexer and an output format. `Invocation.ofArguments`
reads them from left to right and settles on the first thing that is wrong or that asks for a text
about the program. `execute` reads the file, then the grammar, then the lexer, and stops at
the first of them that fails.
-/

namespace EarleyChart.CommandLine

/-- How a value is printed. -/
inductive Format where
  | json
  | debug
deriving DecidableEq, Repr

def Format.ofName? (name : String) : Option Format :=
  match name with
  | "json" => some .json
  | "debug" => some .debug
  | _ => none

/-- What the arguments have said so far. -/
structure Options where
  path : Option String := none
  grammar : Option String := none
  lexer : Option String := none
  format : Option Format := none
  chart : Bool := false
deriving DecidableEq, Repr

/-- What a run of the program is asked for. -/
inductive Invocation where
  | parse (path : String) (options : Options)
  | version
  | help
  | usage
deriving DecidableEq, Repr

/-- The options that take a value. -/
inductive ValueOption where
  | grammar
  | lexer
  | format
deriving DecidableEq, Repr

def ValueOption.ofLong? (name : String) : Option ValueOption :=
  match name with
  | "grammar" => some .grammar
  | "lexer" => some .lexer
  | "format" => some .format
  | _ => none

def ValueOption.ofShort? (c : Char) : Option ValueOption :=
  match c with
  | 'g' => some .grammar
  | 'l' => some .lexer
  | 'f' => some .format
  | _ => none

namespace Options

/-- Gives an option its value; it may have one only. -/
def setValue? (options : Options) (option : ValueOption) (value : String) : Option Options :=
  match option with
  | .grammar => if options.grammar.isSome then none else some { options with grammar := some value }
  | .lexer => if options.lexer.isSome then none else some { options with lexer := some value }
  | .format =>
      if options.format.isSome then none
      else (Format.ofName? value).map fun format => { options with format := some format }

/-- Names the file to parse; there may be one only. -/
def setPath? (options : Options) (path : String) : Option Options :=
  if options.path.isSome then none else some { options with path := some path }

/-- Asks for the chart; this may be asked once only. -/
def setChart? (options : Options) : Option Options :=
  if options.chart then none else some { options with chart := true }

end Options

/-- One argument. -/
inductive Argument where
  | positional (text : String)
  | long (name : String) (value : Option String)
  | short (name : Char) (value : Option String)
  | separator
deriving DecidableEq, Repr

/-- Sorts an argument by its hyphens. -/
def Argument.ofString (text : String) : Argument :=
  match text.toList with
  | ['-', '-'] => .separator
  | '-' :: '-' :: rest =>
      let name := rest.takeWhile (· != '=')
      let value := match rest.drop name.length with
        | [] => none
        | _ :: value => some (String.ofList value)
      .long (String.ofList name) value
  | '-' :: c :: rest =>
      let value := match rest with
        | [] => none
        | '=' :: value => some (String.ofList value)
        | value => some (String.ofList value)
      .short c value
  | _ => .positional text

namespace Invocation

/-- The invocation once all arguments are read. -/
def finish (options : Options) : Invocation :=
  match options.path with
  | some path => .parse path options
  | none => .usage

/-- Reads arguments after the separator, all of which are positional. -/
def readPositionals (options : Options) : List String → Invocation
  | [] => finish options
  | text :: rest =>
      match options.setPath? text with
      | some options => readPositionals options rest
      | none => .usage

/-- Reads arguments from left to right. `waiting` is an option whose value must come next. -/
def read (waiting : Option ValueOption) (options : Options) : List String → Invocation
  | [] => if waiting.isSome then .usage else finish options
  | text :: rest =>
      let goOn (options : Option Options) : Invocation :=
        match options with
        | some options => read none options rest
        | none => .usage
      match waiting, Argument.ofString text with
      | some option, .positional text => goOn (options.setValue? option text)
      | some _, _ => .usage
      | none, .positional text => goOn (options.setPath? text)
      | none, .separator => readPositionals options rest
      | none, .long name value =>
          match ValueOption.ofLong? name, value with
          | some option, some value => goOn (options.setValue? option value)
          | some option, none => read (some option) options rest
          | none, some _ => .usage
          | none, none =>
              if name = "chart" then goOn options.setChart?
              else if name = "version" then .version
              else if name = "help" then .help
              else .usage
      | none, .short name value =>
          match ValueOption.ofShort? name, value with
          | some option, some value => goOn (options.setValue? option value)
          | some option, none => read (some option) options rest
          | none, _ =>
              if name = 'V' then .version
              else if name = 'h' then .help
              else .usage

/-- Reads the arguments of the program. -/
def ofArguments (arguments : List String) : Invocation :=
  read none {} arguments

end Invocation

/-- What a run of the program leaves behind. -/
structure Outcome where
  exitCode : UInt32
  output : String
  errors : String
deriving DecidableEq, Repr

def versionText : String :=
  "chartparse 0.1.0\n"

def helpText : String :=
  String.join
    ["Parse a file with an Earley chart parser and explain failures\n\n",
     "Usage: chartparse [OPTIONS] <path>\n\n",
     "Arguments:\n",
     "  <path>  Path to the file to parse\n\n",
     "Options:\n",
     "  -g, --grammar <grammar>  Grammar description (JSON); defaults to the built-in JSON grammar\n",
     "  -l, --lexer <lexer>      Token definitions (JSON array); defaults to the built-in JSON tokens\n",
     "  -f, --format <format>    Output format [default: json] [possible values: json, debug]\n",
     "      --chart              Print the chart before the result\n",
     "  -h, --help               Print help\n",
     "  -V, --version            Print version\n"]

def usageText : String :=
  "error: invalid arguments\n\nUsage: chartparse [OPTIONS] <path>\n\n"
    ++ "For more information, try '--help'.\n"

/-- A text without the blanks at its end. -/
def trimEnd (text : String) : String :=
  String.ofList (text.toList.reverse.dropWhile Unicode.isWhitespace).reverse

/-- The outcome of a run that fails after it has printed `output`. -/
def failWith (output message : String) : Outcome :=
  ⟨1, output, message ++ "\n"⟩

/-- The text of a value in an output format. -/
def Format.print (format : Format) (value : Value) : String :=
  match format with
  | .json => value.toJson.pretty ++ "\n"
  | .debug => value.display ++ "\n"

/-- Parses a source with a grammar and a lexer and prints what comes of it. -/
def parseSource (options : Options) (grammar : Grammar) (lexer : Lexer) (source : String) :
    Outcome :=
  match lexer.tokenize source with
  | .error error => failWith "" (error.render source)
  | .ok tokens =>
      let run := grammar.run {} tokens
      let chart := if options.chart then ({} : ChartPrinter).print grammar run.chart else ""
      match run.result with
      | .ok value => ⟨0, chart ++ (options.format.getD .json).print value, ""⟩
      | .error error => failWith chart (trimEnd (error.render source))

/-- Reads a file; its text, or the outcome when it cannot be read. -/
def readText {m : Type → Type} [Monad m] (readFile : String → m (Except String String))
    (path : String) : ExceptT Outcome m String := do
  match ← ExceptT.lift (readFile path) with
  | .ok text => return text
  | .error reason => throw (failWith "" s!"Error reading {path}: {reason}")

/-- The grammar of a run. -/
def loadGrammar {m : Type → Type} [Monad m] (readFile : String → m (Except String String))
    (path : Option String) : ExceptT Outcome m Grammar := do
  let built ← match path with
    | some path => Grammar.read <$> readText readFile path
    | none => pure Document.grammar
  match built with
  | .ok grammar => return grammar
  | .error fault =>
      throw (failWith "" ("Grammar error: " ++ (ParseError.invalidGrammar fault).message))

/-- The lexer of a run. -/
def loadLexer {m : Type → Type} [Monad m] (readFile : String → m (Except String String))
    (path : Option String) : ExceptT Outcome m Lexer := do
  let built ← match path with
    | some path => Lexer.read Pattern.engine <$> readText readFile path
    | none => pure Document.lexer
  match built with
  | .ok lexer => return lexer
  | .error fault =>
      throw (failWith "" ("Lexer error: " ++ (ParseError.invalidGrammar fault).message))

/-- Parses the file that the arguments name. -/
def parseFile {m : Type → Type} [Monad m] (readFile : String → m (Except String String))
    (path : String) (options : Options) : ExceptT Outcome m Outcome := do
  let source ← readText readFile path
  let grammar ← loadGrammar readFile options.grammar
  let lexer ← loadLexer readFile options.lexer
  return parseSource options grammar lexer source

/-- Runs the program on its arguments. -/
def execute {m : Type → Type} [Monad m] (readFile : String → m (Except String String))
    (arguments : List String) : m Outcome := do
  match Invocation.ofArguments arguments with
  | .version => return ⟨0, versionText, ""⟩
  | .help => return ⟨0, helpText, ""⟩
  | .usage => return ⟨2, "", usageText⟩
  | .parse path options =>
      match ← (parseFile readFile path options).run with
      | .ok outcome => return outcome
      | .error outcome => return outcome

end EarleyChart.CommandLine
