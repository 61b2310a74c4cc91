import SharedState.Command.Options
import SharedState.Files.FilePath
import SharedState.Kind

/-! What is asked of the program on its command line. -/
namespace SharedState.Command

def programName : String := "reentrancy-guard"

def programVersion : String := "0.1.0"

inductive Verb where
  | check
  | graph
  | save
  deriving DecidableEq, Repr

namespace Verb

def all : List Verb := [check, graph, save]

def name : Verb → String
  | check => "check"
  | graph => "graph"
  | save => "export"

def ofName? (s : String) : Option Verb := all.find? fun v => v.name == s

end Verb

inductive Invocation where
  | check (paths : List FilePath) (trace : Bool) (severity : Option Severity) (json : Bool)
  | graph (paths : List FilePath) (mermaid : Option FilePath)
  | save (paths : List FilePath) (out : FilePath)
  deriving DecidableEq, Repr

inductive Request where
  | command (i : Invocation)
  | help (verb : Option Verb)
  | version
  | misuse (verb : Option Verb) (m : Misuse)
  deriving DecidableEq, Repr

def helpOption : OptionSpec := { names := ["-h", "--help"], role := .help }

def mainSignature : Signature :=
  { options := [helpOption, { names := ["--version"], role := .version }]
    operands := .command (Verb.all.map (·.name)) }

namespace Verb

def signature : Verb → Signature
  | check =>
    { options := [helpOption, { names := ["--trace"], role := .flag },
        { names := ["--severity"], role := .value (Severity.all.map (·.tag)) }, { names := ["--json"], role := .flag }]
      operands := .paths }
  | graph => { options := [helpOption, { names := ["--mermaid"], role := .value [] }], operands := .paths }
  | save => { options := [helpOption, { names := ["--out"], role := .value [], required := true }], operands := .paths }

def invocation (v : Verb) (a : Arguments) : Invocation :=
  let paths := (a.operands.getD []).map FilePath.ofText
  match v with
  | check => .check paths (a.flag "--trace") ((a.value? "--severity").bind Severity.ofTag?) (a.flag "--json")
  | graph => .graph paths ((a.value? "--mermaid").map FilePath.ofText)
  | save => .save paths (FilePath.ofText ((a.value? "--out").getD ""))

end Verb

namespace Request

def ofHalt (verb : Option Verb) : Halt → Request
  | .help => .help verb
  | .version => .version
  | .misuse m => .misuse verb m

/-- What the arguments of the program ask for. Arguments that no part of the command line takes are refused last. -/
def ofTexts (texts : List String) : Request :=
  match Arguments.ofTexts mainSignature texts with
  | .error h => ofHalt none h
  | .ok outer =>
    match outer.operands with
    | none => .misuse none (.missing [mainSignature.operands.title])
    | some [] => .misuse none (.missing [mainSignature.operands.title])
    | some (name :: rest) =>
      match Verb.ofName? name with
      | none => .misuse none (.invalidChoice "command" name (Verb.all.map (·.name)))
      | some verb =>
        match Arguments.ofTexts verb.signature rest with
        | .error h => ofHalt (some verb) h
        | .ok inner =>
          let extras := outer.extras ++ inner.extras
          if extras.isEmpty then .command (verb.invocation inner) else .misuse none (.unrecognized extras)

end Request

def title : Option Verb → String
  | none => programName
  | some v => programName ++ " " ++ v.name

def usage : Option Verb → List String
  | none => ["usage: reentrancy-guard [-h] [--version] \x7bcheck,graph,export\x7d ..."]
  | some .check =>
    ["usage: reentrancy-guard check [-h] [--trace] [--severity \x7berror,warning,info\x7d]",
     "                              [--json]",
     "                              paths [paths ...]"]
  | some .graph => ["usage: reentrancy-guard graph [-h] [--mermaid MERMAID] paths [paths ...]"]
  | some .save => ["usage: reentrancy-guard export [-h] --out OUT paths [paths ...]"]

def explanation : Option Verb → List String
  | none =>
    ["reentrancy-guard: Mutable state reachability checker",
     "",
     "positional arguments:",
     "  \x7bcheck,graph,export\x7d",
     "    check               Report mutable state reachable from singletons",
     "    graph               Show the symbol graph as a tree",
     "    export              Write the symbol graph as a JSON document",
     "",
     "options:",
     "  -h, --help            show this help message and exit",
     "  --version             show program's version number and exit"]
  | some .check =>
    ["positional arguments:",
     "  paths                 Python files/directories or JSON graph documents",
     "",
     "options:",
     "  -h, --help            show this help message and exit",
     "  --trace               Log every visited symbol, indented by depth (Overrides",
     "                        config)",
     "  --severity \x7berror,warning,info\x7d",
     "                        Severity of findings. Only 'error' fails the run",
     "                        (Overrides config)",
     "  --json                Print diagnostics as JSON"]
  | some .graph =>
    ["positional arguments:",
     "  paths              Python files/directories or JSON graph documents",
     "",
     "options:",
     "  -h, --help         show this help message and exit",
     "  --mermaid MERMAID  Also write a Mermaid diagram to this file"]
  | some .save =>
    ["positional arguments:",
     "  paths       Python files or directories",
     "",
     "options:",
     "  -h, --help  show this help message and exit",
     "  --out OUT   Output JSON file"]

def helpText (verb : Option Verb) : String := "\n".intercalate (usage verb ++ [""] ++ explanation verb) ++ "\n"

def misuseText (verb : Option Verb) (m : Misuse) : String :=
  "\n".intercalate (usage verb ++ [title verb ++ ": error: " ++ m.message]) ++ "\n"

end SharedState.Command
