import SharedState.Text.Shown

/-! Arguments of a command: options, which may be abbreviated and take a value, and operands. -/
namespace SharedState.Command

inductive OptionRole where
  | help
  | version
  | flag
  | value (choices : List String)
  deriving DecidableEq, Repr

structure OptionSpec where
  names : List String
  role : OptionRole
  required : Bool := false
  deriving DecidableEq, Repr

namespace OptionSpec

def title (o : OptionSpec) : String := "/".intercalate o.names

def takesValue (o : OptionSpec) : Bool :=
  match o.role with
  | .value _ => true
  | _ => false

end OptionSpec

/-- What the operands are: the name of a command and all that follows, or a run of one or more paths. -/
inductive Operands where
  | command (names : List String)
  | paths
  deriving DecidableEq, Repr

namespace Operands

def title : Operands → String
  | command _ => "command"
  | paths => "paths"

end Operands

structure Signature where
  options : List OptionSpec
  operands : Operands
  deriving DecidableEq, Repr

/-- An option that was recognised, with a value that stands in the same argument. `joined` tells a value right behind a
letter from one behind an equals sign. -/
structure OptionUse where
  spec : OptionSpec
  name : String
  value : Option String := none
  joined : Bool := false
  deriving DecidableEq, Repr

inductive Item where
  | plain (text : String)
  | dashes
  | option (text : String) (use : Option OptionUse)
  deriving DecidableEq, Repr

namespace Item

def text : Item → String
  | plain s => s
  | dashes => "--"
  | option s _ => s

def isOption : Item → Bool
  | option _ _ => true
  | _ => false

def isPlain : Item → Bool
  | plain _ => true
  | _ => false

end Item

inductive Misuse where
  | ambiguous (text : String) (names : List String)
  | expectedValue (title : String)
  | unexpectedValue (title value : String)
  | invalidChoice (title value : String) (choices : List String)
  | missing (titles : List String)
  | unrecognized (texts : List String)
  deriving DecidableEq, Repr

namespace Misuse

def message : Misuse → String
  | ambiguous text names => "ambiguous option: " ++ text ++ " could match " ++ ", ".intercalate names
  | expectedValue title => "argument " ++ title ++ ": expected one argument"
  | unexpectedValue title value => "argument " ++ title ++ ": ignored explicit argument " ++ Text.shown value
  | invalidChoice title value choices =>
    "argument " ++ title ++ ": invalid choice: " ++ Text.shown value ++ " (choose from " ++
      ", ".intercalate (choices.map Text.shown) ++ ")"
  | missing titles => "the following arguments are required: " ++ ", ".intercalate titles
  | unrecognized texts => "unrecognized arguments: " ++ " ".intercalate texts

end Misuse

namespace Signature

def names (s : Signature) : List (String × OptionSpec) := s.options.flatMap fun o => o.names.map fun n => (n, o)

def named? (s : Signature) (name : String) : Option OptionSpec := (s.names.find? fun n => n.1 == name).map (·.2)

def cutValue (text : String) : String × Option String :=
  let cs := text.toList
  match cs.dropWhile (· != '=') with
  | [] => (text, none)
  | _ :: value => (String.ofList (cs.takeWhile (· != '=')), some (String.ofList value))

def candidates (s : Signature) (text : String) : List OptionUse :=
  if text.startsWith "--" then
    let (start, value) := cutValue text
    (s.names.filter fun n => n.1.startsWith start).map fun n => { spec := n.2, name := n.1, value }
  else
    -- An option of one letter may have its value right behind it.
    let short := String.ofList (text.toList.take 2)
    s.names.filterMap fun n =>
      if n.1 == short then
        some { spec := n.2, name := n.1, value := some (String.ofList (text.toList.drop 2)), joined := true }
      else if n.1.startsWith text then some { spec := n.2, name := n.1 }
      else none

def isNegativeNumber (text : String) : Bool :=
  match text.toList with
  | '-' :: cs =>
    let whole := cs.takeWhile Char.isDigit
    match cs.dropWhile Char.isDigit with
    | [] => !whole.isEmpty
    | '.' :: part => !part.isEmpty && part.all Char.isDigit
    | _ => false
  | _ => false

def item (s : Signature) (text : String) : Except Misuse Item :=
  if !text.startsWith "-" || text == "-" then .ok (.plain text)
  else
    match s.named? text with
    | some spec => .ok (.option text (some { spec, name := text }))
    | none =>
      match cutValue text with
      | (name, some value) =>
        match s.named? name with
        | some spec => .ok (.option text (some { spec, name, value := some value }))
        | none => abbreviated text
      | (_, none) => abbreviated text
where
  abbreviated (text : String) : Except Misuse Item :=
    match s.candidates text with
    -- Numbers and texts with a blank may start with a dash and be no options.
    | [] => .ok (if isNegativeNumber text || text.contains ' ' then .plain text else .option text none)
    | [use] => .ok (.option text (some use))
    | uses => .error (.ambiguous text (uses.map (·.name)))

def items (s : Signature) : List String → Except Misuse (List Item)
  | [] => .ok []
  | text :: rest =>
    if text == "--" then .ok (.dashes :: rest.map .plain)
    else do
      let first ← s.item text
      return first :: (← s.items rest)

end Signature

structure Arguments where
  operands : Option (List String) := none
  flags : List String := []
  values : List (String × String) := []
  extras : List String := []
  deriving DecidableEq, Repr

namespace Arguments

def flag (a : Arguments) (name : String) : Bool := a.flags.contains name

def value? (a : Arguments) (name : String) : Option String := (a.values.reverse.find? fun v => v.1 == name).map (·.2)

def keyOf (o : OptionSpec) : String := o.names.getLast?.getD ""

end Arguments

inductive Halt where
  | help
  | version
  | misuse (m : Misuse)
  deriving DecidableEq, Repr

namespace Arguments

open Signature

def useFlag (a : Arguments) (o : OptionSpec) : Except Halt Arguments :=
  match o.role with
  | .help => .error .help
  | .version => .error .version
  | _ => .ok { a with flags := a.flags ++ [keyOf o] }

def useValue (a : Arguments) (o : OptionSpec) (value : String) : Except Halt Arguments :=
  match o.role with
  | .value choices =>
    if !choices.isEmpty && !choices.contains value then .error (.misuse (.invalidChoice o.title value choices))
    else .ok { a with values := a.values ++ [(keyOf o, value)] }
  | _ => .ok a

/-- Several options of one letter in one argument, from the characters behind the first one. Nothing is used before all
letters have been looked at. -/
def letters (s : Signature) (o : OptionSpec) (joined : Bool) : List Char → Except Halt (List OptionSpec × List String)
  | [] => .error (.misuse (.unexpectedValue o.title ""))
  | c :: rest =>
    if !joined || c == '-' then .error (.misuse (.unexpectedValue o.title (String.ofList (c :: rest))))
    else
      match s.named? (String.ofList ['-', c]) with
      | none => .ok ([o], [String.ofList ('-' :: c :: rest)])
      | some next =>
        match rest with
        | [] => .ok ([o, next], [])
        | '=' :: value => .error (.misuse (.unexpectedValue next.title (String.ofList value)))
        | _ =>
          match letters s next true rest with
          | .ok (specs, extras) => .ok (o :: specs, extras)
          | .error e => .error e

def useOption (a : Arguments) (s : Signature) (use : OptionUse) : Except Halt Arguments :=
  match use.value with
  | none => a.useFlag use.spec
  | some value =>
    if use.spec.takesValue then a.useValue use.spec value
    else if use.name.startsWith "--" then .error (.misuse (.unexpectedValue use.spec.title value))
    else
      match letters s use.spec use.joined value.toList with
      | .error e => .error e
      | .ok (specs, extras) => specs.foldlM useFlag { a with extras := a.extras ++ extras }

/-- Takes a run of arguments that are no options. Paths are taken once; two dashes among them are dropped. -/
def takeRun (a : Arguments) (run : List Item) : Arguments :=
  if a.operands.isNone && run.any Item.isPlain then
    { a with operands := some ((run.filter Item.isPlain).map (·.text)) }
  else { a with extras := a.extras ++ run.map (·.text) }

def takeCommand (a : Arguments) (names : List String) (run : List Item) : Except Halt Arguments :=
  match run.map (·.text) with
  | [] => .ok a
  | name :: rest =>
    if names.contains name then .ok { a with operands := some (name :: rest) }
    else .error (.misuse (.invalidChoice "command" name names))

def read (s : Signature) : List Item → Arguments → Except Halt Arguments
  | [], a => .ok a
  | .option text none :: rest, a => read s rest { a with extras := a.extras ++ [text] }
  | .option _ (some use) :: rest, a =>
    if use.spec.takesValue && use.value.isNone then
      match rest with
      | .plain value :: rest => do read s rest (← a.useValue use.spec value)
      | _ => .error (.misuse (.expectedValue use.spec.title))
    else do read s rest (← a.useOption s use)
  | first :: rest, a =>
    match s.operands with
    | .command names =>
      if (first :: rest).any Item.isPlain then a.takeCommand names (first :: rest)
      else read s rest (a.takeRun [first])
    | .paths =>
      read s (rest.dropWhile fun i => !i.isOption) (a.takeRun (first :: rest.takeWhile fun i => !i.isOption))
termination_by items => items.length
decreasing_by
  all_goals simp
  all_goals have := (List.dropWhile_suffix (l := rest) fun i => !i.isOption).length_le
  all_goals omega

def missing (s : Signature) (a : Arguments) : List String :=
  (if a.operands.isNone then [s.operands.title] else []) ++
    (s.options.filter fun o => o.required && (a.value? (keyOf o)).isNone).map (·.title)

def ofTexts (s : Signature) (texts : List String) : Except Halt Arguments :=
  match s.items texts with
  | .error m => .error (.misuse m)
  | .ok items => do
    let a ← read s items {}
    if (missing s a).isEmpty then return a else .error (.misuse (.missing (missing s a)))

end Arguments
end SharedState.Command
