import SharedState.Log
import SharedState.Text.Styled
import SharedState.Text.Wrap

/-! The console: screens that take turns, and a log that always goes to the current one. What markup means is up to the screens, so
their reading of it is a parameter; the one at hand knows the tags that the program writes itself. -/
namespace SharedState

inductive Entry where
  | record (r : LogRecord)
  | line (markup : String)
  deriving DecidableEq, Repr

namespace Entry

def markup : Entry → String
  | record r => r.message
  | line markup => markup

end Entry

/-- The text that an entry has on the screen of a number; `none` if the screen refuses it. -/
class Rendering where
  text? : Nat → Entry → Option (List Char)

instance : Rendering where
  text? _ e := Text.plain? e.markup

structure Screen where
  width : Nat := 80
  recording : Bool := false
  entries : List Entry := []
  deriving DecidableEq, Repr

/-- What takes the records of the log: a screen, or something else, which takes them as they are. It takes no records below its
level. -/
inductive LogHandler where
  | screen (number : Nat) (level : LogLevel)
  | other (name : String) (level : LogLevel)
  deriving DecidableEq, Repr

namespace LogHandler

def isScreen : LogHandler → Bool
  | screen _ _ => true
  | other _ _ => false

end LogHandler

inductive MarkupError where
  | refused
  deriving DecidableEq, Repr

/-- All screens so far, the number of the current one, and the handlers and least level of the log. Trace records have a log
of their own, whose least level is that of the log unless it is set. What handlers other than screens have taken is kept with the
names of the handlers. -/
structure Console where
  screens : List Screen := [{}]
  current : Nat := 0
  handlers : List LogHandler := [.screen 0 .debug]
  level : LogLevel := .info
  ownTraceLevel : Option LogLevel := none
  taken : List (String × LogRecord) := []
  deriving DecidableEq, Repr

variable [Rendering]

namespace Entry

def isShowable (number : Nat) (e : Entry) : Bool := (Rendering.text? number e).isSome

/-- The lines of an entry: a record has its level in front, and fills the width. -/
def lines (number width : Nat) (e : Entry) : List (List Char) :=
  let text := (Rendering.text? number e).getD []
  match e with
  | line _ => Text.wrap width text
  | record r =>
    let level := Text.padded 9 r.level.name.toList
    (Text.wrap (width - 9) text).zipIdx.map fun (l, i) =>
      (if i = 0 then level else List.replicate 9 ' ') ++ Text.padded (width - 9) l

end Entry

namespace Screen

def add (s : Screen) (e : Entry) : Screen := { s with entries := s.entries ++ [e] }

def text (number : Nat) (s : Screen) : String :=
  String.ofList ((s.entries.flatMap (Entry.lines number s.width)).flatMap fun l => l ++ ['\n'])

end Screen

namespace Console

def screen (c : Console) : Screen := c.screens[c.current]?.getD {}

/-- Points the log to the current screen, which takes every record that is let through. Other handlers stay. -/
def pointLog (c : Console) : Console :=
  { c with handlers := (c.handlers.filter fun h => !h.isScreen) ++ [.screen c.current .debug], level := .info }

def use (c : Console) (s : Screen) : Console :=
  pointLog { c with screens := c.screens ++ [s], current := c.screens.length }

def useAgain (c : Console) (number : Nat) : Console :=
  if number < c.screens.length then pointLog { c with current := number } else c

def reset (c : Console) : Console := c.use {}

def start (screens : List Screen) (handlers : List LogHandler) (level : LogLevel) : Console :=
  reset { screens, handlers, level }

def setTracing (c : Console) (enabled : Bool) : Console :=
  { c with ownTraceLevel := some (if enabled then .debug else .info) }

def traceLevel (c : Console) : LogLevel := c.ownTraceLevel.getD c.level

def showOn (c : Console) (number : Nat) (e : Entry) : Console × Option MarkupError :=
  if e.isShowable number then ({ c with screens := c.screens.modify number (·.add e) }, none) else (c, some .refused)

def handle (c : Console) (r : LogRecord) : LogHandler → Console × Option MarkupError
  | .screen number level => if r.level.reaches level then c.showOn number (.record r) else (c, none)
  | .other name level => (if r.level.reaches level then { c with taken := c.taken ++ [(name, r)] } else c, none)

/-- Hands a record to handlers in turn. Those after a screen that refuses it do not get it, those before it keep it. -/
def handleAll (c : Console) (r : LogRecord) : List LogHandler → Console × Option MarkupError
  | [] => (c, none)
  | h :: rest =>
    match c.handle r h with
    | (d, none) => d.handleAll r rest
    | (d, some e) => (d, some e)

def emit (c : Console) (r : LogRecord) : Console × Option MarkupError := c.handleAll r c.handlers

def log (c : Console) (r : LogRecord) : Console × Option MarkupError :=
  if r.level.reaches c.level then c.emit r else (c, none)

def logTrace (c : Console) (message : String) : Console × Option MarkupError :=
  if LogLevel.reaches .debug c.traceLevel then c.emit { level := .debug, message } else (c, none)

def print (c : Console) (markup : String) : Console × Option MarkupError := c.showOn c.current (.line markup)

def logScreens (c : Console) : Nat := (c.handlers.filter (·.isScreen)).length

/-- Gives out what the current screen has shown, which is forgotten; `none` if it does not keep it. -/
def takeText? (c : Console) : Option (String × Console) :=
  if c.screen.recording then
    some (c.screen.text c.current, { c with screens := c.screens.modify c.current fun s => { s with entries := [] } })
  else none

end Console
end SharedState
