import SharedState.Console

/-! Runs of the console. Screens take turns, the handlers of the log are replaced and levels are set; all of it comes down to the
number of the current screen and the latest request to trace. Whatever is logged or printed is shown once, on the screen that is
current at that moment, unless that screen refuses it. The other handlers stand in front of the screen and take every record once,
also one that is refused. -/
namespace SharedState

def LogHandler.taken? (r : LogRecord) : LogHandler → Option (String × LogRecord)
  | .screen _ _ => none
  | .other name level => if r.level.reaches level then some (name, r) else none

namespace Console

inductive Step where
  | use (s : Screen)
  | useAgain (number : Nat)
  | reset
  | info (message : String)
  | success (message : String)
  | warning (message : String)
  | error (message : String)
  | print (markup : String)
  | setTracing (enabled : Bool)
  | trace (message : String)
  deriving DecidableEq, Repr

namespace Step

def perform [Rendering] (c : Console) : Step → Console × Option MarkupError
  | use s => (c.use s, none)
  | useAgain number => (c.useAgain number, none)
  | reset => (c.reset, none)
  | info message => c.log (.info message)
  | success message => c.log (.success message)
  | warning message => c.log (.warning message)
  | error message => c.log (.error message)
  | print markup => c.print markup
  | setTracing enabled => (c.setTracing enabled, none)
  | trace message => c.logTrace message

/- What a step is to show, where trace records are to be shown or not. -/
def entry? (tracing : Bool) : Step → Option Entry
  | info message => some (.record (.info message))
  | success message => some (.record (.success message))
  | warning message => some (.record (.warning message))
  | error message => some (.record (.error message))
  | print markup => some (.line markup)
  | trace message => if tracing then some (.record { level := .debug, message }) else none
  | _ => none

/- What handlers take of a step: a record, with the name of each handler whose level it reaches. -/
def handed (handlers : List LogHandler) (tracing : Bool) (s : Step) : List (String × LogRecord) :=
  match s.entry? tracing with
  | some (.record r) => handlers.filterMap (·.taken? r)
  | _ => []

def added : Step → List Screen
  | use s => [s]
  | reset => [{}]
  | _ => []

end Step

/- A step that fails leaves the console as it is by then. -/
def next [Rendering] (c : Console) (s : Step) : Console := (s.perform c).1

def after [Rendering] (c : Console) (steps : List Step) : Console := steps.foldl next c

/-- All that matters of a console: how many screens there are, which of them is the current one, and whether trace records are to
be shown. -/
structure Stage where
  size : Nat
  current : Nat
  tracing : Bool := false
  deriving DecidableEq, Repr

namespace Stage

def start (others : Nat) : Stage := { size := others + 1, current := others }

def next (v : Stage) : Step → Stage
  | .use _ => { v with size := v.size + 1, current := v.size }
  | .reset => { v with size := v.size + 1, current := v.size }
  | .useAgain number => if number < v.size then { v with current := number } else v
  | .setTracing enabled => { v with tracing := enabled }
  | _ => v

def after (v : Stage) (steps : List Step) : Stage := steps.foldl next v

def output [Rendering] (v : Stage) (s : Step) : List (Nat × Entry) :=
  ((s.entry? v.tracing).toList.filter (·.isShowable v.current)).map fun e => (v.current, e)

/- What steps are to show, each entry with the number of its screen. -/
def outputs [Rendering] (v : Stage) : List Step → List (Nat × Entry)
  | [] => []
  | s :: rest => v.output s ++ (v.next s).outputs rest

/- What handlers are to take of steps. -/
def handed (v : Stage) (handlers : List LogHandler) : List Step → List (String × LogRecord)
  | [] => []
  | s :: rest => s.handed handlers v.tracing ++ (v.next s).handed handlers rest

end Stage

/- A console whose log goes to the current screen and to the other handlers, and whose levels let through what they should. -/
structure Follows (others : List LogHandler) (v : Stage) (c : Console) : Prop where
  plain : ∀ h ∈ others, h.isScreen = false
  handlers : c.handlers = others ++ [.screen c.current .debug]
  level : c.level = .info
  size : c.screens.length = v.size
  current : c.current = v.current
  known : v.current < v.size
  tracing : LogLevel.reaches .debug c.traceLevel = v.tracing

section
variable {others : List LogHandler} {v : Stage} {c : Console}

theorem otherHandlers (follows : Follows others v c) :
    c.handlers.filter (fun h => !h.isScreen) = others := by
  have kept : others.filter (fun h => !h.isScreen) = others := List.filter_eq_self.2 fun h member => by simp [follows.plain h member]
  rw [follows.handlers, List.filter_append, kept]
  exact List.append_nil others

theorem pointLogFollows (follows : Follows others v c) {w : Stage} {d : Console}
    (handlers : d.handlers = c.handlers) (own : d.ownTraceLevel = c.ownTraceLevel) (size : d.screens.length = w.size)
    (current : d.current = w.current) (known : w.current < w.size) (tracing : w.tracing = v.tracing) :
    Follows others w d.pointLog where
  plain := follows.plain
  handlers := by rw [pointLog, handlers, otherHandlers follows]
  level := rfl
  size := size
  current := current
  known := known
  tracing := by
    have before := follows.tracing
    rw [traceLevel, follows.level] at before
    rw [tracing, ← before, traceLevel, pointLog, own]

theorem useFollows (follows : Follows others v c) (s : Screen) :
    Follows others { v with size := v.size + 1, current := v.size } (c.use s) :=
  pointLogFollows follows rfl rfl (by simp [follows.size]) follows.size (Nat.lt_succ_self _) rfl

theorem quietHanded {s : Step} {tracing : Bool} (quiet : s.entry? tracing = none) (handlers : List LogHandler) :
    s.handed handlers tracing = [] := by
  rw [Step.handed, quiet]

theorem shownFollows (follows : Follows others v c) {screens : List Screen} (length : screens.length = c.screens.length)
    (taken : List (String × LogRecord)) : Follows others v { c with screens := screens, taken := taken } :=
  { follows with size := length.trans follows.size }

variable [Rendering]

theorem handlersTake (plain : ∀ h ∈ others, h.isScreen = false) (r : LogRecord) (rest : List LogHandler) (c : Console) :
    c.handleAll r (others ++ rest) = handleAll { c with taken := c.taken ++ others.filterMap (·.taken? r) } r rest := by
  induction others generalizing c with
  | nil => simp
  | cons h others ih =>
    have later := ih fun h listed => plain h (by simp [listed])
    cases h with
    | screen number level => cases plain _ (by simp : LogHandler.screen number level ∈ _)
    | other name level =>
      rw [List.cons_append, handleAll]
      simp only [handle]
      rw [later]
      by_cases high : r.level.reaches level = true
      · simp [LogHandler.taken?, high]
      · simp [LogHandler.taken?, high]

theorem screenTakes (c : Console) (r : LogRecord) (number : Nat) :
    c.handleAll r [.screen number .debug] = c.showOn number (.record r) := by
  have weight : r.level.reaches .debug = true := by cases r.level <;> rfl
  simp only [handleAll, handle, weight, if_true, showOn]
  cases Entry.isShowable number (.record r) <;> rfl

theorem emitShows (follows : Follows others v c) (r : LogRecord) :
    c.emit r = showOn { c with taken := c.taken ++ others.filterMap (·.taken? r) } c.current (.record r) :=
  calc c.emit r
    _ = c.handleAll r (others ++ [.screen c.current .debug]) := by rw [emit, follows.handlers]
    _ = _ := handlersTake follows.plain r _ c
    _ = _ := screenTakes _ r c.current

theorem logShows (follows : Follows others v c) {r : LogRecord} (high : r.level ≠ .debug) : c.log r = c.emit r := by
  have passes : r.level.reaches .info = true := by
    cases level : r.level with
    | debug => exact absurd level high
    | _ => rfl
  rw [log, follows.level, passes]
  rfl

theorem performShows (follows : Follows others v c) {s : Step} {e : Entry} (shown : s.entry? v.tracing = some e) :
    s.perform c = showOn { c with taken := c.taken ++ s.handed others v.tracing } c.current e ∧ v.next s = v := by
  cases s with
  | info m | success m | warning m | error m =>
    cases Option.some.inj shown
    refine ⟨(logShows follows ?_).trans (emitShows follows _), rfl⟩
    simp [LogRecord.info, LogRecord.success, LogRecord.warning, LogRecord.error]
  | print m =>
    cases Option.some.inj shown
    exact ⟨by simp [Step.perform, print, Step.handed, Step.entry?], rfl⟩
  | trace m =>
    cases tracing : v.tracing with
    | false => simp [Step.entry?, tracing] at shown
    | true =>
      have same : e = .record { level := .debug, message := m } := by simpa [Step.entry?, tracing] using shown.symm
      have passes := follows.tracing.trans tracing
      refine ⟨?_, rfl⟩
      rw [same, Step.perform, logTrace, if_pos passes]
      exact emitShows follows _
  | _ => cases shown

/- A step that has nothing to show succeeds, all screens stay as they are, and no handler takes anything. -/
theorem performQuiet (follows : Follows others v c) {s : Step} (quiet : s.entry? v.tracing = none) :
    ∃ d, s.perform c = (d, none) ∧ Follows others (v.next s) d ∧ d.screens = c.screens ++ s.added ∧ d.taken = c.taken := by
  cases s with
  | use s => exact ⟨_, rfl, useFollows follows s, rfl, rfl⟩
  | reset => exact ⟨_, rfl, useFollows follows {}, rfl, rfl⟩
  | useAgain number =>
    by_cases there : number < v.size
    · have found : number < c.screens.length := follows.size ▸ there
      refine ⟨{ c with current := number }.pointLog, by simp [Step.perform, useAgain, found], ?_, by simp [pointLog, Step.added], rfl⟩
      rw [Stage.next, if_pos there]
      exact pointLogFollows follows rfl rfl follows.size rfl there rfl
    · have missing : ¬ number < c.screens.length := follows.size ▸ there
      refine ⟨c, by simp [Step.perform, useAgain, missing], ?_, by simp [Step.added], rfl⟩
      rwa [Stage.next, if_neg there]
  | setTracing enabled =>
    refine ⟨_, rfl, { follows with tracing := ?_ }, by simp [setTracing, Step.added], rfl⟩
    cases enabled <;> rfl
  | trace m =>
    have off : v.tracing = false := by
      cases tracing : v.tracing with
      | false => rfl
      | true => simp [Step.entry?, tracing] at quiet
    have held := follows.tracing.trans off
    refine ⟨c, ?_, follows, by simp [Step.added], rfl⟩
    simp [Step.perform, logTrace, held]
  | _ => cases quiet

theorem nextFollows (follows : Follows others v c) (s : Step) : Follows others (v.next s) (c.next s) := by
  cases shown : s.entry? v.tracing with
  | none =>
    obtain ⟨d, performed, kept, _⟩ := performQuiet follows shown
    rwa [next, performed]
  | some e =>
    obtain ⟨performed, same⟩ := performShows follows shown
    rw [next, performed, same, showOn]
    cases e.isShowable c.current with
    | false => exact shownFollows follows rfl _
    | true => exact shownFollows follows (List.length_modify ..) _

theorem takenNext (follows : Follows others v c) (s : Step) : (c.next s).taken = c.taken ++ s.handed others v.tracing := by
  cases shown : s.entry? v.tracing with
  | none =>
    obtain ⟨d, performed, _, _, taken⟩ := performQuiet follows shown
    rw [next, performed, quietHanded shown, List.append_nil]
    exact taken
  | some e =>
    rw [next, (performShows follows shown).1, showOn]
    split <;> rfl

theorem takenAfter (follows : Follows others v c) (steps : List Step) :
    (c.after steps).taken = c.taken ++ v.handed others steps := by
  induction steps generalizing v c with
  | nil => simp [after, Stage.handed]
  | cons s rest ih =>
    have later := ih (nextFollows follows s)
    rw [takenNext follows s] at later
    rw [Stage.handed, ← List.append_assoc]
    exact later

end

def swaps : List Step := [.use { width := 40 }, .setTracing true, .info "a", .useAgain 0]

def swapped : Console := (start [] [.other "file" .info] .error).after swaps

end Console
end SharedState
