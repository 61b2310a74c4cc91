import SharedState.Proofs.Reachability

/-! What a run that comes to an end gives, whatever types there are and in whatever order it goes: the classes that its roots
reach, and one finding for each mutable member of these. Two runs are compared through this, not step by step. -/
namespace SharedState

namespace Declaration

/-- A declaration as messages show it: without its number and its markers. -/
def look (d : Declaration) : Declaration := { d with serial := 0, markers := [] }

end Declaration

namespace Symbol

def look (s : Symbol) : Symbol := { toDeclaration := s.toDeclaration.look, enclosing := s.enclosing.map (·.look) }

@[simp] theorem lookType (s : Symbol) : s.look.declaredType = s.declaredType := rfl
@[simp] theorem lookPlace (s : Symbol) : s.look.location = s.location := rfl

@[simp] theorem lookName (s : Symbol) : s.look.qualifiedName = s.qualifiedName := by
  simp [qualifiedName, look, Declaration.look, Function.comp_def]

theorem lookOwner (s : Symbol) : s.look.owner? = s.owner?.map look := by
  obtain ⟨d, enclosing⟩ := s
  cases enclosing <;> rfl

@[simp] theorem lookLocated (s : Symbol) : s.look.located = s.located := by
  simp only [located, lookOwner]
  cases s.owner? with
  | none => rfl
  | some o => simp only [Option.map_some, text, lookName]; rfl

end Symbol

namespace Diagnostic

/-- What is told of a mutable member. It does not depend on the class in which the member was met. -/
def ofMember? (severity : Severity) (m : Symbol) : Option Diagnostic :=
  ofViolation? severity { owner := m, symbol := m, declaredType := m.declaredType }

theorem lookWording (m : Symbol) (type : Option String) : wording m.look type = wording m type := by
  have located := Symbol.lookLocated m
  unfold wording
  rw [located]
  exact rfl

theorem lookDiagnostic (severity : Severity) (m : Symbol) : ofMember? severity m.look = ofMember? severity m := by
  simp only [ofMember?, ofViolation?, lookWording, Symbol.lookName, Symbol.lookType, Symbol.lookPlace]

theorem sameDiagnostic {m n : Symbol} (same : m.look = n.look) (severity : Severity) :
    ofMember? severity m = ofMember? severity n := by
  rw [← lookDiagnostic, same, lookDiagnostic]

theorem memberText (severity : Severity) (m : Symbol) :
    (ofMember? severity m).isSome ↔ ∀ t, m.declaredType = some t → t.text?.isSome := by
  cases declared : m.declaredType <;> simp [ofMember?, ofViolation?, typeText?, declared]

end Diagnostic

namespace Scanner

variable {sc : Scanner} {roots : List Symbol}

theorem moveTold {w w' : Walk} (h : Move sc roots w w')
    (told : w.halted = false → w.diagnostics.map some = w.flagged.map (Diagnostic.ofMember? sc.reporter.severity)) :
    w'.halted = false → w'.diagnostics.map some = w'.flagged.map (Diagnostic.ofMember? sc.reporter.severity) := by
  cases h with
  | visit c => intro running; rw [enterDiagnostics]; exact told running
  | follow m => intro running; rw [enterDiagnostics]; exact told running
  | leave => exact told
  | flag c m =>
    by_cases old : m ∈ w.flagged
    · rw [flagOld old]
      exact told
    · rw [flagFlagged, if_neg old, flagNew old]
      unfold report
      split
      · simp
      · rename_i d found
        intro running
        have before := told running
        have last : Diagnostic.ofMember? sc.reporter.severity m = some d := found
        simp only [Walk.diagnostics] at before
        simp [Walk.diagnostics, List.filterMap_append, Event.diagnostic?, before, last]

theorem movesTold {w : Walk} (h : Moves sc roots {} w) (running : w.halted = false) :
    w.diagnostics.map some = w.flagged.map (Diagnostic.ofMember? sc.reporter.severity) := by
  induction h with
  | refl => rfl
  | @tail v w before last ih =>
    refine moveTold last (fun _ => ih ?_) running
    -- a halted state stays as it is, so the one before was running too
    cases last with
    | visit => exact running
    | follow => exact running
    | leave => exact running
    | flag c m =>
      by_cases old : m ∈ v.flagged
      · rwa [flagOld old] at running
      · rw [flagNew old] at running
        unfold report at running
        split at running
        · cases running
        · exact running

/-- The outcome of a run as sets. -/
structure Exact (sc : Scanner) (roots : List Symbol) (w : Walk) : Prop where
  visited : ∀ c, c ∈ w.visited ↔ Reached sc roots c
  flagged : ∀ m, m ∈ w.flagged ↔ ∃ c, Reached sc roots c ∧ Exposed sc c m
  told : w.diagnostics.map some = w.flagged.map (Diagnostic.ofMember? sc.reporter.severity)

theorem scanExact {w : Walk} (done : roots.foldlM sc.scan {} = .ok w) : Exact sc roots w := by
  obtain ⟨moves, explored, runs, started⟩ := scanEnded roots (fun _ h => h) rfl done
  have sound := movesSound moves soundStart
  have visited : ∀ c, c ∈ w.visited ↔ Reached sc roots c :=
    fun c => ⟨sound.reached c, reachedVisited explored started⟩
  refine ⟨visited, fun m => ⟨fun flagged => ?_, ?_⟩, movesTold moves runs⟩
  · obtain ⟨c, inside, exposed⟩ := sound.exposed m flagged
    exact ⟨c, (visited c).mp inside, exposed⟩
  · rintro ⟨c, reached, exposed⟩
    exact explored.exposed c ((visited c).mpr reached) (by simp) m exposed

theorem exactText {w : Walk} (exact : Exact sc roots w) {c m : Symbol} (reached : Reached sc roots c)
    (exposed : Exposed sc c m) : (Diagnostic.ofMember? sc.reporter.severity m).isSome := by
  have listed : Diagnostic.ofMember? sc.reporter.severity m ∈ w.diagnostics.map some := by
    rw [exact.told]
    exact List.mem_map_of_mem ((exact.flagged m).mpr ⟨c, reached, exposed⟩)
  obtain ⟨d, _, same⟩ := List.mem_map.mp listed
  simp [← same]

theorem exactDiagnostic {w : Walk} (exact : Exact sc roots w) (d : Diagnostic) :
    d ∈ w.diagnostics ↔
      ∃ c m, Reached sc roots c ∧ Exposed sc c m ∧ Diagnostic.ofMember? sc.reporter.severity m = some d := by
  have listed : d ∈ w.diagnostics ↔ some d ∈ w.flagged.map (Diagnostic.ofMember? sc.reporter.severity) := by
    rw [← exact.told]
    simp
  rw [listed, List.mem_map]
  constructor
  · rintro ⟨m, flagged, same⟩
    obtain ⟨c, reached, exposed⟩ := (exact.flagged m).mp flagged
    exact ⟨c, m, reached, exposed, same⟩
  · rintro ⟨c, m, reached, exposed, same⟩
    exact ⟨m, (exact.flagged m).mpr ⟨c, reached, exposed⟩, same⟩

/- A run from classes ends if there is something to tell of all that it can flag. -/
theorem scanReturns (classes : ∀ r ∈ roots, r.isClass = true)
    (told : ∀ c m, Reached sc roots c → Exposed sc c m → (Diagnostic.ofMember? sc.reporter.severity m).isSome) :
    ∃ w, roots.foldlM sc.scan {} = .ok w := by
  refine scanEnds (fun v moves c inside m exposed => ?_) roots (fun _ h => h) classes rfl
  have reached := (movesSound moves soundStart).reached c inside
  exact (Diagnostic.memberText _ m).mp (told c m reached exposed)

theorem scanClasses {rs : List Symbol} {w w' : Walk} (done : rs.foldlM sc.scan w = .ok w') :
    ∀ r ∈ rs, r.isClass = true := by
  induction rs generalizing w with
  | nil => simp
  | cons r rest ih =>
    rw [List.foldlM_cons] at done
    cases step : sc.scan w r with
    | error e => rw [step] at done; cases done
    | ok v =>
      rw [step] at done
      intro x member
      rcases List.mem_cons.mp member with rfl | later
      · exact (scanStep step).1
      · exact ih done x later

/-! One walk that goes nowhere but where another one goes. -/

/-- Whatever the second scanner meets from its roots, the first one meets from its own, up to the two relations between
classes and between members. -/
structure Follows (classes members : Symbol → Symbol → Prop) (sc : Scanner) (roots : List Symbol) (sc' : Scanner)
    (roots' : List Symbol) : Prop where
  roots : ∀ r' ∈ roots', sc'.exemption.covers r' = false → ∃ r ∈ roots, classes r r' ∧ sc.exemption.covers r = false
  step : ∀ c c' d', classes c c' → Step sc' c' d' → sc'.exemption.covers d' = false →
    ∃ d, classes d d' ∧ Step sc c d ∧ sc.exemption.covers d = false
  exposed : ∀ c c' m', classes c c' → Exposed sc' c' m' → ∃ m, members m m' ∧ Exposed sc c m

variable {classes members : Symbol → Symbol → Prop} {sc' : Scanner} {roots' : List Symbol}

theorem followsReached (follows : Follows classes members sc roots sc' roots') {c' : Symbol}
    (reached : Reached sc' roots' c') : ∃ c, classes c c' ∧ Reached sc roots c := by
  induction reached with
  | root start counts =>
    obtain ⟨r, known, related, counts⟩ := follows.roots _ start counts
    exact ⟨r, related, .root known counts⟩
  | step _ step counts ih =>
    obtain ⟨c, related, reached⟩ := ih
    obtain ⟨d, next, step, counts⟩ := follows.step _ _ _ related step counts
    exact ⟨d, next, .step reached step counts⟩

theorem followsExposed (follows : Follows classes members sc roots sc' roots') {c' m' : Symbol}
    (reached : Reached sc' roots' c') (exposed : Exposed sc' c' m') :
    ∃ c m, members m m' ∧ Reached sc roots c ∧ Exposed sc c m := by
  obtain ⟨c, related, before⟩ := followsReached follows reached
  obtain ⟨m, same, exposed⟩ := follows.exposed _ _ _ related exposed
  exact ⟨c, m, same, before, exposed⟩

/- If related symbols look the same, the second run ends as the first one does, and shows nothing else. -/
theorem followsReturns (follows : Follows classes members sc roots sc' roots')
    (severity : sc'.reporter.severity = sc.reporter.severity) (shown : ∀ m m', members m m' → m.look = m'.look) {w : Walk}
    (exact : Exact sc roots w) (isClass : ∀ r' ∈ roots', r'.isClass = true) : ∃ w', roots'.foldlM sc'.scan {} = .ok w' := by
  refine scanReturns isClass fun c' m' reached exposed => ?_
  obtain ⟨c, m, same, before, declared⟩ := followsExposed follows reached exposed
  rw [severity, ← Diagnostic.sameDiagnostic (shown m m' same)]
  exact exactText exact before declared

theorem followsShown (follows : Follows classes members sc roots sc' roots')
    (severity : sc'.reporter.severity = sc.reporter.severity) (named : ∀ c c', classes c c' → c.look = c'.look)
    (shown : ∀ m m', members m m' → m.look = m'.look) {w w' : Walk} (exact : Exact sc roots w)
    (exact' : Exact sc' roots' w') :
    w'.visited.map (·.qualifiedName) ⊆ w.visited.map (·.qualifiedName) ∧ w'.diagnostics ⊆ w.diagnostics := by
  constructor
  · intro name listed
    obtain ⟨c', inside, rfl⟩ := List.mem_map.mp listed
    obtain ⟨c, related, reached⟩ := followsReached follows ((exact'.visited c').mp inside)
    refine List.mem_map.mpr ⟨c, (exact.visited c).mpr reached, ?_⟩
    rw [← Symbol.lookName c, named c c' related, Symbol.lookName]
  · intro d listed
    obtain ⟨c', m', reached, exposed, same⟩ := (exactDiagnostic exact' d).mp listed
    obtain ⟨c, m, related, before, declared⟩ := followsExposed follows reached exposed
    refine (exactDiagnostic exact d).mpr ⟨c, m, before, declared, ?_⟩
    rw [Diagnostic.sameDiagnostic (shown m m' related), ← severity, same]

end Scanner

namespace Graph

/-! Graphs in which names mean the same. -/

/-- The classes and members of the second graph have counterparts in the first one, which are exempt only where they are, and
every name leads to counterparts. -/
structure Mirrors (classes members : Symbol → Symbol → Prop) (x : Exemption) (g g' : Graph) : Prop where
  found : ∀ name c', g'.lookup name = some c' → ∃ c, g.lookup name = some c ∧ classes c c'
  missing : ∀ name, g'.lookup name = none → g.lookup name = none
  aliases : ∀ name, valueOf? name g'.aliases = valueOf? name g.aliases
  entries : ∀ c c' e', classes c c' → g'.entry? c' = some e' →
    ∃ e, g.entry? c = some e ∧ e'.parents = e.parents ∧ ∀ m' ∈ e'.members, ∃ m ∈ e.members, members m m'
  classCounts : ∀ c c', classes c c' → x.covers c' = false → x.covers c = false
  memberCounts : ∀ m m', members m m' → x.covers m' = false → x.covers m = false
  alike : ∀ m m', members m m' → m'.kind = m.kind ∧ m'.mutable = m.mutable ∧ m'.declaredType = m.declaredType

variable {classes members : Symbol → Symbol → Prop} {x : Exemption} {g g' : Graph}

theorem mirrorsDenotes (mirrors : Mirrors classes members x g g') {t : TypeRef} {c' : Symbol} (denotes : Denotes g' t c') :
    ∃ c, classes c c' ∧ Denotes g t c := by
  induction denotes with
  | named isClass =>
    obtain ⟨c, found, related⟩ := mirrors.found _ _ isClass
    exact ⟨c, related, .named found⟩
  | aliased noClass bound _ ih =>
    obtain ⟨c, related, target⟩ := ih
    rw [mirrors.aliases] at bound
    exact ⟨c, related, .aliased (mirrors.missing _ noClass) bound target⟩
  | applied _ ih =>
    obtain ⟨c, related, base⟩ := ih
    exact ⟨c, related, .applied base⟩
  | union member _ ih =>
    obtain ⟨c, related, part⟩ := ih
    exact ⟨c, related, .union member part⟩
  | intersection member _ ih =>
    obtain ⟨c, related, part⟩ := ih
    exact ⟨c, related, .intersection member part⟩

theorem mirrorsTargets (mirrors : Mirrors classes members x g g') {type : Option TypeRef} {c' : Symbol}
    (target : c' ∈ g'.typeClasses type) : ∃ c, classes c c' ∧ c ∈ g.typeClasses type := by
  cases type with
  | none => simp [typeClasses] at target
  | some t =>
    obtain ⟨c, related, denotes⟩ := mirrorsDenotes mirrors (memClassSymbols.mp target)
    exact ⟨c, related, memClassSymbols.mpr denotes⟩

theorem mirrorsParents (mirrors : Mirrors classes members x g g') {c c' d' : Symbol} (related : classes c c')
    (derives : d' ∈ g'.parentClasses c') : ∃ d, classes d d' ∧ d ∈ g.parentClasses c := by
  obtain ⟨e', here, t, listed, denotes⟩ := memParentClasses.mp derives
  obtain ⟨e, there, parents, _⟩ := mirrors.entries c c' e' related here
  obtain ⟨d, next, denotes⟩ := mirrorsDenotes mirrors denotes
  exact ⟨d, next, memParentClasses.mpr ⟨e, there, t, parents ▸ listed, denotes⟩⟩

theorem mirrorsMembers (mirrors : Mirrors classes members x g g') {c c' m' : Symbol} (related : classes c c')
    (declared : m' ∈ g'.members c') : ∃ m, members m m' ∧ m ∈ g.members c := by
  unfold Graph.members at declared ⊢
  split at declared
  · cases declared
  · rename_i e' here
    obtain ⟨e, there, _, each⟩ := mirrors.entries c c' e' related here
    obtain ⟨m, inside, same⟩ := each m' declared
    exact ⟨m, same, by rwa [there]⟩

theorem mirrorsFollows {s : Settings} (mirrors : Mirrors classes members s.exemption g g') {roots roots' : List Symbol}
    (starts : ∀ r' ∈ roots', ∃ r ∈ roots, classes r r') :
    Scanner.Follows classes members (s.scanner g) roots (s.scanner g') roots' where
  roots := by
    intro r' start counts
    obtain ⟨r, listed, related⟩ := starts r' start
    exact ⟨r, listed, related, mirrors.classCounts r r' related counts⟩
  step := by
    intro c c' d' related step counts
    cases step with
    | member m' listed free immutable kind typed =>
      obtain ⟨m, same, declared⟩ := mirrorsMembers mirrors related listed
      obtain ⟨sameKind, sameMutable, sameType⟩ := mirrors.alike m m' same
      obtain ⟨d, next, target⟩ := mirrorsTargets mirrors typed
      refine ⟨d, next, .member m declared (mirrors.memberCounts m m' same free) ?_ ?_ ?_,
        mirrors.classCounts d d' next counts⟩
      · rwa [← sameMutable]
      · rwa [← sameKind]
      · rwa [sameType] at target
    | parent listed =>
      obtain ⟨d, next, derives⟩ := mirrorsParents mirrors related listed
      exact ⟨d, next, .parent derives, mirrors.classCounts d d' next counts⟩
  exposed := by
    intro c c' m' related exposed
    obtain ⟨m, same, declared⟩ := mirrorsMembers mirrors related exposed.declared
    obtain ⟨sameKind, sameMutable, _⟩ := mirrors.alike m m' same
    refine ⟨m, same, declared, mirrors.memberCounts m m' same exposed.counts, ?_, ?_⟩
    · rw [← sameMutable]; exact exposed.isMutable
    · rw [← sameKind]; exact exposed.kind

/-! Runs. -/

theorem toldScans {g : Graph} {roots : List Symbol} (classes : ∀ r ∈ roots, r.isClass = true)
    (told : ∀ e ∈ g.entries, ∀ m ∈ e.members, ∀ t ∈ m.declaredType, t.text?.isSome) (s : Settings) :
    ∃ w, roots.foldlM (s.scanner g).scan {} = .ok w := by
  refine Scanner.scanReturns classes fun c m _ exposed => ?_
  obtain ⟨e, known, inside⟩ := membersDeclared exposed.declared
  exact (Diagnostic.memberText _ m).mpr (told e known m inside)

theorem checkOn {g : Graph} {s : Settings} {roots : List Symbol} (on : s.checkReentrant = true) {w : Walk}
    (done : roots.foldlM (s.scanner g).scan {} = .ok w) :
    g.checkFrom s roots = .ok
      { result := { roots := roots.map (·.qualifiedName), visitedClasses := w.visited.map (·.qualifiedName),
                    diagnostics := w.diagnostics }
        events := w.events } := by
  simp [checkFrom, on, done, bind, Except.bind, pure, Except.pure]

theorem checkOff (g : Graph) {s : Settings} (off : s.checkReentrant = false) (roots : List Symbol) :
    g.checkFrom s roots = .ok { result := { enabled := false } } := by
  simp [checkFrom, off]

theorem checkDone {g : Graph} {s : Settings} {roots : List Symbol} (on : s.checkReentrant = true) {run : CheckRun}
    (done : g.checkFrom s roots = .ok run) : ∃ w, roots.foldlM (s.scanner g).scan {} = .ok w := by
  cases scanned : roots.foldlM (s.scanner g).scan {} with
  | error e => simp [checkFrom, on, scanned, bind, Except.bind] at done
  | ok w => exact ⟨w, rfl⟩

end Graph
end SharedState
