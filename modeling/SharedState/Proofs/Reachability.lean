import SharedState.Check
import SharedState.Proofs.Widening
import Mathlib.Logic.Relation

/-! The check against the relation it decides: the classes that it visits are those that its roots reach without passing
through an exempt class, and the symbols that it reports are the mutable members of these. -/
namespace SharedState

namespace Walk

def flagged (w : Walk) : List Symbol := w.ledger.entries.map (·.symbol)

end Walk

namespace TypeRef

mutual
/-- Whether every array in a type has an element. -/
def hasElements : TypeRef → Bool
  | mk .array _ [] => false
  | mk _ _ args => allHaveElements args
def allHaveElements : List TypeRef → Bool
  | [] => true
  | t :: rest => hasElements t && allHaveElements rest
end

mutual
theorem textOfElements : (t : TypeRef) → t.hasElements = true → t.text?.isSome
  | mk .named n args, _ => by simp [text?]
  | mk .union n args, h => by
    simpa [text?] using textsOfElements args (by simpa [hasElements] using h)
  | mk .intersection n args, h => by
    simpa [text?] using textsOfElements args (by simpa [hasElements] using h)
  | mk .applied n args, h => by
    simpa [text?] using textsOfElements args (by simpa [hasElements] using h)
  | mk .array n [], h => by simp [hasElements] at h
  | mk .array n (element :: rest), h => by
    have parts : element.hasElements = true ∧ allHaveElements rest = true := by
      simpa [hasElements, allHaveElements] using h
    simpa [text?] using textOfElements element parts.1
theorem textsOfElements : (ts : List TypeRef) → allHaveElements ts = true → (texts? ts).isSome
  | [], _ => by simp [texts?]
  | t :: rest, h => by
    have parts : t.hasElements = true ∧ allHaveElements rest = true := by simpa [allHaveElements] using h
    obtain ⟨s, hs⟩ := Option.isSome_iff_exists.mp (textOfElements t parts.1)
    obtain ⟨ss, hss⟩ := Option.isSome_iff_exists.mp (textsOfElements rest parts.2)
    simp [texts?, hs, hss]
end

end TypeRef

namespace Scanner

/-- One step from a class: to a class that an immutable field or accessor declares, or to a parent. -/
inductive Step (sc : Scanner) (c d : Symbol) : Prop where
  | member (m : Symbol) (declared : m ∈ sc.graph.members c) (counts : sc.exemption.covers m = false)
      (immutable : m.mutable = false) (kind : m.kind ∈ [Kind.field, .accessor, .paramAccessor])
      (target : d ∈ sc.graph.typeClasses m.declaredType) : Step sc c d
  | parent (derives : d ∈ sc.graph.parentClasses c) : Step sc c d

/-- The classes that lie on a way from a root, none of them exempt. -/
inductive Reached (sc : Scanner) (roots : List Symbol) : Symbol → Prop where
  | root {c} (start : c ∈ roots) (counts : sc.exemption.covers c = false) : Reached sc roots c
  | step {c d} (before : Reached sc roots c) (step : Step sc c d) (counts : sc.exemption.covers d = false) :
      Reached sc roots d

/-- A member whose mutable state a class holds. -/
structure Exposed (sc : Scanner) (c m : Symbol) : Prop where
  declared : m ∈ sc.graph.members c
  counts : sc.exemption.covers m = false
  isMutable : m.mutable = true
  kind : m.kind ∈ [Kind.field, .method, .accessor, .paramAccessor]

/-- All that a walk does to its state. -/
inductive Move (sc : Scanner) (roots : List Symbol) : Walk → Walk → Prop where
  | visit (w : Walk) (c : Symbol) (fresh : c ∉ w.visited) (counts : sc.exemption.covers c = false)
      (origin : c ∈ roots ∨ ∃ b ∈ w.visited, Step sc b c) :
      Move sc roots w (sc.enter c { w with visited := w.visited ++ [c] })
  | follow (w : Walk) (m : Symbol) : Move sc roots w (sc.enter m w)
  | leave (w : Walk) : Move sc roots w (Scanner.leave w)
  | flag (w : Walk) (c m : Symbol) (inside : c ∈ w.visited) (exposed : Exposed sc c m) :
      Move sc roots w (sc.flag c m w)

abbrev Moves (sc : Scanner) (roots : List Symbol) := Relation.ReflTransGen (Move sc roots)

variable {sc : Scanner} {roots : List Symbol}

@[simp] theorem enterVisited (s : Symbol) (w : Walk) : (sc.enter s w).visited = w.visited := rfl
@[simp] theorem enterLedger (s : Symbol) (w : Walk) : (sc.enter s w).ledger = w.ledger := rfl
@[simp] theorem enterHalted (s : Symbol) (w : Walk) : (sc.enter s w).halted = w.halted := rfl
@[simp] theorem leaveVisited (w : Walk) : (leave w).visited = w.visited := rfl
@[simp] theorem leaveLedger (w : Walk) : (leave w).ledger = w.ledger := rfl
@[simp] theorem leaveHalted (w : Walk) : (leave w).halted = w.halted := rfl
@[simp] theorem leaveEvents (w : Walk) : (leave w).events = w.events := rfl

@[simp] theorem enterDiagnostics (s : Symbol) (w : Walk) : (sc.enter s w).diagnostics = w.diagnostics := by
  simp only [Walk.diagnostics, enter]
  split <;> simp [Event.diagnostic?]

theorem flagsIff (w : Walk) (m : Symbol) : w.ledger.flags m = true ↔ m ∈ w.flagged := by
  simp [Ledger.flags, Walk.flagged]

theorem flagOld {w : Walk} {m : Symbol} (old : m ∈ w.flagged) (c : Symbol) : sc.flag c m w = w := by
  have flags := (flagsIff w m).mpr old
  simp [flag, Ledger.record, flags]

theorem flagNew {w : Walk} {m : Symbol} (fresh : m ∉ w.flagged) (c : Symbol) :
    sc.flag c m w = sc.report ⟨c, m, m.declaredType⟩
      { w with ledger := { entries := w.ledger.entries ++ [⟨c, m, m.declaredType⟩] } } := by
  have flags : ¬ w.ledger.flags m = true := fun h => fresh ((flagsIff w m).mp h)
  simp [flag, Ledger.record, flags]

@[simp] theorem reportVisited (v : Violation) (w : Walk) : (sc.report v w).visited = w.visited := by
  unfold report; split <;> rfl

@[simp] theorem reportLedger (v : Violation) (w : Walk) : (sc.report v w).ledger = w.ledger := by
  unfold report; split <;> rfl

@[simp] theorem flagVisited (c m : Symbol) (w : Walk) : (sc.flag c m w).visited = w.visited := by
  by_cases old : m ∈ w.flagged
  · rw [flagOld old]
  · rw [flagNew old]; simp

theorem flagFlagged (c m : Symbol) (w : Walk) :
    (sc.flag c m w).flagged = if m ∈ w.flagged then w.flagged else w.flagged ++ [m] := by
  by_cases old : m ∈ w.flagged
  · rw [flagOld old, if_pos old]
  · rw [flagNew old, if_neg old]; simp [Walk.flagged]

theorem moveGrows {w w' : Walk} (h : Move sc roots w w') : w.visited ⊆ w'.visited ∧ w.flagged ⊆ w'.flagged := by
  cases h with
  | visit c => exact ⟨fun _ h => List.mem_append_left _ h, fun _ h => h⟩
  | follow m => exact ⟨fun _ h => h, fun _ h => h⟩
  | leave => exact ⟨fun _ h => h, fun _ h => h⟩
  | flag c m =>
    rw [flagVisited, flagFlagged]
    refine ⟨fun _ h => h, ?_⟩
    split
    · exact fun _ h => h
    · exact fun _ h => List.mem_append_left _ h

theorem movesGrow {w w' : Walk} (h : Moves sc roots w w') : w.visited ⊆ w'.visited ∧ w.flagged ⊆ w'.flagged := by
  induction h with
  | refl => exact ⟨fun _ h => h, fun _ h => h⟩
  | tail _ last ih => exact ⟨List.Subset.trans ih.1 (moveGrows last).1, List.Subset.trans ih.2 (moveGrows last).2⟩

/- A fold whose steps are moves, as long as a class stays visited. -/
theorem foldMoves {α : Type} {visit : Walk → α → Walk} {anchor : Symbol} (items : List α)
    (each : ∀ w, anchor ∈ w.visited → ∀ a ∈ items, Moves sc roots w (visit w a)) (w : Walk)
    (anchored : anchor ∈ w.visited) : Moves sc roots w (items.foldl visit w) := by
  induction items generalizing w with
  | nil => exact .refl
  | cons a rest ih =>
    have first := each w anchored a (by simp)
    exact first.trans (ih (fun w h b member => each w h b (by simp [member])) _ ((movesGrow first).1 anchored))

theorem visitMemberMoves {visit : Walk → Symbol → Walk} {c m : Symbol} (declared : m ∈ sc.graph.members c)
    (each : ∀ w d, c ∈ w.visited → Step sc c d → Moves sc roots w (visit w d)) (w : Walk) (inside : c ∈ w.visited) :
    Moves sc roots w (sc.visitMember visit c w m) := by
  unfold visitMember
  split
  · exact .refl
  · rename_i skip
    simp only [Bool.or_eq_true, not_or, Bool.not_eq_true] at skip
    obtain ⟨⟨_, skipped⟩, counts⟩ := skip
    split
    · rename_i isMutable
      have kind : m.kind ∈ [Kind.field, .method, .accessor, .paramAccessor] := by
        revert skipped; cases m.kind <;> simp [Scanner.skipped]
      exact .single (.flag w c m inside ⟨declared, counts, isMutable, kind⟩)
    · rename_i immutable
      split
      · rename_i follows
        have kind : m.kind ∈ [Kind.field, .accessor, .paramAccessor] := by
          revert follows; cases m.kind <;> simp [followed]
        have targets := foldMoves (sc.graph.typeClasses m.declaredType)
          (fun w h d target => each w d h (.member m declared counts (by simpa using immutable) kind target))
          (sc.enter m w) inside
        exact .head (.follow w m) (targets.tail (.leave _))
      · exact .refl

theorem visitClassMoves (n : Nat) (w : Walk) (c : Symbol) (origin : c ∈ roots ∨ ∃ b ∈ w.visited, Step sc b c) :
    Moves sc roots w (sc.visitClass n w c) := by
  induction n generalizing w c with
  | zero => exact .refl
  | succ n ih =>
    unfold visitClass
    split
    · exact .refl
    · rename_i skip
      simp only [Bool.or_eq_true, not_or, Bool.not_eq_true, List.contains_eq_mem, decide_eq_false_iff_not] at skip
      obtain ⟨⟨_, fresh⟩, counts⟩ := skip
      have first : Move sc roots w _ := .visit w c fresh counts origin
      have inside : c ∈ (sc.enter c { w with visited := w.visited ++ [c] }).visited := by simp
      have each : ∀ w d, c ∈ w.visited → Step sc c d → Moves sc roots w (sc.visitClass n w d) :=
        fun w d h step => ih w d (.inr ⟨c, h, step⟩)
      have members := foldMoves (sc.graph.members c)
        (fun w h m declared => visitMemberMoves declared each w h) _ inside
      have parents := foldMoves (sc.graph.parentClasses c)
        (fun w h d derives => each w d h (.parent derives)) _ ((movesGrow members).1 inside)
      exact .head first ((members.trans parents).tail (.leave _))

/-- What holds of every state of a walk. -/
structure Sound (sc : Scanner) (roots : List Symbol) (w : Walk) : Prop where
  reached : ∀ c ∈ w.visited, Reached sc roots c
  once : w.visited.Nodup
  exposed : ∀ m ∈ w.flagged, ∃ c ∈ w.visited, Exposed sc c m
  flaggedOnce : w.flagged.Nodup
  told : w.halted = false → w.diagnostics.map (·.symbol) = w.flagged.map (·.qualifiedName)

theorem soundStart : Sound sc roots {} where
  reached := by simp
  once := by simp
  exposed := by simp [Walk.flagged]
  flaggedOnce := by simp [Walk.flagged]
  told := by simp [Walk.flagged, Walk.diagnostics]

theorem flagSound {w : Walk} (sound : Sound sc roots w) {c m : Symbol} (inside : c ∈ w.visited)
    (exposed : Exposed sc c m) : Sound sc roots (sc.flag c m w) := by
  by_cases old : m ∈ w.flagged
  · rwa [flagOld old]
  · refine ⟨by simpa using sound.reached, by simpa using sound.once, ?_, ?_, ?_⟩
    · intro other member
      rw [flagFlagged, if_neg old, List.mem_append, List.mem_singleton] at member
      rw [flagVisited]
      rcases member with before | rfl
      · exact sound.exposed other before
      · exact ⟨c, inside, exposed⟩
    · rw [flagFlagged, if_neg old]
      exact List.nodup_append.mpr ⟨sound.flaggedOnce, by simp, by
        rintro a ha b hb rfl
        exact old (by simpa [List.mem_singleton.mp hb] using ha)⟩
    · rw [flagFlagged, if_neg old, flagNew old]
      unfold report
      split
      · simp
      · rename_i d found
        intro running
        obtain ⟨t, _, same⟩ := Option.map_eq_some_iff.mp found
        have before := sound.told running
        simp only [Walk.diagnostics] at before
        simp [Walk.diagnostics, List.filterMap_append, Event.diagnostic?, before, ← same]

theorem moveSound {w w' : Walk} (h : Move sc roots w w') (sound : Sound sc roots w) : Sound sc roots w' := by
  cases h with
  | visit c fresh counts origin =>
    have reached : Reached sc roots c := by
      rcases origin with start | ⟨b, before, step⟩
      · exact .root start counts
      · exact .step (sound.reached b before) step counts
    refine ⟨?_, ?_, ?_, sound.flaggedOnce, ?_⟩
    · intro d member
      rcases List.mem_append.mp member with old | new
      · exact sound.reached d old
      · simpa [List.mem_singleton.mp new] using reached
    · exact List.nodup_append.mpr ⟨sound.once, by simp, by
        rintro a ha b hb rfl
        exact fresh (by simpa [List.mem_singleton.mp hb] using ha)⟩
    · intro m member
      obtain ⟨d, inside, exposed⟩ := sound.exposed m member
      exact ⟨d, List.mem_append_left _ inside, exposed⟩
    · intro running
      rw [enterDiagnostics]
      exact sound.told running
  | follow m =>
    exact ⟨sound.reached, sound.once, sound.exposed, sound.flaggedOnce, fun running => by
      rw [enterDiagnostics]; exact sound.told running⟩
  | leave => exact ⟨sound.reached, sound.once, sound.exposed, sound.flaggedOnce, sound.told⟩
  | flag c m inside exposed => exact flagSound sound inside exposed

theorem movesSound {w w' : Walk} (h : Moves sc roots w w') (sound : Sound sc roots w) : Sound sc roots w' := by
  induction h with
  | refl => exact sound
  | tail _ last ih => exact moveSound last ih

/-- Every type that may have to be told has a text. -/
def Tellable (sc : Scanner) : Prop := ∀ c m, Exposed sc c m → ∀ t, m.declaredType = some t → t.text?.isSome

theorem moveRuns {w w' : Walk}
    (told : ∀ c ∈ w.visited, ∀ m, Exposed sc c m → ∀ t, m.declaredType = some t → t.text?.isSome)
    (h : Move sc roots w w') (running : w.halted = false) : w'.halted = false := by
  cases h with
  | visit => exact running
  | follow => exact running
  | leave => exact running
  | flag c m inside exposed =>
    by_cases old : m ∈ w.flagged
    · rwa [flagOld old]
    · have text : (Diagnostic.typeText? m.declaredType).isSome := by
        cases declared : m.declaredType with
        | none => rfl
        | some t => simpa [Diagnostic.typeText?] using told c inside m exposed t declared
      obtain ⟨text, found⟩ := Option.isSome_iff_exists.mp text
      rw [flagNew old]
      simp [report, Diagnostic.ofViolation?, found, running]

/-- Every type that may have to be told on a walk from a state has a text. -/
def Tells (sc : Scanner) (roots : List Symbol) (w : Walk) : Prop :=
  ∀ v, Moves sc roots w v → ∀ c ∈ v.visited, ∀ m, Exposed sc c m → ∀ t, m.declaredType = some t → t.text?.isSome

theorem movesRun {w w' : Walk} (tells : Tells sc roots w) (h : Moves sc roots w w') (running : w.halted = false) :
    w'.halted = false := by
  induction h with
  | refl => exact running
  | tail before last ih => exact moveRuns (tells _ before) last ih

/-- Between two states of a walk: of the classes visited in between, all that they lead to is visited as well, and all
that they expose is flagged. Classes visited before may still be under way. -/
structure Explored (sc : Scanner) (w w' : Walk) : Prop where
  visited : w.visited ⊆ w'.visited
  flagged : w.flagged ⊆ w'.flagged
  next : ∀ c ∈ w'.visited, c ∉ w.visited → ∀ d, Step sc c d → sc.exemption.covers d = true ∨ d ∈ w'.visited
  exposed : ∀ c ∈ w'.visited, c ∉ w.visited → ∀ m, Exposed sc c m → m ∈ w'.flagged

theorem exploredSame {w w' : Walk} (visited : w'.visited = w.visited) (flagged : w.flagged ⊆ w'.flagged) :
    Explored sc w w' where
  visited := by rw [visited]; exact fun _ h => h
  flagged := flagged
  next := by rw [visited]; exact fun c inside outside => absurd inside outside
  exposed := by rw [visited]; exact fun c inside outside => absurd inside outside

theorem exploredTrans {a b c : Walk} (first : Explored sc a b) (second : Explored sc b c) : Explored sc a c where
  visited := List.Subset.trans first.visited second.visited
  flagged := List.Subset.trans first.flagged second.flagged
  next := by
    intro x inside outside d step
    by_cases early : x ∈ b.visited
    · exact (first.next x early outside d step).imp_right fun h => second.visited h
    · exact second.next x inside early d step
  exposed := by
    intro x inside outside m exposed
    by_cases early : x ∈ b.visited
    · exact second.flagged (first.exposed x early outside m exposed)
    · exact second.exposed x inside early m exposed

def unvisited (sc : Scanner) (w : Walk) : List Symbol := (sc.graph.entries.map (·.symbol)).filter (· ∉ w.visited)

theorem unvisitedFewer {w w' : Walk} (grows : w.visited ⊆ w'.visited) :
    (sc.unvisited w').length ≤ (sc.unvisited w).length := by
  apply List.Sublist.length_le
  apply List.monotone_filter_right
  intro c outside
  simp only [decide_eq_true_eq] at outside ⊢
  exact fun h => outside (grows h)

theorem unvisitedShrinks {w : Walk} {c : Symbol} (known : c ∈ sc.graph.entries.map (·.symbol)) (fresh : c ∉ w.visited) :
    (sc.unvisited { w with visited := w.visited ++ [c] }).length < (sc.unvisited w).length := by
  have pending : c ∈ sc.unvisited w := by simpa [unvisited, fresh] using known
  have fewer : sc.unvisited { w with visited := w.visited ++ [c] } = (sc.unvisited w).filter (· ≠ c) := by
    simp only [unvisited, List.filter_filter]
    congr 1
    funext d
    simp [and_comm]
  rw [fewer]
  exact List.length_filter_lt_length_iff_exists.mpr ⟨c, pending, by simp⟩

theorem unvisitedNone {w : Walk} {c : Symbol} (known : c ∈ sc.graph.entries.map (·.symbol)) (few : (sc.unvisited w).length ≤ 0) :
    c ∈ w.visited := by
  have none : sc.unvisited w = [] := List.eq_nil_of_length_eq_zero (Nat.le_zero.mp few)
  by_contra outside
  have pending : c ∈ sc.unvisited w := by simpa [unvisited, outside] using known
  simp [none] at pending

theorem typeClassesKnown {g : Graph} {declared : Option TypeRef} {d : Symbol} (h : d ∈ g.typeClasses declared) :
    d ∈ g.entries.map (·.symbol) := by
  cases declared with
  | none => simp [Graph.typeClasses] at h
  | some t => exact Graph.denotesClass (Graph.memClassSymbols.mp h)

theorem parentClassesKnown {g : Graph} {c d : Symbol} (h : d ∈ g.parentClasses c) : d ∈ g.entries.map (·.symbol) := by
  unfold Graph.parentClasses at h
  split at h
  · simp at h
  · simp only [List.mem_eraseDups, List.mem_flatMap] at h
    obtain ⟨t, _, found⟩ := h
    exact Graph.denotesClass (Graph.memClassSymbols.mp found)

/-- What a reader of classes has to do: once the walk has halted it does nothing; from a running state with at most `n`
classes left to visit it explores, unless it halts, and leaves a class of the graph visited or exempt. -/
structure Explores (sc : Scanner) (n : Nat) (visit : Walk → Symbol → Walk) : Prop where
  stops : ∀ w c, w.halted = true → visit w c = w
  explores : ∀ w c, w.halted = false → c ∈ sc.graph.entries.map (·.symbol) → (sc.unvisited w).length ≤ n →
    (visit w c).halted = false →
      Explored sc w (visit w c) ∧ (sc.exemption.covers c = true ∨ c ∈ (visit w c).visited)

theorem foldStops {α : Type} {visit : Walk → α → Walk} (stops : ∀ w a, w.halted = true → visit w a = w) (items : List α)
    {w : Walk} (halted : w.halted = true) : items.foldl visit w = w := by
  induction items with
  | nil => rfl
  | cons a rest ih => rw [List.foldl_cons, stops w a halted, ih]

theorem foldRuns {α : Type} {visit : Walk → α → Walk} (stops : ∀ w a, w.halted = true → visit w a = w) {items : List α}
    {w : Walk} (ends : (items.foldl visit w).halted = false) : w.halted = false := by
  cases halted : w.halted with
  | false => rfl
  | true =>
    rw [foldStops stops items halted, halted] at ends
    cases ends

theorem foldExplores {n : Nat} {visit : Walk → Symbol → Walk} (reader : Explores sc n visit) (cs : List Symbol)
    (known : ∀ c ∈ cs, c ∈ sc.graph.entries.map (·.symbol)) (w : Walk) (running : w.halted = false)
    (few : (sc.unvisited w).length ≤ n) (ends : (cs.foldl visit w).halted = false) :
    Explored sc w (cs.foldl visit w) ∧ ∀ c ∈ cs, sc.exemption.covers c = true ∨ c ∈ (cs.foldl visit w).visited := by
  induction cs generalizing w with
  | nil => exact ⟨exploredSame rfl fun _ h => h, by simp⟩
  | cons c rest ih =>
    have runs : (visit w c).halted = false := foldRuns reader.stops ends
    obtain ⟨first, seen⟩ := reader.explores w c running (known c (by simp)) few runs
    have left := Nat.le_trans (unvisitedFewer first.visited) few
    obtain ⟨later, others⟩ := ih (fun d h => known d (by simp [h])) (visit w c) runs left ends
    refine ⟨exploredTrans first later, ?_⟩
    intro d member
    rcases List.mem_cons.mp member with rfl | h
    · exact seen.imp_right fun h => later.visited h
    · exact others d h

theorem skippedIff (k : Kind) : skipped k = false ↔ k ∈ [Kind.field, .method, .accessor, .paramAccessor] := by
  cases k <;> simp [skipped]

theorem followedIff (k : Kind) : followed k = true ↔ k ∈ [Kind.field, .accessor, .paramAccessor] := by
  cases k <;> simp [followed]

theorem visitMemberStops {visit : Walk → Symbol → Walk} {c : Symbol} (w : Walk) (m : Symbol) (halted : w.halted = true) :
    sc.visitMember visit c w m = w := by simp [visitMember, halted]

theorem visitMemberExplores {n : Nat} {visit : Walk → Symbol → Walk} (reader : Explores sc n visit) {c m : Symbol}
    (declared : m ∈ sc.graph.members c) (w : Walk) (running : w.halted = false) (inside : c ∈ w.visited)
    (few : (sc.unvisited w).length ≤ n) (ends : (sc.visitMember visit c w m).halted = false) :
    Explored sc w (sc.visitMember visit c w m) ∧
      (sc.exemption.covers m = false → m.mutable = false → m.kind ∈ [Kind.field, .accessor, .paramAccessor] →
        ∀ d ∈ sc.graph.typeClasses m.declaredType,
          sc.exemption.covers d = true ∨ d ∈ (sc.visitMember visit c w m).visited) ∧
      (Exposed sc c m → m ∈ (sc.visitMember visit c w m).flagged) := by
  have same : Explored sc w w := exploredSame rfl fun _ h => h
  unfold visitMember at ends ⊢
  by_cases skip : skipped m.kind || sc.exemption.covers m
  · rw [if_pos (by simpa [running] using skip)]
    refine ⟨same, ?_, ?_⟩
    · intro counts _ kind
      have unskipped := (skippedIff m.kind).mpr (by revert kind; cases m.kind <;> simp)
      simp [counts, unskipped] at skip
    · intro exposed
      simp [exposed.counts, (skippedIff m.kind).mpr exposed.kind] at skip
  · obtain ⟨unskipped, counts⟩ : skipped m.kind = false ∧ sc.exemption.covers m = false := by simpa using skip
    rw [if_neg (by simp [running, unskipped, counts])] at ends ⊢
    by_cases isMutable : m.mutable = true
    · have exposed : Exposed sc c m := ⟨declared, counts, isMutable, (skippedIff m.kind).mp unskipped⟩
      rw [if_pos isMutable]
      have move : Move sc [] w (sc.flag c m w) := .flag w c m inside exposed
      refine ⟨exploredSame (flagVisited c m w) (moveGrows move).2, by simp [isMutable], ?_⟩
      · intro _
        rw [flagFlagged]
        split <;> simp_all
    · rw [if_neg isMutable] at ends ⊢
      have unexposed : ¬ Exposed sc c m := fun exposed => isMutable exposed.isMutable
      by_cases follows : followed m.kind = true
      · rw [if_pos follows] at ends ⊢
        obtain ⟨part, seen⟩ := foldExplores reader (sc.graph.typeClasses m.declaredType)
          (fun d h => typeClassesKnown h) (sc.enter m w) running few ends
        have enters : Explored sc w (sc.enter m w) := exploredSame rfl fun _ h => h
        exact ⟨exploredTrans (exploredTrans enters part) (exploredSame rfl fun _ h => h), fun _ _ _ d h => seen d h,
          fun exposed => absurd exposed unexposed⟩
      · rw [if_neg follows]
        exact ⟨same, fun _ _ kind => absurd ((followedIff m.kind).mpr kind) follows,
          fun exposed => absurd exposed unexposed⟩

theorem membersExplored {n : Nat} {visit : Walk → Symbol → Walk} (reader : Explores sc n visit) {c : Symbol}
    (ms : List Symbol) (declared : ∀ m ∈ ms, m ∈ sc.graph.members c) (w : Walk) (running : w.halted = false)
    (inside : c ∈ w.visited) (few : (sc.unvisited w).length ≤ n)
    (ends : (ms.foldl (sc.visitMember visit c) w).halted = false) :
    Explored sc w (ms.foldl (sc.visitMember visit c) w) ∧
      (∀ m ∈ ms, sc.exemption.covers m = false → m.mutable = false →
        m.kind ∈ [Kind.field, .accessor, .paramAccessor] → ∀ d ∈ sc.graph.typeClasses m.declaredType,
          sc.exemption.covers d = true ∨ d ∈ (ms.foldl (sc.visitMember visit c) w).visited) ∧
      ∀ m ∈ ms, Exposed sc c m → m ∈ (ms.foldl (sc.visitMember visit c) w).flagged := by
  induction ms generalizing w with
  | nil => exact ⟨exploredSame rfl fun _ h => h, by simp, by simp⟩
  | cons m rest ih =>
    have runs : (sc.visitMember visit c w m).halted = false := foldRuns visitMemberStops ends
    obtain ⟨first, targets, flagged⟩ :=
      visitMemberExplores reader (declared m (by simp)) w running inside few runs
    have left := Nat.le_trans (unvisitedFewer first.visited) few
    obtain ⟨later, laterTargets, laterFlagged⟩ :=
      ih (fun x h => declared x (by simp [h])) (sc.visitMember visit c w m) runs (first.visited inside) left ends
    refine ⟨exploredTrans first later, ?_, ?_⟩
    · intro x member counts immutable kind d target
      rcases List.mem_cons.mp member with rfl | h
      · exact (targets counts immutable kind d target).imp_right fun h => later.visited h
      · exact laterTargets x h counts immutable kind d target
    · intro x member exposed
      rcases List.mem_cons.mp member with rfl | h
      · exact later.flagged (flagged exposed)
      · exact laterFlagged x h exposed

theorem visitClassFresh {n : Nat} {w : Walk} {c : Symbol} (running : w.halted = false) (fresh : c ∉ w.visited)
    (counts : sc.exemption.covers c = false) :
    sc.visitClass (n + 1) w c = leave ((sc.graph.parentClasses c).foldl (sc.visitClass n)
      ((sc.graph.members c).foldl (sc.visitMember (sc.visitClass n) c)
        (sc.enter c { w with visited := w.visited ++ [c] }))) := by
  rw [visitClass]
  simp [running, fresh, counts]

/- From a class that is neither visited nor exempt, with a reader that explores what is left afterwards. -/
theorem visitFreshExplores {n : Nat} (reader : Explores sc n (sc.visitClass n)) (w : Walk) (c : Symbol)
    (running : w.halted = false) (fresh : c ∉ w.visited) (counts : sc.exemption.covers c = false)
    (few : (sc.unvisited { w with visited := w.visited ++ [c] }).length ≤ n)
    (ends : (sc.visitClass (n + 1) w c).halted = false) :
    Explored sc w (sc.visitClass (n + 1) w c) ∧ c ∈ (sc.visitClass (n + 1) w c).visited := by
  rw [visitClassFresh running fresh counts] at ends ⊢
  let entered := sc.enter c { w with visited := w.visited ++ [c] }
  have inside : c ∈ entered.visited := by simp [entered]
  have runs : ((sc.graph.members c).foldl (sc.visitMember (sc.visitClass n) c) entered).halted = false :=
    foldRuns reader.stops ends
  obtain ⟨members, targets, flagged⟩ := membersExplored reader (sc.graph.members c) (fun _ h => h) entered running inside
    few runs
  have left := Nat.le_trans (unvisitedFewer members.visited) few
  obtain ⟨parents, derived⟩ := foldExplores reader (sc.graph.parentClasses c) (fun d h => parentClassesKnown h) _ runs left
    ends
  have both := exploredTrans members parents
  refine ⟨⟨?_, both.flagged, ?_, ?_⟩, both.visited inside⟩
  · exact fun d h => both.visited (List.mem_append_left _ h)
  · intro x visited outside d step
    by_cases same : x = c
    · subst same
      cases step with
      | member m declared counts immutable kind target =>
        exact (targets m declared counts immutable kind d target).imp_right fun h => parents.visited h
      | parent derives => exact derived d derives
    · exact both.next x visited (by simp [entered, outside, same]) d step
  · intro x visited outside m exposed
    by_cases same : x = c
    · subst same
      exact parents.flagged (flagged m exposed.declared exposed)
    · exact both.exposed x visited (by simp [entered, outside, same]) m exposed

theorem visitClassIdle {n : Nat} {w : Walk} {c : Symbol} (h : c ∈ w.visited ∨ sc.exemption.covers c = true) :
    sc.visitClass n w c = w := by
  cases n with
  | zero => rfl
  | succ n =>
    rw [visitClass, if_pos]
    rcases h with h | h <;> simp [h]

theorem visitClassStops {n : Nat} (w : Walk) (c : Symbol) (halted : w.halted = true) : sc.visitClass n w c = w := by
  cases n with
  | zero => rfl
  | succ n => simp [visitClass, halted]

theorem visitClassExplores (n : Nat) : Explores sc n (sc.visitClass n) := by
  refine ⟨visitClassStops, ?_⟩
  induction n with
  | zero =>
    intro w c running known few ends
    exact ⟨exploredSame rfl fun _ h => h, .inr (unvisitedNone known few)⟩
  | succ n ih =>
    intro w c running known few ends
    by_cases idle : c ∈ w.visited ∨ sc.exemption.covers c = true
    · rw [visitClassIdle idle]
      exact ⟨exploredSame rfl fun _ h => h, idle.symm⟩
    · obtain ⟨fresh, counts⟩ : c ∉ w.visited ∧ sc.exemption.covers c = false := by simpa using idle
      have shrinks := unvisitedShrinks known fresh
      obtain ⟨explored, visited⟩ :=
        visitFreshExplores ⟨visitClassStops, ih⟩ w c running fresh counts (by omega) ends
      exact ⟨explored, .inr visited⟩

/- A root need not belong to the graph, so the walk from it gets one more step than there are classes. -/
theorem walkExplores (w : Walk) (c : Symbol) (running : w.halted = false) (ends : (sc.walk c w).halted = false) :
    Explored sc w (sc.walk c w) ∧ (sc.exemption.covers c = true ∨ c ∈ (sc.walk c w).visited) := by
  unfold walk at ends ⊢
  by_cases idle : c ∈ w.visited ∨ sc.exemption.covers c = true
  · rw [visitClassIdle idle]
    exact ⟨exploredSame rfl fun _ h => h, idle.symm⟩
  · obtain ⟨fresh, counts⟩ : c ∉ w.visited ∧ sc.exemption.covers c = false := by simpa using idle
    have few : (sc.unvisited { w with visited := w.visited ++ [c] }).length ≤ sc.graph.size := by
      simpa [unvisited, Graph.size] using List.length_filter_le _ (sc.graph.entries.map (·.symbol))
    obtain ⟨explored, visited⟩ := visitFreshExplores (visitClassExplores _) w c running fresh counts few ends
    exact ⟨explored, .inr visited⟩

theorem walkMoves {r : Symbol} (among : r ∈ roots) (w : Walk) : Moves sc roots w (sc.walk r w) :=
  visitClassMoves _ w r (.inl among)

theorem scanStep {r : Symbol} {w v : Walk} (done : sc.scan w r = .ok v) :
    r.isClass = true ∧ v = sc.walk r w ∧ v.halted = false := by
  unfold scan at done
  split at done
  · cases done
  · rename_i isClass
    simp only at done
    split at done
    · cases done
    · rename_i runs
      cases Except.ok.inj done
      exact ⟨by simpa using isClass, rfl, by simpa using runs⟩

/- Whatever types there are: a run that comes to an end has explored all that it was led to. -/
theorem scanEnded (rs : List Symbol) (among : rs ⊆ roots) {w w' : Walk} (running : w.halted = false)
    (done : rs.foldlM sc.scan w = .ok w') :
    Moves sc roots w w' ∧ Explored sc w w' ∧ w'.halted = false ∧ ∀ r ∈ rs, sc.exemption.covers r = true ∨ r ∈ w'.visited := by
  induction rs generalizing w with
  | nil =>
    cases Except.ok.inj done
    exact ⟨.refl, exploredSame rfl fun _ h => h, running, by simp⟩
  | cons r rest ih =>
    rw [List.foldlM_cons] at done
    cases step : sc.scan w r with
    | error e => rw [step] at done; cases done
    | ok v =>
      rw [step] at done
      obtain ⟨_, rfl, runs⟩ := scanStep step
      obtain ⟨first, seen⟩ := walkExplores w r running runs
      obtain ⟨moves, later, ends, others⟩ := ih (fun x h => among (by simp [h])) runs done
      refine ⟨(walkMoves (among (by simp)) w).trans moves, exploredTrans first later, ends, ?_⟩
      intro x member
      rcases List.mem_cons.mp member with rfl | h
      · exact seen.imp_right fun h => later.visited h
      · exact others x h

theorem scanEnds {w : Walk} (tells : Tells sc roots w) (rs : List Symbol) (among : rs ⊆ roots)
    (classes : ∀ r ∈ rs, r.isClass = true) (running : w.halted = false) : ∃ w', rs.foldlM sc.scan w = .ok w' := by
  induction rs generalizing w with
  | nil => exact ⟨w, rfl⟩
  | cons r rest ih =>
    have moves : Moves sc roots w (sc.walk r w) := walkMoves (among (by simp)) w
    have runs := movesRun tells moves running
    have scanned : sc.scan w r = .ok (sc.walk r w) := by simp [scan, classes r (by simp), runs]
    obtain ⟨w', result⟩ := ih (fun v later => tells v (moves.trans later)) (fun x h => among (by simp [h]))
      (fun x h => classes x (by simp [h])) runs
    exact ⟨w', by rw [List.foldlM_cons, scanned]; exact result⟩

theorem scanRoots (tellable : sc.Tellable) (rs : List Symbol) (among : rs ⊆ roots) (classes : ∀ r ∈ rs, r.isClass = true)
    (w : Walk) (running : w.halted = false) :
    ∃ w', rs.foldlM sc.scan w = .ok w' ∧ Moves sc roots w w' ∧ Explored sc w w' ∧ w'.halted = false ∧
      ∀ r ∈ rs, sc.exemption.covers r = true ∨ r ∈ w'.visited := by
  obtain ⟨w', result⟩ := scanEnds (fun _ _ c _ => tellable c) rs among classes running
  exact ⟨w', result, scanEnded rs among running result⟩

theorem reachedVisited {w : Walk} (explored : Explored sc {} w)
    (started : ∀ r ∈ roots, sc.exemption.covers r = true ∨ r ∈ w.visited) {c : Symbol} (h : Reached sc roots c) :
    c ∈ w.visited := by
  induction h with
  | root start counts => exact (started _ start).resolve_left (by simp [counts])
  | step _ step counts ih => exact (explored.next _ ih (by simp) _ step).resolve_left (by simp [counts])

end Scanner

namespace Graph

theorem entryKnown {g : Graph} {c : Symbol} {e : ClassEntry} (found : g.entry? c = some e) : e ∈ g.entries ∧ e.symbol = c :=
  ⟨List.mem_of_find?_eq_some found, by simpa using List.find?_some found⟩

theorem memberEntry {g : Graph} {c m : Symbol} (h : m ∈ g.members c) : ∃ e ∈ g.entries, e.symbol = c ∧ m ∈ e.members := by
  unfold members at h
  split at h
  · simp at h
  · rename_i e found
    exact ⟨e, (entryKnown found).1, (entryKnown found).2, h⟩

theorem membersDeclared {g : Graph} {c m : Symbol} (h : m ∈ g.members c) : ∃ e ∈ g.entries, m ∈ e.members := by
  obtain ⟨e, listed, _, inside⟩ := memberEntry h
  exact ⟨e, listed, inside⟩

theorem memParentClasses {g : Graph} {c d : Symbol} :
    d ∈ g.parentClasses c ↔ ∃ e, g.entry? c = some e ∧ ∃ t ∈ e.parents, Denotes g t d := by
  unfold parentClasses
  cases g.entry? c with
  | none => simp
  | some e => simp [memClassSymbols]

/-- With the check switched on, a run from classes comes to an end. It visits each class that the roots reach through
classes that are not exempt once, and no other; it flags each mutable member of these once, and no other symbol; and the
result names exactly these. -/
theorem checkFromExact (g : Graph) (s : Settings) (roots : List Symbol) (on : s.checkReentrant = true)
    (classes : ∀ r ∈ roots, r.isClass = true)
    (elements : ∀ e ∈ g.entries, ∀ m ∈ e.members, m.mutable = true → ∀ t ∈ m.declaredType, t.hasElements = true) :
    ∃ w run, roots.foldlM (s.scanner g).scan {} = .ok w ∧ g.checkFrom s roots = .ok run ∧
      run.result.visitedClasses = w.visited.map (·.qualifiedName) ∧
      run.result.diagnostics.map (·.symbol) = w.flagged.map (·.qualifiedName) ∧
      w.visited.Nodup ∧ (∀ c, c ∈ w.visited ↔ (s.scanner g).Reached roots c) ∧
      w.flagged.Nodup ∧ ∀ m, m ∈ w.flagged ↔ ∃ c, (s.scanner g).Reached roots c ∧ (s.scanner g).Exposed c m := by
  have tellable : (s.scanner g).Tellable := by
    intro c m exposed t declared
    obtain ⟨e, entry, member⟩ := membersDeclared exposed.declared
    exact TypeRef.textOfElements t (elements e entry m member exposed.isMutable t declared)
  obtain ⟨w, result, moves, explored, runs, started⟩ :=
    Scanner.scanRoots tellable roots (fun _ h => h) classes {} rfl
  have sound := Scanner.movesSound moves Scanner.soundStart
  have visited : ∀ c, c ∈ w.visited ↔ (s.scanner g).Reached roots c :=
    fun c => ⟨sound.reached c, Scanner.reachedVisited explored started⟩
  refine ⟨w, _, result, by simp [checkFrom, on, result]; rfl, rfl, sound.told runs, sound.once, visited,
    sound.flaggedOnce, ?_⟩
  intro m
  constructor
  · intro flagged
    obtain ⟨c, inside, exposed⟩ := sound.exposed m flagged
    exact ⟨c, (visited c).mp inside, exposed⟩
  · rintro ⟨c, reached, exposed⟩
    exact explored.exposed c ((visited c).mpr reached) (by simp) m exposed

/-- Two classes that derive from each other; an alias leads from the first to the second and to an exempt class, behind
which more state lies. -/
def mutualParents : Graph :=
  let cls (serial : Nat) (name : String) : Symbol := { serial, name, kind := .plainClass }
  let field (c : Symbol) (serial : Nat) (name type : String) : Symbol :=
    c.inside { serial, name, kind := .field, declaredType := some (.named type) }
  let cell (c : Symbol) : Symbol :=
    c.inside { serial := 0, name := "cell", kind := .field, declaredType := some (.array (.named "int")), mutable := true }
  let a := cls 0 "A"
  let b := cls 1 "B"
  let c : Symbol := { cls 2 "C" with markers := ["sharable"] }
  let d := cls 3 "D"
  { entries := [⟨a, [cell a, field a 1 "next" "Next"], [.named "B"]⟩, ⟨b, [cell b], [.named "A"]⟩,
      ⟨c, [field c 0 "inner" "D"], []⟩, ⟨d, [cell d], []⟩]
    aliases := [("Next", .union [.named "C", .named "Next", .named "B"])]
    staticOwners := [a] }

theorem mutualParentsExact :
    ∃ w run, mutualParents.staticOwners.foldlM (Settings.scanner {} mutualParents).scan {} = .ok w ∧
      mutualParents.checkFrom {} mutualParents.staticOwners = .ok run ∧
      run.result.visitedClasses = w.visited.map (·.qualifiedName) ∧
      run.result.diagnostics.map (·.symbol) = w.flagged.map (·.qualifiedName) ∧ w.visited.Nodup ∧
      (∀ c, c ∈ w.visited ↔ (Settings.scanner {} mutualParents).Reached mutualParents.staticOwners c) ∧
      w.flagged.Nodup ∧ ∀ m, m ∈ w.flagged ↔ ∃ c, (Settings.scanner {} mutualParents).Reached mutualParents.staticOwners c ∧
        (Settings.scanner {} mutualParents).Exposed c m :=
  checkFromExact mutualParents {} mutualParents.staticOwners rfl (by decide) (by decide)

example : (mutualParents.check {}).map (·.result.visitedClasses) = .ok ["A", "B"] := by decide +kernel

end Graph
end SharedState
