import Mathlib.Data.List.Forall2
import SharedState.Proofs.ArrayNames
import SharedState.Proofs.TypeTokens

/-! Reading a written type. On the tokens of a type the grammar of expressions finds the expression that converts to the
type which its text means; a subscript of a name for arrays comes back as an array. -/
namespace SharedState.Source

open Parse

theorem bindThen {α β : Type} {p : Parse α} {f : α → Parse β} {ts rest : List Token} {a : α}
    (done : p ts = some (a, rest)) : (p >>= f) ts = f a rest := by
  simp [bind, StateT.bind, done]

theorem peekHead (ts : List Token) : peek ts = some (headKind ts, ts) := rfl

theorem acceptOpYes {text : String} {t : Token} (same : t.kind = .op text) (rest : List Token) :
    acceptOp text (t :: rest) = some (true, rest) := by
  simp [acceptOp, accept, same]

theorem acceptNo {kind : TokenKind} {ts : List Token} (other : headKind ts ≠ kind) :
    accept kind ts = some (false, ts) := by
  cases ts with
  | nil => rfl
  | cons t rest =>
    have differs : ¬ t.kind = kind := other
    simp [accept, differs]

theorem acceptOpNo {text : String} {ts : List Token} (other : headKind ts ≠ .op text) :
    acceptOp text ts = some (false, ts) := acceptNo other

theorem acceptWordNo {w : String} {ts : List Token} (other : headKind ts ≠ .name w) :
    acceptWord w ts = some (false, ts) := acceptNo other

/-! Tokens after which a type is complete, and those after which one member of an intersection or of a union is. -/

def typeStops : List TokenKind := [.newline, .op "]", .op ","]

def groupStops : List TokenKind := .op "|" :: typeStops

def atomStops : List TokenKind := .op "&" :: groupStops

theorem stopNot {stops : List TokenKind} {k l : TokenKind} (stop : k ∈ stops) (other : l ∉ stops) : k ≠ l := by
  rintro rfl
  exact other stop

/-- Tokens that start with a name and bind none. -/
def Opens (ks : List TokenKind) : Prop := ∃ w tail, ks = .name w :: tail ∧ OpeningWord w ∧ .op ":=" ∉ tail

theorem opensHead {ks : List TokenKind} (opens : Opens ks) {ts : List Token} (kinds : ts.map (·.kind) = ks)
    (rest : List Token) : ∃ w, headKind (ts ++ rest) = .name w ∧ OpeningWord w := by
  obtain ⟨w, tail, rfl, opening, _⟩ := opens
  cases ts with
  | nil => cases kinds
  | cons t ts => exact ⟨w, (List.cons.inj kinds).1, opening⟩

theorem openingNot {w k : String} (opening : OpeningWord w) (keyword : k ∈ keywords) (other : k ∉ constantWords) :
    w ≠ k := by
  rintro rfl
  rcases opening.2 with plain | constant
  · exact plain keyword
  · exact other constant

theorem headNot {ks : List TokenKind} (opens : Opens ks) {ts : List Token} (kinds : ts.map (·.kind) = ks)
    (rest : List Token) {k : String} (keyword : k ∈ keywords) (other : k ∉ constantWords) :
    headKind (ts ++ rest) ≠ .name k := by
  obtain ⟨w, head, opening⟩ := opensHead opens kinds rest
  rw [head]
  intro same
  exact openingNot opening keyword other (TokenKind.name.inj same)

theorem headNoOp {ks : List TokenKind} (opens : Opens ks) {ts : List Token} (kinds : ts.map (·.kind) = ks)
    (rest : List Token) (text : String) : headKind (ts ++ rest) ≠ .op text := by
  obtain ⟨w, head, _⟩ := opensHead opens kinds rest
  rw [head]
  simp

/-- An expression that converts to a type and nothing else, whatever the texts in literals mean. -/
def Means [CharacterNames] (e : Expr) (q : QualifiedType) : Prop :=
  ∀ reread, TypeReader.ofExpr {} reread e = .ok q

/-- Reads tokens of the given kinds, up to a token that may follow them, as an expression with the given meaning. -/
def Yields [CharacterNames] (p : Parse Expr) (stops ks : List TokenKind) (q : QualifiedType) : Prop :=
  ∀ ts rest, ts.map (·.kind) = ks → headKind rest ∈ stops → ∃ e, p (ts ++ rest) = some (e, rest) ∧ Means e q

section Pass

variable {stops ks : List TokenKind} {q : QualifiedType} {g : Grammar} {charset : CharacterNames}

theorem awaitedYields (opens : Opens ks) (inner : Yields (primary g) stops ks q) : Yields (awaited g) stops ks q := by
  intro ts rest kinds stop
  obtain ⟨e, read, means⟩ := inner ts rest kinds stop
  refine ⟨e, ?_, means⟩
  rw [awaited, bindThen (acceptWordNo (headNot opens kinds rest (by decide) (by decide)))]
  exact read

theorem powerYields (free : .op "**" ∉ stops) (opens : Opens ks) (inner : Yields (primary g) stops ks q) :
    Yields (power g) stops ks q := by
  intro ts rest kinds stop
  obtain ⟨e, read, means⟩ := awaitedYields opens inner ts rest kinds stop
  refine ⟨e, ?_, means⟩
  rw [power, bindThen read, bindThen (acceptOpNo (stopNot stop free))]
  rfl

theorem factorYields (free : .op "**" ∉ stops) (opens : Opens ks) (inner : Yields (primary g) stops ks q) :
    Yields (factor g) stops ks q := by
  intro ts rest kinds stop
  obtain ⟨e, read, means⟩ := powerYields free opens inner ts rest kinds stop
  obtain ⟨w, head, _⟩ := opensHead opens kinds rest
  refine ⟨e, ?_, means⟩
  rw [factor, bindThen (peekHead _), head]
  exact read

theorem chainPass {bound : Nat} {ops : List String} {operand : Parse Expr} (free : ∀ o ∈ ops, .op o ∉ stops)
    (inner : Yields operand stops ks q) : Yields (chain bound ops operand) stops ks q := by
  intro ts rest kinds stop
  obtain ⟨e, read, means⟩ := inner ts rest kinds stop
  refine ⟨e, ?_, means⟩
  have ends : link ops operand e rest = some ((e, false), rest) := by
    rw [link, bindThen (peekHead _)]
    cases head : headKind rest with
    | op text =>
      have other : ops.contains text = false := by
        simp only [List.contains_eq_mem, decide_eq_false_iff_not]
        intro known
        exact free text known (head ▸ stop)
      simp only [other]
      rfl
    | _ => rfl
  rw [chain, bindThen read, loop, bindThen ends]
  rfl

theorem joinedPass {bound : Nat} {operator : Parse Bool} {operand : Parse Expr}
    (none : ∀ rest, headKind rest ∈ stops → operator rest = some (false, rest)) (inner : Yields operand stops ks q) :
    Yields (joined bound operator operand) stops ks q := by
  intro ts rest kinds stop
  obtain ⟨e, read, means⟩ := inner ts rest kinds stop
  refine ⟨e, ?_, means⟩
  have ends : joinStep operator operand e rest = some ((e, false), rest) := by
    rw [joinStep, bindThen (none rest stop)]
    rfl
  rw [joined, bindThen read, loop, bindThen ends]
  rfl

end Pass

/-! A type is complete where no further operator follows. -/

theorem comparisonEnds {rest : List Token} (stop : headKind rest ∈ typeStops) :
    comparisonOp rest = some (false, rest) := by
  have known : headKind rest = .newline ∨ headKind rest = .op "]" ∨ headKind rest = .op "," := by
    simpa [typeStops] using stop
  rw [comparisonOp, bindThen (peekHead _)]
  rcases known with head | head | head <;> rw [head] <;> rfl

variable {charset : CharacterNames}

theorem expressionYields {g : Grammar} {ks : List TokenKind} {q : QualifiedType} (opens : Opens ks)
    (inner : Yields (bitOr g) typeStops ks q) : Yields (expression g) typeStops ks q := by
  have compared : Yields (comparison g) typeStops ks q := joinedPass (fun _ => comparisonEnds) inner
  have inverted : Yields (inversion g) typeStops ks q := by
    intro ts rest kinds stop
    obtain ⟨e, read, means⟩ := compared ts rest kinds stop
    refine ⟨e, ?_, means⟩
    rw [inversion, bindThen (acceptWordNo (headNot opens kinds rest (by decide) (by decide)))]
    exact read
  have conjoined : Yields (conjunction g) typeStops ks q :=
    joinedPass (fun rest stop => acceptWordNo (stopNot stop (by decide))) inverted
  have disjoined : Yields (disjunction g) typeStops ks q :=
    joinedPass (fun rest stop => acceptWordNo (stopNot stop (by decide))) conjoined
  intro ts rest kinds stop
  obtain ⟨e, read, means⟩ := disjoined ts rest kinds stop
  refine ⟨e, ?_, means⟩
  rw [expression, bindThen (acceptWordNo (headNot opens kinds rest (by decide) (by decide)))]
  rw [if_neg (by decide), bindThen read, bindThen (acceptWordNo (stopNot stop (by decide)))]
  rfl

/-! Members of a union or an intersection, joined one by one from the left. -/

theorem flattenJoin {form : TypeForm} {xs : List TypeRef} {y : TypeRef} (some : xs ≠ [])
    (others : ∀ x ∈ xs, x.form ≠ form) (last : y.form ≠ form) :
    TypeReader.flatten form [TypeRef.joinAs form xs, y] = Option.some (TypeRef.joinAs form (xs ++ [y])) := by
  cases xs with
  | nil => exact absurd rfl some
  | cons x xs =>
    cases xs with
    | nil => simp [TypeReader.flatten, TypeRef.joinAs, others x (by simp), last]
    | cons z xs =>
      have same : (TypeRef.mk form "" (x :: z :: xs)).form = form := rfl
      simp [TypeReader.flatten, same, last, TypeRef.joinAs, TypeRef.args]

theorem binaryMeans (op : BinaryOp) {a b : Expr} {x y : TypeRef} (left : Means a { type := some x })
    (right : Means b { type := some y }) : Means (.binary op a b) { type := TypeReader.operation op [x, y] } := by
  intro reread
  rw [TypeReader.ofExpr, left reread, right reread]
  rfl

theorem intercalateCons {α β : Type} (sep : β) (f : α → List β) (x : α) (xs : List α) :
    [sep].intercalate ((x :: xs).map f) = f x ++ xs.flatMap fun y => sep :: f y := by
  induction xs generalizing x with
  | nil => simp
  | cons y xs ih =>
    have rest := ih y
    rw [List.map_cons] at rest
    rw [List.map_cons, List.map_cons, List.intercalate_cons_cons, rest, List.flatMap_cons]
    simp

theorem separatedHead {α : Type} {kinds : α → List TokenKind} {sep : TokenKind} {stops : List TokenKind} {ys : List α}
    {ts rest : List Token} (spelled : ts.map (·.kind) = ys.flatMap fun y => sep :: kinds y)
    (stop : headKind rest ∈ stops) : headKind (ts ++ rest) ∈ sep :: stops := by
  cases ts with
  | nil => exact List.mem_cons_of_mem _ stop
  | cons t ts =>
    cases ys with
    | nil => simp at spelled
    | cons y ys =>
      have head : t.kind = sep := by simpa using (List.cons.inj spelled).1
      simp [headKind, head]

section Chain

variable {α : Type} {kinds : α → List TokenKind} {val : α → TypeRef} {text : String} {form : TypeForm}
  {operand : Parse Expr} {stops : List TokenKind}

variable {charset : CharacterNames}

theorem linkRun (joins : ∀ parts, TypeReader.operation (.ofText text) parts = TypeReader.flatten form parts)
    (free : .op text ∉ stops) (ys : List α)
    (parts : ∀ y ∈ ys, Yields operand (.op text :: stops) (kinds y) { type := some (val y) })
    (others : ∀ y ∈ ys, (val y).form ≠ form) (xs : List TypeRef) (left : Expr) (bound : Nat) (enough : ys.length < bound)
    (some : xs ≠ []) (flat : ∀ x ∈ xs, x.form ≠ form) (means : Means left { type := Option.some (.joinAs form xs) })
    (ts rest : List Token) (spelled : ts.map (·.kind) = ys.flatMap fun y => .op text :: kinds y)
    (stop : headKind rest ∈ stops) :
    ∃ e, loop (link [text] operand) bound left (ts ++ rest) = Option.some (e, rest) ∧
      Means e { type := Option.some (.joinAs form (xs ++ ys.map val)) } := by
  induction ys generalizing xs left bound ts with
  | nil =>
    obtain ⟨bound, rfl⟩ : ∃ b, bound = b + 1 := ⟨bound - 1, by simp at enough; omega⟩
    have empty : ts = [] := by simpa using spelled
    subst empty
    have ends : link [text] operand left rest = Option.some ((left, false), rest) := by
      rw [link, bindThen (peekHead _)]
      cases head : headKind rest with
      | op other =>
        have differs : [text].contains other = false := by
          simp only [List.contains_eq_mem, List.mem_singleton, decide_eq_false_iff_not]
          rintro rfl
          exact free (head ▸ stop)
        simp only [differs]
        rfl
      | _ => rfl
    refine ⟨left, ?_, by simpa using means⟩
    rw [List.nil_append, loop, bindThen ends]
    rfl
  | cons y ys ih =>
    obtain ⟨bound, rfl⟩ : ∃ b, bound = b + 1 := ⟨bound - 1, by simp at enough; omega⟩
    cases ts with
    | nil => simp at spelled
    | cons t ts =>
      rw [List.flatMap_cons, List.cons_append, List.map_cons] at spelled
      obtain ⟨mark, inner⟩ := List.cons.inj spelled
      obtain ⟨us, vs, rfl, first, later⟩ := List.map_eq_append_iff.1 inner
      have next := separatedHead later stop
      obtain ⟨b, read, right⟩ := parts y (by simp) us (vs ++ rest) first next
      have step : link [text] operand left (t :: (us ++ vs ++ rest)) =
          Option.some ((.binary (.ofText text) left b, true), vs ++ rest) := by
        have advanced : advance (t :: (us ++ vs ++ rest)) = Option.some ((), us ++ (vs ++ rest)) := by
          simp [advance]
        have head : headKind (t :: (us ++ vs ++ rest)) = .op text := mark
        rw [link, bindThen (peekHead _), head]
        simp only [List.contains_eq_mem, List.mem_singleton, decide_true, if_true]
        rw [bindThen advanced, bindThen read]
        rfl
      have joined := binaryMeans (.ofText text) means right
      rw [joins, flattenJoin some flat (others y (by simp))] at joined
      obtain ⟨e, run, whole⟩ := ih (fun z member => parts z (by simp [member])) (fun z member => others z (by simp [member]))
        (xs ++ [val y]) _ bound (by simpa using enough) (by simp)
        (fun x member => by
          rcases List.mem_append.1 member with old | new
          · exact flat x old
          · rw [List.mem_singleton.1 new]; exact others y (by simp))
        joined vs later
      refine ⟨e, ?_, by simpa using whole⟩
      rw [List.cons_append, loop, bindThen step]
      exact run

theorem chainYields (joins : ∀ parts, TypeReader.operation (.ofText text) parts = TypeReader.flatten form parts)
    (free : .op text ∉ stops) {bound : Nat} {xs : List α} (some : xs ≠ []) (enough : xs.length ≤ bound)
    (parts : ∀ x ∈ xs, Yields operand (.op text :: stops) (kinds x) { type := Option.some (val x) })
    (others : ∀ x ∈ xs, (val x).form ≠ form) :
    Yields (chain bound [text] operand) stops ([.op text].intercalate (xs.map kinds))
      { type := Option.some (.joinAs form (xs.map val)) } := by
  intro ts rest spelled stop
  cases xs with
  | nil => exact absurd rfl some
  | cons x xs =>
    rw [intercalateCons] at spelled
    obtain ⟨us, vs, rfl, first, later⟩ := List.map_eq_append_iff.1 spelled
    obtain ⟨a, read, means⟩ := parts x (by simp) us (vs ++ rest) first (separatedHead later stop)
    obtain ⟨e, run, whole⟩ := linkRun joins free xs (fun y member => parts y (by simp [member]))
      (fun y member => others y (by simp [member])) [val x] a (bound + 1) (by simp at enough; omega) (by simp)
      (by simpa using others x (by simp)) means vs rest later stop
    refine ⟨e, ?_, whole⟩
    rw [List.append_assoc, chain, bindThen read]
    exact run

end Chain

theorem grammarBound (n : Nat) : (grammar n).bound = n := by
  cases n <;> rfl

theorem joinForm {form other : TypeForm} (differs : form ≠ other) {ts : List TypeRef} (parts : ∀ t ∈ ts, t.form ≠ other) :
    (TypeRef.joinAs form ts).form ≠ other := by
  unfold TypeRef.joinAs
  split
  · exact parts _ (by simp)
  · exact differs

/-! From atoms to alternatives: the ranks between the two operators let everything pass. -/

theorem groupsYield {n : Nat} {val : TypeRef → TypeRef} {gs : List (List TypeRef)} (some : gs ≠ []) (full : [] ∉ gs)
    (size : gs.length ≤ n ∧ ∀ g ∈ gs, g.length ≤ n)
    (opens : ∀ g ∈ gs, ∀ a ∈ g, Opens a.kinds)
    (atoms : ∀ g ∈ gs, ∀ a ∈ g, Yields (primary (grammar n)) atomStops a.kinds { type := Option.some (val a) })
    (forms : ∀ g ∈ gs, ∀ a ∈ g, (val a).form ≠ .union ∧ (val a).form ≠ .intersection) :
    Yields (bitOr (grammar n)) typeStops (TypeRef.assemble gs).kinds
      { type := Option.some (.assemble (gs.map fun g => g.map val)) } := by
  have shifted : ∀ g ∈ gs, ∀ a ∈ g, Yields (shift (grammar n)) atomStops a.kinds { type := Option.some (val a) } := by
    intro g here a member
    have factor := factorYields (by decide) (opens g here a member) (atoms g here a member)
    exact chainPass (by decide) (chainPass (by decide) (chainPass (by decide) factor))
  have groups : ∀ g ∈ gs, Yields (bitXor (grammar n)) groupStops ([.op "&"].intercalate (g.map TypeRef.kinds))
      { type := Option.some (.joinAs .intersection (g.map val)) } := by
    intro g here
    refine chainPass (by decide) (chainYields (fun _ => rfl) (by decide) ?_ ?_ (shifted g here) fun a member =>
      (forms g here a member).2)
    · rintro rfl; exact full here
    · rw [grammarBound]; exact size.2 g here
  have whole : Yields (bitOr (grammar n)) typeStops
      ([.op "|"].intercalate (gs.map fun g => [.op "&"].intercalate (g.map TypeRef.kinds)))
      { type := Option.some (.joinAs .union (gs.map fun g => .joinAs .intersection (g.map val))) } := by
    refine chainYields (fun _ => rfl) (by decide) some ?_ groups fun g here => ?_
    · rw [grammarBound]; exact size.1
    · refine joinForm (by decide) fun t member => ?_
      obtain ⟨a, inside, rfl⟩ := List.mem_map.1 member
      exact (forms g here a inside).1
  rw [TypeRef.kindsAssemble, TypeRef.assemble, List.map_map]
  exact whole

/-! A dotted name: an atom and the attributes behind it. -/

/-- An expression that spells a name. -/
def Names [CharacterNames] (e : Expr) (n : String) : Prop :=
  e.fullName = n ∧ n ≠ "" ∧ ∀ r reread, TypeReader.ofExpr r reread e = .ok (r.ofName n)

theorem identTaken {w : String} (plain : PlainWord w) {t : Token} (kind : t.kind = .name w) (rest : List Token) :
    ident (t :: rest) = some (⟨w, plain⟩, rest) := by
  obtain ⟨k, p⟩ := t
  simp only at kind
  subst kind
  simp only [ident, plain, dite_true]

theorem atomName {g : Grammar} {w : String} (opening : OpeningWord w) {t : Token} (kind : t.kind = .name w)
    (rest : List Token) : ∃ e, atom g (t :: rest) = some (e, rest) ∧ Names e w := by
  have place : here (t :: rest) = some (t.position, t :: rest) := rfl
  have head : headKind (t :: rest) = .name w := kind
  have filled := wordNonempty opening.1
  by_cases constant : w ∈ constantWords
  · obtain ⟨c, found, same⟩ : ∃ c, Constant.ofText? w = some c ∧ c.text = w := by
      have known : w = "None" ∨ w = "True" ∨ w = "False" := by simpa [constantWords] using constant
      rcases known with rfl | rfl | rfl
      · exact ⟨.none, rfl, rfl⟩
      · exact ⟨.true, rfl, rfl⟩
      · exact ⟨.false, rfl, rfl⟩
    subst same
    refine ⟨.constant c, ?_, rfl, filled, fun r reread => rfl⟩
    rw [atom, bindThen place, bindThen (peekHead _), head]
    simp only [found]
    rfl
  · have plain : PlainWord w := ⟨opening.1, opening.2.resolve_right constant⟩
    have other : Constant.ofText? w = none := by
      simp only [Constant.ofText?, Constant.all, List.find?_eq_none]
      rintro c - same
      refine constant ?_
      rw [← eq_of_beq same]
      cases c <;> decide
    refine ⟨.name ⟨w, plain⟩ t.position, ?_, rfl, filled, fun r reread => rfl⟩
    rw [atom, bindThen place, bindThen (peekHead _), head]
    simp only [other]
    rw [bindThen (identTaken plain kind rest)]
    rfl

theorem trailerDot (g : Grammar) (start : Position) {e : Expr} {n w : String} (names : Names e n) (plain : PlainWord w)
    {dot t : Token} (mark : dot.kind = .op ".") (kind : t.kind = .name w) (rest : List Token) :
    ∃ next, trailer g start e (dot :: t :: rest) = some ((next, true), rest) ∧ Names next (n ++ "." ++ w) := by
  obtain ⟨full, some, _⟩ := names
  have named : (Expr.access e ⟨w, plain⟩ start).fullName = n ++ "." ++ w := by
    have front : n.isEmpty = false := by simpa using some
    simp [Expr.fullName, full, front]
  refine ⟨.access e ⟨w, plain⟩ start, ?_, named, ?_, fun r reread => ?_⟩
  · rw [trailer, bindThen (acceptOpYes mark _), if_pos rfl, bindThen (identTaken plain kind rest)]
    rfl
  · intro empty
    have nothing := congrArg String.toList empty
    simp at nothing
  · rw [TypeReader.ofExpr, named]

theorem trailerDots (g : Grammar) (start : Position) {others : List String} (plain : ∀ w ∈ others, PlainWord w)
    {e : Expr} {n : String} (names : Names e n) (bound : Nat) {ts : List Token}
    (kinds : ts.map (·.kind) = others.flatMap fun w => [.op ".", .name w]) (rest : List Token) :
    ∃ next, loop (trailer g start) (others.length + bound) e (ts ++ rest) = loop (trailer g start) bound next rest ∧
      Names next (n ++ String.ofList (others.flatMap fun w => '.' :: w.toList)) := by
  induction others generalizing e n ts with
  | nil =>
    have empty : ts = [] := by simpa using kinds
    subst empty
    exact ⟨e, by simp, by simpa using names⟩
  | cons w others ih =>
    obtain ⟨dot, t, more, rfl⟩ : ∃ dot t more, ts = dot :: t :: more := by
      match ts, kinds with
      | [], kinds => simp at kinds
      | [_], kinds => simp at kinds
      | dot :: t :: more, _ => exact ⟨dot, t, more, rfl⟩
    simp only [List.map_cons, List.flatMap_cons, List.cons_append, List.nil_append, List.cons.injEq] at kinds
    obtain ⟨mark, kind, later⟩ := kinds
    obtain ⟨next, step, named⟩ := trailerDot g start names (plain w (by simp)) mark kind (more ++ rest)
    obtain ⟨last, run, whole⟩ := ih (fun v member => plain v (by simp [member])) named later
    refine ⟨last, ?_, ?_⟩
    · have size : (w :: others).length + bound = (others.length + bound) + 1 := by simp; omega
      rw [size, List.cons_append, List.cons_append, loop, bindThen step]
      exact run
    · have same : n ++ "." ++ w ++ String.ofList (others.flatMap fun w => '.' :: w.toList) =
          n ++ String.ofList ((w :: others).flatMap fun w => '.' :: w.toList) := by
        have dot : ".".toList = ['.'] := rfl
        rw [← String.toList_inj]
        simp [dot]
      rw [← same]
      exact whole

theorem primaryName {g : Grammar} {n : String} (name : DottedName n) (spare : Nat)
    (enough : (nameKinds n).length + spare ≤ g.bound) {ts : List Token} (kinds : ts.map (·.kind) = nameKinds n)
    (rest : List Token) : ∃ start e b, primary g (ts ++ rest) = loop (trailer g start) (spare + b + 1) e rest ∧ Names e n := by
  obtain ⟨first, others, shape, whole, opening, plain⟩ := nameWords name
  rw [shape] at kinds enough
  cases ts with
  | nil => cases kinds
  | cons t ts =>
    obtain ⟨kind, later⟩ := List.cons.inj kinds
    obtain ⟨e, read, names⟩ := atomName (g := g) opening kind (ts ++ rest)
    have dots : (others.flatMap fun w => [TokenKind.op ".", TokenKind.name w]).length = 2 * others.length := by
      simp [List.length_flatMap, Nat.mul_comm]
    have room : ∃ b, g.bound + 1 = others.length + (spare + b + 1) := by
      simp only [List.length_cons] at enough
      exact ⟨g.bound - others.length - spare, by omega⟩
    obtain ⟨b, room⟩ := room
    obtain ⟨next, run, named⟩ := trailerDots g t.position plain names (spare + b + 1) later rest
    refine ⟨t.position, next, b, ?_, whole ▸ named⟩
    have place : here (t :: (ts ++ rest)) = some (t.position, t :: (ts ++ rest)) := rfl
    rw [List.cons_append, primary, bindThen place, bindThen read, room]
    exact run

theorem trailerEnd (g : Grammar) (start : Position) (e : Expr) (b : Nat) {rest : List Token}
    (stop : headKind rest ∈ atomStops) : loop (trailer g start) (b + 1) e rest = some (e, rest) := by
  have ends : trailer g start e rest = some ((e, false), rest) := by
    rw [trailer, bindThen (acceptOpNo (stopNot stop (by decide)))]
    rw [if_neg (by decide), bindThen (acceptOpNo (stopNot stop (by decide)))]
    rw [if_neg (by decide), bindThen (acceptOpNo (stopNot stop (by decide)))]
    rfl
  rw [loop, bindThen ends]
  rfl

/-! The arguments of a subscript. -/

/-- Several expressions, each with its meaning. -/
def MeanAll [CharacterNames] (es : List Expr) (ts : List TypeRef) : Prop := List.Forall₂ (fun e t => Means e { type := some t }) es ts

theorem meanAllParts {es : List Expr} {ts : List TypeRef} (means : MeanAll es ts) (reread) :
    TypeReader.ofExprs {} reread es = .ok (ts, {}) := by
  induction means with
  | nil => rfl
  | cons first _ ih =>
    rw [TypeReader.ofExprs, first reread, ih]
    rfl

theorem notNamed {ks : List TokenKind} (opens : Opens ks) {ts rest : List Token} (kinds : ts.map (·.kind) = ks)
    (stop : headKind rest ∈ typeStops) : atNamed (ts ++ rest) = some (false, ts ++ rest) := by
  obtain ⟨w, tail, rfl, _, unbound⟩ := opens
  have second : headKind (ts ++ rest).tail ≠ .op ":=" := by
    match ts, kinds with
    | [t], _ => exact stopNot stop (by decide)
    | t :: u :: more, kinds =>
      have other : u.kind ∈ tail := by
        rw [← (List.cons.inj kinds).2]
        simp
      intro same
      exact unbound (by rw [← same]; exact other)
  have read : peekSecond (ts ++ rest) = some (headKind (ts ++ rest).tail, ts ++ rest) := rfl
  rw [atNamed, bindThen (peekHead _), bindThen read]
  have differs : (headKind (ts ++ rest).tail == .op ":=") = false := by simpa using second
  rw [differs, Bool.and_false]
  rfl

theorem subscriptYields {g : Grammar} {ks : List TokenKind} {q : QualifiedType} (opens : Opens ks)
    (inner : Yields g.expression typeStops ks q) {ts rest : List Token} (kinds : ts.map (·.kind) = ks)
    (stop : headKind rest ∈ typeStops) :
    ∃ e, subscriptItem g (ts ++ rest) = some ([e], rest) ∧ Means e q := by
  obtain ⟨e, read, means⟩ := inner ts rest kinds stop
  have named := notNamed opens kinds stop
  have plain : namedExpr g (ts ++ rest) = some (e, rest) := by
    rw [namedExpr, bindThen named]
    exact read
  refine ⟨e, ?_, means⟩
  rw [subscriptItem, bindThen (acceptOpNo (headNoOp opens kinds rest _)), if_neg (by decide),
    bindThen (acceptOpNo (headNoOp opens kinds rest _)), if_neg (by decide), bindThen named, bindThen plain,
    bindThen (acceptOpNo (stopNot stop (by decide)))]
  rfl

theorem commaHead {α : Type} {kinds : α → List TokenKind} {ys : List α} {ts rest : List Token}
    (spelled : ts.map (·.kind) = ys.flatMap fun y => .op "," :: kinds y) (stop : headKind rest = .op "]") :
    headKind (ts ++ rest) ∈ typeStops := by
  have known : headKind (ts ++ rest) ∈ [.op ",", .op "]"] := separatedHead spelled (by simp [stop])
  rcases List.mem_cons.1 known with comma | close
  · rw [comma]; decide
  · rw [List.mem_singleton.1 close]; decide

theorem openingStarts {w : String} (opening : OpeningWord w) : startsSubscript (.name w) = true := by
  have starts : startsExpression (.name w) = true := by
    unfold startsExpression
    rcases opening.2 with plain | constant
    · simp [plain]
    · have all : (constantWords.all fun w => startsExpression (.name w)) = true := by decide
      exact List.all_eq_true.1 all w constant
  simp [startsSubscript, startsStarred, starts]

theorem commaRun {g : Grammar} {α : Type} {kinds : α → List TokenKind} {val : α → TypeRef} (ys : List α)
    (opens : ∀ y ∈ ys, Opens (kinds y))
    (parts : ∀ y ∈ ys, Yields g.expression typeStops (kinds y) { type := some (val y) }) (items : List (List Expr))
    (xs : List TypeRef) (bound : Nat) (enough : ys.length < bound) (means : MeanAll items.flatten xs)
    (ts rest : List Token) (spelled : ts.map (·.kind) = ys.flatMap fun y => .op "," :: kinds y)
    (stop : headKind rest = .op "]") :
    ∃ all b, loop (commaStep startsSubscript (subscriptItem g)) bound (items, false) (ts ++ rest) =
      some ((all, b), rest) ∧ MeanAll all.flatten (xs ++ ys.map val) := by
  induction ys generalizing items xs bound ts with
  | nil =>
    obtain ⟨bound, rfl⟩ : ∃ b, bound = b + 1 := ⟨bound - 1, by simp at enough; omega⟩
    have empty : ts = [] := by simpa using spelled
    subst empty
    have ends : commaStep startsSubscript (subscriptItem g) (items, false) rest =
        some (((items, false), false), rest) := by
      have other : headKind rest ≠ .op "," := by rw [stop]; decide
      rw [commaStep, bindThen (acceptOpNo other)]
      rfl
    refine ⟨items, false, ?_, by simpa using means⟩
    rw [List.nil_append, loop, bindThen ends]
    rfl
  | cons y ys ih =>
    obtain ⟨bound, rfl⟩ : ∃ b, bound = b + 1 := ⟨bound - 1, by simp at enough; omega⟩
    cases ts with
    | nil => simp at spelled
    | cons t ts =>
      rw [List.flatMap_cons, List.cons_append, List.map_cons] at spelled
      obtain ⟨mark, inner⟩ := List.cons.inj spelled
      obtain ⟨us, vs, rfl, first, later⟩ := List.map_eq_append_iff.1 inner
      have next := commaHead later stop
      obtain ⟨e, read, right⟩ := subscriptYields (opens y (by simp)) (parts y (by simp)) first next
      have begins : startsSubscript (headKind (us ++ (vs ++ rest))) = true := by
        obtain ⟨w, head, opening⟩ := opensHead (opens y (by simp)) first (vs ++ rest)
        rw [head]
        exact openingStarts opening
      have step : commaStep startsSubscript (subscriptItem g) (items, false) (t :: (us ++ (vs ++ rest))) =
          some (((items ++ [[e]], false), true), vs ++ rest) := by
        rw [commaStep, bindThen (acceptOpYes mark _), if_pos rfl, bindThen (peekHead _), begins, if_pos rfl,
          bindThen read]
        rfl
      obtain ⟨all, b, run, whole⟩ := ih (fun z member => opens z (by simp [member]))
        (fun z member => parts z (by simp [member])) (items ++ [[e]]) (xs ++ [val y]) bound (by simpa using enough)
        (by
          rw [List.flatten_append]
          exact List.rel_append means (.cons right .nil))
        vs later
      refine ⟨all, b, ?_, by simpa using whole⟩
      rw [List.cons_append, List.append_assoc, loop, bindThen step]
      exact run

theorem commaYields {g : Grammar} {α : Type} {kinds : α → List TokenKind} {val : α → TypeRef} {xs : List α}
    (some : xs ≠ []) (enough : xs.length ≤ g.bound) (opens : ∀ x ∈ xs, Opens (kinds x))
    (parts : ∀ x ∈ xs, Yields g.expression typeStops (kinds x) { type := Option.some (val x) })
    {ts : List Token} (spelled : ts.map (·.kind) = [.op ","].intercalate (xs.map kinds)) {rest : List Token}
    (stop : headKind rest = .op "]") :
    ∃ all b, commaList g.bound startsSubscript (subscriptItem g) (ts ++ rest) = Option.some ((all, b), rest) ∧
      MeanAll all.flatten (xs.map val) := by
  cases xs with
  | nil => exact absurd rfl some
  | cons x xs =>
    rw [intercalateCons] at spelled
    obtain ⟨us, vs, rfl, first, later⟩ := List.map_eq_append_iff.1 spelled
    obtain ⟨e, read, means⟩ := subscriptYields (opens x (by simp)) (parts x (by simp)) first (commaHead later stop)
    obtain ⟨all, b, run, whole⟩ := commaRun xs (fun y member => opens y (by simp [member]))
      (fun y member => parts y (by simp [member])) [[e]] [val x] g.bound (by simp at enough; omega)
      (.cons means .nil) vs rest later stop
    refine ⟨all, b, ?_, whole⟩
    rw [List.append_assoc, commaList, bindThen read]
    exact run

theorem subscriptTrailer {g : Grammar} (start : Position) (e : Expr) {items : List (List Expr)} {b : Bool} {l r : Token}
    (left : l.kind = .op "[") (right : r.kind = .op "]") {ts rest : List Token}
    (read : commaList g.bound startsSubscript (subscriptItem g) (ts ++ r :: rest) = some ((items, b), r :: rest)) :
    trailer g start e (l :: (ts ++ r :: rest)) = some ((.subscript e items.flatten, true), rest) := by
  have noDot : headKind (l :: (ts ++ r :: rest)) ≠ .op "." := by
    change l.kind ≠ _
    rw [left]; decide
  have noCall : headKind (l :: (ts ++ r :: rest)) ≠ .op "(" := by
    change l.kind ≠ _
    rw [left]; decide
  have closed : op "]" (r :: rest) = some ((), rest) := by simp [op, expect, right]
  rw [trailer, bindThen (acceptOpNo noDot), if_neg (by decide), bindThen (acceptOpNo noCall), if_neg (by decide),
    bindThen (acceptOpYes left _), if_pos rfl, bindThen read]
  simp only
  rw [bindThen closed]
  rfl

end SharedState.Source

namespace SharedState

open SharedState.Source SharedState.Source.Parse SharedState.Text

namespace TypeRef

/-! Every written type starts with a name, and its tokens bound the depth and the width of what has to be read. -/

theorem opensAppend {ks ls : List TokenKind} (opens : Opens ks) (unbound : .op ":=" ∉ ls) : Opens (ks ++ ls) := by
  obtain ⟨w, tail, rfl, opening, free⟩ := opens
  exact ⟨w, tail ++ ls, rfl, opening, by simp [free, unbound]⟩

theorem opensUnbound {ks : List TokenKind} (opens : Opens ks) : .op ":=" ∉ ks := by
  obtain ⟨w, tail, rfl, _, free⟩ := opens
  simp [free]

theorem opensIntercalate {α : Type} {f : α → List TokenKind} {sep : TokenKind} (mark : sep ≠ .op ":=") {xs : List α}
    (some : xs ≠ []) (parts : ∀ x ∈ xs, Opens (f x)) : Opens ([sep].intercalate (xs.map f)) := by
  cases xs with
  | nil => exact absurd rfl some
  | cons x xs =>
    rw [intercalateCons]
    refine opensAppend (parts x (by simp)) ?_
    simp only [List.mem_flatMap, List.mem_cons, not_exists, not_and, not_or]
    exact fun y member => ⟨mark.symm, opensUnbound (parts y (by simp [member]))⟩

theorem opensName {n : String} (name : DottedName n) : Opens (nameKinds n) := by
  obtain ⟨first, others, shape, _, opening, _⟩ := nameWords name
  refine ⟨first, _, shape, opening, ?_⟩
  simp

theorem opensGroups {gs : List (List TypeRef)} (some : gs ≠ []) (full : [] ∉ gs)
    (atoms : ∀ g ∈ gs, ∀ a ∈ g, Opens a.kinds) : Opens (assemble gs).kinds := by
  rw [kindsAssemble]
  refine opensIntercalate (by decide) some fun g here => opensIntercalate (by decide) ?_ (atoms g here)
  rintro rfl
  exact full here

theorem opensAtom {a : TypeRef} (atom : Atom a) : Opens a.kinds := by
  induction atom with
  | named name _ => exact opensName name
  | @applied n args name _ some groups _ ih =>
    rw [kindsApplied n (by simpa using some)]
    refine opensAppend (opensName name) ?_
    have inner : Opens ([.op ","].intercalate ((args.map assemble).map kinds)) := by
      refine opensIntercalate (by decide) (by simpa using some) fun t member => ?_
      obtain ⟨gs, inside, rfl⟩ := List.mem_map.1 member
      exact opensGroups (groups gs inside).1 (groups gs inside).2 (ih gs inside)
    simpa using opensUnbound inner
  | @array gs some full _ ih =>
    have inner := opensUnbound (opensGroups some full ih)
    refine ⟨"Array", _, by rw [TypeRef.array, kinds], ⟨by decide, .inl (by decide)⟩, ?_⟩
    simpa using inner

theorem intercalateSizes {α : Type} (f : α → List TokenKind) (sep : TokenKind) (xs : List α)
    (full : ∀ x ∈ xs, f x ≠ []) : xs.length ≤ ([sep].intercalate (xs.map f)).length ∧
      ∀ x ∈ xs, (f x).length ≤ ([sep].intercalate (xs.map f)).length := by
  induction xs with
  | nil => simp
  | cons x xs ih =>
    obtain ⟨count, each⟩ := ih fun y member => full y (by simp [member])
    have first : 1 ≤ (f x).length := List.length_pos_iff.2 (full x (by simp))
    cases xs with
    | nil => simpa using first
    | cons y xs =>
      have size : ([sep].intercalate ((x :: y :: xs).map f)).length =
          (f x).length + 1 + ([sep].intercalate ((y :: xs).map f)).length := by
        rw [List.map_cons, List.map_cons, List.intercalate_cons_cons, List.length_append, List.length_append]
        rfl
      rw [size]
      refine ⟨by simp only [List.length_cons] at count ⊢; omega, fun z member => ?_⟩
      rcases List.mem_cons.1 member with rfl | later
      · omega
      · have := each z later
        omega

theorem opensFull {ks : List TokenKind} (opens : Opens ks) : ks ≠ [] := by
  obtain ⟨w, tail, rfl, _⟩ := opens
  simp

theorem groupSizes {gs : List (List TypeRef)} (full : [] ∉ gs) (atoms : ∀ g ∈ gs, ∀ a ∈ g, Atom a) :
    gs.length ≤ (assemble gs).kinds.length ∧ ∀ g ∈ gs, g.length ≤ (assemble gs).kinds.length ∧
      ∀ a ∈ g, a.kinds.length ≤ (assemble gs).kinds.length := by
  have inner : ∀ g ∈ gs, Opens ([.op "&"].intercalate (g.map kinds)) := by
    intro g here
    refine opensIntercalate (by decide) ?_ fun a member => opensAtom (atoms g here a member)
    rintro rfl
    exact full here
  obtain ⟨count, each⟩ := intercalateSizes _ (.op "|") gs fun g here => opensFull (inner g here)
  rw [kindsAssemble]
  refine ⟨count, fun g here => ?_⟩
  have whole := each g here
  obtain ⟨width, parts⟩ := intercalateSizes kinds (.op "&") g
    fun a member => opensFull (opensAtom (atoms g here a member))
  refine ⟨by omega, fun a member => ?_⟩
  have := parts a member
  omega

variable {charset : CharacterNames}

theorem expressionReads {n : Nat} {gs : List (List TypeRef)} (some : gs ≠ []) (full : [] ∉ gs)
    (atoms : ∀ g ∈ gs, ∀ a ∈ g, Atom a) (enough : (assemble gs).kinds.length ≤ n)
    (parts : ∀ g ∈ gs, ∀ a ∈ g, Yields (primary (grammar n)) atomStops a.kinds { type := Option.some a.arrayed }) :
    Yields (expression (grammar n)) typeStops (assemble gs).kinds { type := Option.some (assemble gs).arrayed } := by
  have opens : ∀ g ∈ gs, ∀ a ∈ g, Opens a.kinds := fun g here a member => opensAtom (atoms g here a member)
  obtain ⟨count, each⟩ := groupSizes full atoms
  rw [arrayedAssemble]
  refine expressionYields (opensGroups some full opens) (groupsYield some full ?_ opens parts fun g here a member => ?_)
  · exact ⟨by omega, fun g here => by have := (each g here).1; omega⟩
  · exact arrayedForm (atoms g here a member)

theorem keptName {n : String} (filled : n ≠ "") (kept : typingForm n ∉ bareQualifiers) :
    ({} : TypeReader).ofName n = { type := some (.named n) } := by
  have filled : n.isEmpty = false := by simpa using filled
  have noFinal : typingForm n ≠ "Final" := fun same => kept (by simp [same, bareQualifiers])
  have noClass : typingForm n ≠ "ClassVar" := fun same => kept (by simp [same, bareQualifiers])
  simp [TypeReader.ofName, TypeReader.formOf, noFinal, noClass, filled]

theorem bareName {n : String} (bare : typingForm n ∈ bareQualifiers) : (({} : TypeReader).ofName n).type = none := by
  have known : typingForm n = "Final" ∨ typingForm n = "ClassVar" := by simpa [bareQualifiers] using bare
  rcases known with form | form <;> simp [TypeReader.ofName, TypeReader.formOf, form]

theorem nameReads {name : String} (dotted : DottedName name) {n : Nat} (enough : (nameKinds name).length ≤ n) :
    Yields (primary (grammar n)) atomStops (nameKinds name) (({} : TypeReader).ofName name) := by
  intro ts rest spelled stop
  obtain ⟨start, e, b, read, names⟩ := primaryName (g := grammar n) dotted 0 (by rw [grammarBound]; exact enough)
    spelled rest
  refine ⟨e, ?_, fun reread => names.2.2 {} reread⟩
  rw [read]
  exact trailerEnd _ _ _ _ stop

theorem wrapperNone {form : String} (free : form ∉ constructs) (metadata : List Expr) :
    ({} : TypeReader).wrapper? form metadata = none := by
  simp only [constructs, List.mem_append, List.mem_cons, List.not_mem_nil, or_false, not_or] at free
  obtain ⟨⟨noFinal, noAnnotated, _, _⟩, noWrapper⟩ := free
  simp [TypeReader.wrapper?, noFinal, noAnnotated, noWrapper]

theorem subscriptMeans {e : Expr} {n : String} (names : Names e n) (free : typingForm n ∉ constructs)
    {es : List Expr} {ts : List TypeRef} (means : MeanAll es ts) :
    Means (.subscript e es) { type := some (if arrayNames.contains (leaf n) then array (ts.head?.getD (named "object"))
      else applied n ts) } := by
  intro reread
  have filled : n.isEmpty = false := by simpa using names.2.1
  have noOptional : typingForm n ≠ "Optional" := fun same => free (by simp [same, constructs])
  have noUnion : typingForm n ≠ "Union" := fun same => free (by simp [same, constructs])
  have form : ({} : TypeReader).formOf n = typingForm n := rfl
  have made : ({} : TypeReader).application n (typingForm n) ts =
      some (if arrayNames.contains (leaf n) then array (ts.head?.getD (named "object")) else applied n ts) := by
    simp only [TypeReader.application, noOptional, noUnion, if_false, filled, Bool.false_eq_true]
    split <;> rfl
  rw [TypeReader.ofExpr, names.1, form, wrapperNone free, meanAllParts means, ← made]
  rfl

theorem subscriptReads {n : Nat} {name : String} (dotted : DottedName name) (free : typingForm name ∉ constructs)
    {args : List TypeRef} (some : args ≠ []) (enough : (applied name args).kinds.length ≤ n + 1)
    (opens : ∀ t ∈ args, Opens t.kinds)
    (parts : ∀ t ∈ args, Yields (expression (grammar n)) typeStops t.kinds { type := Option.some t.arrayed }) :
    Yields (primary (grammar (n + 1))) atomStops (applied name args).kinds
      { type := Option.some (applied name args).arrayed } := by
  intro ts rest spelled stop
  rw [kindsApplied name some] at spelled enough
  obtain ⟨us, vs, rfl, first, later⟩ := List.map_eq_append_iff.1 spelled
  cases vs with
  | nil => cases later
  | cons l vs =>
    obtain ⟨left, inner⟩ := List.cons.inj later
    obtain ⟨ws, zs, rfl, middle, last⟩ := List.map_eq_append_iff.1 inner
    obtain ⟨r, rfl, right⟩ := List.map_eq_singleton_iff.1 last
    obtain ⟨count, _⟩ := intercalateSizes kinds (.op ",") args fun t member => opensFull (opens t member)
    simp only [List.length_append, List.length_cons, List.length_nil] at enough
    obtain ⟨start, e, b, read, names⟩ := primaryName (g := grammar (n + 1)) dotted 1
      (by rw [grammarBound]; omega) first (l :: (ws ++ r :: rest))
    have level : (grammar (n + 1)).expression = expression (grammar n) := rfl
    have closing : headKind (r :: rest) = .op "]" := right
    obtain ⟨items, comma, listed, means⟩ := commaYields (g := grammar (n + 1)) some
      (by rw [grammarBound]; omega) opens (fun t member => level ▸ parts t member) middle closing
    have step := subscriptTrailer start e left right listed
    refine ⟨.subscript e items.flatten, ?_, ?_⟩
    · have shape : us ++ l :: (ws ++ [r]) ++ rest = us ++ l :: (ws ++ r :: rest) := by simp
      rw [shape, read, Nat.add_comm 1 b, loop, bindThen step]
      exact trailerEnd _ _ _ _ stop
    · have whole := subscriptMeans names free means
      rwa [arrayedApplied name some]

theorem atomReads {a : TypeRef} (atom : Atom a) : ∀ n, a.kinds.length ≤ n →
    Yields (primary (grammar n)) atomStops a.kinds { type := some a.arrayed } := by
  induction atom with
  | @named name dotted kept =>
    intro n enough
    have reads : Yields (primary (grammar n)) atomStops (nameKinds name) _ := nameReads dotted enough
    rwa [keptName (dottedNonempty dotted) kept] at reads
  | @applied name args dotted free some groups atoms ih =>
    intro n enough
    have opens : ∀ t ∈ args.map assemble, Opens t.kinds := by
      intro t member
      obtain ⟨gs, inside, rfl⟩ := List.mem_map.1 member
      exact opensGroups (groups gs inside).1 (groups gs inside).2 fun g here a within =>
        opensAtom (atoms gs inside g here a within)
    have nonempty : args.map assemble ≠ [] := by simpa using some
    have size := enough
    rw [kindsApplied name nonempty] at size
    simp only [List.length_append, List.length_cons, List.length_nil] at size
    obtain ⟨m, rfl⟩ : ∃ m, n = m + 1 := ⟨n - 1, by omega⟩
    refine subscriptReads dotted free nonempty enough opens fun t member => ?_
    have part := (intercalateSizes kinds (.op ",") _ fun t member => opensFull (opens t member)).2 t member
    obtain ⟨gs, inside, rfl⟩ := List.mem_map.1 member
    have inner := groupSizes (groups gs inside).2 (atoms gs inside)
    refine expressionReads (groups gs inside).1 (groups gs inside).2 (atoms gs inside) (by omega)
      fun g here a within => ih gs inside g here a within m ?_
    have := (inner.2 g here).2 a within
    omega
  | @array gs some full atoms ih =>
    intro n enough
    -- An array is written as a subscript of the name for arrays.
    have word : nameKinds "Array" = [.name "Array"] := by decide
    have same : (array (assemble gs)).kinds = (applied "Array" [assemble gs]).kinds := by
      rw [kindsApplied "Array" (by simp), word, TypeRef.array, kinds]
      simp
    have back : (applied "Array" [assemble gs]).arrayed = (array (assemble gs)).arrayed := by
      have listed : arrayNames.contains (leaf "Array") = true := by decide
      rw [arrayedApplied "Array" (by simp), listed]
      exact (arrayedLoose (by decide) "" [assemble gs]).symm
    have opens : Opens (assemble gs).kinds :=
      opensGroups some full fun g here a within => opensAtom (atoms g here a within)
    rw [same] at enough ⊢
    rw [← back]
    have size := enough
    rw [kindsApplied "Array" (by simp)] at size
    simp only [List.map_cons, List.map_nil, List.intercalate_singleton, List.length_append, List.length_cons,
      List.length_nil] at size
    obtain ⟨m, rfl⟩ : ∃ m, n = m + 1 := ⟨n - 1, by omega⟩
    refine subscriptReads (dottedWord ⟨by decide, .inl (by decide)⟩) (by decide) (by simp) enough (by simpa using opens) ?_
    intro t member
    rw [List.mem_singleton.1 member]
    have inner := groupSizes full atoms
    refine expressionReads some full atoms (by omega) fun g here a within => ih g here a within m ?_
    have := (inner.2 g here).2 a within
    omega

end TypeRef

variable {charset : CharacterNames}

/-! The whole text of a type. -/

theorem starReads {n : Nat} {ks : List TokenKind} {q : QualifiedType} (opens : Opens ks)
    (inner : Yields (expression (grammar n)) typeStops ks q) {ts : List Token}
    (spelled : ts.map (·.kind) = ks ++ [.newline, .finish]) :
    ∃ e, expressionLine (grammar (n + 1)) ts = some (e, []) ∧ Means e q := by
  obtain ⟨us, vs, rfl, first, last⟩ := List.map_eq_append_iff.1 spelled
  obtain ⟨line, more, rfl, newline, last⟩ := List.map_eq_cons_iff.1 last
  obtain ⟨finish, rfl, ending⟩ := List.map_eq_singleton_iff.1 last
  have newlineStop : headKind [line, finish] ∈ typeStops := by
    have head : headKind [line, finish] = .newline := newline
    rw [head]; decide
  obtain ⟨e, read, means⟩ := inner us [line, finish] first newlineStop
  refine ⟨e, ?_, means⟩
  have star : starExpression (grammar (n + 1)) (us ++ [line, finish]) = some (e, [line, finish]) := by
    rw [starExpression, bindThen (acceptOpNo (headNoOp opens first _ _))]
    exact read
  have ends : commaStep startsStarred (starExpression (grammar (n + 1))) ([e], false) [line, finish] =
      some ((([e], false), false), [line, finish]) := by
    have other : headKind [line, finish] ≠ .op "," := by
      rw [show headKind [line, finish] = .newline from newline]
      decide
    rw [commaStep, bindThen (acceptOpNo other)]
    rfl
  have listed : commaList (grammar (n + 1)).bound startsStarred (starExpression (grammar (n + 1)))
      (us ++ [line, finish]) = some (([e], false), [line, finish]) := by
    rw [commaList, bindThen star, grammarBound, loop, bindThen ends]
    rfl
  have one : starExpressions (grammar (n + 1)) (us ++ [line, finish]) = some (e, [line, finish]) := by
    rw [starExpressions, bindThen listed]
    rfl
  have first : expect .newline [line, finish] = some ((), [finish]) := by simp [expect, newline]
  have second : expect .finish [finish] = some ((), []) := by simp [expect, ending]
  rw [expressionLine, bindThen one, bindThen first, bindThen second]
  rfl

theorem unmixed {ts : List Token} (quiet : ∀ t ∈ ts, literalEnd? t.kind = none) : mixesLiterals ts = false := by
  induction ts with
  | nil => rfl
  | cons a ts ih =>
    cases ts with
    | nil => rfl
    | cons b ts =>
      rw [mixesLiterals, quiet a (by simp), ih fun t member => quiet t (by simp [List.mem_cons.1 member])]
      rfl

theorem spelledQuiet {depth : Nat} {cs : List Char} {ks : List TokenKind} (spelled : Spelled depth cs ks) :
    ∀ k ∈ ks, literalEnd? k = none := by
  induction spelled with
  | done => simp
  | blank _ ih => exact ih
  | word _ _ _ ih => simpa using ⟨rfl, ih⟩
  | mark _ _ _ ih => simpa using ⟨rfl, ih⟩
  | left _ ih => simpa using ⟨rfl, ih⟩
  | right _ ih => simpa using ⟨rfl, ih⟩

theorem parseWritten {s : String} {ks : List TokenKind} {q : QualifiedType} (writes : Writes s.toList ks)
    (framed : Framed s) (opens : Opens ks)
    (inner : ∀ n, ks.length ≤ n → Yields (expression (grammar n)) typeStops ks q) : parseType s = .ok q.type := by
  obtain ⟨ts, lexed, kinds⟩ := tokensWritten writes framed
  have size : ts.length = ks.length + 2 := by
    have lengths := congrArg List.length kinds
    simpa using lengths
  obtain ⟨e, read, means⟩ := starReads opens (inner (ks.length + 2) (by omega)) kinds
  have quiet : mixesLiterals ts = false := by
    refine unmixed fun t member => ?_
    have spelled := spelledQuiet (writes 0 [] [] (by simp [EndsName]) .done)
    have known : t.kind ∈ ks ++ [.newline, .finish] := kinds ▸ List.mem_map_of_mem member
    rcases List.mem_append.1 known with inside | last
    · exact spelled _ (by simpa using inside)
    · simp only [List.mem_cons, List.not_mem_nil, or_false] at last
      rcases last with head | head <;> rw [head] <;> rfl
  have parsed : parseExpression (strip s) = .ok e := by
    rw [parseExpression, readAll, lexed]
    simp only [size, read, quiet]
    rfl
  rw [parseType, TypeReader.ofText, TypeReader.ofTextWithin, parsed]
  simp only
  rw [means]
  rfl

namespace TypeRef

variable {charset : CharacterNames}

theorem parseShown {t : TypeRef} (readable : Readable t) : parseType t.shown = .ok (some t.reread) := by
  have grouped := alternativesGrouped readable
  have atoms := grouped.atoms
  have opens := opensGroups grouped.some grouped.full fun g here a within => opensAtom (atoms g here a within)
  have writes := writesGroups fun g here a within => writesAtom (atoms g here a within)
  have framed := framedGroups grouped.some grouped.full fun g here a within => framedAtom (atoms g here a within)
  rw [← shownAlternatives readable]
  refine parseWritten (q := { type := some t.normal.arrayed }) writes framed opens fun n enough => ?_
  refine expressionReads grouped.some grouped.full atoms enough fun g here a within => ?_
  have size := ((groupSizes grouped.full atoms).2 g here).2 a within
  exact atomReads (atoms g here a within) n (by omega)

theorem parseBare {n : String} (dotted : DottedName n) (bare : typingForm n ∈ bareQualifiers) :
    parseType n = .ok none := by
  have opens := opensName dotted
  rw [← bareName bare]
  refine parseWritten (writesName dotted) (framedName dotted) opens fun m enough => ?_
  have factors : Yields (factor (grammar m)) _ (nameKinds n) _ := factorYields (by decide) opens (nameReads dotted enough)
  have alone : Yields (factor (grammar m)) typeStops (nameKinds n) (({} : TypeReader).ofName n) :=
    fun ts rest spelled stop => factors ts rest spelled (by simp [atomStops, groupStops, stop])
  have shifted : Yields (shift (grammar m)) typeStops (nameKinds n) (({} : TypeReader).ofName n) :=
    chainPass (by decide) (chainPass (by decide) (chainPass (by decide) alone))
  exact expressionYields opens (chainPass (by decide) (chainPass (by decide) (chainPass (by decide) shifted)))

end TypeRef
end SharedState
