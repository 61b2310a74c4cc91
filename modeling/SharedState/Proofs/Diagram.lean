import SharedState.Diagram.Mermaid
import SharedState.Proofs.Attributes
import SharedState.Proofs.DocumentMeaning
import SharedState.Proofs.Trace

/-! Diagrams of graphs. A drawing is a sequence of marks, and numbers are given out as symbols are mentioned in it. Since no number is
ever taken back, the lines are those that the final numbers give. So every symbol that is drawn has a node of its own, every edge
joins two nodes, and all that a run can step to or flag lies at the end of an edge. The text says the same as long as no name breaks
a line of it or ends the text that it stands in. -/
namespace SharedState

open SharedState.Source SharedState.Text

namespace Mermaid

/-! Numbers. -/

def number (numbered : List Symbol) (s : Symbol) : List Symbol := if s ∈ numbered then numbered else numbered ++ [s]

def idIn (numbered : List Symbol) (s : Symbol) : String := "n" ++ toString (numbered.idxOf s)

theorem mentionNumbers (d : Mermaid) (s : Symbol) :
    d.mention s = ({ d with numbered := number d.numbered s }, idIn (number d.numbered s) s) := by
  unfold mention
  by_cases known : s ∈ d.numbered
  · have found : d.numbered.findIdx? (· == s) = some (d.numbered.idxOf s) :=
      List.findIdx?_eq_some_iff_findIdx_eq.2 ⟨List.idxOf_lt_length_iff.2 known, rfl⟩
    rw [found, number, if_pos known]
    rfl
  · have missing : d.numbered.findIdx? (· == s) = none := by
      rw [List.findIdx?_eq_none_iff]
      intro t member
      exact beq_false_of_ne fun same => known (same ▸ member)
    rw [missing, number, if_neg known, idIn, List.idxOf_append_of_notMem known, List.idxOf_cons_self]
    rfl

variable {xs ys : List Symbol} {s t : Symbol}

theorem numberKnown (known : s ∈ xs) : number xs s = xs := if_pos known

theorem numberMember : t ∈ number xs s ↔ t ∈ xs ∨ t = s := by
  unfold number
  split
  · rename_i known
    exact (or_iff_left_of_imp fun same => same ▸ known).symm
  · simp

theorem numberGrows (xs : List Symbol) (s : Symbol) : xs <+: number xs s := by
  unfold number
  split
  · exact List.prefix_rfl
  · exact List.prefix_append xs [s]

theorem numberAllGrows (xs ss : List Symbol) : xs <+: ss.foldl number xs := by
  induction ss generalizing xs with
  | nil => exact List.prefix_rfl
  | cons s ss ih => exact (numberGrows xs s).trans (ih _)

theorem numberAllMember (xs ss : List Symbol) (t : Symbol) : t ∈ ss.foldl number xs ↔ t ∈ xs ∨ t ∈ ss := by
  induction ss generalizing xs with
  | nil => simp
  | cons s ss ih => rw [List.foldl_cons, ih, numberMember, List.mem_cons, or_assoc]

theorem numberAllKnown {ss : List Symbol} (known : ∀ s ∈ ss, s ∈ xs) : ss.foldl number xs = xs := by
  induction ss with
  | nil => rfl
  | cons s ss ih => rw [List.foldl_cons, numberKnown (known s (by simp)), ih fun t member => known t (by simp [member])]

/- A number that is given out stays. -/
theorem idStable (known : s ∈ xs) (grows : xs <+: ys) : idIn ys s = idIn xs s := by
  obtain ⟨more, rfl⟩ := grows
  rw [idIn, idIn, List.idxOf_append_of_mem known]

theorem idInjective (known : s ∈ xs) (same : idIn xs s = idIn xs t) : s = t := by
  have digits : (xs.idxOf s).repr = (xs.idxOf t).repr := by simpa [idIn] using same
  have places : xs.idxOf s = xs.idxOf t := by
    rw [← Nat.ofDigitChars_ten_toDigits (n := xs.idxOf s), ← Nat.toList_repr, digits, Nat.toList_repr, Nat.ofDigitChars_ten_toDigits]
  exact (List.idxOf_inj known).1 places

/-! Marks. -/

/- A node, with what stands behind its number, or an edge. -/
inductive Mark where
  | node (s : Symbol) (rest : String)
  | edge (source : Symbol) (arrow : String) (target : Symbol)

namespace Mark

def symbols : Mark → List Symbol
  | node s _ => [s]
  | edge source _ target => [source, target]

def nodeLine? (id : Symbol → String) : Mark → Option String
  | node s rest => some ("  " ++ id s ++ rest)
  | edge _ _ _ => none

def edgeLine? (id : Symbol → String) : Mark → Option String
  | node _ _ => none
  | edge source arrow target => some ("  " ++ id source ++ " " ++ arrow ++ " " ++ id target)

def label : Mark → String
  | node _ rest => rest
  | edge _ arrow _ => arrow

theorem linesAgree {id id' : Symbol → String} {k : Mark} (same : ∀ s ∈ k.symbols, id s = id' s) :
    k.nodeLine? id = k.nodeLine? id' ∧ k.edgeLine? id = k.edgeLine? id' := by
  cases k with
  | node s rest => simp [nodeLine?, edgeLine?, same s (by simp [symbols])]
  | edge source arrow target =>
    simp [nodeLine?, edgeLine?, same source (by simp [symbols]), same target (by simp [symbols])]

end Mark

def put (d : Mermaid) : Mark → Mermaid
  | .node s rest => (d.mention s).1.addNode ("  " ++ (d.mention s).2 ++ rest)
  | .edge source arrow target => d.connect source arrow target

/- All lines that some marks give under final numbers. -/
def putAll (d : Mermaid) (final : List Symbol) (ks : List Mark) : Mermaid :=
  { numbered := final
    nodes := d.nodes ++ ks.filterMap (Mark.nodeLine? (idIn final))
    edges := d.edges ++ ks.filterMap (Mark.edgeLine? (idIn final)) }

theorem putNumbers (d : Mermaid) (k : Mark) : d.put k = d.putAll (k.symbols.foldl number d.numbered) [k] := by
  cases k with
  | node s rest => simp [put, mentionNumbers, putAll, addNode, Mark.symbols, Mark.nodeLine?, Mark.edgeLine?]
  | edge source arrow target =>
    have first : source ∈ number d.numbered source := numberMember.2 (.inr rfl)
    have kept := idStable first (numberGrows _ target)
    simp [put, connect, mentionNumbers, putAll, addEdge, Mark.symbols, Mark.nodeLine?, Mark.edgeLine?, kept]

/- The numbers at the time of a mark are the final ones, as far as its symbols go. -/
theorem putsNumber (d : Mermaid) (ks : List Mark) :
    ks.foldl put d = d.putAll ((ks.flatMap (·.symbols)).foldl number d.numbered) ks := by
  induction ks generalizing d with
  | nil => simp [putAll]
  | cons k ks ih =>
    rw [List.foldl_cons, ih, putNumbers]
    have grows := numberAllGrows (k.symbols.foldl number d.numbered) (ks.flatMap (·.symbols))
    obtain ⟨nodes, edges⟩ := Mark.linesAgree (k := k) fun s member =>
      idStable ((numberAllMember d.numbered k.symbols s).2 (.inr member)) grows
    simp only [putAll, List.flatMap_cons, List.foldl_append, List.filterMap_cons, List.filterMap_nil] at nodes edges ⊢
    rw [nodes, edges]
    cases Mark.nodeLine? _ k <;> cases Mark.edgeLine? _ k <;> simp

/-! The marks of a graph. -/

def classRest (g : Graph) (e : ClassEntry) : String :=
  "[\"" ++ e.symbol.qualifiedName ++ "\"]:::" ++ if g.staticOwners.contains e.symbol then "singleton" else "cls"

def stateRest (m : Symbol) : String := "([\"var " ++ m.name ++ "\"]):::state"

def memberMarks (g : Graph) (cls m : Symbol) : List Mark :=
  if m.mutable then [.node m (stateRest m), .edge cls "-->" m]
  else (g.typeClasses m.declaredType).map (.edge cls ("-->|" ++ m.name ++ "|"))

def classMarks (g : Graph) (e : ClassEntry) : List Mark :=
  .node e.symbol (classRest g e) ::
    (e.members.flatMap (memberMarks g e.symbol) ++ (g.parentClasses e.symbol).map (.edge e.symbol "-.->|extends|"))

def marks (g : Graph) : List Mark := g.entries.flatMap (classMarks g)

theorem drawMemberMarks (g : Graph) (cls : Symbol) (d : Mermaid) (m : Symbol) :
    drawMember g cls d m = (memberMarks g cls m).foldl put d := by
  unfold drawMember memberMarks
  split
  · have known : m ∈ number d.numbered m := numberMember.2 (.inr rfl)
    have grows := numberGrows (number d.numbered m) cls
    have settled := numberKnown (grows.subset known)
    have kept := idStable known grows
    simp [put, connect, mentionNumbers, addNode, addEdge, stateRest, settled, kept, String.append_assoc]
  · rw [List.foldl_map]
    rfl

theorem drawClassMarks (g : Graph) (d : Mermaid) (e : ClassEntry) : drawClass g d e = (classMarks g e).foldl put d := by
  have members : drawMember g e.symbol = fun d m => (memberMarks g e.symbol m).foldl put d := by
    funext d m
    exact drawMemberMarks g e.symbol d m
  unfold drawClass classMarks
  rw [List.foldl_cons, List.foldl_append, List.foldl_flatMap, List.foldl_map, members]
  simp [put, classRest, String.append_assoc]

theorem drawMarks (g : Graph) (numbered : List Symbol) :
    draw g numbered = putAll { numbered } (((marks g).flatMap (·.symbols)).foldl number numbered) (marks g) := by
  have classes : drawClass g = fun d e => (classMarks g e).foldl put d := by
    funext d e
    exact drawClassMarks g d e
  rw [draw, classes, ← List.foldl_flatMap]
  exact putsNumber _ _

/-! What a line says. -/

/- The id with which a line opens, behind the indent. -/
def firstId (line : String) : String := String.ofList ((line.toList.drop 2).takeWhile (·.isAlphanum))

def lastId (line : String) : String := String.ofList (line.toList.reverse.takeWhile (·.isAlphanum)).reverse

theorem idPlain (numbered : List Symbol) (s : Symbol) : ∀ c ∈ (idIn numbered s).toList, c.isAlphanum = true := by
  intro c inside
  have spelled : (idIn numbered s).toList = 'n' :: Nat.toDigits 10 (numbered.idxOf s) := by
    rw [idIn, String.toList_append]
    exact congrArg ('n' :: ·) Nat.toList_repr
  rw [spelled, List.mem_cons] at inside
  rcases inside with rfl | digit
  · rfl
  · simp [Char.isAlphanum, Nat.isDigit_of_mem_toDigits (by decide) (by decide) digit]

theorem idFilled (numbered : List Symbol) (s : Symbol) : idIn numbered s ≠ "" := by simp [idIn]

def behindId (line : String) : List Char := (line.toList.drop 2).dropWhile (·.isAlphanum)

def opensWithId (line : String) : Bool := line.toList.take 2 == [' ', ' '] && firstId line != ""

/- Something between two texts, of which the second stands where a character is first met. -/
def encloses (left : String) (stop : Char) (right : String) (cs : List Char) : Bool :=
  left.toList.isPrefixOf cs && (cs.drop left.toList.length).dropWhile (· != stop) == right.toList

def nodeShapes : List (String × String) := [("[\"", "\"]:::singleton"), ("[\"", "\"]:::cls"), ("([\"", "\"]):::state")]

def labelledArrows : List String := ["-->|", "-.->|"]

/- A node has a text in quotes, an edge an arrow to another id, possibly with a text between bars. -/
def isNode (line : String) : Bool :=
  opensWithId line && nodeShapes.any fun shape => encloses shape.1 '"' shape.2 (behindId line)

def isEdge (line : String) : Bool :=
  opensWithId line && lastId line != "" && (behindId line == (" --> " ++ lastId line).toList ||
    labelledArrows.any fun arrow => encloses (" " ++ arrow) '|' ("| " ++ lastId line) (behindId line))

def ends (line : String) : String × String := (firstId line, lastId line)

def textLines (text : String) : List String := (pieces '\n' text.toList).map String.ofList

/- The ids that a text declares, and those that its edges join. -/
def declaredIds (text : String) : List String := ((textLines text).filter isNode).map firstId

def joinedIds (text : String) : List (String × String) := ((textLines text).filter isEdge).map ends

theorem idRead (numbered : List Symbol) (s : Symbol) {rest : String} {c : Char} {cs : List Char} (shape : rest.toList = c :: cs)
    (stops : c.isAlphanum = false) :
    let line := "  " ++ idIn numbered s ++ rest
    firstId line = idIn numbered s ∧ behindId line = c :: cs ∧ opensWithId line = true := by
  intro line
  have plain := idPlain numbered s
  have indented : line.toList = ' ' :: ' ' :: ((idIn numbered s).toList ++ c :: cs) := by
    rw [String.toList_append, String.toList_append, shape]
    rfl
  have first : firstId line = idIn numbered s := by
    rw [firstId, indented, List.drop_succ_cons, List.drop_succ_cons, List.drop_zero, List.takeWhile_append_of_pos plain,
      List.takeWhile_cons_of_neg (by simp [stops]), List.append_nil, String.ofList_toList]
  refine ⟨first, ?_, by simp [opensWithId, first, indented, idFilled]⟩
  rw [behindId, indented, List.drop_succ_cons, List.drop_succ_cons, List.drop_zero, List.dropWhile_append_of_pos plain,
    List.dropWhile_cons_of_neg (by simp [stops])]

/- A name that ends no line, no text in quotes, and no text between bars. -/
def Unbroken (name : String) : Prop := ∀ c ∈ name.toList, c ∉ ['\n', '"', '|']

instance (name : String) : Decidable (Unbroken name) :=
  decidable_of_iff ((name.toList.all fun c => decide (c ∉ ['\n', '"', '|'])) = true) (by simp [Unbroken])

theorem unbrokenFree {name : String} (plain : Unbroken name) {c : Char} (breaking : c ∈ ['\n', '"', '|']) : c ∉ name.toList :=
  fun inside => plain c inside breaking

theorem enclosesRead (left : String) {right : String} {stop : Char} {cs : List Char} (shape : right.toList = stop :: cs)
    {label : List Char} (free : stop ∉ label) : encloses left stop right (left.toList ++ (label ++ right.toList)) = true := by
  have inside : ∀ c ∈ label, (c != stop) = true := fun c here => bne_iff_ne.2 fun same => free (same ▸ here)
  rw [encloses, List.drop_left, List.dropWhile_append_of_pos inside, shape, List.dropWhile_cons_of_neg (by simp)]
  simp

theorem shapeEnds {shape : String × String} (known : shape ∈ nodeShapes) :
    ∃ c front back, shape.1.toList = c :: front ∧ c.isAlphanum = false ∧ c ≠ ' ' ∧ shape.2.toList = '"' :: back := by
  simp only [nodeShapes, List.mem_cons, List.not_mem_nil, or_false] at known
  rcases known with rfl | rfl | rfl
  · exact ⟨'[', _, _, rfl, rfl, by decide, rfl⟩
  · exact ⟨'[', _, _, rfl, rfl, by decide, rfl⟩
  · exact ⟨'(', _, _, rfl, rfl, by decide, rfl⟩

theorem nodeRead (numbered : List Symbol) (s : Symbol) {shape : String × String} (known : shape ∈ nodeShapes) (label : String) :
    let line := "  " ++ idIn numbered s ++ (shape.1 ++ label ++ shape.2)
    firstId line = idIn numbered s ∧ isEdge line = false ∧ ('"' ∉ label.toList → isNode line = true) := by
  intro line
  obtain ⟨c, front, back, opened, stops, filled, closed⟩ := shapeEnds known
  have rest : (shape.1 ++ label ++ shape.2).toList = c :: (front ++ label.toList ++ shape.2.toList) := by simp [opened]
  obtain ⟨first, behind, opens⟩ := idRead numbered s rest stops
  refine ⟨first, ?_, fun free => ?_⟩
  · simp [isEdge, line, behind, encloses, labelledArrows, filled, Ne.symm filled]
  · have around : behindId line = shape.1.toList ++ (label.toList ++ shape.2.toList) := by simp [line, behind, opened]
    rw [isNode, opens, Bool.true_and, List.any_eq_true]
    exact ⟨shape, known, around ▸ enclosesRead _ closed free⟩

theorem lastIdRead {id : String} (plain : ∀ c ∈ id.toList, c.isAlphanum = true) (front : String) :
    lastId (front ++ " " ++ id) = id := by
  have turned : (front ++ " " ++ id).toList.reverse = id.toList.reverse ++ ' ' :: front.toList.reverse := by simp
  rw [lastId, turned, List.takeWhile_append_of_pos (fun c inside => plain c (List.mem_reverse.1 inside)),
    List.takeWhile_cons_of_neg (by decide), List.append_nil, List.reverse_reverse, String.ofList_toList]

/- An arrow without a text, or with one. -/
inductive Arrow : String → List Char → Prop where
  | bare : Arrow "-->" []
  | labelled {front : String} (known : front ∈ labelledArrows) (label : String) : Arrow (front ++ label ++ "|") label.toList

theorem edgeRead (numbered : List Symbol) (source target : Symbol) {arrow : String} {label : List Char} (shape : Arrow arrow label) :
    let line := "  " ++ idIn numbered source ++ " " ++ arrow ++ " " ++ idIn numbered target
    ends line = (idIn numbered source, idIn numbered target) ∧ isNode line = false ∧ ('|' ∉ label → isEdge line = true) := by
  intro line
  have apart : line = "  " ++ idIn numbered source ++ (" " ++ arrow ++ " " ++ idIn numbered target) := by
    simp only [line, String.append_assoc]
  have rest : (" " ++ arrow ++ " " ++ idIn numbered target).toList = ' ' :: (arrow.toList ++ ' ' :: (idIn numbered target).toList) := by
    simp
  obtain ⟨first, behind, opens⟩ := idRead numbered source rest rfl
  rw [← apart] at first behind opens
  have last : lastId line = idIn numbered target := lastIdRead (idPlain numbered target) _
  refine ⟨by rw [ends, first, last], by simp [isNode, behind, encloses, nodeShapes], fun free => ?_⟩
  rw [isEdge, opens, last, Bool.true_and, Bool.and_eq_true, Bool.or_eq_true, List.any_eq_true]
  refine ⟨bne_iff_ne.2 (idFilled numbered target), ?_⟩
  cases shape with
  | bare => exact .inl (by simp [behind])
  | @labelled front known label =>
    have shape : ("| " ++ idIn numbered target).toList = '|' :: ' ' :: (idIn numbered target).toList := by simp
    have around : behindId line = (" " ++ front).toList ++ (label.toList ++ ("| " ++ idIn numbered target).toList) := by
      simp [behind]
    exact .inr ⟨front, known, around ▸ enclosesRead _ shape free⟩

/-! What is drawn of a graph. -/

def drawn (g : Graph) : List Symbol := g.entries.flatMap fun e => e.symbol :: e.members.filter (·.mutable)

/- The names that a drawing of a graph shows. -/
def shownNames (g : Graph) : List String := g.entries.flatMap fun e => e.symbol.qualifiedName :: e.members.map (·.name)

variable {g : Graph}

theorem classShown {e : ClassEntry} (listed : e ∈ g.entries) : e.symbol.qualifiedName ∈ shownNames g :=
  List.mem_flatMap.2 ⟨e, listed, List.mem_cons_self⟩

theorem memberShown {e : ClassEntry} (listed : e ∈ g.entries) {m : Symbol} (inside : m ∈ e.members) : m.name ∈ shownNames g :=
  List.mem_flatMap.2 ⟨e, listed, List.mem_cons_of_mem _ (List.mem_map_of_mem inside)⟩

theorem classDrawn {s : Symbol} (known : s ∈ g.entries.map (·.symbol)) : s ∈ drawn g := by
  obtain ⟨e, listed, rfl⟩ := List.mem_map.1 known
  exact List.mem_flatMap.2 ⟨e, listed, List.mem_cons_self⟩

theorem stateDrawn {e : ClassEntry} (listed : e ∈ g.entries) {m : Symbol} (inside : m ∈ e.members) (isMutable : m.mutable = true) :
    m ∈ drawn g :=
  List.mem_flatMap.2 ⟨e, listed, List.mem_cons_of_mem _ (List.mem_filter.2 ⟨inside, isMutable⟩)⟩

/- All marks that the entry of a class gives. -/
inductive Marked (g : Graph) (e : ClassEntry) : Mark → Prop where
  | own : Marked g e (.node e.symbol (classRest g e))
  | state {m : Symbol} (inside : m ∈ e.members) (isMutable : m.mutable = true) : Marked g e (.node m (stateRest m))
  | holds {m : Symbol} (inside : m ∈ e.members) (isMutable : m.mutable = true) : Marked g e (.edge e.symbol "-->" m)
  | target {m d : Symbol} (inside : m ∈ e.members) (fixed : m.mutable = false) (denoted : d ∈ g.typeClasses m.declaredType) :
      Marked g e (.edge e.symbol ("-->|" ++ m.name ++ "|") d)
  | parent {d : Symbol} (derives : d ∈ g.parentClasses e.symbol) : Marked g e (.edge e.symbol "-.->|extends|" d)

theorem memberMarked {e : ClassEntry} {m : Symbol} (inside : m ∈ e.members) {k : Mark} (here : k ∈ memberMarks g e.symbol m) :
    Marked g e k := by
  unfold memberMarks at here
  split at here
  · rename_i isMutable
    simp only [List.mem_cons, List.not_mem_nil, or_false] at here
    rcases here with rfl | rfl
    · exact .state inside isMutable
    · exact .holds inside isMutable
  · rename_i fixed
    obtain ⟨d, denoted, rfl⟩ := List.mem_map.1 here
    exact .target inside (by simpa using fixed) denoted

theorem memMarks {k : Mark} : k ∈ marks g ↔ ∃ e ∈ g.entries, Marked g e k := by
  simp only [marks, classMarks, List.mem_flatMap, List.mem_cons, List.mem_append, List.mem_map]
  constructor
  · intro made
    obtain ⟨e, listed, rfl | ⟨m, inside, here⟩ | ⟨d, derives, rfl⟩⟩ := made
    · exact ⟨e, listed, .own⟩
    · exact ⟨e, listed, memberMarked inside here⟩
    · exact ⟨e, listed, .parent derives⟩
  · intro made
    obtain ⟨e, listed, marked⟩ := made
    refine ⟨e, listed, ?_⟩
    cases marked with
    | own => exact .inl rfl
    | @state m inside isMutable => exact .inr (.inl ⟨m, inside, by simp [memberMarks, isMutable]⟩)
    | @holds m inside isMutable => exact .inr (.inl ⟨m, inside, by simp [memberMarks, isMutable]⟩)
    | @target m d inside fixed denoted => exact .inr (.inl ⟨m, inside, by simp [memberMarks, fixed, denoted]⟩)
    | parent derives => exact .inr (.inr ⟨_, derives, rfl⟩)

/- All that a mark mentions is drawn: classes that a type or a parent denotes are classes of the graph. -/
theorem mentionedDrawn {k : Mark} (made : k ∈ marks g) : ∀ s ∈ k.symbols, s ∈ drawn g := by
  obtain ⟨e, listed, marked⟩ := memMarks.1 made
  have own : e.symbol ∈ drawn g := classDrawn (List.mem_map_of_mem listed)
  cases marked with
  | own => simpa [Mark.symbols] using own
  | state inside isMutable => simpa [Mark.symbols] using stateDrawn listed inside isMutable
  | holds inside isMutable => simpa [Mark.symbols] using ⟨own, stateDrawn listed inside isMutable⟩
  | target inside fixed denoted => simpa [Mark.symbols] using ⟨own, classDrawn (Scanner.typeClassesKnown denoted)⟩
  | parent derives => simpa [Mark.symbols] using ⟨own, classDrawn (Scanner.parentClassesKnown derives)⟩

def nodeLines (g : Graph) (id : Symbol → String) : List String :=
  g.entries.flatMap fun e =>
    ("  " ++ id e.symbol ++ classRest g e) :: (e.members.filter (·.mutable)).map fun m => "  " ++ id m ++ stateRest m

theorem memberNodes (g : Graph) (id : Symbol → String) (cls : Symbol) (members : List Symbol) :
    (members.flatMap (memberMarks g cls)).filterMap (Mark.nodeLine? id) =
      (members.filter (·.mutable)).map fun m => "  " ++ id m ++ stateRest m := by
  induction members with
  | nil => rfl
  | cons m members ih =>
    rw [List.flatMap_cons, List.filterMap_append, ih, memberMarks]
    split
    · rename_i isMutable
      simp [isMutable, Mark.nodeLine?]
    · rename_i fixed
      simp [fixed, List.filterMap_map, Function.comp_def, Mark.nodeLine?]

theorem markedNodes (g : Graph) (id : Symbol → String) : (marks g).filterMap (Mark.nodeLine? id) = nodeLines g id := by
  rw [marks, List.filterMap_flatMap, nodeLines]
  congr 1
  funext e
  rw [classMarks, List.filterMap_cons, List.filterMap_append, memberNodes]
  simp [List.filterMap_map, Function.comp_def, Mark.nodeLine?]

theorem classRestShape (g : Graph) (e : ClassEntry) :
    ∃ shape ∈ nodeShapes, classRest g e = shape.1 ++ e.symbol.qualifiedName ++ shape.2 := by
  unfold classRest
  split
  · exact ⟨("[\"", "\"]:::singleton"), by decide, by simp [String.append_assoc]⟩
  · exact ⟨("[\"", "\"]:::cls"), by decide, by simp [String.append_assoc]⟩

theorem stateRestShape (m : Symbol) : ∃ shape ∈ nodeShapes, stateRest m = shape.1 ++ ("var " ++ m.name) ++ shape.2 := by
  have opening : "([\"var " = "([\"" ++ "var " := by decide
  exact ⟨("([\"", "\"]):::state"), by decide, by simp only [stateRest, opening, String.append_assoc]⟩

theorem nodesRead (g : Graph) (numbered : List Symbol) :
    (nodeLines g (idIn numbered)).map firstId = (drawn g).map (idIn numbered) ∧
      ∀ line ∈ nodeLines g (idIn numbered), isEdge line = false ∧ ((∀ n ∈ shownNames g, Unbroken n) → isNode line = true) := by
  have classes (e : ClassEntry) : let line := "  " ++ idIn numbered e.symbol ++ classRest g e
      firstId line = idIn numbered e.symbol ∧ isEdge line = false ∧ ('"' ∉ e.symbol.qualifiedName.toList → isNode line = true) := by
    obtain ⟨shape, known, same⟩ := classRestShape g e
    exact same ▸ nodeRead numbered e.symbol known e.symbol.qualifiedName
  have states (m : Symbol) : let line := "  " ++ idIn numbered m ++ stateRest m
      firstId line = idIn numbered m ∧ isEdge line = false ∧ ('"' ∉ m.name.toList → isNode line = true) := by
    obtain ⟨shape, known, same⟩ := stateRestShape m
    obtain ⟨first, edge, node⟩ := nodeRead numbered m known ("var " ++ m.name)
    exact same ▸ ⟨first, edge, fun free => node (by simpa using free)⟩
  constructor
  · simp only [nodeLines, drawn, List.map_flatMap, List.map_cons, List.map_map, Function.comp_def, (classes _).1, (states _).1]
  · intro line here
    obtain ⟨e, listed, here⟩ := List.mem_flatMap.1 here
    rcases List.mem_cons.1 here with rfl | state
    · exact ⟨(classes e).2.1, fun plain => (classes e).2.2 (unbrokenFree (plain _ (classShown listed)) (by decide))⟩
    · obtain ⟨m, inside, rfl⟩ := List.mem_map.1 state
      have member := memberShown listed (List.mem_filter.1 inside).1
      exact ⟨(states m).2.1, fun plain => (states m).2.2 (unbrokenFree (plain _ member) (by decide))⟩

theorem arrowShape {source target : Symbol} {arrow : String} (made : .edge source arrow target ∈ marks g) :
    ∃ label, Arrow arrow label ∧ ((∀ n ∈ shownNames g, Unbroken n) → '|' ∉ label) := by
  obtain ⟨e, listed, marked⟩ := memMarks.1 made
  cases marked with
  | holds inside isMutable => exact ⟨_, .bare, fun _ => List.not_mem_nil⟩
  | @target m d inside fixed denoted =>
    exact ⟨_, .labelled (by decide) m.name, fun plain => unbrokenFree (plain _ (memberShown listed inside)) (by decide)⟩
  | parent derives =>
    have shape : Arrow ("-.->|" ++ "extends" ++ "|") "extends".toList := .labelled (by decide) "extends"
    exact ⟨_, shape, fun _ => by decide⟩

theorem memEdges {id : Symbol → String} {ks : List Mark} {line : String} : line ∈ ks.filterMap (Mark.edgeLine? id) ↔
    ∃ source arrow target, .edge source arrow target ∈ ks ∧ "  " ++ id source ++ " " ++ arrow ++ " " ++ id target = line := by
  rw [List.mem_filterMap]
  constructor
  · intro made
    obtain ⟨k, here, shape⟩ := made
    cases k with
    | node => cases shape
    | edge source arrow target => exact ⟨source, arrow, target, here, Option.some.inj shape⟩
  · intro made
    obtain ⟨source, arrow, target, here, shape⟩ := made
    exact ⟨_, here, congrArg some shape⟩

end Mermaid

namespace Graph

/- Members are told apart from each other and from the classes. -/
structure Apart (g : Graph) : Prop where
  members : (g.entries.flatMap (·.members)).Nodup
  classes : ∀ e ∈ g.entries, ∀ m ∈ e.members, m ∉ g.entries.map (·.symbol)

/- It is enough that members are told apart within a class, and that they lie in it. -/
theorem apartInside {g : Graph} (names : (g.entries.map (·.symbol.qualifiedName)).Nodup)
    (kinds : ∀ e ∈ g.entries, e.symbol.isClass = true) (distinct : ∀ e ∈ g.entries, e.members.Nodup)
    (inside : ∀ e ∈ g.entries, ∀ m ∈ e.members, e.symbol.inside m.toDeclaration = m)
    (members : ∀ e ∈ g.entries, ∀ m ∈ e.members, m.isClass = false) : g.Apart where
  members := by
    refine List.nodup_flatMap.2 ⟨distinct, ?_⟩
    refine (List.pairwise_map.1 names).imp_of_mem fun {e f} left right other m here there => other ?_
    have owners : some e.symbol = some f.symbol := by
      rw [← Symbol.ownerInside e.symbol m.toDeclaration, inside e left m here, ← Symbol.ownerInside f.symbol m.toDeclaration,
        inside f right m there]
    rw [Option.some.inj owners]
  classes := by
    intro e listed m here known
    obtain ⟨f, listed', rfl⟩ := List.mem_map.1 known
    have impossible := members e listed _ here
    rw [kinds f listed'] at impossible
    cases impossible

end Graph

theorem Program.buildApart [CharacterNames] {p : Program} {g : Graph} (done : p.build.2 = .ok g) : g.Apart := by
  obtain ⟨bs, entries, builds⟩ := buildBuilds done
  have source := Graph.buildSource builds.built
  have attributed := buildAttributed done
  refine Graph.apartInside source.names source.kinds (fun e listed => ?_) (fun e listed => (attributed e listed).inside)
    (fun e listed => (attributed e listed).kinds)
  exact (attributed e listed).keys.of_map

/-! Names in programs. -/

namespace Mermaid

theorem identifierUnbroken {w : String} (valid : isIdentifier w.toList = true) : Unbroken w := by
  intro c inside breaking
  obtain ⟨_, _, _, _, follows⟩ := identifierCons valid
  have ordinary := follows c inside
  simp only [List.mem_cons, List.not_mem_nil, or_false] at breaking
  rcases breaking with rfl | rfl | rfl <;> exact absurd ordinary (by decide)

theorem joinedUnbroken {a b : String} (first : Unbroken a) (second : Unbroken b) : Unbroken (a ++ "." ++ b) := by
  intro c inside breaking
  have among : c ∈ a.toList ∨ c = '.' ∨ c ∈ b.toList := by simpa [or_assoc] using inside
  rcases among with here | rfl | there
  · exact first c here breaking
  · revert breaking
    decide
  · exact second c there breaking

theorem dottedUnbroken {words : List String} (each : ∀ w ∈ words, Unbroken w) : Unbroken (dotted words) := by
  induction words with
  | nil => exact fun _ inside => absurd inside List.not_mem_nil
  | cons w words ih =>
    cases words with
    | nil => simpa [dotted] using each
    | cons v words =>
      rw [dotted, String.intercalate_cons_cons]
      exact joinedUnbroken (each w List.mem_cons_self) (ih fun u later => each u (List.mem_cons_of_mem _ later))

/- Only the name of a module can bring a character into the names of a program that breaks a line. -/
theorem programUnbroken [CharacterNames] {s : Settings} {sources : List ModuleSource} {p : Program}
    (added : sources.foldlM Program.addSource (Program.ofSettings s) = .ok p) {g : Graph} (done : p.build.2 = .ok g)
    (modules : ∀ source ∈ sources, Unbroken source.name) : ∀ n ∈ shownNames g, Unbroken n := by
  obtain ⟨sites, surveyed⟩ := Program.addedSurveyed added
  obtain ⟨bs, entries, builds⟩ := Program.buildBuilds done
  obtain ⟨ms, rfl, each⟩ := Program.addedModules added
  have homes : ∀ m ∈ (ms.foldl Program.extend (Program.ofSettings s)).modules, Unbroken m.name := by
    intro m here
    rw [(Program.extendAll ms _).2] at here
    obtain ⟨source, given, name, _⟩ := relatedRight each m (by simpa [Program.ofSettings] using here)
    exact name ▸ modules source given
  intro n shown
  obtain ⟨e, listed, shown⟩ := List.mem_flatMap.1 shown
  rcases List.mem_cons.1 shown with rfl | member
  · have declared : e.symbol ∈ (ms.foldl Program.extend (Program.ofSettings s)).decls.map (·.symbol) :=
      (Program.buildsDecls builds).1 ▸ List.mem_map_of_mem listed
    obtain ⟨d, declared, same⟩ := List.mem_map.1 declared
    obtain ⟨_, m, home, name⟩ := surveyed.named d declared
    obtain ⟨x, member, rfl⟩ := List.mem_map.1 (surveyed.decls.symm ▸ declared)
    have scope : ∀ w ∈ x.2.scope, Unbroken w := by
      intro w inside
      rw [(surveyed.sited.each x member).scope, List.nil_append] at inside
      obtain ⟨a, _, here⟩ := List.mem_filterMap.1 inside
      obtain ⟨t, _, called⟩ := Option.bind_eq_some_iff.1 here
      cases t with
      | classDef id => exact Option.some.inj called ▸ identifierUnbroken id.plain.1
      | _ => cases called
    rw [← same, name]
    exact joinedUnbroken (homes m (List.mem_of_getElem? home)) (dottedUnbroken scope)
  · obtain ⟨m, inside, rfl⟩ := List.mem_map.1 member
    obtain ⟨id, name⟩ := (Program.buildAttributed done e listed).named m inside
    exact name ▸ identifierUnbroken id.plain.1

end Mermaid

theorem Document.graphApart [CharacterNames] {doc : Document} (valid : doc.Valid) {g : Graph} (done : doc.toGraph = .ok g) : g.Apart := by
  obtain ⟨entries, owners, made, _, _, built⟩ := toGraphIff.1 done
  have source := Graph.buildSource built
  have entered : ∀ e ∈ g.entries, ∃ c ∈ doc.classes, e.members = c.members.zipIdx.map (memberOf e.symbol) := by
    intro e listed
    rw [source.entries] at listed
    obtain ⟨c, here, made⟩ := relatedRight (mapMEach made) e listed
    obtain ⟨_, cls, _, rfl⟩ := (entryIff c e).1 made
    exact ⟨c, here, rfl⟩
  refine Graph.apartInside source.names source.kinds (fun e listed => ?_) (fun e listed m inside => ?_) (fun e listed m inside => ?_)
  · obtain ⟨c, _, members⟩ := entered e listed
    have serials : e.members.map (·.serial) = List.range' 0 c.members.length := by
      rw [members, List.map_map, ← List.zipIdx_map_snd 0 c.members]
      rfl
    have numbered : (e.members.map (·.serial)).Nodup := serials ▸ List.nodup_range'
    exact numbered.of_map
  · obtain ⟨c, _, members⟩ := entered e listed
    rw [members] at inside
    obtain ⟨n, _, rfl⟩ := List.mem_map.1 inside
    rfl
  · obtain ⟨c, here, members⟩ := entered e listed
    rw [members] at inside
    obtain ⟨n, among, rfl⟩ := List.mem_map.1 inside
    have spec : n.1 ∈ c.members := List.fst_mem_of_mem_zipIdx among
    exact ((valid.classes c here).members n.1 spec).kind

namespace Mermaid

/-! Drawings of graphs whose members are told apart. -/

variable {g : Graph}

theorem drawnOnce (names : (g.entries.map (·.symbol.qualifiedName)).Nodup) (apart : g.Apart) : (drawn g).Nodup := by
  have symbols : (g.entries.map (·.symbol)).Nodup := by
    have called : g.entries.map (·.symbol.qualifiedName) = (g.entries.map (·.symbol)).map (·.qualifiedName) := by
      rw [List.map_map]
      rfl
    exact (called ▸ names).of_map
  have states : (g.entries.flatMap fun e => e.members.filter (·.mutable)).Nodup := by
    rw [← List.filter_flatMap]
    exact apart.members.filter _
  have order := List.flatMap_append_perm g.entries (fun e => [e.symbol]) (fun e => e.members.filter (·.mutable))
  refine order.nodup_iff.1 (List.nodup_append.2 ⟨?_, states, fun s known t inside same => ?_⟩)
  · rwa [← List.map_eq_flatMap]
  · rw [← List.map_eq_flatMap] at known
    obtain ⟨e, listed, here⟩ := List.mem_flatMap.1 inside
    exact apart.classes e listed t (List.mem_filter.1 here).1 (same ▸ known)

theorem plainLine {line : String} (plain : '\n' ∉ line.toList) : textLines line = [line] := by
  rw [textLines, piecesWord plain]
  simp

theorem joinedLines {lines : List String} (filled : lines ≠ []) :
    textLines ("\n".intercalate lines ++ "\n") = lines.flatMap textLines ++ [""] := by
  have append (a b : String) : textLines (a ++ "\n" ++ b) = textLines a ++ textLines b := by
    simp [textLines, piecesAppend]
  induction lines with
  | nil => exact absurd rfl filled
  | cons line lines ih =>
    cases lines with
    | nil =>
      rw [String.intercalate_singleton, ← String.append_empty (s := line ++ "\n"), append, List.flatMap_singleton]
      rfl
    | cons next lines =>
      rw [String.intercalate_cons_cons, String.append_assoc, append, ih (by simp)]
      exact (List.append_assoc ..).symm

theorem headerRead : ∀ line ∈ header, textLines line = [line] ∧ opensWithId line = false := by decide +kernel

theorem linesJoined (d : Mermaid) : textLines d.text = header ++ (d.nodes ++ d.edges).flatMap textLines ++ [""] := by
  have front : header.flatMap textLines = header := by
    rw [List.flatMap_congr fun line listed => (headerRead line listed).1, List.flatMap_singleton']
  rw [text, joinedLines (by simp [header]), List.append_assoc, List.flatMap_append, front]

/- No line of the header is taken for a node or an edge. -/
theorem framedIds {text : String} {lines : List String} (shape : textLines text = header ++ lines ++ [""]) :
    declaredIds text = (lines.filter isNode).map firstId ∧ joinedIds text = (lines.filter isEdge).map ends := by
  have silent : ∀ line ∈ header, ¬ isNode line = true ∧ ¬ isEdge line = true := by
    intro line listed
    simp [isNode, isEdge, (headerRead line listed).2]
  have blank : [""].filter isNode = [] ∧ [""].filter isEdge = [] := by decide +kernel
  rw [declaredIds, joinedIds, shape, List.filter_append, List.filter_append, List.filter_append, List.filter_append, blank.1, blank.2,
    List.filter_eq_nil_iff.2 fun line listed => (silent line listed).1,
    List.filter_eq_nil_iff.2 fun line listed => (silent line listed).2]
  simp

theorem idsJoined (d : Mermaid) : declaredIds d.text = (d.nodes ++ d.edges).flatMap declaredIds ∧
    joinedIds d.text = (d.nodes ++ d.edges).flatMap joinedIds := by
  obtain ⟨declared, joined⟩ := framedIds (linesJoined d)
  rw [declared, joined, List.filter_flatMap, List.filter_flatMap, List.map_flatMap, List.map_flatMap]
  exact ⟨rfl, rfl⟩

theorem labelsPlain {k : Mark} (made : k ∈ marks g) (plain : ∀ n ∈ shownNames g, Unbroken n) : '\n' ∉ k.label.toList := by
  obtain ⟨e, listed, marked⟩ := memMarks.1 made
  have own : '\n' ∉ e.symbol.qualifiedName.toList := unbrokenFree (plain _ (classShown listed)) (by decide)
  have named : ∀ m ∈ e.members, '\n' ∉ m.name.toList := fun m inside => unbrokenFree (plain _ (memberShown listed inside)) (by decide)
  cases marked with
  | own =>
    simp only [Mark.label, classRest]
    split <;> simp [own]
  | state inside isMutable => simp [Mark.label, stateRest, named _ inside]
  | holds inside isMutable => simp [Mark.label]
  | target inside fixed denoted => simp [Mark.label, named _ inside]
  | parent derives => simp [Mark.label]

theorem marksPlain (plain : ∀ n ∈ shownNames g, Unbroken n) (numbered : List Symbol) (line : String)
    (drawn : line ∈ (marks g).filterMap (Mark.nodeLine? (idIn numbered)) ++ (marks g).filterMap (Mark.edgeLine? (idIn numbered))) :
    '\n' ∉ line.toList := by
  have ids (s : Symbol) : '\n' ∉ (idIn numbered s).toList := fun inside => absurd (idPlain numbered s _ inside) (by decide)
  rw [List.mem_append, List.mem_filterMap, List.mem_filterMap, ← exists_or] at drawn
  obtain ⟨k, given⟩ := drawn
  rw [← and_or_left] at given
  have label := labelsPlain given.1 plain
  cases k with
  | node s rest =>
    obtain rfl : "  " ++ idIn numbered s ++ rest = line := by simpa [Mark.nodeLine?, Mark.edgeLine?] using given.2
    simpa [ids, Mark.label] using label
  | edge source arrow target =>
    obtain rfl : "  " ++ idIn numbered source ++ " " ++ arrow ++ " " ++ idIn numbered target = line := by
      simpa [Mark.nodeLine?, Mark.edgeLine?] using given.2
    simpa [ids, Mark.label] using label

/- All numbers that a drawing gives out. -/
def numbers (g : Graph) : List Symbol := ((marks g).flatMap (·.symbols)).foldl number []

theorem ofGraphMarks (g : Graph) : ofGraph g = putAll {} (numbers g) (marks g) := drawMarks g []

theorem drawnNumbered {s : Symbol} (here : s ∈ drawn g) : s ∈ numbers g := by
  obtain ⟨e, listed, shape⟩ := List.mem_flatMap.1 here
  have marked : ∃ rest, .node s rest ∈ marks g := by
    rcases List.mem_cons.1 shape with rfl | state
    · exact ⟨_, memMarks.2 ⟨e, listed, .own⟩⟩
    · obtain ⟨inside, isMutable⟩ := List.mem_filter.1 state
      exact ⟨_, memMarks.2 ⟨e, listed, .state inside isMutable⟩⟩
  obtain ⟨rest, marked⟩ := marked
  exact (numberAllMember [] _ s).2 (.inr (List.mem_flatMap.2 ⟨_, marked, List.mem_singleton_self s⟩))

theorem stepMarked {sc : Scanner} {c e : Symbol} (step : sc.Step c e) : ∃ arrow, .edge c arrow e ∈ marks sc.graph := by
  cases step with
  | member m declared counts immutable kind target =>
    obtain ⟨entry, listed, rfl, inside⟩ := Graph.memberEntry declared
    exact ⟨_, memMarks.2 ⟨entry, listed, .target inside immutable target⟩⟩
  | parent derives =>
    obtain ⟨entry, found, _⟩ := Graph.memParentClasses.1 derives
    obtain ⟨listed, rfl⟩ := Graph.entryKnown found
    exact ⟨_, memMarks.2 ⟨entry, listed, .parent derives⟩⟩

theorem exposedMarked {c m : Symbol} (declared : m ∈ g.members c) (isMutable : m.mutable = true) :
    .edge c "-->" m ∈ marks g := by
  obtain ⟨entry, listed, rfl, inside⟩ := Graph.memberEntry declared
  exact memMarks.2 ⟨entry, listed, .holds inside isMutable⟩

/- What is declared and joined shows a graph, under the ids of its nodes. -/
structure Shows (g : Graph) (id : Symbol → String) (declared : List String) (joined : List (String × String)) : Prop where
  all : declared = (drawn g).map id
  once : declared.Nodup
  known : ∀ pair ∈ joined, pair.1 ∈ declared ∧ pair.2 ∈ declared
  steps : ∀ sc : Scanner, sc.graph = g → ∀ c e, sc.Step c e → (id c, id e) ∈ joined
  flagged : ∀ sc : Scanner, sc.graph = g → ∀ roots, ∀ v ∈ (sc.walkAll roots).ledger.entries,
    v.symbol ∈ g.members v.owner ∧ (id v.owner, id v.symbol) ∈ joined

theorem ofGraphNodes (g : Graph) : (ofGraph g).nodes = nodeLines g (idIn (numbers g)) := by
  rw [ofGraphMarks, ← markedNodes]
  exact List.nil_append _

theorem ofGraphEdges (g : Graph) : (ofGraph g).edges = (marks g).filterMap (Mark.edgeLine? (idIn (numbers g))) := by
  rw [ofGraphMarks]
  exact List.nil_append _

theorem graphShown (names : (g.entries.map (·.symbol.qualifiedName)).Nodup) (apart : g.Apart) :
    Shows g (idIn (numbers g)) ((ofGraph g).nodes.map firstId) ((ofGraph g).edges.map ends) := by
  have all : (ofGraph g).nodes.map firstId = (drawn g).map (idIn (numbers g)) := by
    rw [ofGraphNodes]
    exact (nodesRead g (numbers g)).1
  have leads {source target : Symbol} {arrow : String} (marked : .edge source arrow target ∈ marks g) :
      (idIn (numbers g) source, idIn (numbers g) target) ∈ (ofGraph g).edges.map ends := by
    obtain ⟨label, shape, _⟩ := arrowShape marked
    rw [ofGraphEdges, ← (edgeRead (numbers g) source target shape).1]
    exact List.mem_map_of_mem (memEdges.2 ⟨source, arrow, target, marked, rfl⟩)
  refine ⟨all, ?_, fun pair joined => ?_, ?_, ?_⟩
  · rw [all]
    exact (drawnOnce names apart).map_on fun s here t _ same => idInjective (drawnNumbered here) same
  · rw [ofGraphEdges] at joined
    obtain ⟨line, drawn, rfl⟩ := List.mem_map.1 joined
    obtain ⟨source, arrow, target, marked, rfl⟩ := memEdges.1 drawn
    obtain ⟨label, shape, _⟩ := arrowShape marked
    have both := mentionedDrawn marked
    rw [all, (edgeRead (numbers g) source target shape).1]
    exact ⟨List.mem_map_of_mem (both source (by simp [Mark.symbols])), List.mem_map_of_mem (both target (by simp [Mark.symbols]))⟩
  · intro sc same c e step
    subst same
    obtain ⟨arrow, marked⟩ := stepMarked step
    exact leads marked
  · intro sc same roots v listed
    subst same
    have moves : sc.Moves roots {} (sc.walkAll roots) := Scanner.walksMove roots (fun _ h => h) {}
    have owned := (Scanner.movesOwned moves v listed).2
    obtain ⟨c, _, exposed⟩ := (Scanner.movesSound moves Scanner.soundStart).exposed v.symbol (List.mem_map_of_mem listed)
    exact ⟨owned, leads (exposedMarked owned exposed.isMutable)⟩

/- Behind the header there are only nodes and edges, one on each line. -/
def WellFormed (text : String) : Prop :=
  ∃ lines, textLines text = header ++ lines ++ [""] ∧ ∀ line ∈ lines, isNode line = true ∨ isEdge line = true

theorem linesRead (plain : ∀ n ∈ shownNames g, Unbroken n) :
    (∀ line ∈ (ofGraph g).nodes ++ (ofGraph g).edges, textLines line = [line]) ∧
    (∀ line ∈ (ofGraph g).nodes, isNode line = true ∧ isEdge line = false) ∧
    ∀ line ∈ (ofGraph g).edges, isNode line = false ∧ isEdge line = true := by
  refine ⟨fun line listed => ?_, fun line listed => ?_, fun line listed => ?_⟩
  · rw [ofGraphNodes, ofGraphEdges, ← markedNodes] at listed
    exact plainLine (marksPlain plain (numbers g) line listed)
  · obtain ⟨edge, node⟩ := (nodesRead g (numbers g)).2 line (ofGraphNodes g ▸ listed)
    exact ⟨node plain, edge⟩
  · obtain ⟨source, arrow, target, marked, rfl⟩ := memEdges.1 (ofGraphEdges g ▸ listed)
    obtain ⟨label, shape, free⟩ := arrowShape marked
    obtain ⟨_, node, edge⟩ := edgeRead (numbers g) source target shape
    exact ⟨node, edge (free plain)⟩

theorem textRead (plain : ∀ n ∈ shownNames g, Unbroken n) :
    WellFormed (ofGraph g).text ∧ declaredIds (ofGraph g).text = (ofGraph g).nodes.map firstId ∧
      joinedIds (ofGraph g).text = (ofGraph g).edges.map ends := by
  obtain ⟨single, nodes, edges⟩ := linesRead plain
  have shape := linesJoined (ofGraph g)
  rw [List.flatMap_congr single, List.flatMap_singleton'] at shape
  obtain ⟨declared, joined⟩ := framedIds shape
  refine ⟨⟨_, shape, fun line listed => ?_⟩, ?_, ?_⟩
  · rcases List.mem_append.1 listed with node | edge
    · exact .inl (nodes line node).1
    · exact .inr (edges line edge).2
  · rw [declared, List.filter_append, List.filter_eq_self.2 fun line node => (nodes line node).1,
      List.filter_eq_nil_iff.2 fun line edge => by simp [edges line edge], List.append_nil]
  · rw [joined, List.filter_append, List.filter_eq_self.2 fun line edge => (edges line edge).2,
      List.filter_eq_nil_iff.2 fun line node => by simp [nodes line node], List.nil_append]

/- The first drawing has numbered all that a second one mentions. -/
theorem drawnAgain (g : Graph) : draw g (ofGraph g).numbered = ofGraph g := by
  have same : ((marks g).flatMap (·.symbols)).foldl number (numbers g) = numbers g :=
    numberAllKnown fun s mentioned => (numberAllMember [] _ s).2 (.inr mentioned)
  rw [ofGraphMarks, drawMarks]
  exact congrArg (putAll { numbered := numbers g } · (marks g)) same

/- Graphs of programs and of documents have their members apart. The lines of every graph that has show it, and come out the same when
it is drawn again. Names are written as they are, so the text says the same only if no name breaks a line or ends early; in a
program these are the names of modules. -/
theorem diagramFaithful [CharacterNames] (g : Graph) :
    (∀ p : Program, p.build.2 = .ok g → g.Apart) ∧
    (∀ doc : Document, doc.Valid → doc.toGraph = .ok g → g.Apart) ∧
    (∀ (s : Settings) (sources : List ModuleSource) (p : Program), sources.foldlM Program.addSource (Program.ofSettings s) = .ok p →
      p.build.2 = .ok g → (∀ source ∈ sources, Unbroken source.name) → ∀ n ∈ shownNames g, Unbroken n) ∧
    ∀ (classes : List ClassEntry) (aliases : List (String × TypeRef)) (owners : List Symbol),
      Graph.build classes aliases owners = .ok g → g.Apart →
        draw g (ofGraph g).numbered = ofGraph g ∧
        ∃ id, Shows g id ((ofGraph g).nodes.map firstId) ((ofGraph g).edges.map ends) ∧
          ((∀ n ∈ shownNames g, Unbroken n) →
            WellFormed (ofGraph g).text ∧ Shows g id (declaredIds (ofGraph g).text) (joinedIds (ofGraph g).text)) := by
  refine ⟨fun p done => Program.buildApart done, fun doc valid done => Document.graphApart valid done,
    fun s sources p added done modules => programUnbroken added done modules, ?_⟩
  intro classes aliases owners built apart
  have shown := graphShown (Graph.buildSource built).names apart
  refine ⟨drawnAgain g, _, shown, fun plain => ?_⟩
  obtain ⟨formed, declared, joined⟩ := textRead plain
  rw [declared, joined]
  exact ⟨formed, shown⟩

/- The second class is numbered by the edge that leads to it, before its node is drawn. -/
theorem mutualParentsShown :
    WellFormed (ofGraph Graph.mutualParents).text ∧
    ∃ id, Shows Graph.mutualParents id (declaredIds (ofGraph Graph.mutualParents).text)
      (joinedIds (ofGraph Graph.mutualParents).text) ∧
    (drawn Graph.mutualParents).map id = ["n0", "n1", "n3", "n4", "n2", "n5", "n6"] := by
  have built : Graph.build Graph.mutualParents.entries Graph.mutualParents.aliases Graph.mutualParents.staticOwners =
      .ok Graph.mutualParents := by decide +kernel
  have apart : Graph.mutualParents.Apart := ⟨by decide +kernel, by decide +kernel⟩
  have plain : ∀ n ∈ shownNames Graph.mutualParents, Unbroken n := by decide +kernel
  have ids : (ofGraph Graph.mutualParents).nodes.map firstId = ["n0", "n1", "n3", "n4", "n2", "n5", "n6"] := by decide +kernel
  obtain ⟨_, id, lines, text⟩ := (diagramFaithful Graph.mutualParents).2.2.2 _ _ _ built apart
  exact ⟨(text plain).1, id, (text plain).2, lines.all.symm.trans ids⟩

/- A class and a mutable member with line breaks in their names. -/
def brokenNames : Document where
  classes := [{
    name := "A\"]:::cls\n  n0[\"B"
    members := [{ name := "x\"]):::state\n  n0 --> n9\n  n0([\"y", mutable := true }] }]

/- The text declares one id three times, and an edge of it ends in no node. -/
theorem brokenNamesMislead : brokenNames.Valid ∧ ∃ g, brokenNames.toGraph = .ok g ∧ g.Apart ∧
    declaredIds (ofGraph g).text = ["n0", "n0", "n1", "n0"] ∧ joinedIds (ofGraph g).text = [("n0", "n9"), ("n0", "n1")] := by
  have valid : brokenNames.Valid := by decide +kernel
  have read : (brokenNames.toGraph.toOption.map fun g => (((ofGraph g).nodes ++ (ofGraph g).edges).flatMap declaredIds,
      ((ofGraph g).nodes ++ (ofGraph g).edges).flatMap joinedIds)) =
        some (["n0", "n0", "n1", "n0"], [("n0", "n9"), ("n0", "n1")]) := by decide +kernel
  cases made : brokenNames.toGraph with
  | error e =>
    rw [made] at read
    cases read
  | ok g =>
    simp only [made, Except.toOption, Option.map_some, Option.some.injEq, Prod.mk.injEq] at read
    rw [← (idsJoined _).1, ← (idsJoined _).2] at read
    exact ⟨valid, g, rfl, Document.graphApart valid made, read⟩

end Mermaid
end SharedState
