import SharedState.Source.Lexer
import SharedState.Proofs.TypeText

/-! The tokens of a written type. `Spelled` describes the texts in which only names, commas, dots, square brackets and the
two operators of types occur; the lexer splits such a text into exactly the tokens that it spells. -/
namespace SharedState.Source

open SharedState.Text

/-- What may follow a dot or an operator without becoming part of it. -/
def Apart (cs : List Char) : Prop := ∀ c ∈ cs.head?, c ≠ '=' ∧ c ≠ '.' ∧ isAsciiDigit c = false

def EndsName (cs : List Char) : Prop := ∀ c ∈ cs.head?, isNameFollow c = false

/-- Separators and operators of one character. -/
def marks : List Char := ['.', ',', '|', '&']

theorem markAll {p : Char → Bool} (all : marks.all p = true) {c : Char} (known : c ∈ marks) : p c = true :=
  List.all_eq_true.1 all c known

inductive Spelled : Nat → List Char → List TokenKind → Prop where
  | done : Spelled 0 [] []
  | blank {depth cs ks} : Spelled depth cs ks → Spelled depth (' ' :: cs) ks
  | word {depth cs ks} {w : String} : isIdentifier w.toList = true → EndsName cs → Spelled depth cs ks →
      Spelled depth (w.toList ++ cs) (.name w :: ks)
  | mark {depth cs ks} {c : Char} : c ∈ marks → Apart cs → Spelled depth cs ks →
      Spelled depth (c :: cs) (.op (String.singleton c) :: ks)
  | left {depth cs ks} : Spelled (depth + 1) cs ks → Spelled depth ('[' :: cs) (.op "[" :: ks)
  | right {depth cs ks} : Spelled depth cs ks → Spelled (depth + 1) (']' :: cs) (.op "]" :: ks)

theorem idStartName {c : Char} (start : isIdStart c = true) : isNameStart c = true := by
  unfold isIdStart at start
  unfold isNameStart
  split at start
  · simp only [Bool.or_eq_true] at start ⊢
    exact .inl start
  · rename_i beyond
    simp only [Bool.or_eq_true, decide_eq_true_eq]
    exact .inr (by omega)

theorem idFollowName {c : Char} (follow : isIdFollow c = true) : isNameFollow c = true := by
  unfold isIdFollow at follow
  unfold isNameFollow isNameStart
  split at follow
  · simp only [Bool.or_eq_true] at follow ⊢
    rcases follow with (letter | digit) | line
    · exact .inl (.inl (.inl letter))
    · exact .inr digit
    · exact .inl (.inl (.inr line))
  · rename_i beyond
    simp only [Bool.or_eq_true, decide_eq_true_eq]
    exact .inl (.inr (by omega))

theorem identifierCons {w : List Char} (valid : isIdentifier w = true) :
    ∃ c rest, w = c :: rest ∧ isNameStart c = true ∧ ∀ d ∈ w, isNameFollow d = true := by
  cases w with
  | nil => cases valid
  | cons c rest =>
    simp only [isIdentifier, Bool.and_eq_true, List.all_eq_true] at valid
    refine ⟨c, rest, rfl, idStartName valid.1, ?_⟩
    intro d member
    rcases List.mem_cons.1 member with rfl | later
    · rw [isNameFollow, idStartName valid.1]; rfl
    · exact idFollowName (valid.2 d later)

theorem startVisible {c : Char} (start : isNameStart c = true) : isInlineBlank c = false := by
  unfold isInlineBlank
  have space : c ≠ ' ' := by rintro rfl; revert start; decide
  have tab : c ≠ '\t' := by rintro rfl; revert start; decide
  have feed : c ≠ '\x0c' := by rintro rfl; revert start; decide
  simp [space, tab, feed]

theorem startNoDigit {c : Char} (start : isNameStart c = true) : isAsciiDigit c = false := by
  rw [Bool.eq_false_iff]
  intro digit
  simp only [isNameStart, isAsciiLetter, isAsciiDigit, Bool.or_eq_true, Bool.and_eq_true, decide_eq_true_eq, beq_iff_eq,
    Char.le_def, UInt32.le_iff_toNat_le] at start digit
  have value : c.toNat = c.val.toNat := rfl
  rcases start with (letter | rfl) | beyond
  · simp only [Char.reduceVal, UInt32.reduceToNat] at letter digit
    omega
  · revert digit; decide
  · simp only [Char.reduceVal, UInt32.reduceToNat] at digit
    omega

theorem takeWord {w cs : List Char} (follows : ∀ d ∈ w, isNameFollow d = true) (ends : EndsName cs) :
    (w ++ cs).takeWhile isNameFollow = w ∧ (w ++ cs).dropWhile isNameFollow = cs := by
  have stop : cs.takeWhile isNameFollow = [] ∧ cs.dropWhile isNameFollow = cs := by
    cases cs with
    | nil => simp
    | cons c cs => simp [ends c rfl]
  rw [List.takeWhile_append_of_pos follows, List.dropWhile_append_of_pos follows, stop.1, stop.2]
  simp

/-! No character of a spelled text is one that the lexer treats in a way of its own. -/

def isPlain (c : Char) : Bool := isNameFollow c || [' ', '.', ',', '|', '&', '[', ']'].contains c

theorem spelledPlain {depth : Nat} {cs : List Char} {ks : List TokenKind} (spelled : Spelled depth cs ks) :
    ∀ c ∈ cs, isPlain c = true := by
  induction spelled with
  | done => simp
  | blank _ ih => simpa using ⟨by decide, ih⟩
  | @word _ _ _ w valid _ _ ih =>
    obtain ⟨_, _, _, _, follows⟩ := identifierCons valid
    intro c member
    rcases List.mem_append.1 member with inside | later
    · rw [isPlain, follows c inside]; rfl
    · exact ih c later
  | @mark _ _ _ c known _ _ ih =>
    simpa using ⟨markAll (by decide) known, ih⟩
  | left _ ih => simpa using ⟨by decide, ih⟩
  | right _ ih => simpa using ⟨by decide, ih⟩

theorem plainNot {c d : Char} (plain : isPlain c = true) (other : isPlain d = false) : c ≠ d := by
  rintro rfl
  rw [plain] at other
  cases other

theorem noLiteral {cs : List Char} (plain : ∀ c ∈ cs, isPlain c = true) : literalStart? cs = none := by
  have noQuote : ∀ c ∈ cs, isQuote c = false := by
    intro c member
    have double := plainNot (plain c member) (d := '"') (by decide)
    have single := plainNot (plain c member) (d := '\'') (by decide)
    simp [isQuote, double, single]
  have noStyle : ∀ letters rest, (∀ c ∈ rest, isQuote c = false) → styleAfter? letters rest = none := by
    intro letters rest free
    cases rest with
    | nil => rfl
    | cons q rest => simp [styleAfter?, free q (by simp)]
  have first := noStyle [] cs noQuote
  unfold literalStart?
  rw [first]
  cases cs with
  | nil => rfl
  | cons a cs =>
    have second := noStyle [a] cs fun c member => noQuote c (by simp [member])
    simp only [second]
    cases cs with
    | nil => rfl
    | cons b cs => exact noStyle [a, b] cs fun c member => noQuote c (by simp [member])

/-- Only square brackets are open, so many of them. -/
def Brackets (depth : Nat) (s : Lexing) : Prop := s.openers = List.replicate depth (.bracket ']')

theorem noString {depth : Nat} {s : Lexing} (brackets : Brackets depth s) (style : QuoteStyle) (b : Bool)
    (tail : List Opener) : s.openers ≠ .formatted style :: tail ∧ s.openers ≠ .field style b :: tail := by
  rw [brackets]
  cases depth <;> simp [List.replicate_succ]

/-! One step of the lexer inside a line, where only brackets are open. -/

theorem lexStep {depth : Nat} {s : Lexing} (brackets : Brackets depth s) (n : Nat) {c : Char} {cs : List Char}
    (plain : isPlain c = true) :
    lex (n + 1) false s (c :: cs) =
      if isInlineBlank c then lex n false (s.skip [c]) cs
      else match lexToken s (c :: cs) with
        | none => none
        | some (s, rest) => lex n false s rest := by
  have line := plainNot plain (d := '\n') (by decide)
  have slash := plainNot plain (d := '\\') (by decide)
  have hash := plainNot plain (d := '#') (by decide)
  conv_lhs => unfold lex
  split
  · rename_i opened; exact absurd opened (noString brackets _ true _).1
  · rename_i opened; exact absurd opened (noString brackets _ true _).2
  · exact absurd ‹c :: cs = []› (List.cons_ne_nil c cs)
  · exact absurd ‹c :: cs = []› (List.cons_ne_nil c cs)
  · exact absurd (List.cons.inj ‹c :: cs = '\n' :: _›).1 line
  · exact absurd (List.cons.inj ‹c :: cs = '\n' :: _›).1 line
  · exact absurd (List.cons.inj ‹c :: cs = '\\' :: _›).1 slash
  · exact absurd (List.cons.inj ‹c :: cs = '#' :: _›).1 hash
  · obtain ⟨rfl, rfl⟩ := List.cons.inj ‹c :: cs = _ :: _›
    rfl

theorem lexWord {w : String} (valid : isIdentifier w.toList = true) (s : Lexing) {cs : List Char} (ends : EndsName cs)
    (plain : ∀ c ∈ w.toList ++ cs, isPlain c = true) :
    lexToken s (w.toList ++ cs) = some (s.take (.name w) w.toList, cs) := by
  obtain ⟨c, rest, shape, start, follows⟩ := identifierCons valid
  have noString := noLiteral plain
  have taken := takeWord follows ends
  have named : lexName s (w.toList ++ cs) = some (s.take (.name w) w.toList, cs) := by
    simp only [lexName, taken.1, taken.2, valid, if_true, String.ofList_toList]
  rw [shape] at noString named ⊢
  simp only [List.cons_append] at noString named ⊢
  simp only [lexToken, start, Bool.true_or, if_true, noString]
  exact named

/-! Longer operators that start alike are ruled out by what follows. -/

theorem operatorMark {c : Char} (known : c ∈ marks) {cs : List Char} (apart : Apart cs) :
    operatorAt (c :: cs) operators = some (String.singleton c, cs) := by
  have equals : ∀ rest, cs ≠ '=' :: rest := by
    rintro rest rfl
    exact (apart '=' rfl).1 rfl
  have dots : ∀ rest, cs ≠ '.' :: rest := by
    rintro rest rfl
    exact (apart '.' rfl).2.1 rfl
  simp only [marks, List.mem_cons, List.not_mem_nil, or_false] at known
  cases cs with
  | nil => rcases known with rfl | rfl | rfl | rfl <;> rfl
  | cons d cs =>
    have noEquals : ¬ '=' = d := fun same => equals cs (by rw [same])
    have noDot : ¬ '.' = d := fun same => dots cs (by rw [same])
    rcases known with rfl | rfl | rfl | rfl <;> simp [operatorAt, operators, noEquals, noDot]

theorem lexMark {depth : Nat} {s : Lexing} (brackets : Brackets depth s) {c : Char} (known : c ∈ marks)
    {cs : List Char} (apart : Apart cs) :
    lexToken s (c :: cs) = some (s.take (.op (String.singleton c)) [c], cs) := by
  have found := operatorMark known apart
  have operator : lexOperator s (c :: cs) = some (s.take (.op (String.singleton c)) [c], cs) := by
    unfold lexOperator
    split
    · rename_i opened _; exact absurd opened (noString brackets _ false _).2
    · rename_i opened _; exact absurd opened (noString brackets _ false _).2
    · rename_i opened _; exact absurd opened (noString brackets _ false _).2
    · rw [found]
      simp only [marks, List.mem_cons, List.not_mem_nil, or_false] at known
      rcases known with rfl | rfl | rfl | rfl <;> rfl
  have number : (cs.head?.map isAsciiDigit).getD false = false := by
    cases cs with
    | nil => rfl
    | cons d cs => exact (apart d rfl).2.2
  have notName : isNameStart c = false ∧ isQuote c = false ∧ isAsciiDigit c = false := by
    simpa using markAll (p := fun c => !isNameStart c && (!isQuote c && !isAsciiDigit c)) (by decide) known
  simp only [lexToken, notName, number, Bool.and_false, Bool.or_false, Bool.false_eq_true, if_false]
  exact operator

theorem lexLeft {depth : Nat} {s : Lexing} (brackets : Brackets depth s) (cs : List Char) :
    lexToken s ('[' :: cs) = some ((s.take (.op "[") ['[']).push (.bracket ']'), cs) := by
  have found : operatorAt ('[' :: cs) operators = some ("[", cs) := by simp [operatorAt, operators]
  have plain : lexToken s ('[' :: cs) = lexOperator s ('[' :: cs) := rfl
  rw [plain]
  unfold lexOperator
  split
  · rename_i opened _; exact absurd opened (noString brackets _ false _).2
  · rename_i opened _; exact absurd opened (noString brackets _ false _).2
  · rename_i opened _; exact absurd opened (noString brackets _ false _).2
  · rw [found]; rfl

theorem lexRight {depth : Nat} {s : Lexing} (brackets : Brackets (depth + 1) s) (cs : List Char) :
    lexToken s (']' :: cs) = some ((s.take (.op "]") [']']).pop, cs) := by
  have found : operatorAt (']' :: cs) operators = some ("]", cs) := by simp [operatorAt, operators]
  have closed : close (s.take (.op "]") [']']) ']' = some (s.take (.op "]") [']']).pop := by
    have opened : (s.take (.op "]") [']']).openers = .bracket ']' :: List.replicate depth (.bracket ']') := brackets
    simp [close, opened]
  have plain : lexToken s (']' :: cs) = lexOperator s (']' :: cs) := rfl
  rw [plain]
  unfold lexOperator
  split
  · rename_i opened _; exact absurd opened (noString brackets _ false _).2
  · rename_i opened _; exact absurd opened (noString brackets _ false _).2
  · rename_i opened _; exact absurd opened (noString brackets _ false _).2
  · rw [found]
    simp only [Option.bind_eq_bind, Option.bind_some]
    have mark : "]".toList = [']'] := rfl
    rw [mark, closed]
    rfl

def Lexing.kinds (s : Lexing) : List TokenKind := (s.tokens.map (·.kind)).reverse

theorem takeKinds (s : Lexing) (kind : TokenKind) (text : List Char) : (s.take kind text).kinds = s.kinds ++ [kind] := by
  simp [Lexing.kinds, Lexing.take, Lexing.emit]

theorem lexSpelled {depth : Nat} {cs : List Char} {ks : List TokenKind} (spelled : Spelled depth cs ks) (s : Lexing)
    (brackets : Brackets depth s) (n : Nat) (enough : cs.length < n) :
    ∃ r, lex n false s cs = some r ∧ r.indentations = s.indentations ∧ r.kinds = s.kinds ++ ks ++ [.newline] := by
  induction spelled generalizing s n with
  | done =>
    obtain ⟨n, rfl⟩ : ∃ m, n = m + 1 := ⟨n - 1, by simp at enough; omega⟩
    have opened : s.openers = [] := brackets
    refine ⟨s.emit .newline, ?_, rfl, by simp [Lexing.kinds, Lexing.emit]⟩
    unfold lex
    simp [opened]
  | @blank depth cs ks rest ih =>
    obtain ⟨n, rfl⟩ : ∃ m, n = m + 1 := ⟨n - 1, by simp at enough; omega⟩
    obtain ⟨r, lexed, same, kinds⟩ := ih (s.skip [' ']) brackets n (by simpa using enough)
    refine ⟨r, ?_, same, kinds⟩
    rw [lexStep brackets n (by decide), if_pos (by decide), lexed]
  | @word depth cs ks w valid ends rest ih =>
    have plain := spelledPlain (.word valid ends rest)
    have token := lexWord valid s ends plain
    obtain ⟨c, more, shape, start, follows⟩ := identifierCons valid
    obtain ⟨n, rfl⟩ : ∃ m, n = m + 1 := ⟨n - 1, by simp at enough; omega⟩
    have visible := startVisible start
    have size : cs.length < n := by rw [shape] at enough; simp at enough; omega
    obtain ⟨r, lexed, same, kinds⟩ := ih (s.take (.name w) w.toList) brackets n size
    refine ⟨r, ?_, same, by rw [kinds, takeKinds]; simp⟩
    rw [shape] at token plain ⊢
    rw [List.cons_append] at token plain ⊢
    rw [lexStep brackets n (plain c (by simp)), visible, if_neg (by simp), token]
    rw [shape] at lexed
    exact lexed
  | @mark depth cs ks c known apart rest ih =>
    obtain ⟨n, rfl⟩ : ∃ m, n = m + 1 := ⟨n - 1, by simp at enough; omega⟩
    obtain ⟨r, lexed, same, kinds⟩ := ih (s.take (.op (String.singleton c)) [c]) brackets n (by simpa using enough)
    have visible : isInlineBlank c = false := by
      simpa using markAll (p := fun c => !isInlineBlank c) (by decide) known
    have plain := spelledPlain (.mark known apart rest) c (by simp)
    refine ⟨r, ?_, same, by rw [kinds, takeKinds]; simp⟩
    rw [lexStep brackets n plain, visible, if_neg (by simp), lexMark brackets known apart]
    exact lexed
  | @left depth cs ks rest ih =>
    obtain ⟨n, rfl⟩ : ∃ m, n = m + 1 := ⟨n - 1, by simp at enough; omega⟩
    have opened : Brackets (depth + 1) ((s.take (.op "[") ['[']).push (.bracket ']')) := by
      exact congrArg (Opener.bracket ']' :: ·) brackets
    obtain ⟨r, lexed, same, kinds⟩ := ih _ opened n (by simpa using enough)
    refine ⟨r, ?_, same, ?_⟩
    · rw [lexStep brackets n (by decide), if_neg (by decide), lexLeft brackets]
      exact lexed
    · have pushed : ((s.take (.op "[") ['[']).push (.bracket ']')).kinds = (s.take (.op "[") ['[']).kinds := rfl
      rw [kinds, pushed, takeKinds]; simp
  | @right depth cs ks rest ih =>
    obtain ⟨n, rfl⟩ : ∃ m, n = m + 1 := ⟨n - 1, by simp at enough; omega⟩
    have closed : Brackets depth (s.take (.op "]") [']']).pop := by
      exact congrArg List.tail brackets
    obtain ⟨r, lexed, same, kinds⟩ := ih _ closed n (by simpa using enough)
    refine ⟨r, ?_, same, ?_⟩
    · rw [lexStep brackets n (by decide), if_neg (by decide), lexRight brackets]
      exact lexed
    · have popped : (s.take (.op "]") [']']).pop.kinds = (s.take (.op "]") [']']).kinds := rfl
      rw [kinds, popped, takeKinds]; simp

theorem unixPlain {cs : List Char} (plain : ∀ c ∈ cs, isPlain c = true) : unixLines cs = cs := by
  induction cs with
  | nil => rfl
  | cons c cs ih =>
    have noReturn := plainNot (plain c (by simp)) (d := '\r') (by decide)
    rw [unixLines]
    · rw [ih fun d member => plain d (by simp [member])]
    · rintro rest rfl; exact absurd rfl noReturn
    · rintro rfl; exact absurd rfl noReturn

theorem tokensSpelled {c : Char} {cs : List Char} {ks : List TokenKind} (start : isNameStart c = true)
    (spelled : Spelled 0 (c :: cs) ks) :
    ∃ ts, tokens? (String.ofList (c :: cs)) = some ts ∧ ts.map (·.kind) = ks ++ [.newline, .finish] := by
  have plain := spelledPlain spelled
  have visible := startVisible start
  have line := plainNot (plain c (by simp)) (d := '\n') (by decide)
  have hash := plainNot (plain c (by simp)) (d := '#') (by decide)
  have slash := plainNot (plain c (by simp)) (d := '\\') (by decide)
  have noNull : (c :: cs).contains '\x00' = false := by
    simp only [List.contains_eq_any_beq, List.any_eq_false, beq_iff_eq]
    intro d member null
    exact plainNot (plain d member) (d := '\x00') (by decide) null.symm
  -- The first line has no indentation, so the statement starts at once.
  obtain ⟨s, started, opened, indented, none⟩ : ∃ s : Lexing, startStatement [] {} (c :: cs) = some (s, c :: cs) ∧
      Brackets 0 s ∧ s.indentations = [] ∧ s.kinds = [] := by
    have bare : leadingBlank (c :: cs) = ([], c :: cs) := by
      rw [leadingBlank]
      · rw [visible]; rfl
      · rintro rest rfl; exact absurd rfl slash
    refine ⟨{ place := ({} : Place).atOrigin 0 }, ?_, rfl, rfl, rfl⟩
    simp only [startStatement, bare]
    rfl
  obtain ⟨r, lexed, same, kinds⟩ := lexSpelled spelled s opened (2 * (c :: cs).length + 1) (by omega)
  have fresh : lex (2 * (c :: cs).length + 2) true {} (c :: cs) = some r := by
    have noBlank : (c :: cs).takeWhile isInlineBlank = [] ∧ (c :: cs).dropWhile isInlineBlank = c :: cs := by
      simp [visible]
    unfold lex
    simp only [noBlank, started]
    exact lexed
  rw [none, List.nil_append] at kinds
  rw [indented] at same
  refine ⟨(({ r with indentations := [] } : Lexing).emit .finish).tokens.reverse, ?_, ?_⟩
  · simp only [tokens?, String.toList_ofList, unixPlain plain, noNull, Bool.false_eq_true, if_false, fresh,
      Option.bind_eq_bind, Option.bind_some, same, closeBlocks]
    rfl
  · have whole : ((({ r with indentations := [] } : Lexing).emit .finish).tokens.reverse).map (·.kind) =
        r.kinds ++ [.finish] := by
      simp [Lexing.kinds, Lexing.emit]
    rw [whole, kinds]
    simp

end SharedState.Source

namespace SharedState

open SharedState.Source SharedState.Text

/-! The components of a dotted name are its words, since no word holds a dot. -/

theorem piecesWord {sep : Char} {w : List Char} (free : sep ∉ w) : pieces sep w = [w] := by
  induction w with
  | nil => rfl
  | cons c w ih =>
    simp only [List.mem_cons, not_or] at free
    rw [pieces, if_neg (Ne.symm free.1), ih free.2]

theorem piecesJoin (sep : Char) (cs : List Char) : ∃ first others, pieces sep cs = first :: others ∧
    first ++ others.flatMap (sep :: ·) = cs := by
  induction cs with
  | nil => exact ⟨[], [], rfl, rfl⟩
  | cons c cs ih =>
    obtain ⟨first, others, split, joined⟩ := ih
    rw [pieces, split]
    by_cases same : c = sep
    · subst same
      exact ⟨[], first :: others, by simp, by simp [joined]⟩
    · exact ⟨c :: first, others, by simp [same], by simp [joined]⟩

theorem piecesAppend (sep : Char) (xs ys : List Char) : pieces sep (xs ++ sep :: ys) = pieces sep xs ++ pieces sep ys := by
  induction xs with
  | nil => simp [pieces]
  | cons c xs ih =>
    obtain ⟨first, others, split, _⟩ := piecesJoin sep xs
    rw [List.cons_append, pieces, pieces, ih, split]
    split <;> rfl

theorem noDot {w : String} (valid : isIdentifier w.toList = true) : '.' ∉ w.toList := by
  intro dot
  obtain ⟨_, _, _, _, follows⟩ := identifierCons valid
  exact absurd (follows '.' dot) (by decide)

theorem componentsWords {n first : String} {others : List String}
    (spelled : n.toList = first.toList ++ others.flatMap (fun w => '.' :: w.toList))
    (valid : ∀ w ∈ first :: others, isIdentifier w.toList = true) : components n = first :: others := by
  have split : ∀ (others : List String) (first : String), (∀ w ∈ first :: others, isIdentifier w.toList = true) →
      pieces '.' (first.toList ++ others.flatMap (fun w => '.' :: w.toList)) = (first :: others).map String.toList := by
    intro others
    induction others with
    | nil =>
      intro first valid
      simpa using piecesWord (noDot (valid first (by simp)))
    | cons w others ih =>
      intro first valid
      rw [List.flatMap_cons, List.cons_append, piecesAppend, piecesWord (noDot (valid first (by simp))),
        ih w fun v member => valid v (by simp [List.mem_cons.1 member])]
      rfl
  rw [components, spelled, split others first valid]
  simp

def nameKinds (n : String) : List TokenKind :=
  match components n with
  | [] => []
  | first :: others => .name first :: others.flatMap fun w => [.op ".", .name w]

namespace TypeRef

mutual
def kinds : TypeRef → List TokenKind
  | mk .named n _ => nameKinds n
  | mk .union _ args => [.op "|"].intercalate (kindsEach args)
  | mk .intersection _ args => [.op "&"].intercalate (kindsEach args)
  | mk .applied n [] => nameKinds n
  | mk .applied n (a :: args) =>
    nameKinds n ++ .op "[" :: ([.op ","].intercalate (kinds a :: kindsEach args) ++ [.op "]"])
  | mk .array _ [] => []
  | mk .array _ (t :: _) => .name "Array" :: .op "[" :: (kinds t ++ [.op "]"])
def kindsEach : List TypeRef → List (List TokenKind)
  | [] => []
  | t :: rest => kinds t :: kindsEach rest
end

theorem kindsEachMap (args : List TypeRef) : kindsEach args = args.map kinds := by
  induction args with
  | nil => rfl
  | cons t rest ih => rw [kindsEach, ih]; rfl

theorem kindsJoin {form : TypeForm} {sep : TokenKind}
    (joins : ∀ ts, (mk form "" ts).kinds = [sep].intercalate (kindsEach ts)) (ts : List TypeRef) :
    (joinAs form ts).kinds = [sep].intercalate (ts.map kinds) := by
  unfold joinAs
  split
  · simp
  · rw [joins, kindsEachMap]

theorem kindsAssemble (gs : List (List TypeRef)) :
    (assemble gs).kinds = [.op "|"].intercalate (gs.map fun g => [.op "&"].intercalate (g.map kinds)) := by
  have inner : ∀ g, (joinAs .intersection g).kinds = [.op "&"].intercalate (g.map kinds) := kindsJoin fun _ => rfl
  rw [assemble, kindsJoin fun _ => rfl, List.map_map]
  congr 1
  exact List.map_congr_left fun g _ => inner g

end TypeRef

/-! A piece of text that spells tokens in front of whatever may follow a name. -/

def Writes (cs : List Char) (ks : List TokenKind) : Prop :=
  ∀ depth rest tail, EndsName rest → Spelled depth rest tail → Spelled depth (cs ++ rest) (ks ++ tail)

theorem endsMark {c : Char} (mark : isNameFollow c = false) (cs : List Char) : EndsName (c :: cs) := by
  intro d head
  cases head
  exact mark

theorem apartWord {w : String} (valid : isIdentifier w.toList = true) (cs : List Char) : Apart (w.toList ++ cs) := by
  obtain ⟨c, rest, shape, start, _⟩ := identifierCons valid
  rw [shape]
  intro d head
  cases head
  refine ⟨?_, ?_, ?_⟩
  · rintro rfl; revert start; decide
  · rintro rfl; revert start; decide
  · exact startNoDigit start

theorem apartBlank (cs : List Char) : Apart (' ' :: cs) := by
  intro d head
  cases head
  decide

theorem writesWords {w : String} {others : List String} (valid : isIdentifier w.toList = true)
    (rest : ∀ v ∈ others, isIdentifier v.toList = true) :
    Writes (w.toList ++ others.flatMap (fun v => '.' :: v.toList))
      (.name w :: others.flatMap fun v => [.op ".", .name v]) := by
  induction others generalizing w with
  | nil =>
    intro depth cs tail ends spelled
    simpa using Spelled.word valid ends spelled
  | cons v others ih =>
    intro depth cs tail ends spelled
    have next := rest v (by simp)
    have later := ih next (fun u member => rest u (by simp [member])) depth cs tail ends spelled
    rw [List.append_assoc] at later
    have dot := Spelled.mark (c := '.') (by decide) (apartWord next _) later
    have word := Spelled.word valid (endsMark (by decide) _) dot
    simpa using word

theorem nameWords {n : String} (name : DottedName n) : ∃ (first : String) (others : List String),
    nameKinds n = .name first :: (others.flatMap fun w => [.op ".", .name w]) ∧
      n = first ++ String.ofList (others.flatMap fun w => '.' :: w.toList) ∧ OpeningWord first ∧
      ∀ w ∈ others, PlainWord w := by
  obtain ⟨first, others, spelled, opening, plain⟩ := name
  have valid : ∀ w ∈ first :: others, isIdentifier w.toList = true := by
    intro w member
    rcases List.mem_cons.1 member with rfl | later
    · exact opening.1
    · exact (plain w later).1
  refine ⟨first, others, by rw [nameKinds, componentsWords spelled valid], ?_, opening, plain⟩
  rw [← String.toList_inj]
  simpa using spelled

theorem writesName {n : String} (name : DottedName n) : Writes n.toList (nameKinds n) := by
  obtain ⟨first, others, kinds, whole, opening, plain⟩ := nameWords name
  have spelled : n.toList = first.toList ++ others.flatMap (fun w => '.' :: w.toList) := by rw [whole]; simp
  rw [spelled, kinds]
  exact writesWords opening.1 fun w member => (plain w member).1

/-! A separator spells one token, whatever stands around it. -/

def Separates (sep : List Char) (k : TokenKind) : Prop :=
  ∀ depth rest tail, Spelled depth rest tail → EndsName (sep ++ rest) ∧ Spelled depth (sep ++ rest) (k :: tail)

theorem separatesMark {c : Char} (known : c ∈ marks) :
    Separates [' ', c, ' '] (.op (String.singleton c)) := by
  intro depth rest tail spelled
  exact ⟨endsMark (by decide) _, .blank (.mark known (apartBlank _) (.blank spelled))⟩

theorem separatesComma : Separates [',', ' '] (.op ",") := by
  intro depth rest tail spelled
  have comma := Spelled.mark (c := ',') (by decide) (apartBlank rest) (.blank spelled)
  exact ⟨endsMark (by decide) _, comma⟩

theorem writesJoin {sep : List Char} {k : TokenKind} (separates : Separates sep k) {α : Type} {text : α → List Char}
    {kinds : α → List TokenKind} {xs : List α} (parts : ∀ x ∈ xs, Writes (text x) (kinds x)) :
    Writes (sep.intercalate (xs.map text)) ([k].intercalate (xs.map kinds)) := by
  induction xs with
  | nil =>
    intro depth cs tail ends spelled
    exact spelled
  | cons x xs ih =>
    have first := parts x (by simp)
    have rest := ih fun y member => parts y (by simp [member])
    cases xs with
    | nil => simpa using first
    | cons y xs =>
      intro depth cs tail ends spelled
      have later := separates depth _ _ (rest depth cs tail ends spelled)
      have whole := first depth _ _ later.1 later.2
      simpa using whole

theorem writesBrackets {front cs : List Char} {head ks : List TokenKind} (before : Writes front head) (inner : Writes cs ks) :
    Writes (front ++ '[' :: (cs ++ [']'])) (head ++ .op "[" :: (ks ++ [.op "]"])) := by
  intro depth rest tail _ spelled
  have closing := inner (depth + 1) _ _ (endsMark (by decide) _) (.right spelled)
  have whole := before depth _ _ (endsMark (by decide) _) (.left closing)
  simpa using whole

namespace TypeRef

theorem writesGroups {gs : List (List TypeRef)} (parts : ∀ g ∈ gs, ∀ a ∈ g, Writes a.shown.toList a.kinds) :
    Writes (shownGroups gs).toList (assemble gs).kinds := by
  have groups : ∀ g ∈ gs, Writes (" & ".intercalate (g.map shown)).toList ([.op "&"].intercalate (g.map kinds)) := by
    intro g member
    have whole := writesJoin (separatesMark (c := '&') (by decide)) (parts g member)
    have sep : " & ".toList = [' ', '&', ' '] := rfl
    rw [String.toList_intercalate, sep, List.map_map]
    exact whole
  have whole := writesJoin (separatesMark (c := '|') (by decide)) groups
  have sep : " | ".toList = [' ', '|', ' '] := rfl
  rw [kindsAssemble, shownGroups, String.toList_intercalate, sep, List.map_map]
  exact whole

theorem shownApplied (n : String) {ts : List TypeRef} (some : ts ≠ []) (told : ∀ t ∈ ts, t.text? = Option.some t.shown) :
    (applied n ts).shown = n ++ "[" ++ ", ".intercalate (ts.map shown) ++ "]" := by
  have full : (ts.map shown).isEmpty = false := by simpa using some
  refine shownOf ?_
  rw [TypeRef.applied, text?, textsShown told, Option.map_some, full]
  rfl

theorem shownArray {t : TypeRef} (told : t.text? = some t.shown) : (array t).shown = "Array[" ++ t.shown ++ "]" := by
  refine shownOf ?_
  rw [TypeRef.array, text?, told]
  rfl

theorem kindsApplied (n : String) {ts : List TypeRef} (some : ts ≠ []) :
    (applied n ts).kinds = nameKinds n ++ .op "[" :: ([.op ","].intercalate (ts.map kinds) ++ [.op "]"]) := by
  cases ts with
  | nil => exact absurd rfl some
  | cons t ts => rw [TypeRef.applied, kinds, kindsEachMap]; rfl

theorem writesAtom {a : TypeRef} (atom : Atom a) : Writes a.shown.toList a.kinds := by
  induction atom with
  | named name _ => exact writesName name
  | @applied n args name _ some groups atoms ih =>
    have told : ∀ t ∈ args.map assemble, t.text? = Option.some t.shown := by
      intro t member
      obtain ⟨gs, inside, rfl⟩ := List.mem_map.1 member
      rw [(groupsTold (atoms gs inside)).2, (groupsTold (atoms gs inside)).1]
    have parts : ∀ t ∈ args.map assemble, Writes t.shown.toList t.kinds := by
      intro t member
      obtain ⟨gs, inside, rfl⟩ := List.mem_map.1 member
      rw [(groupsTold (atoms gs inside)).2]
      exact writesGroups (ih gs inside)
    have bracket := writesBrackets (writesName name) (writesJoin separatesComma parts)
    have comma : ", ".toList = [',', ' '] := rfl
    have left : "[".toList = ['['] := rfl
    have right : "]".toList = [']'] := rfl
    rw [shownApplied n (by simpa using some) told, kindsApplied n (by simpa using some)]
    simpa [comma, left, right, Function.comp_def] using bracket
  | @array gs some full atoms ih =>
    have whole := groupsTold atoms
    have inner := writesGroups ih
    have word : Writes "Array".toList [.name "Array"] := by
      intro depth rest tail ends spelled
      exact .word (by decide) ends spelled
    have bracket := writesBrackets word inner
    have left : "Array[".toList = "Array".toList ++ ['['] := rfl
    have right : "]".toList = [']'] := rfl
    rw [shownArray (by rw [whole.2, whole.1]), whole.2, TypeRef.array, kinds, String.toList_append,
      String.toList_append, left, right]
    simpa using bracket

end TypeRef

/-! A written type neither starts nor ends with white space. -/

/-- White space beyond ASCII. -/
def wideBlanks : List Nat :=
  [0x85, 0xA0, 0x1680, 0x2000, 0x2001, 0x2002, 0x2003, 0x2004, 0x2005, 0x2006, 0x2007, 0x2008, 0x2009, 0x200A, 0x2028,
   0x2029, 0x202F, 0x205F, 0x3000]

theorem wideBlank {c : Char} (blank : isBlank c = true) (beyond : 128 ≤ c.toNat) : c.toNat ∈ wideBlanks := by
  simp only [isBlank, Bool.or_eq_true, Bool.and_eq_true, decide_eq_true_eq, beq_iff_eq] at blank
  simp only [wideBlanks, List.mem_cons, List.not_mem_nil, or_false]
  omega

theorem narrowBlank {c : Char} (blank : isBlank c = true) (narrow : c.toNat < 128) : c.toNat ≤ 32 := by
  simp only [isBlank, Bool.or_eq_true, Bool.and_eq_true, decide_eq_true_eq, beq_iff_eq] at blank
  omega

theorem narrowWord {c : Char} (follow : isNameFollow c = true) (narrow : c.toNat < 128) : 32 < c.toNat := by
  have value : c.toNat = c.val.toNat := rfl
  simp only [isNameFollow, isNameStart, isAsciiLetter, isAsciiDigit, Bool.or_eq_true, Bool.and_eq_true,
    decide_eq_true_eq, beq_iff_eq, Char.le_def, UInt32.le_iff_toNat_le] at follow
  rcases follow with ((letter | rfl) | beyond) | digit
  · simp only [Char.reduceVal, UInt32.reduceToNat] at letter
    omega
  · decide
  · omega
  · simp only [Char.reduceVal, UInt32.reduceToNat] at digit
    omega

theorem startNoBlank {c : Char} (start : isIdStart c = true) : isBlank c = false := by
  have outside : ∀ n ∈ wideBlanks, inRanges n startRanges = false := by decide +kernel
  rw [Bool.eq_false_iff]
  intro blank
  by_cases narrow : c.toNat < 128
  · have follow : isNameFollow c = true := by rw [isNameFollow, idStartName start]; rfl
    have high := narrowWord follow narrow
    have low := narrowBlank blank narrow
    omega
  · rw [isIdStart, if_neg narrow, outside _ (wideBlank blank (by omega))] at start
    cases start

theorem followNoBlank {c : Char} (follow : isIdFollow c = true) : isBlank c = false := by
  have outside : ∀ n ∈ wideBlanks, inRanges n followRanges = false := by decide +kernel
  rw [Bool.eq_false_iff]
  intro blank
  by_cases narrow : c.toNat < 128
  · have high := narrowWord (idFollowName follow) narrow
    have low := narrowBlank blank narrow
    omega
  · rw [isIdFollow, if_neg narrow, outside _ (wideBlank blank (by omega))] at follow
    cases follow

structure Framed (s : String) : Prop where
  first : ∃ c cs, s.toList = c :: cs ∧ isNameStart c = true ∧ isBlank c = false
  last : ∃ cs c, s.toList = cs ++ [c] ∧ isBlank c = false

theorem stripFramed {s : String} (framed : Framed s) : strip s = s := by
  obtain ⟨c, cs, front, _, solid⟩ := framed.first
  obtain ⟨ds, d, back, firm⟩ := framed.last
  have left : s.toList.dropWhile isBlank = s.toList := by simp [front, solid]
  have right : s.toList.reverse.dropWhile isBlank = s.toList.reverse := by simp [back, firm]
  rw [strip, trimWhile, left, right, List.reverse_reverse, String.ofList_toList]

theorem framedWord {w : String} (valid : isIdentifier w.toList = true) : Framed w := by
  cases shape : w.toList with
  | nil => rw [shape] at valid; cases valid
  | cons c cs =>
    rw [shape] at valid
    simp only [isIdentifier, Bool.and_eq_true, List.all_eq_true] at valid
    refine ⟨⟨c, cs, shape, idStartName valid.1, startNoBlank valid.1⟩, ?_⟩
    rcases List.eq_nil_or_concat cs with rfl | ⟨front, d, rfl⟩
    · exact ⟨[], c, by simpa using shape, startNoBlank valid.1⟩
    · exact ⟨c :: front, d, by simpa using shape, followNoBlank (valid.2 d (by simp))⟩

theorem framedBetween {s t : String} (front : Framed s) (back : Framed t) (middle : String) :
    Framed (s ++ middle ++ t) := by
  obtain ⟨c, cs, shape, start, solid⟩ := front.first
  obtain ⟨ds, d, ending, firm⟩ := back.last
  refine ⟨⟨c, _, by simp [shape]; rfl, start, solid⟩, ⟨s.toList ++ middle.toList ++ ds, d, by simp [ending], firm⟩⟩

theorem framedClosed {s : String} (front : Framed s) (inner : String) : Framed (s ++ "[" ++ inner ++ "]") := by
  obtain ⟨c, cs, shape, start, solid⟩ := front.first
  have right : "]".toList = [']'] := rfl
  exact ⟨⟨c, _, by simp [shape]; rfl, start, solid⟩, ⟨(s ++ "[" ++ inner).toList, ']', by simp [right], by decide⟩⟩

theorem framedJoin (sep : String) {ss : List String} (some : ss ≠ []) (parts : ∀ s ∈ ss, Framed s) :
    Framed (sep.intercalate ss) := by
  induction ss with
  | nil => exact absurd rfl some
  | cons s ss ih =>
    cases ss with
    | nil => simpa using parts s (by simp)
    | cons t ss =>
      rw [String.intercalate_cons_cons]
      exact framedBetween (parts s (by simp)) (ih (by simp) fun u member => parts u (by simp [List.mem_cons.1 member])) _

theorem framedName {n : String} (name : DottedName n) : Framed n := by
  obtain ⟨first, others, spelled, opening, plain⟩ := name
  rcases List.eq_nil_or_concat others with rfl | ⟨front, w, rfl⟩
  · have same : n = first := String.toList_inj.1 (by simpa using spelled)
    rw [same]
    exact framedWord opening.1
  · have whole : n = first ++ String.ofList (front.flatMap (fun w => '.' :: w.toList) ++ ['.']) ++ w :=
      String.toList_inj.1 (by simpa using spelled)
    rw [whole]
    exact framedBetween (framedWord opening.1) (framedWord (plain w (by simp)).1) _

namespace TypeRef

theorem framedGroups {gs : List (List TypeRef)} (some : gs ≠ []) (full : [] ∉ gs)
    (parts : ∀ g ∈ gs, ∀ a ∈ g, Framed a.shown) : Framed (shownGroups gs) := by
  refine framedJoin _ (by simpa using some) fun s member => ?_
  obtain ⟨g, inside, rfl⟩ := List.mem_map.1 member
  refine framedJoin _ ?_ fun s member => ?_
  · intro empty
    exact full (by simpa [List.map_eq_nil_iff.1 empty] using inside)
  · obtain ⟨a, within, rfl⟩ := List.mem_map.1 member
    exact parts g inside a within

theorem framedAtom {a : TypeRef} (atom : Atom a) : Framed a.shown := by
  cases atom with
  | named name _ => exact framedName name
  | @applied n args name _ some groups atoms =>
    have told : ∀ t ∈ args.map assemble, t.text? = Option.some t.shown := by
      intro t member
      obtain ⟨gs, inside, rfl⟩ := List.mem_map.1 member
      rw [(groupsTold (atoms gs inside)).2, (groupsTold (atoms gs inside)).1]
    rw [shownApplied n (by simpa using some) told]
    exact framedClosed (framedName name) _
  | @array gs some full atoms =>
    have whole := groupsTold atoms
    have word : "Array[" = "Array" ++ "[" := rfl
    rw [shownArray (by rw [whole.2, whole.1]), word]
    exact framedClosed (framedWord (by decide)) _

end TypeRef

theorem tokensWritten {s : String} {ks : List TokenKind} (writes : Writes s.toList ks) (framed : Framed s) :
    ∃ ts, tokens? (strip s) = some ts ∧ ts.map (·.kind) = ks ++ [.newline, .finish] := by
  obtain ⟨c, cs, shape, start, _⟩ := framed.first
  have spelled := writes 0 [] [] (by simp [EndsName]) .done
  rw [List.append_nil, List.append_nil, shape] at spelled
  rw [stripFramed framed, ← String.ofList_toList (s := s), shape]
  exact tokensSpelled start spelled

end SharedState
