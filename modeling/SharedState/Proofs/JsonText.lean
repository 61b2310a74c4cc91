import Mathlib.Data.List.DropRight
import SharedState.Json.Reader
import SharedState.Json.Writer
import SharedState.Proofs.Bindings

/-! Reading back what was written: a text in quotes gives its characters, an integer its value, and a list or a table
gives its parts whenever each part is read back one level deeper. -/
namespace SharedState.Json

theorem hexValueDigit : ∀ d < 16, hexValue? (hexDigit d) = some d := by decide

theorem unitEscaped (n : Nat) (small : n < 65536) (rest : List Char) :
    ∃ ds, unitEscape n = '\\' :: 'u' :: ds ∧ unit (ds ++ rest) = some (n, rest) := by
  refine ⟨_, rfl, ?_⟩
  have a := hexValueDigit (n / 4096 % 16) (by omega)
  have b := hexValueDigit (n / 256 % 16) (by omega)
  have c := hexValueDigit (n / 16 % 16) (by omega)
  have d := hexValueDigit (n % 16) (by omega)
  have sum : 4096 * (n / 4096 % 16) + 256 * (n / 256 % 16) + 16 * (n / 16 % 16) + n % 16 = n := by omega
  simp only [List.cons_append, List.nil_append, unit, a, b, c, d, Option.bind_eq_bind, Option.bind_some, sum]
  rfl

/-! A character is no surrogate, so a single unit never looks like half of a pair. -/

theorem charNoSurrogate (c : Char) : c.toNat < 0xD800 ∨ 0xE000 ≤ c.toNat := by
  have h : c.toNat < 0xD800 ∨ 0xDFFF < c.toNat ∧ c.toNat < 0x110000 := c.valid
  omega

theorem charBelow (c : Char) : c.toNat < 0x110000 := by
  have h : c.toNat < 0xD800 ∨ 0xDFFF < c.toNat ∧ c.toNat < 0x110000 := c.valid
  omega

theorem unicodeSingle {cs rest : List Char} {n : Nat} (read : unit cs = some (n, rest))
    (single : n < 0xD800 ∨ 0xE000 ≤ n) : unicodeEscape cs = some (Char.ofNat n, rest) := by
  have noHigh : (0xD800 ≤ n && n < 0xDC00) = false := by simp; omega
  have noLow : (0xDC00 ≤ n && n < 0xE000) = false := by simp; omega
  simp only [unicodeEscape, read, Option.bind_eq_bind, Option.bind_some, noHigh, noLow, Bool.false_eq_true, if_false]
  rfl

theorem unicodePair {cs more rest : List Char} {high low : Nat}
    (first : unit cs = some (high, '\\' :: 'u' :: more)) (second : unit more = some (low, rest))
    (isHigh : 0xD800 ≤ high ∧ high < 0xDC00) (isLow : 0xDC00 ≤ low ∧ low < 0xE000) :
    unicodeEscape cs = some (Char.ofNat (0x10000 + (high - 0xD800) * 1024 + (low - 0xDC00)), rest) := by
  have highHalf : (0xD800 ≤ high && high < 0xDC00) = true := by simpa using isHigh
  have lowHalf : (0xDC00 ≤ low && low < 0xE000) = true := by simpa using isLow
  simp only [unicodeEscape, first, second, Option.bind_eq_bind, Option.bind_some, highHalf, lowHalf, if_true]
  rfl

theorem basicEscaped (c : Char) (basic : c.toNat < 0x10000) (rest : List Char) :
    escape ((unitEscape c.toNat).tail ++ rest) = some (c, rest) := by
  obtain ⟨ds, shape, read⟩ := unitEscaped c.toNat basic rest
  have coded := unicodeSingle read (charNoSurrogate c)
  rw [Char.ofNat_toNat] at coded
  simpa [shape, escape] using coded

theorem pairEscaped (c : Char) (beyond : 0x10000 ≤ c.toNat) (rest : List Char) :
    escape ((unitEscape (0xD800 + (c.toNat - 0x10000) / 1024)).tail ++
      (unitEscape (0xDC00 + (c.toNat - 0x10000) % 1024) ++ rest)) = some (c, rest) := by
  have below := charBelow c
  generalize high : 0xD800 + (c.toNat - 0x10000) / 1024 = h
  generalize low : 0xDC00 + (c.toNat - 0x10000) % 1024 = l
  obtain ⟨ls, lowShape, lowRead⟩ := unitEscaped l (by omega) rest
  obtain ⟨hs, highShape, highRead⟩ := unitEscaped h (by omega) ('\\' :: 'u' :: (ls ++ rest))
  have coded := unicodePair highRead lowRead (by omega) (by omega)
  have joined : 0x10000 + (h - 0xD800) * 1024 + (l - 0xDC00) = c.toNat := by omega
  rw [joined, Char.ofNat_toNat] at coded
  simpa [lowShape, highShape, escape] using coded

/-- How a character is written: by a letter of its own, as itself, or by its code in one or two units. -/
inductive Escaped (c : Char) : List Char → Prop where
  | letter {d : Char} : (∀ rest, escape (d :: rest) = some (c, rest)) → Escaped c ['\\', d]
  | self : c ≠ '"' → c ≠ '\\' → 32 ≤ c.toNat → Escaped c [c]
  | unit : c.toNat < 0x10000 → Escaped c (unitEscape c.toNat)
  | pair : 0x10000 ≤ c.toNat → Escaped c
      (unitEscape (0xD800 + (c.toNat - 0x10000) / 1024) ++ unitEscape (0xDC00 + (c.toNat - 0x10000) % 1024))

theorem escapeCharEscaped (c : Char) : Escaped c (escapeChar c) := by
  by_cases quote : c = '"'
  · subst quote; exact .letter fun _ => rfl
  by_cases mark : c = '\\'
  · subst mark; exact .letter fun _ => rfl
  by_cases line : c = '\n'
  · subst line; exact .letter fun _ => rfl
  by_cases back : c = '\r'
  · subst back; exact .letter fun _ => rfl
  by_cases tab : c = '\t'
  · subst tab; exact .letter fun _ => rfl
  by_cases bell : c = '\x08'
  · subst bell; exact .letter fun _ => rfl
  by_cases feed : c = '\x0c'
  · subst feed; exact .letter fun _ => rfl
  simp only [escapeChar, quote, mark, line, back, tab, bell, feed, if_false]
  by_cases printable : (32 ≤ c.toNat && c.toNat < 127) = true
  · rw [if_pos printable]
    simp only [Bool.and_eq_true, decide_eq_true_eq] at printable
    exact .self quote mark printable.1
  · rw [if_neg printable]
    by_cases basic : c.toNat < 0x10000
    · rw [if_pos basic]
      exact .unit basic
    · rw [if_neg basic]
      exact .pair (by omega)

theorem escapeStep (c : Char) (n : Nat) (rest : List Char) :
    stringTail (n + 1) (escapeChar c ++ rest) = (stringTail n rest).map fun p => (c :: p.1, p.2) := by
  have coded : ∀ ds tail, escape (ds ++ tail) = some (c, rest) →
      stringTail (n + 1) ('\\' :: (ds ++ tail)) = (stringTail n rest).map fun p => (c :: p.1, p.2) := by
    intro ds tail read
    have visible : ¬ ('\\' : Char).toNat < 32 := by decide
    have noQuote : ¬ ('\\' : Char) = '"' := by decide
    simp only [stringTail, if_neg noQuote, if_neg visible, if_true, read, Option.bind_eq_bind, Option.bind_some]
    cases stringTail n rest <;> rfl
  have escaped := escapeCharEscaped c
  generalize escapeChar c = written at escaped ⊢
  cases escaped with
  | @letter d read => exact coded [d] rest (read rest)
  | self noQuote noMark visible =>
    have shown : ¬ c.toNat < 32 := by omega
    simp only [List.cons_append, List.nil_append, stringTail, noQuote, noMark, shown, if_false]
    cases stringTail n rest <;> rfl
  | unit basic => exact coded (unitEscape c.toNat).tail rest (basicEscaped c basic rest)
  | pair beyond =>
    rw [List.append_assoc]
    exact coded _ _ (pairEscaped c beyond rest)

theorem stringTailEscaped (cs : List Char) (n : Nat) (enough : cs.length < n) (rest : List Char) :
    stringTail n (cs.flatMap escapeChar ++ '"' :: rest) = some (cs, rest) := by
  induction cs generalizing n with
  | nil =>
    cases n with
    | zero => omega
    | succ n => simp [stringTail]
  | cons c cs ih =>
    cases n with
    | zero => simp at enough
    | succ n =>
      rw [List.flatMap_cons, List.append_assoc, escapeStep, ih n (by simpa using enough)]
      rfl

theorem escapeCharNonempty (c : Char) : 1 ≤ (escapeChar c).length := by
  have escaped := escapeCharEscaped c
  generalize escapeChar c = written at escaped ⊢
  cases escaped with
  | letter _ => simp
  | self _ _ _ => simp
  | unit _ => simp [unitEscape]
  | pair _ => simp [unitEscape]

theorem escapedLength (cs : List Char) : cs.length ≤ (cs.flatMap escapeChar).length := by
  induction cs with
  | nil => simp
  | cons c cs ih =>
    have := escapeCharNonempty c
    simp only [List.flatMap_cons, List.length_append, List.length_cons]
    omega

theorem quoteChars (s : String) (rest : List Char) :
    (quote s).toList ++ rest = '"' :: (s.toList.flatMap escapeChar ++ '"' :: rest) := by
  simp [quote]

theorem stringQuoted (s : String) (rest : List Char) :
    string (s.toList.flatMap escapeChar ++ '"' :: rest) = some (s, rest) := by
  have size := escapedLength s.toList
  rw [string, stringTailEscaped s.toList _ (by simp only [List.length_append]; omega)]
  simp

/-! A number ends where no digit, point or exponent follows. -/

def Stops (rest : List Char) : Prop :=
  ∀ c ∈ rest.head?, isDigit c = false ∧ c ≠ '.' ∧ c ≠ 'e' ∧ c ≠ 'E'

theorem digitOfDigits {n : Nat} {c : Char} (h : c ∈ Nat.toDigits 10 n) : isDigit c = true := by
  have digit := Nat.isDigit_of_mem_toDigits (by decide) (by decide) h
  simpa [isDigit, Char.isDigit, Char.le_def] using digit

theorem digitsPrinted (n : Nat) {rest : List Char} (stops : Stops rest) :
    digits (Nat.toDigits 10 n ++ rest) = some (Nat.toDigits 10 n, rest) := by
  have all : ∀ c ∈ Nat.toDigits 10 n, isDigit c = true := fun c h => digitOfDigits h
  have ends : rest.takeWhile isDigit = [] ∧ rest.dropWhile isDigit = rest := by
    cases rest with
    | nil => simp
    | cons c rest => simp [(stops c rfl).1]
  simp [digits, List.takeWhile_append_of_pos all, List.dropWhile_append_of_pos all, ends]

theorem leadingDigit (n : Nat) : (Nat.toDigits 10 n).head? = some '0' → n = 0 := by
  induction n using Nat.strongRecOn with
  | ind n ih =>
    intro zero
    rw [Nat.toDigits_eq_if (by decide)] at zero
    split at zero
    · rename_i small
      have all : ∀ d < 10, [Nat.digitChar d].head? = some '0' → d = 0 := by decide
      exact all n small zero
    · rename_i large
      rw [List.head?_append_of_ne_nil _ Nat.toDigits_ne_nil] at zero
      have := ih (n / 10) (by omega) zero
      omega

theorem noLeadingZero (n : Nat) :
    ((Nat.toDigits 10 n).length > 1 && (Nat.toDigits 10 n).head? = some '0') = false := by
  by_cases zero : n = 0
  · subst zero; decide
  · have := mt (leadingDigit n) zero
    simp [this]

theorem unsignedPrinted (negative : Bool) (n : Nat) {rest : List Char} (stops : Stops rest) :
    unsigned negative (Nat.toDigits 10 n ++ rest) = some (.int (if negative then -(n : Int) else n), rest) := by
  have noFraction : fraction rest = some ([], rest) := by
    unfold fraction
    split
    · exact absurd rfl (stops _ rfl).2.1
    · rfl
  have noExponent : exponent rest = some (none, rest) := by
    cases rest with
    | nil => rfl
    | cons c rest => simp [exponent, (stops c rfl).2.2]
  have same : digitsValue (Nat.toDigits 10 n) = n := Nat.ofDigitChars_ten_toDigits
  simp only [unsigned, digitsPrinted n stops, noLeadingZero, noFraction, noExponent, same, Option.bind_eq_bind,
    Option.bind_some]
  rfl

theorem skipBlanks (level : Nat) (cs : List Char) : skipSpace ((blanks level).toList ++ cs) = skipSpace cs := by
  have blank : ∀ c ∈ (blanks level).toList, isSpace c = true := by
    intro c h
    simp only [blanks, String.toList_ofList, List.mem_replicate] at h
    rw [h.2]; decide
  exact List.dropWhile_append_of_pos blank

/-! What is read from a text does not begin with blanks. -/

structure Reading {α : Type} (reader : List Char → Option (α × Rest)) (text : List Char) (a : α) : Prop where
  starts : ∀ rest, skipSpace (text ++ rest) = text ++ rest
  reads : ∀ rest, Stops rest → reader (text ++ rest) = some (a, rest)

theorem stopsLine (cs : List Char) : Stops ('\n' :: cs) := by
  intro c head; cases head; decide

theorem stopsComma (cs : List Char) : Stops (',' :: cs) := by
  intro c head; cases head; decide

/-! Lines between brackets are read one by one: each ends at a comma or at the line of the closing bracket. -/

theorem skipLine (cs : List Char) : skipSpace ('\n' :: cs) = skipSpace cs := rfl

theorem itemsLine {α : Type} (reader : List Char → Option (α × Rest)) (close : Char) (bound : Nat) (cs : List Char) :
    items reader close bound ('\n' :: cs) = items reader close bound cs := by
  cases bound <;> rfl

theorem itemsWritten {α : Type} {reader : List Char → Option (α × Rest)} (text : α → List Char) {close : Char}
    (solid : isSpace close = false) (noComma : ',' ≠ close) (level outer bound : Nat) (rest : List Char)
    (first : α) (others : List α) (readable : ∀ a ∈ first :: others, Reading reader (text a) a)
    (enough : others.length < bound) :
    items reader close bound
        ([',', '\n'].intercalate ((first :: others).map fun a => (blanks level).toList ++ text a) ++
          '\n' :: ((blanks outer).toList ++ close :: rest)) = some (first :: others, rest) := by
  induction others generalizing first bound with
  | nil =>
    obtain ⟨bound, rfl⟩ : ∃ b, bound = b + 1 := ⟨bound - 1, by simp at enough; omega⟩
    have head := readable first (by simp)
    have ending : skipSpace ('\n' :: ((blanks outer).toList ++ close :: rest)) = close :: rest := by
      rw [skipLine, skipBlanks, skipSpace, List.dropWhile_cons_of_neg (by simp [solid])]
    simp only [List.map_cons, List.map_nil, List.intercalate_singleton, List.append_assoc, items, skipBlanks,
      head.starts, head.reads _ (stopsLine _), ending, Option.bind_eq_bind, Option.bind_some, if_true]
    rfl
  | cons second others ih =>
    obtain ⟨bound, rfl⟩ : ∃ b, bound = b + 1 := ⟨bound - 1, by simp at enough; omega⟩
    have head := readable first (by simp)
    have tail := ih bound second (fun a h => readable a (by simp [List.mem_cons.1 h]))
      (by simp at enough; omega)
    have comma : ∀ cs, skipSpace (',' :: cs) = ',' :: cs := fun cs => rfl
    rw [List.map_cons] at tail
    simp only [List.map_cons, List.intercalate_cons_cons, List.append_assoc, List.cons_append, List.nil_append,
      items, skipBlanks, head.starts, head.reads _ (stopsComma _), comma, if_neg noComma, itemsLine, if_true,
      Option.bind_eq_bind, Option.bind_some]
    rw [tail]
    rfl

theorem valueSpace (depth : Nat) {c : Char} (space : isSpace c = true) (cs : List Char) :
    value depth (c :: cs) = none := by
  simp only [isSpace, Bool.or_eq_true, decide_eq_true_eq] at space
  rcases space with ((rfl | rfl) | rfl) | rfl <;> cases depth <;> rfl

theorem valueClose (depth : Nat) (cs : List Char) : value depth (']' :: cs) = none := by
  cases depth <;> rfl

theorem readHead {depth : Nat} {text : List Char} {d : Datum}
    (reads : ∀ rest, Stops rest → value depth (text ++ rest) = some (d, rest)) :
    ∃ c cs, text = c :: cs ∧ isSpace c = false ∧ c ≠ ']' := by
  have bare := reads [] (by intro c head; cases head)
  cases text with
  | nil => simp [value] at bare
  | cons c cs =>
    refine ⟨c, cs, rfl, ?_, ?_⟩
    · cases space : isSpace c with
      | false => rfl
      | true => rw [List.cons_append, valueSpace depth space] at bare; cases bare
    · rintro rfl
      rw [List.cons_append, valueClose] at bare; cases bare

theorem readingOf {depth : Nat} {text : List Char} {d : Datum}
    (reads : ∀ rest, Stops rest → value depth (text ++ rest) = some (d, rest)) : Reading (value depth) text d := by
  obtain ⟨c, cs, rfl, solid, _⟩ := readHead reads
  exact ⟨fun rest => by simp [skipSpace, solid], reads⟩

/-! A value whose text at a level is read back, with so much depth to spare. -/

def Reads (depth level : Nat) (d : Datum) : Prop := Reading (value depth) (indentedAt level d).toList d

theorem readsText (depth level : Nat) (s : String) : Reads depth level (.text s) := by
  apply readingOf
  intro rest _
  have opened : ∀ cs, value depth ('"' :: cs) = (string cs).map fun p => (.text p.1, p.2) := by
    intro cs; cases depth <;> rfl
  have printed : indentedAt level (.text s) = quote s := by rw [indentedAt, scalar] <;> simp
  rw [printed, quoteChars, opened, stringQuoted]
  rfl

theorem readsNull (depth level : Nat) : Reads depth level .null := by
  apply readingOf
  intro rest _
  have printed : indentedAt level .null = "null" := by rw [indentedAt, scalar] <;> simp
  rw [printed]
  cases depth <;> rfl

theorem readsBool (depth level : Nat) (b : Bool) : Reads depth level (.bool b) := by
  apply readingOf
  intro rest _
  cases b with
  | false =>
    have printed : indentedAt level (.bool false) = "false" := by rw [indentedAt, scalar] <;> simp
    rw [printed]
    cases depth <;> rfl
  | true =>
    have printed : indentedAt level (.bool true) = "true" := by rw [indentedAt, scalar] <;> simp
    rw [printed]
    cases depth <;> rfl

theorem digitNoMark {c : Char} (digit : isDigit c = true) :
    c ≠ '"' ∧ c ≠ 't' ∧ c ≠ 'f' ∧ c ≠ 'n' ∧ c ≠ 'N' ∧ c ≠ 'I' ∧ c ≠ '-' := by
  refine ⟨?_, ?_, ?_, ?_, ?_, ?_, ?_⟩ <;> rintro rfl <;> cases digit

theorem valueNatural (depth n : Nat) {rest : List Char} (stops : Stops rest) :
    value depth (Nat.toDigits 10 n ++ rest) = some (.int n, rest) := by
  have read := unsignedPrinted false n stops
  cases shape : Nat.toDigits 10 n with
  | nil => exact absurd shape Nat.toDigits_ne_nil
  | cons c cs =>
    have digit : isDigit c = true := digitOfDigits (n := n) (by simp [shape])
    have noMark := digitNoMark digit
    have opened : value depth (c :: (cs ++ rest)) = unsigned false (c :: (cs ++ rest)) := by
      cases depth <;> simp only [value, noMark, if_false, digit, if_true]
    rw [shape, List.cons_append] at read
    rw [List.cons_append, opened, read]
    rfl

theorem valueNegative (depth n : Nat) {rest : List Char} (stops : Stops rest) :
    value depth ('-' :: (Nat.toDigits 10 n ++ rest)) = some (.int (-n), rest) := by
  have read := unsignedPrinted true n stops
  cases shape : Nat.toDigits 10 n with
  | nil => exact absurd shape Nat.toDigits_ne_nil
  | cons c cs =>
    have noMark := digitNoMark (digitOfDigits (n := n) (c := c) (by simp [shape]))
    have opened : value depth ('-' :: c :: (cs ++ rest)) = unsigned true (c :: (cs ++ rest)) := by
      cases depth
      all_goals
        simp only [value, Char.reduceEq, if_false, if_true]
        split
        · rename_i same
          exact absurd (List.cons.inj same).1 noMark.2.2.2.2.2.1
        · rfl
    rw [shape, List.cons_append] at read
    rw [List.cons_append, opened, read]
    rfl

theorem readsInt (depth level : Nat) (n : Int) : Reads depth level (.int n) := by
  apply readingOf
  intro rest stops
  have printed : indentedAt level (.int n) = n.repr := by rw [indentedAt, scalar] <;> simp
  rw [printed, Int.repr_eq_if]
  split
  · rename_i sign
    rw [Nat.toList_repr, valueNatural depth _ stops, Int.toNat_of_nonneg sign]
  · rename_i sign
    have mark : "-".toList = ['-'] := rfl
    rw [String.toList_append, Nat.toList_repr, mark, List.append_assoc, List.cons_append, List.nil_append,
      valueNegative depth _ stops, Int.toNat_of_nonneg (by omega), Int.neg_neg]

theorem itemLinesMap (level : Nat) (xs : List Datum) : itemLines level xs = xs.map (indentedAt level) := by
  induction xs with
  | nil => rfl
  | cons d xs ih => rw [itemLines, ih]; rfl

theorem fieldLinesMap (level : Nat) (fields : List (String × Datum)) :
    fieldLines level fields = fields.map fun f => quote f.1 ++ ": " ++ indentedAt level f.2 := by
  induction fields with
  | nil => rfl
  | cons f fields ih => rw [fieldLines, ih]; rfl

theorem encloseChars {α : Type} (level : Nat) (left right : String) (line : α → String) (a : α) (others : List α)
    (rest : List Char) :
    (enclose level left right ((a :: others).map line)).toList ++ rest =
      left.toList ++ '\n' :: ([',', '\n'].intercalate
        ((a :: others).map fun a => (blanks (level + 1)).toList ++ (line a).toList) ++
        '\n' :: ((blanks level).toList ++ (right.toList ++ rest))) := by
  have line : "\n".toList = ['\n'] := rfl
  have comma : ",\n".toList = [',', '\n'] := rfl
  simp only [enclose, List.map_cons, List.isEmpty_cons, Bool.false_eq_true, if_false, String.toList_append,
    String.toList_intercalate, List.map_map, Function.comp_def, line, comma, List.append_assoc, List.cons_append,
    List.nil_append]

/-! The reader looks at the first line before it takes the lines one by one, and bounds their number by the length of
what it sees. -/

theorem linesHead {α : Type} {reader : List Char → Option (α × Rest)} (text : α → List Char) (level : Nat)
    (tail : List Char) (first : α) (others : List α) (readable : Reading reader (text first) first) :
    ∃ more, skipSpace ([',', '\n'].intercalate
        ((first :: others).map fun a => (blanks level).toList ++ text a) ++ tail) = text first ++ more ∧
      others.length ≤ more.length := by
  have long : ∀ (xs : List α) (x : α), xs.length ≤ ([',', '\n'].intercalate
      ((x :: xs).map fun a => (blanks level).toList ++ text a)).length := by
    intro xs
    induction xs with
    | nil => simp
    | cons y ys ih =>
      intro x
      have := ih y
      rw [List.map_cons] at this
      simp only [List.map_cons, List.intercalate_cons_cons, List.length_append, List.length_cons, List.length_nil]
      omega
  cases others with
  | nil => exact ⟨tail, by simp [skipBlanks, readable.starts], by simp⟩
  | cons second others =>
    refine ⟨[',', '\n'] ++ [',', '\n'].intercalate
      ((second :: others).map fun a => (blanks level).toList ++ text a) ++ tail, ?_, ?_⟩
    · rw [List.map_cons, List.map_cons, List.intercalate_cons_cons, List.append_assoc, List.append_assoc,
        List.append_assoc, skipBlanks, readable.starts, List.append_assoc]
    · have := long others second
      simp only [List.length_append, List.length_cons, List.length_nil]
      omega

theorem itemsSkip {α : Type} (reader : List Char → Option (α × Rest)) (close : Char) (bound : Nat) (cs : List Char) :
    items reader close bound (skipSpace cs) = items reader close bound cs := by
  have twice : skipSpace (skipSpace cs) = skipSpace cs := List.dropWhile_idempotent _ _
  cases bound with
  | zero => rfl
  | succ bound => simp only [items, twice]

theorem bracketed {α : Type} {reader : List Char → Option (α × Rest)} (text : α → List Char) (close : Char)
    (solid : isSpace close = false) (noComma : ',' ≠ close) (level outer : Nat) (rest : List Char)
    (first : α) (others : List α) (readable : ∀ a ∈ first :: others, Reading reader (text a) a)
    (opening : ∃ c cs, text first = c :: cs ∧ c ≠ close) :
    ∃ c cs, skipSpace ('\n' :: ([',', '\n'].intercalate
          ((first :: others).map fun a => (blanks level).toList ++ text a) ++
          '\n' :: ((blanks outer).toList ++ close :: rest))) = c :: cs ∧ c ≠ close ∧
      items reader close ((c :: cs).length + 1) (c :: cs) = some (first :: others, rest) := by
  obtain ⟨c, cs, head, noClose⟩ := opening
  obtain ⟨more, shape, bound⟩ := linesHead text level ('\n' :: ((blanks outer).toList ++ close :: rest)) first others
    (readable first (by simp))
  have read := itemsWritten text solid noComma level outer ((c :: (cs ++ more)).length + 1) rest first others readable
    (by simp only [List.length_cons, List.length_append]; omega)
  rw [← itemsSkip, shape, head] at read
  exact ⟨c, cs ++ more, by rw [skipLine, shape, head]; rfl, noClose, read⟩

theorem readsList {depth level : Nat} {xs : List Datum} (parts : ∀ d ∈ xs, Reads depth (level + 1) d) :
    Reads (depth + 1) level (.list xs) := by
  apply readingOf
  intro rest _
  rw [indentedAt, itemLinesMap]
  cases xs with
  | nil => simp [enclose, value, skipSpace, isSpace, isDigit]
  | cons first others =>
    have left : "[".toList = ['['] := rfl
    have right : "]".toList = [']'] := rfl
    rw [encloseChars, left, right, List.cons_append, List.nil_append, List.cons_append, List.nil_append]
    obtain ⟨c, cs, head, _, noClose⟩ := readHead (parts first (by simp)).reads
    obtain ⟨c, cs, shape, noClose, read⟩ := bracketed (fun d => (indentedAt (level + 1) d).toList) ']'
      (by decide) (by decide) (level + 1) level rest first others parts ⟨c, cs, head, noClose⟩
    simp only [value, Char.reduceEq, if_false, if_true, shape]
    split
    · rename_i digit; cases digit
    · split
      · rename_i same; exact absurd (List.cons.inj same).1 noClose
      · rw [read]; rfl

theorem fieldReading {depth level : Nat} {f : String × Datum} (part : Reads depth level f.2) :
    Reading (field (value depth)) (quote f.1 ++ ": " ++ indentedAt level f.2).toList f := by
  have colon : ": ".toList = [':', ' '] := rfl
  have shape : ∀ rest, (quote f.1 ++ ": " ++ indentedAt level f.2).toList ++ rest =
      '"' :: (f.1.toList.flatMap escapeChar ++ '"' :: (':' :: ' ' :: ((indentedAt level f.2).toList ++ rest))) := by
    intro rest
    rw [String.toList_append, String.toList_append, colon, List.append_assoc, List.append_assoc, quoteChars]
    rfl
  constructor
  · intro rest
    rw [shape]
    rfl
  · intro rest stops
    have gap : ∀ cs, skipSpace (':' :: cs) = ':' :: cs := fun cs => rfl
    have blank : ∀ cs, skipSpace (' ' :: cs) = skipSpace cs := fun cs => rfl
    rw [shape]
    simp only [field, stringQuoted, Option.bind_eq_bind, Option.bind_some, gap, blank, part.starts,
      part.reads rest stops]
    rfl

theorem readsTable {depth level : Nat} {fields : List (String × Datum)} (distinct : (fields.map (·.1)).Nodup)
    (parts : ∀ f ∈ fields, Reads depth (level + 1) f.2) : Reads (depth + 1) level (.table fields) := by
  apply readingOf
  intro rest _
  rw [indentedAt, fieldLinesMap]
  cases fields with
  | nil => simp [enclose, value, skipSpace, isSpace, isDigit]
  | cons first others =>
    have left : "\x7b".toList = ['\x7b'] := rfl
    have right : "\x7d".toList = ['\x7d'] := rfl
    rw [encloseChars, left, right, List.cons_append, List.nil_append, List.cons_append, List.nil_append]
    obtain ⟨c, cs, shape, noClose, read⟩ := bracketed
      (fun f : String × Datum => (quote f.1 ++ ": " ++ indentedAt (level + 1) f.2).toList) '\x7d'
      (by decide) (by decide) (level + 1) level rest first others (fun f h => fieldReading (parts f h))
      ⟨'"', _, by simp [quote]; rfl, by decide⟩
    have bound : table (first :: others) = .table (first :: others) := by
      rw [table, bindAllFresh _ _ (by simpa using distinct)]; rfl
    simp only [value, Char.reduceEq, if_false, if_true, shape]
    split
    · rename_i digit; cases digit
    · split
      · rename_i same; exact absurd (List.cons.inj same).1 noClose
      · rw [read, Option.map_some, bound]

theorem readIndented {d : Datum} (reads : Reads maxDepth 0 d) : read (indented d) = some d := by
  have whole := reads.reads [] (by intro c head; cases head)
  have starts := reads.starts []
  rw [List.append_nil] at whole starts
  simp only [read, indented, starts, whole]
  rfl

theorem readLine {d : Datum} (reads : Reads maxDepth 0 d) : read (indented d ++ "\n") = some d := by
  have whole := reads.reads ['\n'] (stopsLine [])
  have starts := reads.starts ['\n']
  have text : (indented d ++ "\n").toList = (indentedAt 0 d).toList ++ ['\n'] := String.toList_append ..
  simp only [read, text, starts, whole]
  rfl

/-! Every table that is read has distinct keys, at every depth. -/

inductive Tidy : Datum → Prop where
  | leaf {d : Datum} : (∀ xs, d ≠ .list xs) → (∀ fields, d ≠ .table fields) → Tidy d
  | list {xs : List Datum} : (∀ d ∈ xs, Tidy d) → Tidy (.list xs)
  | table {fields : List (String × Datum)} : (fields.map (·.1)).Nodup → (∀ f ∈ fields, Tidy f.2) →
      Tidy (.table fields)

theorem tableTidy (fields : List (String × Datum)) (parts : ∀ f ∈ fields, Tidy f.2) : Tidy (table fields) := by
  obtain ⟨distinct, known⟩ := bindAllKept fields [] (by simp)
  exact .table distinct fun f member => parts f ((known f member).resolve_right (by simp))

theorem itemsAll {α : Type} {item : List Char → Option (α × Rest)} {p : α → Prop}
    (sound : ∀ cs a rest, item cs = some (a, rest) → p a) {close : Char} {n : Nat} {cs rest : List Char}
    {as : List α} (read : items item close n cs = some (as, rest)) : ∀ a ∈ as, p a := by
  induction n generalizing cs as with
  | zero => simp [items] at read
  | succ n ih =>
    simp only [items, Option.bind_eq_bind, Option.bind_eq_some_iff] at read
    obtain ⟨⟨first, more⟩, one, read⟩ := read
    simp only at read
    split at read
    · split at read
      · cases read
        simpa using sound _ _ _ one
      · split at read
        · obtain ⟨⟨others, tail⟩, two, read⟩ := Option.bind_eq_some_iff.1 read
          cases read
          simp only [List.mem_cons, forall_eq_or_imp]
          exact ⟨sound _ _ _ one, ih two⟩
        · cases read
    · cases read

theorem fieldTidy {item : List Char → Option (Datum × Rest)} (sound : ∀ cs d rest, item cs = some (d, rest) → Tidy d)
    {cs rest : List Char} {f : String × Datum} (read : field item cs = some (f, rest)) : Tidy f.2 := by
  unfold field at read
  split at read
  · simp only [Option.bind_eq_bind, Option.bind_eq_some_iff] at read
    obtain ⟨⟨key, more⟩, _, read⟩ := read
    simp only at read
    split at read
    · obtain ⟨⟨d, tail⟩, one, read⟩ := Option.bind_eq_some_iff.1 read
      cases read
      exact sound _ _ _ one
    · cases read
  · cases read

theorem wordTidy {text : String} {d r : Datum} {cs rest : List Char} (tidy : Tidy d)
    (read : word text d cs = some (r, rest)) : Tidy r := by
  unfold word at read
  split at read
  · cases read; exact tidy
  · cases read

theorem unsignedTidy {negative : Bool} {cs rest : List Char} {d : Datum}
    (read : unsigned negative cs = some (d, rest)) : Tidy d := by
  simp only [unsigned, Option.bind_eq_bind, Option.bind_eq_some_iff] at read
  obtain ⟨⟨whole, more⟩, _, read⟩ := read
  simp only at read
  split at read
  · cases read
  · obtain ⟨⟨part, more⟩, _, read⟩ := Option.bind_eq_some_iff.1 read
    obtain ⟨⟨power, more⟩, _, read⟩ := Option.bind_eq_some_iff.1 read
    simp only at read
    split at read <;> cases read <;> exact .leaf (by simp) (by simp)

/-! The cases of a value before its brackets; what is left is the nested part. -/

theorem scalarTidy (c : Char) (cs : List Char) {rest : List Char} {d : Datum} (nested : Option (Datum × Rest))
    (inner : nested = some (d, rest) → Tidy d)
    (read : (if c = '"' then (string cs).map fun (s, r) => (Datum.text s, r)
      else if c = 't' then word "true" (.bool true) (c :: cs)
      else if c = 'f' then word "false" (.bool false) (c :: cs)
      else if c = 'n' then word "null" .null (c :: cs)
      else if c = 'N' then word "NaN" .unreal (c :: cs)
      else if c = 'I' then word "Infinity" .unreal (c :: cs)
      else if c = '-' then
        match cs with
        | 'I' :: _ => word "Infinity" .unreal cs
        | _ => unsigned true cs
      else if isDigit c then unsigned false (c :: cs)
      else nested) = some (d, rest)) : Tidy d := by
  split at read
  · obtain ⟨⟨s, tail⟩, _, same⟩ := Option.map_eq_some_iff.1 read
    cases same
    exact .leaf (by simp) (by simp)
  iterate 5
    split at read
    · exact wordTidy (.leaf (by simp) (by simp)) read
  split at read
  · split at read
    · exact wordTidy (.leaf (by simp) (by simp)) read
    · exact unsignedTidy read
  split at read
  · exact unsignedTidy read
  · exact inner read

theorem valueTidy {depth : Nat} {cs rest : List Char} {d : Datum} (read : value depth cs = some (d, rest)) :
    Tidy d := by
  induction depth generalizing cs rest d with
  | zero =>
    cases cs with
    | nil => simp [value] at read
    | cons c cs =>
      exact scalarTidy c cs none (fun stuck => by cases stuck) read
  | succ depth ih =>
    cases cs with
    | nil => simp [value] at read
    | cons c cs =>
      refine scalarTidy c cs _ (fun nested => ?_) read
      split at nested
      · split at nested
        · cases nested; exact .list (by simp)
        · obtain ⟨⟨xs, tail⟩, parts, same⟩ := Option.map_eq_some_iff.1 nested
          cases same
          exact .list (itemsAll (fun _ _ _ => ih) parts)
      · split at nested
        · split at nested
          · cases nested; exact .table (by simp) (by simp)
          · obtain ⟨⟨fields, tail⟩, parts, same⟩ := Option.map_eq_some_iff.1 nested
            cases same
            exact tableTidy fields (itemsAll (fun _ _ _ => fieldTidy fun _ _ _ => ih) parts)
        · cases nested

theorem readTidy {text : String} {d : Datum} (read : read text = some d) : Tidy d := by
  unfold Json.read at read
  split at read
  · rename_i found
    split at read
    · cases read; exact valueTidy found
    · cases read
  · cases read

end SharedState.Json
