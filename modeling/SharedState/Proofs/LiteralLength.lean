import SharedState.TypeExpr

/-! The extent of string literals. The literals of a text are distinct pieces of it, so together they are no longer than the text; and a
literal is longer than its value, whatever its letters, quotes and escapes. -/
namespace SharedState.Source

open SharedState.Text

/-! Scans split a text. -/

/-- What is taken from the head of a text and the rest make up the text. -/
def Scan.Splits (scan : Scan) : Prop := ∀ cs t r, scan cs = some (t, r) → t ++ r = cs

theorem takenAfter {found : Option (List Char × List Char)} {rest t r : List Char} (front : List Char)
    (splits : ∀ t r, found = some (t, r) → t ++ r = rest)
    (taken : found.map (fun (t, r) => (front ++ t, r)) = some (t, r)) : t ++ r = front ++ rest := by
  obtain ⟨⟨u, s⟩, made, same⟩ := Option.map_eq_some_iff.1 taken
  cases same
  rw [List.append_assoc, splits _ _ made]

theorem takenHere {front rest t r : List Char} (taken : some (front, rest) = some (t, r)) : t ++ r = front ++ rest := by
  cases taken
  rfl

theorem Scan.andThenSplits {a b : Scan} (first : a.Splits) (second : b.Splits) : (a.andThen b).Splits := by
  intro cs t r taken
  unfold Scan.andThen at taken
  split at taken
  · cases taken
  · rename_i front rest before
    split at taken
    · cases taken
    · rename_i next last after
      cases taken
      rw [List.append_assoc, second _ _ _ after, first _ _ _ before]

theorem moreDigitsSplits (isDigit : Char → Bool) : Scan.Splits (moreDigits isDigit) := by
  intro cs
  fun_induction moreDigits isDigit cs <;> intro t r taken
  case case3 ih => exact takenAfter [_, _] ih taken
  case case5 ih => exact takenAfter [_] ih taken
  all_goals first | cases taken; done | exact takenHere taken

theorem moreZerosSplits : Scan.Splits moreZeros := by
  intro cs
  fun_induction moreZeros cs <;> intro t r taken
  case case1 ih => exact takenAfter [_] ih taken
  case case2 ih => exact takenAfter [_, _] ih taken
  all_goals first | cases taken; done | exact takenHere taken

theorem imaginaryUnitSplits : Scan.Splits imaginaryUnit := by
  intro cs
  fun_cases imaginaryUnit cs <;> intro t r taken <;> exact takenHere taken

theorem fractionDigitsSplits : Scan.Splits fractionDigits := by
  intro cs
  fun_cases fractionDigits cs <;> intro t r taken
  · exact takenAfter [_] (moreDigitsSplits _ _) taken
  all_goals exact takenHere taken

theorem fractionSplits : Scan.Splits fraction := by
  intro cs
  fun_cases fraction cs <;> intro t r taken
  · exact takenAfter [_] (fractionDigitsSplits _) taken
  · exact takenHere taken

theorem exponentSplits : Scan.Splits exponent := by
  intro cs
  fun_cases exponent cs <;> intro t r taken
  case case1 => exact takenAfter [_, _] (moreDigitsSplits _ _) taken
  case case2 => exact takenAfter [_, _, _] (moreDigitsSplits _ _) taken
  all_goals first | cases taken; done | exact takenHere taken

theorem decimalEndSplits : Scan.Splits decimalEnd :=
  Scan.andThenSplits fractionSplits (Scan.andThenSplits exponentSplits imaginaryUnitSplits)

theorem radixDigitsSplits (isDigit : Char → Bool) : Scan.Splits (radixDigits isDigit) := by
  intro cs
  fun_cases radixDigits isDigit cs <;> intro t r taken
  case case2 gap c rest _ digits d more _ opened made =>
    have whole : gap ++ c :: rest = cs := by split at opened <;> cases opened <;> rfl
    rw [takenHere taken, List.append_assoc, List.cons_append, moreDigitsSplits _ _ _ _ made, whole]
  case case3 gap c rest _ digits opened made =>
    have whole : gap ++ c :: rest = cs := by split at opened <;> cases opened <;> rfl
    rw [takenHere taken, List.append_assoc, List.cons_append, moreDigitsSplits _ _ _ _ made, whole]
  all_goals cases taken

theorem zeroNumeralSplits : Scan.Splits zeroNumeral := by
  intro cs t r taken
  unfold zeroNumeral at taken
  obtain ⟨⟨zeros, afterZeros⟩, first, taken⟩ := Option.bind_eq_some_iff.1 taken
  obtain ⟨⟨digits, afterDigits⟩, second, taken⟩ := Option.bind_eq_some_iff.1 taken
  obtain ⟨⟨tail, rest⟩, third, taken⟩ := Option.bind_eq_some_iff.1 taken
  dsimp only at taken
  split at taken
  · cases taken
  · cases taken
    rw [List.append_assoc, List.append_assoc, decimalEndSplits _ _ _ third, fractionDigitsSplits _ _ _ second,
      moreZerosSplits _ _ _ first]

theorem numeralSplits : Scan.Splits numeral := by
  intro cs
  fun_cases numeral cs <;> intro t r taken
  · exact decimalEndSplits _ _ _ taken
  · exact takenAfter [_, _] (radixDigitsSplits _ _) taken
  · exact takenAfter [_, _] (radixDigitsSplits _ _) taken
  · exact takenAfter [_, _] (radixDigitsSplits _ _) taken
  · exact takenAfter [_] (zeroNumeralSplits _) taken
  · exact takenAfter [_] (Scan.andThenSplits (moreDigitsSplits _) decimalEndSplits _) taken
  · cases taken

theorem singleBodySplits (quote : Char) : Scan.Splits (singleBody quote) := by
  intro cs
  fun_induction singleBody quote cs <;> intro t r taken
  case case3 ih => exact takenAfter [_, _] ih taken
  case case5 ih => exact takenAfter [_] ih taken
  all_goals first | cases taken; done | exact takenHere taken

theorem tripleBodySplits (quote : Char) : Scan.Splits (tripleBody quote) := by
  intro cs
  fun_induction tripleBody quote cs <;> intro t r taken
  case case2 ih => exact takenAfter [_, _] ih taken
  case case3 c rest _ closes =>
    obtain ⟨rfl, next⟩ : c = quote ∧ rest.take 2 = [quote, quote] := by simpa using closes
    rw [takenHere taken, ← List.take_append_drop 2 rest, next]
    rfl
  case case4 ih => exact takenAfter [_] ih taken
  all_goals cases taken

theorem bodySplits (style : QuoteStyle) : Scan.Splits (body style) := by
  unfold body
  split
  · exact tripleBodySplits _
  · exact singleBodySplits _

theorem escapeNameSplits : Scan.Splits escapeName := by
  intro cs
  fun_induction escapeName cs <;> intro t r taken
  case case4 ih => exact takenAfter [_] ih taken
  all_goals first | cases taken; done | exact takenHere taken

theorem doubledHead {c : Char} {rest : List Char} (next : rest.head? = some c) : [c, c] ++ rest.tail = c :: rest := by
  cases rest with
  | nil => cases next
  | cons d rest =>
    cases next
    rfl

theorem formattedTextSplits (s : QuoteStyle) (inFormat : Bool) (n : Nat) : Scan.Splits (formattedText s inFormat n) := by
  intro cs
  fun_induction formattedText s inFormat n cs <;> intro t r taken
  case case5 _ _ _ opens next ih =>
    refine (takenAfter [_, _] (ih _) taken).trans (doubledHead ?_)
    rw [eq_of_beq opens]
    simpa using (Bool.and_eq_true_iff.1 next).2
  case case8 _ _ _ _ closes _ next ih =>
    refine (takenAfter [_, _] (ih _) taken).trans (doubledHead ?_)
    rw [eq_of_beq closes]
    exact eq_of_beq next
  case case11 _ _ _ escaped _ _ _ ih =>
    rw [eq_of_beq escaped]
    exact takenAfter [_, _] (ih _) taken
  case case13 _ _ _ escaped _ _ name more named _ ih =>
    rw [takenAfter _ (ih _) taken, List.append_assoc, escapeNameSplits _ _ _ named, eq_of_beq escaped]
    rfl
  case case14 ih => exact takenAfter [_] (ih _) taken
  case case15 ih => exact takenAfter [_, _] (ih _) taken
  case case16 ih => exact takenAfter [_] (ih _) taken
  all_goals first | cases taken; done | exact takenHere taken

theorem leadingBlankSplits (cs : List Char) : (leadingBlank cs).1 ++ (leadingBlank cs).2 = cs := by
  fun_induction leadingBlank cs <;> simp_all

theorem styleAfterSplits {letters cs rest : List Char} {style : QuoteStyle} (found : styleAfter? letters cs = some (style, rest)) :
    style.letters ++ style.mark ++ rest = letters ++ cs := by
  revert found
  fun_cases styleAfter? letters cs <;> intro found <;> cases found
  case case1 same =>
    obtain ⟨rfl, rfl⟩ : _ = _ ∧ _ = _ := by simpa using same
    simp [QuoteStyle.mark]
  all_goals simp [QuoteStyle.mark]

theorem literalStartSplits {cs rest : List Char} {style : QuoteStyle} (found : literalStart? cs = some (style, rest)) :
    style.opening ++ rest = cs := by
  revert found
  fun_cases literalStart? cs <;> intro found
  case case1 _ plain => exact styleAfterSplits (plain.trans found)
  case case2 lettered _ => exact styleAfterSplits (lettered.trans found)
  case case3 => exact styleAfterSplits found
  all_goals cases found

theorem markFilled (style : QuoteStyle) : 0 < style.mark.length := by
  unfold QuoteStyle.mark
  split <;> simp

/-! Tokens of a text. -/

def TokenKind.literalLength : TokenKind → Nat
  | .string raw => raw.toList.length
  | _ => 0

def literalsLength : List Token → Nat
  | [] => 0
  | t :: ts => t.kind.literalLength + literalsLength ts

@[simp] theorem literalsLengthCons (t : Token) (ts : List Token) :
    literalsLength (t :: ts) = t.kind.literalLength + literalsLength ts := rfl

theorem literalsLengthAppend (ts us : List Token) : literalsLength (ts ++ us) = literalsLength ts + literalsLength us := by
  induction ts with
  | nil => exact (Nat.zero_add _).symm
  | cons t ts ih => rw [List.cons_append, literalsLengthCons, literalsLengthCons, ih, Nat.add_assoc]

theorem literalsLengthReverse (ts : List Token) : literalsLength ts.reverse = literalsLength ts := by
  induction ts with
  | nil => rfl
  | cons t ts ih =>
    rw [List.reverse_cons, literalsLengthAppend, ih, literalsLengthCons, Nat.add_comm]
    rfl

/-- The string literals so far and the text that is left are not longer than they were before. -/
def Lexing.Advances (s : Lexing) (cs : List Char) (s' : Lexing) (cs' : List Char) : Prop :=
  literalsLength s'.tokens + cs'.length ≤ literalsLength s.tokens + cs.length

theorem closeBlocksLength (column : Nat) (s : Lexing) (blocks : List Indentation) :
    literalsLength (closeBlocks column s blocks).tokens = literalsLength s.tokens := by
  induction blocks generalizing s with
  | nil => rfl
  | cons i blocks ih =>
    rw [closeBlocks]
    split
    · rw [ih]
      simp [Lexing.emit, TokenKind.literalLength]
    · rfl

@[simp] theorem takeLength (s : Lexing) (kind : TokenKind) (text : List Char) :
    literalsLength (s.take kind text).tokens = kind.literalLength + literalsLength s.tokens := rfl

@[simp] theorem skipTokens (s : Lexing) (text : List Char) : (s.skip text).tokens = s.tokens := rfl

theorem indentToLength {blank : List Char} {s s' : Lexing} (done : indentTo blank s = some s') :
    literalsLength s'.tokens = literalsLength s.tokens := by
  unfold indentTo at done
  dsimp only at done
  repeat' split at done
  all_goals cases done
  all_goals simp [Lexing.emit, TokenKind.literalLength, closeBlocksLength]

theorem startStatementAdvances {blank cs cs' : List Char} {s s' : Lexing} (done : startStatement blank s cs = some (s', cs')) :
    s.Advances cs s' cs' := by
  unfold startStatement at done
  obtain ⟨t, indented, done⟩ := Option.bind_eq_some_iff.1 done
  have blanks := congrArg List.length (leadingBlankSplits cs)
  have kept : literalsLength t.tokens = literalsLength s.tokens := indentToLength (s := s.skip blank) indented
  dsimp only at done
  split at done
  · cases done
  · cases done
    simp only [Lexing.Advances, kept, List.length_append] at *
    omega

theorem operatorAtShortens {cs rest : List Char} {ops : List String} {o : String} (found : operatorAt cs ops = some (o, rest)) :
    rest.length ≤ cs.length := by
  induction ops with
  | nil => cases found
  | cons p ops ih =>
    rw [operatorAt] at found
    split at found
    · cases found
      simp
    · exact ih found

theorem closeTokens {s s' : Lexing} {c : Char} (done : close s c = some s') : s'.tokens = s.tokens := by
  revert done
  fun_cases close s c <;> intro done <;> cases done <;> rfl

theorem lexOperatorAdvances {s s' : Lexing} {cs cs' : List Char} (done : lexOperator s cs = some (s', cs')) :
    s.Advances cs s' cs' := by
  unfold lexOperator at done
  split at done
  case h_4 =>
    obtain ⟨⟨o, rest⟩, found, done⟩ := Option.bind_eq_some_iff.1 done
    have shorter := operatorAtShortens found
    have kept : literalsLength s'.tokens = literalsLength s.tokens ∧ cs' = rest := by
      dsimp only at done
      split at done
      case h_4 | h_5 | h_6 =>
        obtain ⟨t, closed, done⟩ := Option.bind_eq_some_iff.1 done
        cases done
        simp [closeTokens closed, TokenKind.literalLength]
      all_goals
        cases done
        simp [Lexing.push, TokenKind.literalLength]
    obtain ⟨same, rfl⟩ := kept
    rw [Lexing.Advances, same]
    omega
  all_goals
    cases done
    simp [Lexing.Advances, TokenKind.literalLength]
    try omega

theorem lexStringAdvances {s s' : Lexing} {style : QuoteStyle} {cs cs' : List Char} (done : lexString s style cs = some (s', cs')) :
    s.Advances (style.opening ++ cs) s' cs' := by
  unfold lexString at done
  split at done
  · cases done
    simp [Lexing.Advances, Lexing.push, TokenKind.literalLength]
  · obtain ⟨⟨content, rest⟩, read, done⟩ := Option.bind_eq_some_iff.1 done
    cases done
    have whole := congrArg List.length (bodySplits style _ _ _ read)
    simp only [List.length_append] at whole
    simp [Lexing.Advances, TokenKind.literalLength]
    omega

theorem lexNameAdvances {s s' : Lexing} {cs cs' : List Char} (done : lexName s cs = some (s', cs')) : s.Advances cs s' cs' := by
  unfold lexName at done
  dsimp only at done
  split at done
  · cases done
    simpa [Lexing.Advances, TokenKind.literalLength] using dropWhileLength isNameFollow cs
  · cases done

theorem lexNumberAdvances {s s' : Lexing} {cs cs' : List Char} (done : lexNumber s cs = some (s', cs')) : s.Advances cs s' cs' := by
  unfold lexNumber at done
  obtain ⟨⟨text, rest⟩, read, done⟩ := Option.bind_eq_some_iff.1 done
  cases done
  have whole := congrArg List.length (numeralSplits _ _ _ read)
  simp only [List.length_append] at whole
  simp [Lexing.Advances, TokenKind.literalLength]
  omega

theorem lexTokenAdvances {s s' : Lexing} {cs cs' : List Char} (done : lexToken s cs = some (s', cs')) : s.Advances cs s' cs' := by
  unfold lexToken at done
  split at done
  · cases done
  · split at done
    · split at done
      · rename_i style content start
        rw [← literalStartSplits start]
        exact lexStringAdvances done
      · exact lexNameAdvances done
    · split at done
      · exact lexNumberAdvances done
      · exact lexOperatorAdvances done

theorem lexFormattedAdvances {s s' : Lexing} {style : QuoteStyle} {inFormat : Bool} {cs cs' : List Char}
    (done : lexFormatted s style inFormat cs = some (s', cs')) : s.Advances cs s' cs' := by
  unfold lexFormatted at done
  obtain ⟨⟨text, rest⟩, read, done⟩ := Option.bind_eq_some_iff.1 done
  have whole := congrArg List.length (formattedTextSplits style inFormat _ _ _ _ read)
  have kept : literalsLength (if text.isEmpty then s else s.take .formattedText text).tokens = literalsLength s.tokens := by
    split
    · rfl
    · simp [TokenKind.literalLength]
  dsimp only at done
  generalize (if text.isEmpty then s else s.take .formattedText text) = t at done kept
  have shorter : literalsLength s'.tokens = literalsLength s.tokens ∧ cs'.length ≤ rest.length := by
    split at done
    · cases done
      simp [Lexing.push, TokenKind.literalLength, kept]
    · cases done
      simp [Lexing.pop, TokenKind.literalLength, kept]
    · obtain ⟨more, closed, done⟩ := Option.bind_eq_some_iff.1 done
      unfold closing? at closed
      split at closed
      · cases closed
        split at done
        · cases done
        · cases done
          simp [Lexing.pop, TokenKind.literalLength, kept]
      · cases closed
  rw [List.length_append] at whole
  rw [Lexing.Advances, shorter.1]
  omega

/- Every step is within what is left of the text. -/
theorem lexLength {n : Nat} {fresh : Bool} {s s' : Lexing} {cs : List Char} (done : lex n fresh s cs = some s') :
    literalsLength s'.tokens ≤ literalsLength s.tokens + cs.length := by
  revert done
  fun_induction lex n fresh s cs <;> intro done
  case case3 s cs _ rest line ih =>
    have left := dropWhileLength isInlineBlank cs
    have later := ih done
    simp only [line, List.length_cons, skipTokens] at left later
    omega
  case case5 s cs _ rest line _ _ more comment ih =>
    have left := dropWhileLength isInlineBlank cs
    have further := dropWhileLength (· != '\n') rest
    have later := ih done
    simp only [line, comment, List.length_cons, skipTokens] at left further later
    omega
  case case7 s cs _ c rest _ _ line t more started ih =>
    have left := dropWhileLength isInlineBlank cs
    have step := startStatementAdvances started
    have later := ih done
    rw [line] at left
    rw [Lexing.Advances] at step
    omega
  case case9 step ih | case11 step ih =>
    rw [step] at done
    exact Nat.le_trans (ih done) (lexFormattedAdvances step)
  case case14 ih | case15 ih | case17 ih | case19 ih =>
    have later := ih done
    simp only [takeLength, TokenKind.literalLength, skipTokens, List.length_cons] at later ⊢
    omega
  case case18 rest _ _ ih =>
    have left := dropWhileLength (· != '\n') rest
    have later := ih done
    simp only [skipTokens, List.length_cons] at later ⊢
    omega
  case case21 step _ _ _ ih => exact Nat.le_trans (ih done) (lexTokenAdvances step)
  case case8 step | case10 step =>
    rw [step] at done
    cases done
  case case12 =>
    cases done
    simp [Lexing.emit, TokenKind.literalLength]
  all_goals
    cases done
    try omega

theorem unixLinesLength (cs : List Char) : (unixLines cs).length ≤ cs.length := by
  fun_induction unixLines cs <;> simp only [List.length_cons, List.length_nil] <;> omega

theorem tokensLength {text : String} {ts : List Token} (read : tokens? text = some ts) : literalsLength ts ≤ text.toList.length := by
  unfold tokens? at read
  dsimp only at read
  split at read
  · cases read
  · obtain ⟨s, lexed, read⟩ := Option.bind_eq_some_iff.1 read
    cases read
    have within := lexLength lexed
    have lines := unixLinesLength text.toList
    have same : literalsLength ((closeBlocks 0 s s.indentations).emit .finish).tokens.reverse = literalsLength s.tokens := by
      rw [literalsLengthReverse]
      exact (Nat.zero_add _).trans (closeBlocksLength 0 s s.indentations)
    rw [same]
    exact Nat.le_trans within (Nat.le_trans (Nat.le_of_eq (Nat.zero_add _)) lines)

/-! Values of literals. -/

theorem hexEscapeLength {count code : Nat} {cs rest : List Char} (read : hexEscape count cs = some (code, rest)) :
    rest.length ≤ cs.length := by
  unfold hexEscape at read
  dsimp only at read
  split at read
  · cases read
    simp
  · cases read

theorem hexCodes {count : Nat} {cs rest : List Char} {codes : List Nat}
    (read : (hexEscape count cs).map (fun (code, r) => ([code], r)) = some (codes, rest)) : codes.length + rest.length ≤ cs.length + 1 := by
  obtain ⟨⟨code, r⟩, made, same⟩ := Option.map_eq_some_iff.1 read
  have shorter := hexEscapeLength made
  cases same
  simp only [List.length_singleton]
  omega

variable {charset : CharacterNames}

/- An escape stands for one character at most; what is no escape stands for a backslash and itself. -/
theorem escapeLength {isBytes : Bool} {cs rest : List Char} {codes : List Nat} (read : escape isBytes cs = some (codes, rest)) :
    codes.length + rest.length ≤ cs.length + 1 := by
  revert read
  fun_cases escape isBytes cs <;> intro read
  case case5 | case7 => exact Nat.le_succ_of_le (hexCodes read)
  case case8 made _ =>
    have shorter := hexEscapeLength made
    cases read
    simp only [List.length_cons, List.length_nil]
    omega
  case case11 more _ _ _ _ _ named =>
    have shorter := dropWhileLength (· != '\x7d') more
    rw [named] at shorter
    cases read
    simp only [List.length_cons, List.length_nil] at shorter ⊢
    omega
  all_goals cases read
  all_goals
    simp only [List.length_cons, List.length_nil, List.length_drop]
    omega

theorem decodeLength {isBytes : Bool} {n : Nat} {cs : List Char} {codes : List Nat} (read : decode isBytes n cs = some codes) :
    codes.length ≤ cs.length := by
  revert codes
  fun_induction decode isBytes n cs <;> intro codes read
  case case5 escaped ih =>
    obtain ⟨later, made, rfl⟩ := Option.map_eq_some_iff.1 read
    have first := escapeLength escaped
    have others := ih made
    rw [List.length_append, List.length_cons]
    omega
  case case6 ih =>
    obtain ⟨later, made, rfl⟩ := Option.map_eq_some_iff.1 read
    exact Nat.succ_le_succ (ih made)
  all_goals
    cases read
    try exact Nat.zero_le _

/- The quotes count, except in a text that is no literal: its value is empty. -/
theorem literalValueLength {raw : String} {codes : List Nat} (read : literalValue raw = .ok (.text codes)) :
    codes.length ≤ raw.toList.length - 1 := by
  unfold literalValue at read
  split at read
  · cases read
    exact Nat.zero_le _
  · rename_i style rest start
    have whole := congrArg List.length (literalStartSplits start)
    have quoted := markFilled style
    have content : (rest.take (rest.length - style.mark.length)).length ≤ rest.length := by simp
    rw [QuoteStyle.opening, List.length_append, List.length_append] at whole
    generalize rest.take (rest.length - style.mark.length) = body at read content
    have within : codes.length ≤ body.length := by
      dsimp only at read
      split at read
      · cases read
      · rename_i made
        split at read
        · cases read
        · cases read
          split at made
          · split at made <;> cases made
            simp
          · exact decodeLength made
    omega

def LiteralPiece.length : LiteralPiece → Nat
  | plain raw => raw.toList.length
  | formatted => 0

def piecesLength : List LiteralPiece → Nat
  | [] => 0
  | p :: pieces => p.length + piecesLength pieces

@[simp] theorem piecesLengthCons (p : LiteralPiece) (pieces : List LiteralPiece) :
    piecesLength (p :: pieces) = p.length + piecesLength pieces := rfl

theorem literalsValueLength {pieces : List LiteralPiece} {codes : List Nat} (read : literalsValue pieces = .ok (some (.text codes))) :
    codes.length ≤ piecesLength pieces - 1 := by
  revert codes
  fun_induction literalsValue pieces <;> intro codes read
  case case3 raw =>
    cases made : literalValue raw with
    | error e =>
      rw [made] at read
      cases read
    | ok value =>
      rw [made] at read
      cases read
      exact literalValueLength made
  case case8 raw rest _ _ a b first second ih =>
    cases read
    have front := literalValueLength first
    have back := ih second
    rw [List.length_append, piecesLengthCons, LiteralPiece.length]
    omega
  all_goals cases read

theorem plainTextLength {codes : List Nat} {text : String} (read : plainText codes = .ok text) : text.toList.length ≤ codes.length := by
  unfold plainText at read
  dsimp only at read
  split at read
  · cases read
  · cases read
    rw [String.toList_ofList, List.length_map, List.length_reverse]
    refine Nat.le_trans (List.dropWhile_sublist _).length_le ?_
    rw [List.length_reverse]
    exact (List.dropWhile_sublist _).length_le

end SharedState.Source
