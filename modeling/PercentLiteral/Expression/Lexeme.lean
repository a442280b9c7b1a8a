/-
The lexemes of an expression: words, whole numbers, quoted texts and signs, each with its line.

Inside brackets a line break is a blank; outside it is a lexeme. Brackets are matched here, so an unmatched one is found
before anything else is wrong with the expression.
-/
import PercentLiteral.Failure

namespace PercentLiteral.Expression

/-- what is wrong with the form of an expression, and in which line -/
inductive SyntaxFault where
  | invalid (line : Nat)
  | commaForgotten (line : Nat)
  | neverClosed (bracket : Char) (line : Nat)
  | unmatched (bracket : Char) (line : Nat)
  | mismatched (closing opening : Char) (line : Nat)
  | quoteUnterminated (line : Nat)
  | numberInvalid (line : Nat)
  | leadingZeros (line : Nat)
  deriving DecidableEq, Repr

/-- the sentence about a fault, with the line at its end -/
def SyntaxFault.message (f : SyntaxFault) : Text :=
  let char (c : Char) : Text := [.quote, .ofChar c, .quote]
  let said : Text × Nat := match f with
    | invalid n => (text "invalid syntax", n)
    | commaForgotten n => (text "invalid syntax. Perhaps you forgot a comma?", n)
    | neverClosed c n => (char c ++ text " was never closed", n)
    | unmatched c n => (text "unmatched " ++ char c, n)
    | mismatched c o n =>
      (text "closing parenthesis " ++ char c ++ text " does not match opening parenthesis " ++ char o, n)
    | quoteUnterminated n =>
      (text "unterminated string literal (detected at line " ++ Text.decimal n ++ text ")", n)
    | numberInvalid n => (text "invalid decimal literal", n)
    | leadingZeros n => (text ("leading zeros in decimal integer literals are not permitted; " ++
        "use an 0o prefix for octal integers"), n)
  said.1 ++ text " (<interpolation>, line " ++ Text.decimal said.2 ++ text ")"

/-- what a lexeme is -/
inductive Mark where
  | word (t : Text)
  | number (n : Nat)
  | string (t : Text)
  | sign (c : Char)
  | assign
  | lineBreak
  | stop
  deriving DecidableEq, Repr

/-- a lexeme and its line -/
structure Lexeme where
  mark : Mark
  line : Nat
  deriving DecidableEq, Repr

/-- a code point that may begin a word -/
def startsWord (c : CodePoint) : Bool :=
  (0x41 ≤ c.val && c.val ≤ 0x5A) || (0x61 ≤ c.val && c.val ≤ 0x7A) || c.val == 0x5F || 0x80 ≤ c.val

/-- a code point that may go on a word -/
def continuesWord (c : CodePoint) : Bool := startsWord c || c.isDigit

/-- a digit, or the low line between digits -/
def continuesNumber (c : CodePoint) : Bool := c.isDigit || c.val == 0x5F

/-- the brackets that are open, each with its line -/
abbrev Brackets := List (Char × Nat)

/-- the closing bracket of an opening one -/
def closing (c : Char) : Char := if c = '(' then ')' else if c = '[' then ']' else '\x7d'

/-- the lexemes of a text that begins in a line inside some brackets -/
def lex (line : Nat) (brackets : Brackets) : Text → Except SyntaxFault (List Lexeme)
  | [] => match brackets with
    | [] => .ok [⟨.stop, line⟩]
    | (c, n) :: _ => .error (.neverClosed c n)
  | c :: r =>
    if c = .newline then
      let rest := lex (line + 1) brackets r
      if brackets = [] then rest.map (⟨.lineBreak, line⟩ :: ·) else rest
    else if c = .space ∨ c.val = 0x09 ∨ c.val = 0x0C then lex line brackets r
    else if c.isDigit then
      let ds := r.takeWhile continuesNumber
      let rest := r.drop ds.length
      let digits := (c :: ds).filter CodePoint.isDigit
      if (rest.head?.map startsWord).getD false || (ds.getLast?.map (·.val == 0x5F)).getD false then
        .error (.numberInvalid line)
      else if c = .zero ∧ Text.toNat digits ≠ 0 then .error (.leadingZeros line)
      else (lex line brackets rest).map (⟨.number (Text.toNat digits), line⟩ :: ·)
    else if c = .quote ∨ c = .doubleQuote then
      let inside := r.takeWhile fun d => d ≠ c ∧ d ≠ .newline
      if (r.drop inside.length).head? = some c then
        (lex line brackets (r.drop (inside.length + 1))).map (⟨.string inside, line⟩ :: ·)
      else .error (.quoteUnterminated line)
    else if startsWord c then
      let ws := r.takeWhile continuesWord
      (lex line brackets (r.drop ws.length)).map (⟨.word (c :: ws), line⟩ :: ·)
    else if c = .colon ∧ r.head? = some .equals then
      (lex line brackets (r.drop 1)).map (⟨.assign, line⟩ :: ·)
    else
      let s := Char.ofNat c.val
      if s = '(' ∨ s = '[' ∨ c = .braceOpen then
        (lex line ((s, line) :: brackets) r).map (⟨.sign s, line⟩ :: ·)
      else if s = ')' ∨ s = ']' ∨ c = .braceClose then
        match brackets with
        | [] => .error (.unmatched s line)
        | (o, _) :: outer =>
          if closing o = s then (lex line outer r).map (⟨.sign s, line⟩ :: ·)
          else .error (.mismatched s o line)
      else (lex line brackets r).map (⟨.sign s, line⟩ :: ·)
termination_by t => t.length
decreasing_by all_goals (simp only [List.length_drop, List.length_cons]; omega)

end PercentLiteral.Expression
