/-
Expressions: constants, names, list displays, arithmetic, subscripts, members, calls, and names bound on the way.

A product binds closer than a sum, a minus sign closer than a product, and a subscript, a member or a call closest. Sums and
products group to the left. Adjacent quoted texts are one text.

The parser has one function for each level. Every level takes at least one lexeme or hands on to a closer one, so a
budget of eight steps for each lexeme is never used up.
-/
import PercentLiteral.Expression.Lexeme

namespace PercentLiteral.Expression

/-- the operations between two operands -/
inductive Operation where
  | add
  | subtract
  | multiply
  deriving DecidableEq, Repr

end Expression

/-- an expression -/
inductive Expression where
  | constant (v : Value)
  | name (n : Text)
  | display (items : List Expression)
  | bind (n : Text) (e : Expression)
  | negate (e : Expression)
  | apply (op : Expression.Operation) (a b : Expression)
  | subscript (e index : Expression)
  | reversed (e : Expression)
  | member (e : Expression) (n : Text)
  | call (f : Expression) (args : List Expression)

namespace Expression

/-- words that are no names -/
def reserved : List String := [
  "and", "as", "assert", "async", "await", "break", "class", "continue", "def", "del", "elif", "else", "except",
  "finally", "for", "from", "global", "if", "import", "in", "is", "lambda", "nonlocal", "not", "or", "pass", "raise",
  "return", "try", "while", "with", "yield"]

/-- the constant that a word is, if it is one -/
def constantWord? (w : Text) : Option Value :=
  if w = text "True" then some (.bool true)
  else if w = text "False" then some (.bool false)
  else if w = text "None" then some .none
  else none

/-- the lexemes that are left -/
abbrev Rest := List Lexeme

/-- the first lexeme is where the form is broken -/
def broken {α : Type} : Rest → Except SyntaxFault (α × Rest)
  | [] => .error (.invalid 0)
  | l :: _ => .error (.invalid l.line)

/-- takes a sign -/
def expectSign (c : Char) : Rest → Except SyntaxFault (Unit × Rest)
  | ⟨.sign d, n⟩ :: r => if d = c then .ok ((), r) else broken (⟨.sign d, n⟩ :: r)
  | r => broken r

/-- the quoted texts at the front, joined -/
def strings : Rest → Text × Rest
  | ⟨.string t, _⟩ :: r => let p := strings r; (t ++ p.1, p.2)
  | r => ([], r)

/-- inside brackets, an expression right behind another one lacks a comma -/
def missingComma (first : Rest) (behind : Rest) : Option SyntaxFault :=
  match first, behind with
  | ⟨.word _, _⟩ :: ⟨.string _, _⟩ :: _, _ => none
  | l :: _, ⟨.word w, _⟩ :: _ => if w ∈ reserved.map text then none else some (.commaForgotten l.line)
  | l :: _, ⟨.number _, _⟩ :: _ => some (.commaForgotten l.line)
  | l :: _, ⟨.string _, _⟩ :: _ => some (.commaForgotten l.line)
  | _, _ => none

mutual

/-- an expression inside brackets, where a name may be bound -/
def inner : (budget : Nat) → Rest → Except SyntaxFault (Expression × Rest)
  | 0, r => broken r
  | n + 1, ⟨.word w, _⟩ :: ⟨.assign, _⟩ :: r => do
    let (e, rest) ← sum n r
    return (.bind w e, rest)
  | n + 1, r => do
    let (e, rest) ← sum n r
    match missingComma r rest with
    | some f => throw f
    | none => return (e, rest)

/-- the items up to a closing bracket, with a comma between neighbours and perhaps behind the last -/
def items (close : Char) : (budget : Nat) → Rest → Except SyntaxFault (List Expression × Rest)
  | 0, r => broken r
  | n + 1, r =>
    match expectSign close r with
    | .ok (_, rest) => .ok ([], rest)
    | .error _ => do
      let (e, rest) ← inner n r
      match rest with
      | ⟨.sign ',', _⟩ :: rest =>
        let (es, rest) ← items close n rest
        return (e :: es, rest)
      | rest =>
        let (_, rest) ← expectSign close rest
        return ([e], rest)

/-- sums and differences -/
def sum : (budget : Nat) → Rest → Except SyntaxFault (Expression × Rest)
  | 0, r => broken r
  | n + 1, r => do
    let (a, rest) ← product n r
    sumTail n a rest

/-- what is added to an operand -/
def sumTail : (budget : Nat) → Expression → Rest → Except SyntaxFault (Expression × Rest)
  | 0, _, r => broken r
  | n + 1, a, ⟨.sign '+', _⟩ :: r => do
    let (b, rest) ← product n r
    sumTail n (.apply .add a b) rest
  | n + 1, a, ⟨.sign '-', _⟩ :: r => do
    let (b, rest) ← product n r
    sumTail n (.apply .subtract a b) rest
  | _ + 1, a, r => .ok (a, r)

/-- products -/
def product : (budget : Nat) → Rest → Except SyntaxFault (Expression × Rest)
  | 0, r => broken r
  | n + 1, r => do
    let (a, rest) ← factor n r
    productTail n a rest

/-- what an operand is multiplied with -/
def productTail : (budget : Nat) → Expression → Rest → Except SyntaxFault (Expression × Rest)
  | 0, _, r => broken r
  | n + 1, a, ⟨.sign '*', _⟩ :: r => do
    let (b, rest) ← factor n r
    productTail n (.apply .multiply a b) rest
  | _ + 1, a, r => .ok (a, r)

/-- an operand with its minus signs -/
def factor : (budget : Nat) → Rest → Except SyntaxFault (Expression × Rest)
  | 0, r => broken r
  | n + 1, ⟨.sign '-', _⟩ :: r => do
    let (e, rest) ← factor n r
    return (.negate e, rest)
  | n + 1, r => do
    let (e, rest) ← atom n r
    postfixes n e rest

/-- the subscripts, members and calls behind an operand -/
def postfixes : (budget : Nat) → Expression → Rest → Except SyntaxFault (Expression × Rest)
  | 0, _, r => broken r
  | n + 1, e, ⟨.sign '[', _⟩ :: ⟨.sign ':', _⟩ :: ⟨.sign ':', _⟩ :: ⟨.sign '-', _⟩ :: ⟨.number 1, _⟩ ::
      ⟨.sign ']', _⟩ :: r => postfixes n (.reversed e) r
  | n + 1, e, ⟨.sign '[', _⟩ :: r => do
    let (i, rest) ← inner n r
    let (_, rest) ← expectSign ']' rest
    postfixes n (.subscript e i) rest
  | n + 1, e, ⟨.sign '.', _⟩ :: ⟨.word w, line⟩ :: r =>
    if w ∈ reserved.map text ∨ (constantWord? w).isSome then broken (⟨.word w, line⟩ :: r)
    else postfixes n (.member e w) r
  | n + 1, e, ⟨.sign '(', _⟩ :: r => do
    let (args, rest) ← items ')' n r
    postfixes n (.call e args) rest
  | _ + 1, e, r => .ok (e, r)

/-- a constant, a name, an expression in brackets, or a list -/
def atom : (budget : Nat) → Rest → Except SyntaxFault (Expression × Rest)
  | 0, r => broken r
  | n + 1, r => match r with
    | ⟨.number k, _⟩ :: rest => .ok (.constant (.int k), rest)
    | ⟨.string _, _⟩ :: _ => let p := strings r; .ok (.constant (.str p.1), p.2)
    | ⟨.word w, _⟩ :: rest =>
      match constantWord? w with
      | some v => .ok (.constant v, rest)
      | none => if w ∈ reserved.map text then broken r else .ok (.name w, rest)
    | ⟨.sign '(', _⟩ :: rest => do
      let (e, rest) ← inner n rest
      let (_, rest) ← expectSign ')' rest
      return (e, rest)
    | ⟨.sign '[', _⟩ :: rest => do
      let (es, rest) ← items ']' n rest
      return (.display es, rest)
    | r => broken r

end

/-- line breaks behind an expression mean nothing -/
def skipBreaks : Rest → Rest
  | ⟨.lineBreak, _⟩ :: r => skipBreaks r
  | r => r

/-- the expression that a text spells; a text of blanks spells none -/
def parse (t : Text) : Except SyntaxFault Expression := do
  let stripped := Text.strip t
  if stripped = [] then throw (.invalid 0)
  let ls ← lex 1 [] stripped
  let (e, rest) ← sum (8 * ls.length + 8) ls
  match skipBreaks rest with
  | [⟨.stop, _⟩] => return e
  | r => (·.1) <$> broken r

end Expression

end PercentLiteral
