/-
**Reading configuration texts.**  The tokens of a configuration text form statements: a table is
opened, a row of an array of tables is opened, or a key is given its value.

Main definitions:

* `Toml.key?` — a dotted key;
* `Toml.value?` — a value, with its brackets and braces;
* `Toml.Statement`, `Toml.statements?` — the statements of a text;
* `Toml.parse?` — the table of a text.
-/

import Chronicle.Toml.Token

set_option autoImplicit false

namespace Chronicle.Toml

/-- One more than the greatest number of parts of a key, and of brackets around one another. -/
def depthLimit : Nat := 80

/-! ### Keys -/

/-- A part of a key as it is written: a name, or a dot. -/
inductive KeyPart where
  | name (text : List Char)
  | dot
deriving DecidableEq

/-- The parts of a lexeme without quotes. -/
def bareParts (cs : List Char) : List KeyPart :=
  cs.foldr (fun c parts =>
    if c = '.' then .dot :: parts
    else match parts with
      | .name text :: rest => .name (c :: text) :: rest
      | _ => .name [c] :: parts) []

/-- Whether a character may stand in a name without quotes. -/
def isNameChar (c : Char) : Bool :=
  c.isAlphanum || c = '_' || c = '-'

/-- The parts of a key that the leading tokens hold, and the other tokens. -/
def keyParts? : List Token → Option (List KeyPart × List Token)
  | ⟨.bare cs, _⟩ :: rest => do
    guard (cs.all fun c => isNameChar c || c = '.')
    let (parts, rest) ← keyParts? rest
    return (bareParts cs ++ parts, rest)
  | ⟨.line cs, _⟩ :: rest => do
    let (parts, rest) ← keyParts? rest
    return (.name cs :: parts, rest)
  | tokens => some ([], tokens)

/-- The names of a key: one dot between each two. -/
def names? : List KeyPart → Option (List String)
  | [.name cs] => some [String.ofList cs]
  | .name cs :: .dot :: rest => (names? rest).map (String.ofList cs :: ·)
  | _ => none

/-- A dotted key, and the tokens behind it. -/
def key? (tokens : List Token) : Option (List String × List Token) := do
  let (parts, rest) ← keyParts? tokens
  let names ← names? parts
  guard (names.length < depthLimit)
  return (names, rest)

/-! ### Values -/

/-- The tokens behind the leading line ends. -/
def skipNewlines (tokens : List Token) : List Token :=
  tokens.dropWhile fun t => t.lexeme = .newline

/-- The tokens behind a given one. -/
def expect? (lexeme : Lexeme) : List Token → Option (List Token)
  | t :: rest => if t.lexeme = lexeme then some rest else none
  | [] => none

mutual

/-- A value inside `depth` brackets, and the tokens behind it. -/
def value? : (fuel depth : Nat) → List Token → Option (Value × List Token)
  | 0, _, _ => none
  | fuel + 1, depth, tokens =>
    match tokens with
    | ⟨.bare cs, _⟩ :: rest => (scalar? cs).map fun v => (v, rest)
    | ⟨.line cs, _⟩ :: rest => some (.text (String.ofList cs), rest)
    | ⟨.block cs, _⟩ :: rest => some (.text (String.ofList cs), rest)
    | ⟨.openBracket, _⟩ :: rest =>
      if depth + 1 < depthLimit then items? fuel (depth + 1) [] rest else none
    | ⟨.openBrace, _⟩ :: rest =>
      if depth + 1 < depthLimit then
        match rest with
        | ⟨.closeBrace, _⟩ :: rest => some (.table .braces [], rest)
        | _ => members? fuel (depth + 1) [] rest
      else none
    | _ => none

/-- The items of an array behind those `done`, which are in reverse; line ends count for nothing, and
a comma may follow the last item. -/
def items? : (fuel depth : Nat) → List Value → List Token → Option (Value × List Token)
  | 0, _, _, _ => none
  | fuel + 1, depth, done, tokens =>
    match skipNewlines tokens with
    | ⟨.closeBracket, _⟩ :: rest => some (.list done.reverse, rest)
    | tokens => do
      let (v, rest) ← value? fuel depth tokens
      match skipNewlines rest with
      | ⟨.closeBracket, _⟩ :: rest => some (.list (v :: done).reverse, rest)
      | ⟨.comma, _⟩ :: rest => items? fuel depth (v :: done) rest
      | _ => none

/-- The members of a table in braces behind those `done`; no line ends, and no comma behind the last
member. -/
def members? : (fuel depth : Nat) → Members → List Token → Option (Value × List Token)
  | 0, _, _, _ => none
  | fuel + 1, depth, done, tokens => do
    let (path, rest) ← key? tokens
    let (v, rest) ← value? fuel depth (← expect? .equals rest)
    let done ← assign? v true path done
    match rest with
    | ⟨.closeBrace, _⟩ :: rest => some (.table .braces done, rest)
    | ⟨.comma, _⟩ :: rest => members? fuel depth done rest
    | _ => none

end

/-! ### Statements -/

/-- A statement of a configuration text. -/
inductive Statement where
  | table (path : List String)
  | row (path : List String)
  | assign (path : List String) (value : Value)

/-- The tokens of the next line; nothing else may stand on this one. -/
def lineEnd? : List Token → Option (List Token)
  | [] => some []
  | tokens => expect? .newline tokens

/-- A statement, and the tokens of the next line.  A row's brackets stand close together. -/
def statement? (fuel : Nat) : List Token → Option (Statement × List Token)
  | ⟨.openBracket, _⟩ :: ⟨.openBracket, false⟩ :: rest => do
    let (path, rest) ← key? rest
    match rest with
    | ⟨.closeBracket, _⟩ :: ⟨.closeBracket, false⟩ :: rest => return (.row path, ← lineEnd? rest)
    | _ => none
  | ⟨.openBracket, _⟩ :: rest => do
    let (path, rest) ← key? rest
    return (.table path, ← lineEnd? (← expect? .closeBracket rest))
  | tokens => do
    let (path, rest) ← key? tokens
    let (v, rest) ← value? fuel 0 (← expect? .equals rest)
    return (.assign path v, ← lineEnd? rest)

/-- The statements of a text; each takes at least one token of it. -/
def statements? : (fuel : Nat) → List Token → Option (List Statement)
  | 0, _ => none
  | fuel + 1, tokens =>
    match skipNewlines tokens with
    | [] => some []
    | tokens => do
      let (statement, rest) ← statement? (2 * tokens.length + 2) tokens
      let statements ← statements? fuel rest
      return statement :: statements

/-! ### Tables -/

/-- The table opened last, and the whole table so far. -/
structure Progress where
  header : List String
  members : Members

/-- What a statement adds. -/
def Progress.step? (p : Progress) : Statement → Option Progress
  | .table path => (openTable? path p.members).map fun members => ⟨path, members⟩
  | .row path => (openRow? path p.members).map fun members => ⟨path, members⟩
  | .assign path v => (assignUnder? p.header path v p.members).map fun members => { p with members }

/-- The table of a configuration text. -/
def parse? (text : String) : Option Members := do
  let tokens ← scan? text
  let statements ← statements? (tokens.length + 1) tokens
  let p ← statements.foldlM Progress.step? ⟨[], []⟩
  return p.members

end Chronicle.Toml
