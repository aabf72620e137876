/-
**Tokens of configuration texts.**  A configuration text is cut into tokens by an automaton that
reads one character at a time.  Line ends are tokens, blanks and comments are not; but a token knows
whether a blank stands before it.

A lexeme without quotes is a run of letters, digits and a few signs, whether it will turn out to be
a key or a value.  A day followed by one blank and a digit goes on to take in a time of day.

Main definitions:

* `Toml.Lexeme`, `Toml.Token` — tokens;
* `Toml.scan?` — the tokens of a text.
-/

import Chronicle.Toml.Scalar

set_option autoImplicit false

namespace Chronicle.Toml

/-- What a token is. -/
inductive Lexeme where
  | bare (chars : List Char)
  /-- A string on one line. -/
  | line (value : List Char)
  /-- A string in threefold quotes. -/
  | block (value : List Char)
  | openBracket
  | closeBracket
  | openBrace
  | closeBrace
  | equals
  | comma
  | newline
deriving DecidableEq, Repr

/-- A token, and whether a blank stands before it. -/
structure Token where
  lexeme : Lexeme
  spaced : Bool
deriving DecidableEq, Repr

/-! ### Characters -/

/-- Whether a character may stand in a lexeme without quotes. -/
def isBareChar (c : Char) : Bool :=
  c.isAlphanum || c = '_' || c = '-' || c = '+' || c = '.' || c = ':'

/-- Whether a character may stand in a comment or in a string: a tab, or no control. -/
def isTextChar (c : Char) : Bool :=
  c = '\t' || (0x20 ≤ c.toNat && c.toNat ≠ 0x7f)

/-- The lexeme that a bracket or separator is. -/
def punctuation? : Char → Option Lexeme
  | '[' => some .openBracket
  | ']' => some .closeBracket
  | '\x7b' => some .openBrace
  | '\x7d' => some .closeBrace
  | '=' => some .equals
  | ',' => some .comma
  | '\n' => some .newline
  | _ => none

/-- The character that a backslash and a letter stand for. -/
def escape? : Char → Option Char
  | '"' => some '"'
  | '\\' => some '\\'
  | 'b' => some '\x08'
  | 'f' => some '\x0c'
  | 'n' => some '\n'
  | 'r' => some '\r'
  | 't' => some '\t'
  | _ => none

/-- The character with a given code point. -/
def scalarChar? (n : Nat) : Option Char :=
  if n < 0xd800 ∨ (0xdfff < n ∧ n < 0x110000) then some (Char.ofNat n) else none

/-- Line ends as one character; a carriage return that ends no line has no place in a text. -/
def unixLines? : List Char → Option (List Char)
  | [] => some []
  | '\r' :: '\n' :: rest => (unixLines? rest).map ('\n' :: ·)
  | c :: rest => if c = '\r' then none else (unixLines? rest).map (c :: ·)

/-! ### The automaton -/

/-- A string being read: which quote it is in, whether that quote is threefold, and its characters so
far in reverse. -/
structure Quoted where
  quote : Char
  threefold : Bool
  chars : List Char

/-- Where the automaton is. -/
inductive Mode where
  | between
  | comment
  | bare (chars : List Char)
  /-- Behind a day and one blank. -/
  | afterDay (chars : List Char)
  /-- Behind one or two quotes that may open a threefold one. -/
  | opening (quote : Char) (twice : Bool)
  /-- In a string, behind a number of quotes in a row. -/
  | string (q : Quoted) (quotes : Nat)
  /-- In a threefold string with nothing in it yet. -/
  | blockStart (q : Quoted)
  | escape (q : Quoted)
  /-- Behind a backslash that will have to end its line. -/
  | lineEnd (q : Quoted)
  /-- Behind a backslash that ended its line. -/
  | trimming (q : Quoted)
  /-- In a code point, with the number of digits left. -/
  | codePoint (q : Quoted) (left value : Nat)

/-- The state of the automaton: where it is, whether it has just passed a blank, and the tokens so
far in reverse. -/
structure Scanner where
  mode : Mode
  spaced : Bool
  tokens : List Token

namespace Scanner

/-- Adds a token. -/
def emit (s : Scanner) (lexeme : Lexeme) : Scanner :=
  ⟨.between, false, ⟨lexeme, s.spaced⟩ :: s.tokens⟩

/-- Goes on in another mode. -/
def enter (s : Scanner) (mode : Mode) : Scanner :=
  { s with mode }

/-- One character between tokens. -/
def start? (s : Scanner) (c : Char) : Option Scanner :=
  if c = ' ' ∨ c = '\t' then some ⟨.between, true, s.tokens⟩
  else if c = '#' then some (s.enter .comment)
  else if c = '"' ∨ c = '\'' then some (s.enter (.opening c false))
  else if isBareChar c then some (s.enter (.bare [c]))
  else (punctuation? c).map s.emit

/-- Adds the token of a finished string. -/
def close (s : Scanner) (q : Quoted) : Scanner :=
  s.emit (if q.threefold then .block q.chars.reverse else .line q.chars.reverse)

/-- One character of a string that is no quote of its own. -/
def text? (s : Scanner) (q : Quoted) (c : Char) : Option Scanner :=
  if c = '\\' ∧ q.quote = '"' then some (s.enter (.escape q))
  else if isTextChar c ∨ (c = '\n' ∧ q.threefold) then
    some (s.enter (.string { q with chars := c :: q.chars } 0))
  else none

/-- A string with some of the quotes that were met turned into text. -/
def withQuotes (q : Quoted) (n : Nat) : Quoted :=
  { q with chars := List.replicate n q.quote ++ q.chars }

/-- One character of a string, behind a number of quotes in a row.  Three quotes end a threefold
string, and up to two before them belong to it. -/
def string? (s : Scanner) (q : Quoted) (quotes : Nat) (c : Char) : Option Scanner :=
  if c = q.quote then
    if ¬q.threefold then some (s.close q)
    else if quotes = 4 then some (s.close (withQuotes q 2))
    else some (s.enter (.string q (quotes + 1)))
  else if 3 ≤ quotes then (s.close (withQuotes q (quotes - 3))).start? c
  else s.text? (withQuotes q quotes) c

/-- One character behind a backslash. -/
def escaped? (s : Scanner) (q : Quoted) (c : Char) : Option Scanner :=
  if c = 'u' then some (s.enter (.codePoint q 4 0))
  else if c = 'U' then some (s.enter (.codePoint q 8 0))
  else if q.threefold ∧ c = '\n' then some (s.enter (.trimming q))
  else if q.threefold ∧ (c = ' ' ∨ c = '\t') then some (s.enter (.lineEnd q))
  else (escape? c).map fun e => s.enter (.string { q with chars := e :: q.chars } 0)

/-- One digit of a code point. -/
def digit? (s : Scanner) (q : Quoted) (left value : Nat) (c : Char) : Option Scanner := do
  guard (isDigitIn 16 c)
  let value := value * 16 + digitValue c
  if left ≤ 1 then
    let e ← scalarChar? value
    return s.enter (.string { q with chars := e :: q.chars } 0)
  else return s.enter (.codePoint q (left - 1) value)

/-- One step of the automaton. -/
def step? (s : Scanner) (c : Char) : Option Scanner :=
  match s.mode with
  | .between => s.start? c
  | .comment =>
    if c = '\n' then s.start? c else if isTextChar c then some s else none
  | .bare cs =>
    if isBareChar c then some (s.enter (.bare (c :: cs)))
    else if c = ' ' ∧ date? cs.reverse = some [] then some (s.enter (.afterDay cs))
    else (s.emit (.bare cs.reverse)).start? c
  | .afterDay cs =>
    if c.isDigit then some (s.enter (.bare (c :: ' ' :: cs)))
    else start? { s.emit (.bare cs.reverse) with spaced := true } c
  | .opening quote twice =>
    if c = quote then
      some (s.enter (if twice then .blockStart ⟨quote, true, []⟩ else .opening quote true))
    else if twice then (s.emit (.line [])).start? c
    else s.string? ⟨quote, false, []⟩ 0 c
  | .blockStart q => if c = '\n' then some (s.enter (.string q 0)) else s.string? q 0 c
  | .string q quotes => s.string? q quotes c
  | .escape q => s.escaped? q c
  | .lineEnd q =>
    if c = '\n' then some (s.enter (.trimming q))
    else if c = ' ' ∨ c = '\t' then some s
    else none
  | .trimming q =>
    if c = ' ' ∨ c = '\t' ∨ c = '\n' then some s else s.string? q 0 c
  | .codePoint q left value => s.digit? q left value c

/-- The tokens when the text ends, unless it ends inside a string. -/
def finish? (s : Scanner) : Option (List Token) :=
  let finished : Option Scanner := match s.mode with
    | .between | .comment => some s
    | .bare cs | .afterDay cs => some (s.emit (.bare cs.reverse))
    | .opening _ true => some (s.emit (.line []))
    | .string q quotes => if 3 ≤ quotes then some (s.close (withQuotes q (quotes - 3))) else none
    | _ => none
  finished.map fun s => s.tokens.reverse

end Scanner

/-- The tokens of a text; a byte order mark in front of it counts for nothing. -/
def scan? (text : String) : Option (List Token) := do
  let cs ← unixLines? text.toList
  let cs := match cs with
    | c :: rest => if c.toNat = 0xfeff then rest else cs
    | [] => []
  (cs.foldlM Scanner.step? ⟨.between, false, []⟩).bind Scanner.finish?

end Chronicle.Toml
