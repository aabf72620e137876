/-
**Tokens.**  A text is cut into tokens by an automaton that reads one character at a time.

Two kinds of token are kept as they are written, because a text may hold them in places that nobody
reads: a string is a list of fragments, which may be half of a surrogate pair, and a number is a
numeral, which may be too large for a double.

Main definitions:

* `Fragment`, `Token` — pieces of a string, and tokens;
* `Fragment.text?` — the text of a string, unless it holds half of a surrogate pair;
* `Token.scan?` — the tokens of a text.
-/

import Chronicle.Json.Numeral

set_option autoImplicit false

namespace Chronicle

/-! ### Strings -/

/-- A piece of a written string: a character, or a 16-bit code unit given by its number. -/
inductive Fragment where
  | char (c : Char)
  | unit (n : Nat)
deriving DecidableEq, Repr

namespace Fragment

/-- The characters of a written string: a high surrogate and the low one right after it make one
character, and neither may stand alone. -/
def chars? : List Fragment → Option (List Char)
  | [] => some []
  | .char c :: rest => (chars? rest).map (c :: ·)
  | .unit high :: .unit low :: rest =>
    if 0xd800 ≤ high ∧ high < 0xdc00 ∧ 0xdc00 ≤ low ∧ low < 0xe000 then
      (chars? rest).map (Char.ofNat (0x10000 + (high - 0xd800) * 0x400 + (low - 0xdc00)) :: ·)
    else if 0xd800 ≤ high ∧ high < 0xe000 then none
    else (chars? (.unit low :: rest)).map (Char.ofNat high :: ·)
  | .unit n :: rest =>
    if 0xd800 ≤ n ∧ n < 0xe000 then none else (chars? rest).map (Char.ofNat n :: ·)

/-- The text of a written string, unless it holds half of a surrogate pair. -/
def text? (fragments : List Fragment) : Option String :=
  (chars? fragments).map String.ofList

end Fragment

/-! ### Tokens -/

/-- A token of a data text. -/
inductive Token where
  | openArray
  | closeArray
  | openObject
  | closeObject
  | colon
  | comma
  | null
  | bool (value : Bool)
  | num (numeral : Numeral)
  | str (fragments : List Fragment)
deriving DecidableEq, Repr

namespace Token

/-- The token that a bracket or separator is. -/
def punctuation? : Char → Option Token
  | '[' => some .openArray
  | ']' => some .closeArray
  | '\x7b' => some .openObject
  | '\x7d' => some .closeObject
  | ':' => some .colon
  | ',' => some .comma
  | _ => none

/-- The token that an unquoted word is: one of three names, or a number. -/
def word? (cs : List Char) : Option Token :=
  if cs = "null".toList then some .null
  else if cs = "true".toList then some (.bool true)
  else if cs = "false".toList then some (.bool false)
  else (Numeral.ofChars? cs).map .num

/-- Whether a character may stand in an unquoted word. -/
def isWordChar (c : Char) : Bool :=
  c.isAlphanum || c = '+' || c = '-' || c = '.'

/-- Whether a character only separates tokens. -/
def isBlank (c : Char) : Bool :=
  c = ' ' || c = '\t' || c = '\n' || c = '\r'

/-- The character that a backslash and a letter stand for. -/
def escape? : Char → Option Char
  | '"' => some '"'
  | '\\' => some '\\'
  | '/' => some '/'
  | 'b' => some '\x08'
  | 'f' => some '\x0c'
  | 'n' => some '\n'
  | 'r' => some '\r'
  | 't' => some '\t'
  | _ => none

/-- The value of a hexadecimal digit. -/
def hexDigit? (c : Char) : Option Nat :=
  if c.isDigit then some (c.toNat - '0'.toNat)
  else if 'a' ≤ c ∧ c ≤ 'f' then some (c.toNat - 'a'.toNat + 10)
  else if 'A' ≤ c ∧ c ≤ 'F' then some (c.toNat - 'A'.toNat + 10)
  else none

/-! ### The automaton -/

/-- Where the automaton is; what has been read so far of a word or string is in reverse. -/
inductive Mode where
  | between
  | word (chars : List Char)
  | string (fragments : List Fragment)
  | escape (fragments : List Fragment)
  | unit (fragments : List Fragment) (count value : Nat)

/-- The state of the automaton: where it is, and the tokens so far in reverse. -/
structure Scanner where
  mode : Mode
  tokens : List Token

/-- One character between tokens. -/
def Scanner.start? (tokens : List Token) (c : Char) : Option Scanner :=
  if isBlank c then some ⟨.between, tokens⟩
  else if c = '"' then some ⟨.string [], tokens⟩
  else if isWordChar c then some ⟨.word [c], tokens⟩
  else (punctuation? c).map fun t => ⟨.between, t :: tokens⟩

/-- One step of the automaton. -/
def Scanner.step? (s : Scanner) (c : Char) : Option Scanner :=
  match s.mode with
  | .between => start? s.tokens c
  | .word cs =>
    if isWordChar c then some ⟨.word (c :: cs), s.tokens⟩
    else do start? ((← word? cs.reverse) :: s.tokens) c
  | .string fs =>
    if c = '"' then some ⟨.between, .str fs.reverse :: s.tokens⟩
    else if c = '\\' then some ⟨.escape fs, s.tokens⟩
    else if c.toNat < 0x20 then none
    else some ⟨.string (.char c :: fs), s.tokens⟩
  | .escape fs =>
    if c = 'u' then some ⟨.unit fs 0 0, s.tokens⟩
    else (escape? c).map fun e => ⟨.string (.char e :: fs), s.tokens⟩
  | .unit fs count value => do
    let value := value * 16 + (← hexDigit? c)
    return ⟨if count = 3 then .string (.unit value :: fs) else .unit fs (count + 1) value, s.tokens⟩

/-- The tokens when the text ends, unless it ends inside a string. -/
def Scanner.finish? (s : Scanner) : Option (List Token) :=
  match s.mode with
  | .between => some s.tokens.reverse
  | .word cs => do return ((← word? cs.reverse) :: s.tokens).reverse
  | _ => none

/-- The tokens of a text. -/
def scan? (text : String) : Option (List Token) :=
  (text.toList.foldlM Scanner.step? ⟨.between, []⟩).bind Scanner.finish?

end Token

end Chronicle
