import RelayerGraph.Query.Plan

/-!
# Tokens of a query text

Comments run from `//` to the end of the line and stand between tokens.  The
text is read character by character; after a token of several characters the
rest of it is skipped.
-/

namespace RelayerGraph.Query

inductive Token where
  | word (word : String)
  | parameter (name : String)
  | number (value : ℕ)
  | symbol (symbol : String)
deriving DecidableEq

/-- The characters with the Unicode property `White_Space`. -/
def isWhitespace (c : Char) : Bool :=
  let n := c.toNat
  (9 ≤ n && n ≤ 13) || n == 0x20 || n == 0x85 || n == 0xA0 || n == 0x1680
    || (0x2000 ≤ n && n ≤ 0x200A) || n == 0x2028 || n == 0x2029
    || n == 0x202F || n == 0x205F || n == 0x3000

def isAsciiAlphabetic (c : Char) : Bool :=
  ('a' ≤ c && c ≤ 'z') || ('A' ≤ c && c ≤ 'Z')

def isAsciiDigit (c : Char) : Bool :=
  '0' ≤ c && c ≤ '9'

def startsIdentifier (c : Char) : Bool :=
  isAsciiAlphabetic c || c == '_'

def continuesIdentifier (c : Char) : Bool :=
  isAsciiAlphabetic c || isAsciiDigit c || c == '_'

/-- The value of a decimal spelling. -/
def decimal (digits : List Char) : ℕ :=
  digits.foldl (fun value c => 10 * value + (c.toNat - '0'.toNat)) 0

def twoCharacterSymbols : List String :=
  ["<-", "->", "<>", "<=", ">=", "-["]

namespace Lexer

/-- The token at the head of a text that is neither white space nor a comment,
with the number of characters it takes beyond the first. -/
def token (c : Char) (rest : List Char) : Except QueryError (Token × ℕ) :=
  if startsIdentifier c then
    let word := rest.takeWhile continuesIdentifier
    .ok (.word (.ofList (c :: word)), word.length)
  else if isAsciiDigit c then
    let digits := rest.takeWhile isAsciiDigit
    if decimal (c :: digits) < 2 ^ 64 then
      .ok (.number (decimal (c :: digits)), digits.length)
    else
      .error (.new .querySyntaxInvalid "query"
        "integer literal is out of range")
  else if c = '$' then
    if rest.head?.any startsIdentifier then
      let name := rest.takeWhile continuesIdentifier
      .ok (.parameter (.ofList name), name.length)
    else
      .error (.new .querySyntaxInvalid "query"
        "a parameter name begins with an ASCII letter or underscore")
  else if c = '\'' ∨ c = '"' then
    .error (.new .queryConstructForbidden "query"
      "string literals are not admitted; pass values as parameters")
  else if .ofList ((c :: rest).take 2) ∈ twoCharacterSymbols then
    .ok (.symbol (.ofList ((c :: rest).take 2)), 1)
  else
    .ok (.symbol (.ofList [c]), 0)

/-- The tokens of a text of which the first `skip` characters are read
already. -/
def tokenizeFrom : List Char → ℕ → Except QueryError (List Token)
  | [], _ => .ok []
  | _ :: rest, skip + 1 => tokenizeFrom rest skip
  | c :: rest, 0 =>
      if isWhitespace c then tokenizeFrom rest 0
      else if c = '/' ∧ rest.head? = some '/' then
        tokenizeFrom rest (rest.takeWhile (· ≠ '\n')).length
      else do
        let (token, skip) ← token c rest
        let tokens ← tokenizeFrom rest skip
        return token :: tokens

def tokenize (text : String) : Except QueryError (List Token) :=
  tokenizeFrom text.toList 0

end Lexer

example :
    (Lexer.tokenize "MATCH (n)-[:EXPANDS]->(l) // layer\nRETURN l").toOption =
      some [.word "MATCH", .symbol "(", .word "n", .symbol ")", .symbol "-[",
        .symbol ":", .word "EXPANDS", .symbol "]", .symbol "->", .symbol "(",
        .word "l", .symbol ")", .word "RETURN", .word "l"] := by
  decide

end RelayerGraph.Query
