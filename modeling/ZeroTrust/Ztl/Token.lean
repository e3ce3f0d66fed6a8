import ZeroTrust.Core.Bytes

/-!
# Tokens

The tokens of `token.hpp` with their positions, and the fixed spellings: keywords are
identifiers with a type of their own, punctuation is spelled in one way only.
-/

namespace ZeroTrust.Ztl

/-- `ztl::TokenType`. -/
inductive TokenType
  | number | string | ident | trueKw | falseKw | nullKw
  | includeKw | ifKw | elseKw | returnKw
  | lparen | rparen | lbrace | rbrace | lbracket | rbracket
  | comma | colon | scope | dot | semicolon | assign
  | eq | neq | lt | gt | lte | gte | bang | and | or | plus | minus
  | endOfFile
deriving DecidableEq, Repr

/-- A line and a column. -/
structure Pos where
  line : ℕ := 0
  col : ℕ := 0
deriving DecidableEq, Repr

/-- The position behind a character. -/
def Pos.next (p : Pos) (c : Byte) : Pos :=
  if c = 10 then { line := p.line + 1, col := 1 } else { p with col := p.col + 1 }

/-- `ztl::Token`. -/
structure Token where
  type : TokenType
  text : Bytes
  pos : Pos := {}
deriving DecidableEq, Repr

/-- A token without its position. -/
abbrev Lexeme := TokenType × Bytes

/-- What the parser sees of a token. -/
def Token.lexeme (t : Token) : Lexeme := (t.type, t.text)

/-- The map `keywords` of the lexer. -/
def keywords : List (Bytes × TokenType) :=
  [(str "include", .includeKw), (str "if", .ifKw), (str "else", .elseKw), (str "return", .returnKw),
   (str "true", .trueKw), (str "false", .falseKw), (str "null", .nullKw)]

end ZeroTrust.Ztl
