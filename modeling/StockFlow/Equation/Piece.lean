import StockFlow.Equation.Token
import StockFlow.Unicode.Identifier

/-! An equation as a sequence of pieces, each the source of one token or of a stretch between
tokens: blanks, or a comment in braces. No character is dropped: the sources of the pieces, put
together, are the equation. Nothing is refused either: a quote, literal, comment or subscript that
is not closed runs on to the end of the text or is taken for less. -/
namespace StockFlow

open Unicode (isBlank isIdentifierStart isIdentifierContinue)

inductive Piece where
  | gap (source : Text)
  | lexeme (source : Text) (token : Token)
deriving DecidableEq

namespace Piece

def source : Piece → Text
  | gap source => source
  | lexeme source _ => source

def token? : Piece → Option Token
  | gap _ => none
  | lexeme _ token => some token

def isNameStart (c : Char) : Bool := isIdentifierStart c || c == '_'

def isNameContinue (c : Char) : Bool :=
  isIdentifierContinue c || c == '_' || c == '$' || c == '\'' || c == '&' || c == '%'

/-- The blanks that a name may contain and that may stand before its subscript. -/
def isSpacing (c : Char) : Bool := c == ' ' || c == '\t'

/-- The text through the first `delimiter` that no backslash escapes, or all of it. -/
def throughClosing (delimiter : Char) : (escaped : Bool) → Text → Text
  | _, [] => []
  | true, c :: rest => c :: throughClosing delimiter false rest
  | false, c :: rest =>
    if c = '\\' then c :: throughClosing delimiter true rest
    else if c = delimiter then [c]
    else c :: throughClosing delimiter false rest

/-- A name, together with the subscript that follows it, if a bracket is opened and closed. -/
def named (name rest : Text) : Piece :=
  match rest.dropWhile isSpacing with
  | '[' :: inside =>
    match Text.breakAt? ']' inside with
    | some (subscript, _) =>
      lexeme (name ++ rest.takeWhile isSpacing ++ '[' :: subscript ++ [']'])
        (.subscripted name subscript)
    | none => lexeme name (.ident name)
  | _ => lexeme name (.ident name)

/-- A bare name that starts with `c`. It may have spaces inside, but not at its end. -/
def bareName (c : Char) (rest : Text) : Text :=
  c :: Text.dropTrailing isSpacing
    (rest.takeWhile fun c => isNameContinue c || isSpacing c)

def exponent (t : Text) : Text :=
  match t with
  | e :: rest =>
    if e = 'e' ∨ e = 'E' then
      let sign := (rest.take 1).filter fun c => c == '+' || c == '-'
      match (rest.drop sign.length).takeWhile Char.isDigit with
      | [] => []
      | digits => e :: sign ++ digits
    else []
  | [] => []

def fraction (t : Text) : Text :=
  match t with
  | '.' :: rest => '.' :: rest.takeWhile Char.isDigit
  | _ => []

/-- A number that starts with `c`, a digit or the point before one. -/
def numeral (c : Char) (rest : Text) : Text :=
  let whole := rest.takeWhile Char.isDigit
  let part := if c = '.' then [] else fraction (rest.drop whole.length)
  c :: whole ++ part ++ exponent (rest.drop (whole.length + part.length))

def singleQuoted (rest : Text) : Piece :=
  let body := throughClosing '\'' false rest
  lexeme ('\'' :: body) (.literal ((Text.dropLast? '\'' body).getD body))

def isKeywordCharacter (c : Char) : Bool := c.isAlpha || c == ' '

/-- A word between colons if the colon starts one, else a colon operator. -/
def afterColon (rest : Text) : Piece :=
  let word := rest.takeWhile isKeywordCharacter
  if word ≠ [] ∧ (rest.drop word.length).head? = some ':' then
    lexeme (':' :: word ++ [':']) (.keyword word)
  else if rest.head? = some '=' then
    lexeme [':', '='] (.op [':', '='])
  else
    lexeme [':'] (.op [':'])

def symbol (c : Char) (rest : Text) : Piece :=
  let source :=
    match c, rest with
    | '<', '=' :: _ => ['<', '=']
    | '<', '>' :: _ => ['<', '>']
    | '>', '=' :: _ => ['>', '=']
    | _, _ => [c]
  lexeme source (.op source)

/-- The first piece of the text that starts with `c` and goes on with `rest`. -/
def first (c : Char) (rest : Text) : Piece :=
  match c with
  | '{' => gap ('{' :: throughClosing '}' false rest)
  | '(' => lexeme ['('] .lparen
  | ')' => lexeme [')'] .rparen
  | '[' => lexeme ['['] .lbracket
  | ']' => lexeme [']'] .rbracket
  | ',' => lexeme [','] .comma
  | '"' =>
    let body := throughClosing '"' false rest
    named ('"' :: body) (rest.drop body.length)
  | '\'' => singleQuoted rest
  | ':' => afterColon rest
  | _ =>
    if isBlank c then gap (c :: rest.takeWhile isBlank)
    else if c.isDigit || (c == '.' && rest.head?.any Char.isDigit) then
      lexeme (numeral c rest) (.num (numeral c rest))
    else if isNameStart c then
      let name := bareName c rest
      named name (rest.drop (name.length - 1))
    else symbol c rest

/-- The pieces of a text, in order. -/
def scan : Text → List Piece
  | [] => []
  | c :: rest =>
    let piece := first c rest
    piece :: scan (rest.drop (piece.source.length - 1))
termination_by t => t.length
decreasing_by simp only [List.length_drop, List.length_cons]; omega

end Piece

namespace Token

/-- A token with the byte offsets at which its source starts and stops. -/
structure Located where
  start : Nat
  token : Token
  stop : Nat
deriving DecidableEq

def locate (offset : Nat) : List Piece → List Located
  | [] => []
  | .gap source :: pieces => locate (offset + source.byteSize) pieces
  | .lexeme source token :: pieces =>
    ⟨offset, token, offset + source.byteSize⟩ :: locate (offset + source.byteSize) pieces

/-- The tokens of an equation with their places in it. -/
def located (equation : Text) : List Located := locate 0 (Piece.scan equation)

def ofEquation (equation : Text) : List Token := (Piece.scan equation).filterMap Piece.token?

/-- The first token of a text, and what follows its source. -/
def leading? : List Piece → Option (Token × Text)
  | [] => none
  | .gap _ :: pieces => leading? pieces
  | .lexeme _ token :: pieces => some (token, pieces.flatMap Piece.source)

end Token

end StockFlow
