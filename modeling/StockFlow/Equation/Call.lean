import StockFlow.Dialect.FunctionName
import StockFlow.Equation.Piece
import StockFlow.Error

/-! The arguments of a function call in an equation, as they are written there. Commas inside
parentheses, brackets, quoted names, literals and comments do not separate arguments. -/
namespace StockFlow.Call

/-- What follows the parenthesis that the pieces open with, gaps aside. -/
def afterParen? : List Piece → Option (List Piece)
  | .gap _ :: pieces => afterParen? pieces
  | .lexeme _ .lparen :: pieces => some pieces
  | _ => none

/-- The byte offset of the first call of `function`, and what follows its parenthesis. -/
def find? (function : Text) (offset : Nat) : List Piece → Option (Nat × List Piece)
  | [] => none
  | piece :: pieces =>
    let further := find? function (offset + piece.source.byteSize) pieces
    match piece.token? with
    | some (.ident name) =>
      if canonicalName name = function then
        match afterParen? pieces with
        | some inside => some (offset, inside)
        | none => further
      else further
    | _ => further

/-- What is left of the argument that the pieces stand in, up to the delimiter that ends it, and
the arguments that follow; nothing if the call is not closed. -/
def split? (depth : Nat) : List Piece → Option (Text × List Text)
  | [] => none
  | piece :: pieces =>
    let keep (depth : Nat) :=
      (split? depth pieces).map fun (argument, arguments) => (piece.source ++ argument, arguments)
    match piece.token?, depth with
    | some .lparen, _ | some .lbracket, _ => keep (depth + 1)
    | some .rparen, 0 | some .rbracket, 0 => some ([], [])
    | some .rparen, depth + 1 | some .rbracket, depth + 1 => keep depth
    | some .comma, 0 =>
      (split? 0 pieces).map fun (argument, arguments) => ([], argument :: arguments)
    | _, _ => keep depth

/-- A call with nothing in it has no arguments; a comma always separates two. -/
def trimmed : Text × List Text → List Text
  | (argument, []) => if argument.trim = [] then [] else [argument.trim]
  | (argument, arguments) => argument.trim :: arguments.map Text.trim

/-- The arguments of the first call of `function` in the equation. -/
def arguments (equation function : Text) : Except CallError (List Text) :=
  match find? (canonicalName function) 0 (Piece.scan equation) with
  | none => .error ⟨0, equation.byteSize⟩
  | some (start, inside) =>
    match split? 0 inside with
    | none => .error ⟨start, equation.byteSize⟩
    | some parts => .ok (trimmed parts)

def argument (equation function : Text) (index : Nat) : Except CallError Text :=
  match arguments equation function with
  | .error e => .error e
  | .ok arguments =>
    match arguments[index]? with
    | some argument => .ok argument
    | none => .error ⟨0, equation.byteSize⟩

end StockFlow.Call
