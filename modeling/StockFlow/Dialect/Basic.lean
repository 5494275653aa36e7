import StockFlow.Dialect.CallPattern
import StockFlow.Dialect.Options
import StockFlow.Error
import StockFlow.Unicode.Alphanumeric

/-! A dialect: options that have been checked, with the function names in the spelling by which they
are compared. What the check establishes is kept in the type, so that every dialect has it. -/
namespace StockFlow

open Unicode (isBlank isAlphanumeric)

/-- A boundary line must not look like a blank line or a declaration. -/
def isBoundaryMark (c : Char) : Bool := !(isBlank c || isAlphanumeric c || c == '"')

def leastWidth : Nat := 16

structure Dialect where
  reserved : List Text
  functions : List FunctionName
  stock : FunctionName
  placeholder : FunctionName
  boundary : Char
  maxWidth : Nat
  stock_mem : stock ∈ functions
  placeholder_mem : placeholder ∈ functions
  boundary_mark : isBoundaryMark boundary = true
  leastWidth_le : leastWidth ≤ maxWidth

/-- Checks the options. Both marked functions are functions whatever the table says. -/
def Options.compile (o : Options) : Except Error Dialect :=
  match FunctionName.ofText? o.stock, FunctionName.ofText? o.placeholder with
  | some stock, some placeholder =>
    if boundary_mark : isBoundaryMark o.boundary = true then
      if leastWidth_le : leastWidth ≤ o.maxWidth then
        .ok {
          reserved := o.reserved
          functions := stock :: placeholder :: o.functions.filterMap FunctionName.ofText?
          stock := stock
          placeholder := placeholder
          boundary := o.boundary
          maxWidth := o.maxWidth
          stock_mem := .head _
          placeholder_mem := .tail _ (.head _)
          boundary_mark := boundary_mark
          leastWidth_le := leastWidth_le }
      else .error (.narrowLines leastWidth o.maxWidth)
    else .error (.boundaryCharacter o.boundary)
  | _, _ => .error .emptyFunctionName

namespace Dialect

/-- The dialect of the standard options. -/
def standard : Dialect := Options.standard.compile.toOption.get (by decide +kernel)

theorem compile_standard : Options.standard.compile = .ok standard := by
  have eq_ok (x : Except Error Dialect) (h : x.toOption.isSome = true) :
      x = .ok (x.toOption.get h) := by
    cases x with
    | ok d => rfl
    | error e => simp [Except.toOption] at h
  exact eq_ok _ _

def reserves (d : Dialect) (name : Text) : Bool := d.reserved.contains name

def hasFunction (d : Dialect) (name : Text) : Bool :=
  let canonical := canonicalName name
  d.functions.any fun f => f.text == canonical

def callsStock (d : Dialect) (equation : Text) : Bool :=
  (CallPattern.ofFunction d.stock).fits equation

/-- Whether the equation stands for no equation at all, only for what it depends on. -/
def callsPlaceholder (d : Dialect) (equation : Text) : Bool :=
  (CallPattern.ofFunction d.placeholder).fits equation

/-- A line, without its ending, that consists of the boundary character. -/
def isBoundaryLine (d : Dialect) (line : Text) : Bool :=
  !line.isEmpty && line.all (· == d.boundary)

end Dialect

end StockFlow
