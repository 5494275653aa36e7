import StockFlow.Text.Basic

/-! The description of a dialect as a user writes it: the names that are never variables, the names
that are functions, and the marks that give a model file its shape. -/
namespace StockFlow

structure Options where
  reserved : List Text
  functions : List Text
  stock : Text
  placeholder : Text
  boundary : Char
  maxWidth : Nat
deriving DecidableEq

namespace Options

/-- The time variables of the simulation. -/
def standardReserved : List Text :=
  ["FINAL TIME", "TIME STEP", "INITIAL TIME", "SAVEPER", "Time"].map String.toList

def standardFunctions : List Text :=
  ["ABS", "EXP", "SQRT", "LN", "LOG", "SIN", "COS", "TAN", "ARCSIN", "ARCCOS", "ARCTAN", "INTEGER",
    "MODULO", "QUANTUM", "POWER", "MAX", "MIN", "VMAX", "VMIN",
    "IF THEN ELSE", "ZIDZ", "XIDZ",
    "PULSE", "PULSE TRAIN", "STEP", "RAMP",
    "SMOOTH", "SMOOTHI", "SMOOTH3", "SMOOTH3I", "SMOOTH N", "DELAY1", "DELAY1I", "DELAY3",
    "DELAY3I", "DELAY FIXED", "DELAY N", "DELAY CONVEYOR", "TREND", "FORECAST",
    "INTEG", "ACTIVE INITIAL", "INITIAL", "REINITIAL", "SAMPLE IF TRUE",
    "WITH LOOKUP", "LOOKUP INVERT", "LOOKUP AREA", "LOOKUP EXTRAPOLATE", "LOOKUP FORWARD",
    "LOOKUP BACKWARD", "TABXL", "GET DATA AT TIME", "GET DATA LAST TIME",
    "SUM", "PROD", "ELMCOUNT", "VECTOR SELECT", "VECTOR ELM MAP", "VECTOR SORT ORDER",
    "VECTOR REORDER", "VECTOR LOOKUP",
    "RANDOM 0 1", "RANDOM UNIFORM", "RANDOM NORMAL", "RANDOM PINK NOISE", "RANDOM POISSON",
    "GET XLS DATA", "GET XLS CONSTANTS", "GET XLS LOOKUPS", "GET DIRECT DATA",
    "GET DIRECT CONSTANTS", "GET DIRECT LOOKUPS", "GET DATA MEAN",
    "A FUNCTION OF", "GAME", "TIME BASE", "NPV", "ALLOCATE BY PRIORITY",
    "TABBED ARRAY"].map String.toList

def standard : Options where
  reserved := standardReserved
  functions := standardFunctions
  stock := "INTEG".toList
  placeholder := "A FUNCTION OF".toList
  boundary := '*'
  maxWidth := 80

end Options

end StockFlow
