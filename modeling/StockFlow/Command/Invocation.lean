import StockFlow.Text.Basic

/-! The arguments of the command line. A setting stands before or after the other arguments of its
command, as `--name value`, `--name=value`, `-n value` or `-nvalue`, and at most once; two hyphens
alone end the settings. -/
namespace StockFlow.Command

inductive Setting where
  | config
  | output
  | equation
  | units
  | comment
deriving DecidableEq

namespace Setting

def long : Setting → Text
  | config => "config".toList
  | output => "output".toList
  | equation => "equation".toList
  | units => "units".toList
  | comment => "comment".toList

def short : Setting → Option Char
  | output => some 'o'
  | _ => none

/-- The value of these is a path, and no path is empty. -/
def isPath : Setting → Bool
  | config | output => true
  | _ => false

end Setting

/-- What one argument says. -/
inductive Word where
  | plain
  /-- A flag that changes no output. -/
  | verbose
  | setting (setting : Setting) (value : Text)
  /-- The value of the setting is the next argument. -/
  | awaiting (setting : Setting)
deriving DecidableEq

namespace Word

/-- A single hyphen is an argument like any other. -/
def isPlain (argument : Text) : Bool := argument.head? != some '-' || argument == ['-']

def ofLong (settings : List Setting) (body : Text) : Option Word :=
  let find (name : Text) := settings.find? fun s => s.long == name
  match Text.breakAt? '=' body with
  | some (name, value) => (find name).map fun s => setting s value
  | none => if body = "verbose".toList then some verbose else (find body).map awaiting

/-- Letters after one hyphen; a letter with a value takes the rest of them. -/
def ofLetters (settings : List Setting) : Text → Option Word
  | [] => some verbose
  | 'v' :: letters => ofLetters settings letters
  | letter :: letters =>
    (settings.find? fun s => s.short == some letter).map fun s =>
      match letters with
      | [] => awaiting s
      | '=' :: value => setting s value
      | value => setting s value

def ofArgument (settings : List Setting) (argument : Text) : Option Word :=
  if isPlain argument then some plain
  else
    match argument with
    | '-' :: '-' :: body => ofLong settings body
    | _ :: letters => ofLetters settings letters
    | [] => some plain

end Word

/-- The arguments of a command, settings apart. -/
structure Arguments where
  plain : List Text
  values : List (Setting × Text)

namespace Arguments

def addPlain (argument : Text) (a : Arguments) : Arguments :=
  { a with plain := argument :: a.plain }

def addValue (s : Setting) (value : Text) (a : Arguments) : Arguments :=
  { a with values := (s, value) :: a.values }

/-- Reads arguments with these settings. With `leading`, the first plain argument ends them, and it
is kept with all that follows. -/
def read (settings : List Setting) (leading : Bool) :
    (awaited : Option Setting) → List Text → Option Arguments
  | none, [] => some ⟨[], []⟩
  | some _, [] => none
  | some s, argument :: arguments =>
    if Word.isPlain argument then
      (read settings leading none arguments).map (addValue s argument)
    else none
  | none, argument :: arguments =>
    if argument = ['-', '-'] then
      if leading then none else some ⟨arguments, []⟩
    else
      match Word.ofArgument settings argument with
      | none => none
      | some .plain =>
        if leading then some ⟨argument :: arguments, []⟩
        else (read settings leading none arguments).map (addPlain argument)
      | some .verbose => read settings leading none arguments
      | some (.setting s value) => (read settings leading none arguments).map (addValue s value)
      | some (.awaiting s) => read settings leading (some s) arguments

def areValid (a : Arguments) : Bool :=
  decide (a.values.map Prod.fst).Nodup &&
    a.values.all fun (s, value) => !(s.isPath && value.isEmpty)

def ofList? (settings : List Setting) (leading : Bool) (arguments : List Text) :
    Option Arguments :=
  (read settings leading none arguments).filter areValid

def value? (a : Arguments) (s : Setting) : Option Text := a.values.lookup s

end Arguments

inductive Action where
  | roles
  | deps (name : Text)
  | check
  | writeJson (output : Option Text)
  | edit (name : Text) (equation units comment output : Option Text)
deriving DecidableEq

/-- What to do, with the model at which path, in the dialect of which file. -/
structure Invocation where
  config : Option Text
  path : Text
  action : Action
deriving DecidableEq

namespace Invocation

/-- The settings that the command takes besides the one every command takes. -/
def settingsOf? (command : Text) : Option (List Setting) :=
  [("roles", []), ("deps", []), ("check", []), ("export", [Setting.output]),
    ("edit", [.equation, .units, .comment, .output])].findSome? fun (name, settings) =>
      if name.toList = command then some settings else none

def actionOf? (command : Text) (a : Arguments) : Option (Text × Action) :=
  match String.ofList command, a.plain with
  | "roles", [path] => some (path, .roles)
  | "deps", [path, name] => some (path, .deps name)
  | "check", [path] => some (path, .check)
  | "export", [path] => some (path, .writeJson (a.value? .output))
  | "edit", [path, name] =>
    some (path,
      .edit name (a.value? .equation) (a.value? .units) (a.value? .comment) (a.value? .output))
  | _, _ => none

/-- The invocation that the arguments spell. A setting after the command wins over the same setting
before it. -/
def ofArguments? (arguments : List Text) : Option Invocation := do
  let outer ← Arguments.ofList? [.config] true arguments
  match outer.plain with
  | [] => none
  | command :: rest =>
    let settings ← settingsOf? command
    let inner ← Arguments.ofList? (.config :: settings) false rest
    let (path, action) ← actionOf? command inner
    if path.isEmpty then none
    else return ⟨(inner.value? .config).or (outer.value? .config), path, action⟩

end Invocation

end StockFlow.Command
