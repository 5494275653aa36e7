import StockFlow.Command.Run

/-! The command line. It reads the files that an invocation names, and prints or writes what the
invocation answers. -/
namespace StockFlow.Command

def readFile? (path : String) : IO (Option Text) := do
  try
    return some (← IO.FS.readFile path).toList
  catch _ => return none

/-- The contents of the given files, each read once. -/
def readFiles (paths : List Text) : IO Files := do
  let contents ← paths.mapM fun path => do return (path, ← readFile? path.string)
  return fun path => (contents.lookup path).join

def deliver (output : Output) : IO UInt32 := do
  IO.print output.standard.string
  match output.file with
  | none => return 0
  | some (path, contents) =>
    try
      IO.FS.writeFile path.string contents.string
      return 0
    catch _ =>
      IO.eprintln s!"error: output '{path.string}': cannot be written"
      return 1

end StockFlow.Command

open StockFlow.Command in
def main (arguments : List String) : IO UInt32 := do
  match Invocation.ofArguments? (arguments.map String.toList) with
  | none =>
    IO.eprintln "usage: roles|deps|check|export|edit MODEL [NAME] [SETTINGS]"
    return 2
  | some invocation =>
    let files ← readFiles (invocation.config.toList ++ [invocation.path])
    match invocation.run files with
    | .ok output => deliver output
    | .error failure =>
      IO.eprintln s!"error: {failure.message}"
      return 1
