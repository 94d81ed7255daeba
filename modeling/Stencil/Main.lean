import Stencil.CommandLine.Run
import Stencil.Yaml.Loader

/-!
# The program

Reads what a command needs, runs the command, and writes what it comes to.
-/

namespace Stencil.CommandLine

def readFile (path : Path) : IO File := do
  try
    let contents ← IO.FS.readBinFile (String.ofList path.text)
    return .bytes contents
  catch
    | .noFileOrDirectory .. | .inappropriateType .. => return .missing
    | .invalidArgument _ _ details => return .hidden details.toList
    | e => return .unreadable (toString e).toList

def installed : Option Text := some "0.1.0".toList

/-- The part of the world that a command can reach. -/
def worldOf (c : Command) : IO World := do
  let files ← c.files.mapM fun path => do return (path, ← readFile path)
  let stdin ← if c.readsStdin then (← IO.getStdin).readBinToEnd else pure ByteArray.empty
  let debug := ((← IO.getEnv "STACHE_DEBUG").getD "") != ""
  return {
    file := fun path => (files.lookup path).getD .missing
    stdin
    load := Yaml.loader
    host := Host.empty
    version? := installed
    debug }

def Outcome.write (o : Outcome) : IO UInt32 := do
  IO.print (String.ofList o.stdout)
  IO.eprint (String.ofList o.stderr)
  match o.ending with
  | .code n => return n.toUInt32
  | .stopped n => return n.toUInt32
  | .broken f =>
    IO.eprintln (String.ofList f.message)
    return 1

end Stencil.CommandLine

open Stencil.CommandLine in
def main (args : List String) : IO UInt32 := do
  match Command.ofArguments (args.map String.toList) with
  | .error stop => (stop.outcome installed).write
  | .ok c => (c.outcome (← worldOf c)).write
