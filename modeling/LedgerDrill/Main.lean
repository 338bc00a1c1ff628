import LedgerDrill.CommandLine

namespace LedgerDrill

def FileFault.ofError : IO.Error → FileFault
  | .inappropriateType .. => .isDirectory
  | .invalidArgument _ 36 _ => .nameTooLong
  | _ => .missing

def readFile (path : String) : BaseIO (Except FileFault ByteArray) := do
  match ← (IO.FS.readBinFile path).toBaseIO with
  | .ok content => return .ok content
  | .error e => return .error (.ofError e)

end LedgerDrill

open LedgerDrill in
def main (arguments : List String) : IO UInt32 := do
  let file ← match arguments with
    | [] => pure none
    | path :: _ => do pure (some (path, ← readFile path))
  let seed ← IO.rand 0 2147483647
  let report := CommandLine.execute file seed
  IO.print report.stdout
  IO.eprint report.stderr
  return report.code.toUInt32
