import DeltaLang.Cli

/-!
The program. It works on the files of the machine. It calls no other programs, so code can be
printed with `--dump` and is not linked.
-/

namespace DeltaLang

/-- The content of a file, none if it cannot be read. -/
def readBytes? (path : String) : IO (Option (List UInt8)) := do
  try
    let bytes ← IO.FS.readBinFile path
    return some bytes.toList
  catch _ => return none

def writeBytes (path : String) (bytes : List UInt8) : IO Unit :=
  IO.FS.writeBinFile path ⟨bytes.toArray⟩

instance : MonadHost IO where
  read? := readBytes?
  write := writeBytes
  createTemporary extension bytes := do
    let path := "/tmp/" ++ Cli.programName ++ "-" ++ toString (← IO.rand 0 999999999) ++ extension
    writeBytes path bytes
    return path
  remove path := IO.FS.removeFile path
  callTool name _ := return ⟨"", some (.notFound name)⟩
  runProgram path := return .error (.notExecutable path)
  print text := IO.print text
  report line :=
    match line with
    | .logged entry => IO.eprintln entry.line
    | .text line => IO.eprintln line

end DeltaLang

def main (arguments : List String) : IO UInt32 := do
  let status ← (DeltaLang.Cli.execute arguments : IO Nat)
  return UInt32.ofNat status
