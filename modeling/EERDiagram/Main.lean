import EERDiagram.CommandLine.Command
import EERDiagram.Yaml.Building
import Std.Time.Format

/-! The program. It runs a command line over the files of the machine and shows the report. -/
namespace EERDiagram

namespace Machine

/-- The fault that an error of the machine stands for; other errors are not the program's to
report. -/
def fault? : IO.Error → Option StorageFault
  | .noFileOrDirectory _ _ _ => some .notFound
  | .alreadyExists _ _ _ => some .exists
  | .inappropriateType _ code _ => some (if code = 21 then .isDirectory else .notDirectory)
  | _ => none

def attempt (path : Path) (act : IO α) : IO (Except StorageError α) := do
  match ← act.toBaseIO with
  | .ok value => return .ok value
  | .error e =>
    match fault? e with
    | some fault => return .error ⟨fault, path⟩
    | none => throw e

/-- A directory opens like a file, and only reading tells it apart. -/
def readSome (path : Path) : IO Unit := do
  let handle ← IO.FS.Handle.mk path.text .read
  let _ ← handle.read 1

instance : Storage IO where
  kind? path := do
    match ← (readSome path).toBaseIO with
    | .ok () => return some .file
    | .error e => return if fault? e = some .isDirectory then some .directory else none
  read path := attempt path (return (← IO.FS.readBinFile path.text).toList)
  write path bytes := attempt path (IO.FS.writeBinFile path.text (ByteArray.mk bytes.toArray))
  makeDirectory path := attempt path (IO.FS.createDir path.text)

end Machine

/-- Codes above zero are failures; one without a code of its own counts as the first. -/
def CommandLine.Ending.code : CommandLine.Ending → UInt32
  | .exit code => code.toUInt32
  | .failure _ => 1

def CommandLine.Ending.show (ending : CommandLine.Ending) : IO Unit :=
  match ending with
  | .exit _ => pure ()
  | .failure e => IO.eprintln e.message

end EERDiagram

def main (arguments : List String) : IO UInt32 := do
  let report : EERDiagram.CommandLine.Report ← EERDiagram.CommandLine.run arguments
  let time ← Std.Time.PlainDateTime.now
  IO.print report.standardOutput
  IO.eprint (report.standardError (time.format "uuuu-MM-dd HH:mm:ss,SSS"))
  report.ending.show
  return report.ending.code
