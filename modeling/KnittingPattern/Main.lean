import KnittingPattern.Command

/-! # The program

Runs the command on the files of the machine.  There is no terminal to view a session in. -/

namespace KnittingPattern.Machine

/-- Why the machine refuses a file. -/
def fileError : IO.Error → FileError
  | .noFileOrDirectory _ _ _ => .notFound
  | .inappropriateType _ code _ => if code = 21 then .isDirectory else .notDirectory
  | e => .other (toString e)

/-- The files of the machine. -/
def files : FileAccess IO where
  read path := do
    try
      match String.fromUTF8? (← IO.FS.readBinFile path) with
      | some text => return .ok text
      | none => return .error .notText
    catch e => return .error (fileError e)
  write path text := do
    try
      IO.FS.writeFile path text
      return .ok ()
    catch e => return .error (fileError e)

end KnittingPattern.Machine

open KnittingPattern

def main (args : List String) : IO UInt32 := do
  let outcome ← Command.run
    ⟨Machine.files, fun _ => return .error "No such device or address (os error 6)",
      ← IO.getEnv "KNIT_LOG_LEVEL"⟩ args
  IO.print outcome.output
  if let some e := outcome.error then IO.eprintln ("Error: " ++ e.message)
  return outcome.exitCode.toUInt32
