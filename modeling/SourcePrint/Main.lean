import SourcePrint.Command.Run

namespace SourcePrint.Command

/-- The cause of a failure to read, as far as the program tells causes apart. System calls give
error numbers with either sign. -/
def fileError : IO.Error → FileError
  | .noFileOrDirectory .. => .notFound
  | .inappropriateType _ code _ => if code = 20 ∨ code = -20 then .notDirectory else .isDirectory
  | error => .other (toString error)

def readFile (path : String) : IO (String × Except FileError ByteArray) := do
  try
    return (path, .ok (← IO.FS.readBinFile path))
  catch error =>
    return (path, .error (fileError error))

def wantedFiles (args : Arguments) : List String :=
  args.config.toList ++ if args.typeOnly then [] else args.paths

end SourcePrint.Command

open SourcePrint SourcePrint.Command in
/-- Reads the files that are asked for and prints what the run over them says. -/
def main (words : List String) : IO UInt32 := do
  let wanted := ((Arguments.parse? words).map wantedFiles).getD []
  let files ← wanted.mapM readFile
  let outcome := run (fun path => (files.lookup path).getD (.error .notFound)) words
  for line in outcome.lines do
    IO.println line
  if let some complaint := outcome.complaint then
    IO.eprintln complaint
  return outcome.exitCode
