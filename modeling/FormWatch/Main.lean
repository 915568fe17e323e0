import FormWatch.Batch

/-!
The batch runner as a program. The bundled checker is loaded by its path; the file to compile is
read before the runner starts, and one that cannot be read counts as missing.
-/

namespace FormWatch

/-- The path under which the bundled checker is loaded. -/
def checkerPath : Text := "/bundled.py".toList

/-- The disk as far as a path needs it: the file at its end, if it can be read, and the checker. -/
def diskFor (path : Text) : IO Disk := do
  let place := (pathParts path).foldl
    (fun place part => if part = "..".toList then place.dropLast else place ++ [part]) []
  let checker : List Text × Bytes := (pathParts checkerPath, [])
  try
    let content ← IO.FS.readBinFile (String.ofList path)
    return ⟨['/'], [checker, (place, content.toList)], []⟩
  catch _ => return ⟨['/'], [checker], []⟩

end FormWatch

open FormWatch in
def main (arguments : List String) : IO UInt32 := do
  let arguments := arguments.map String.toList
  let target := ((Batch.Request.parse arguments).toOption.map Batch.Request.target).getD []
  match Batch.run checkerPath (← diskFor target) arguments with
  | .error failure =>
    IO.eprintln (String.ofList (failure.name ++ ": ".toList ++ failure.message))
    return 1
  | .ok outcome =>
    IO.print (String.ofList outcome.stdout)
    IO.eprint (String.ofList outcome.stderr)
    return UInt32.ofNat outcome.exit
