import Hashlang.CommandLine.Invocation

namespace Hashlang.CommandLine

partial def readToEnd (stream : IO.FS.Stream) (bytes : ByteArray) : IO ByteArray := do
  let more ← stream.read 65536
  if more.isEmpty then return bytes
  readToEnd stream (bytes ++ more)

def attempt (action : IO ByteArray) : IO (Except ReadFailure ByteArray) := do
  try
    return .ok (← action)
  catch
    | .noFileOrDirectory .. => return .error .missing
    | e => return .error (.other (toString e))

def surroundings : Input → IO Surroundings
  | .inline _ => return {}
  | .file path => do
    let bytes ← attempt (IO.FS.readBinFile path)
    return { file := fun _ => bytes }
  | .standardInput => do
    return { standardInput := ← attempt (do readToEnd (← IO.getStdin) .empty) }

end Hashlang.CommandLine

def main (words : List String) : IO UInt32 := do
  let around ←
    match Hashlang.Arguments.ofWords words with
    | .ok a => Hashlang.CommandLine.surroundings a.input
    | .error _ => pure {}
  let conclusion := Hashlang.CommandLine.invoke around words
  (← IO.getStdout).putStr conclusion.written
  (← IO.getStderr).putStr conclusion.complaint
  return conclusion.code
