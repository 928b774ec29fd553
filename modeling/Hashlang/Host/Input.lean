import Hashlang.Host.Failure
import Hashlang.Log

namespace Hashlang

inductive Input where
  | inline (source : String)
  | file (path : String)
  | standardInput
deriving DecidableEq

structure Surroundings where
  file : String → Except ReadFailure ByteArray := fun _ => .error .missing
  standardInput : Except ReadFailure ByteArray := .ok .empty

namespace Input

def describe : Input → String
  | inline source => s!"Inline({quoted source})"
  | file path => s!"File({quoted path})"
  | standardInput => "Stdin"

def decode (bytes : ByteArray) : Except ReadFailure String :=
  match String.fromUTF8? bytes with
  | some text => .ok text
  | none => .error .notText

def entries : Input → List Log.Entry
  | inline _ => []
  | file path => [⟨.debug, .host, s!"reading source from {quoted path}"⟩]
  | standardInput => [⟨.debug, .host, "reading source from stdin"⟩]

def read (s : Surroundings) : Input → Except Failure String
  | inline source => .ok source
  | file path => (s.file path >>= decode).mapError (.unreadableFile path)
  | standardInput => (s.standardInput >>= decode).mapError .unreadableStandardInput

end Input

end Hashlang
