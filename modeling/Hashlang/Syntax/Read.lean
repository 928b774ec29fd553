import Hashlang.Syntax.Parse

namespace Hashlang

def scanEntries (tokens : List Token) : List Log.Entry :=
  (tokens.filter fun t => t.kind ≠ .endOfFile).map fun t =>
    ⟨.trace, .scanner, s!"scanned {t.describe} at {t.span}"⟩

def readTokens (c : Cursor Token) : List Log.Entry × Except SyntaxError Program :=
  let parsed := parseTape c
  (parsed.events.map Parse.Event.entry, parsed.result)

def readSource (source : String) : List Log.Entry × Except SyntaxError Program :=
  let tokens := scan source
  let (entries, result) := readTokens (.ofList tokens)
  (scanEntries tokens ++ entries, result)

end Hashlang
