import Hashlang.Token.Basic

namespace Hashlang

namespace Token

def Kind.color : Kind → Nat
  | .illegal => 91
  | .comment => 90
  | _ => 36

def Kind.painted (kind : Kind) : String := s!"\x1b[{kind.color}m{kind.name}\x1b[39m"

namespace Listing

def column (width : Nat) (text : String) : String := .ofList (text.toList.rightpad width ' ')

def line (colored : Bool) (t : Token) : String :=
  let kind := if colored then t.kind.painted else t.kind.name
  s!"{column 9 (toString t.span)} {column 14 kind} {quoted t.value}\n"

end Listing

def listing (colored : Bool) (tokens : List Token) : String :=
  String.join (tokens.map (Listing.line colored))

end Token

end Hashlang
