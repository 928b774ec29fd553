namespace Hashlang

structure Span where
  offset : Nat := 0
  length : Nat := 0
deriving DecidableEq, Inhabited

namespace Span

/-- The region from `start` up to `stop`; it is empty where the bounds are reversed. -/
def ofBounds (start stop : Nat) : Span where
  offset := start
  length := stop - start

def stop (s : Span) : Nat := s.offset + s.length

def endpoint (s : Span) : Span where
  offset := s.stop

def isEmpty (s : Span) : Bool := s.length == 0

def join (s t : Span) : Span := ofBounds (min s.offset t.offset) (max s.stop t.stop)

def shift (n : Nat) (s : Span) : Span := { s with offset := s.offset + n }

protected def compare (s t : Span) : Ordering :=
  (compare s.offset t.offset).then (compare s.length t.length)

instance : Ord Span := ⟨Span.compare⟩

instance : ToString Span := ⟨fun s => s!"{s.offset}..{s.stop}"⟩

def describe (s : Span) : String := s!"Span \x7b offset: {s.offset}, len: {s.length} \x7d"

theorem join_of_le {s t : Span} (apart : s.stop ≤ t.offset) :
    s.join t = ⟨s.offset, t.stop - s.offset⟩ := by
  simp only [stop] at apart
  simp only [join, ofBounds, stop, mk.injEq]
  omega

theorem shift_join (n : Nat) (s t : Span) : (s.join t).shift n = (s.shift n).join (t.shift n) := by
  simp only [join, ofBounds, stop, shift, mk.injEq]
  omega

end Span

def byteOffset? : List Char → Nat → Option Nat
  | _, 0 => some 0
  | [], _ + 1 => none
  | c :: rest, k + 1 => (byteOffset? rest k).map (c.utf8Size + ·)

/-- The part of a text between two byte offsets, `none` unless both are boundaries of characters
and in order. -/
def byteSlice? (source : String) (start stop : Nat) : Option String := do
  let first ← source.pos? ⟨start⟩
  let last ← source.pos? ⟨stop⟩
  if first ≤ last then some (source.extract first last) else none

/-- The text that a span covers, `none` if it reaches past the end of `source`. -/
def Span.text? (s : Span) (source : String) : Option String := do
  let start ← byteOffset? source.toList s.offset
  let stop ← byteOffset? source.toList s.stop
  byteSlice? source start stop

structure Place where
  line : Nat := 1
  column : Nat := 0
deriving DecidableEq, Inhabited

namespace Place

def after (p : Place) (c : Char) : Place :=
  if c = '\n' then { line := p.line + 1 } else { p with column := p.column + 1 }

def behind (text : List Char) : Place := text.foldl after {}

end Place

/-- The place where a span starts; one that starts past the end is placed at the end. -/
def Span.place (s : Span) (source : String) : Place :=
  Place.behind (source.toList.take s.offset)

end Hashlang
