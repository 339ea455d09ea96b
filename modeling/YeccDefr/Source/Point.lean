/-!
# Points and regions of a text

A `Point` is a place between two characters of a text, given as line, column and byte index at once.
`Point.advance` moves a point over a text that starts there. It is written in closed form: the line
grows by the line feeds of the text, the column counts from the last of them, the index grows by the
bytes. A `Region` is what lies between two points.
-/

namespace YeccDefr

/-- A place in a text. Lines and columns count from 1, the index counts bytes from 0. -/
structure Point where
  line : Nat
  column : Nat
  index : Nat
  deriving DecidableEq, Inhabited

namespace Point

/-- The place in front of the first character of a text. -/
def origin : Point := ⟨1, 1, 0⟩

/-- The characters after the last line feed, all of them where there is no line feed. -/
def lastLine (cs : List Char) : List Char :=
  (cs.reverse.takeWhile (· ≠ '\n')).reverse

/-- The place right after `text` where `text` starts at `p`. -/
def advance (p : Point) (text : String) : Point where
  line := p.line + text.toList.count '\n'
  column :=
    if '\n' ∈ text.toList then (lastLine text.toList).length + 1
    else p.column + text.toList.length
  index := p.index + text.utf8ByteSize

/-- A point is shown as line and column. -/
protected def toString (p : Point) : String :=
  s!"{p.line}:{p.column}"

instance : ToString Point := ⟨Point.toString⟩

end Point

/-- The part of a text from `start` up to, and not including, `stop`. -/
structure Region where
  start : Point
  stop : Point
  deriving DecidableEq, Inhabited

namespace Region

/-- The region of `text` where it starts at `p`. -/
def ofText (p : Point) (text : String) : Region := ⟨p, p.advance text⟩

/-- A region is shown as its two ends. -/
protected def toString (r : Region) : String :=
  s!"{r.start}->{r.stop}"

instance : ToString Region := ⟨Region.toString⟩

end Region

end YeccDefr
