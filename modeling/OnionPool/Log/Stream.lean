import OnionPool.Log.Format
import OnionPool.Text.Utf8

/-!
# From output bytes to log entries

A program's output is cut at line feeds. A line loses all line feeds and carriage returns at its
end, is read as UTF-8 with replacement, and is dropped if it is blank; the others become entries.
-/

namespace OnionPool.Log

/-- The byte that ends a line. -/
def lineFeed : UInt8 := 0x0A

/-- The byte that may stand in front of it. -/
def carriageReturn : UInt8 := 0x0D

/-- The pieces of an output between line feeds; a last piece that is empty is no piece. -/
def pieces (bytes : List UInt8) : List (List UInt8) := go [] bytes
where
  /-- `piece` is the piece read so far, last byte first. -/
  go (piece : List UInt8) : List UInt8 → List (List UInt8)
    | [] => if piece = [] then [] else [piece.reverse]
    | b :: rest => if b = lineFeed then piece.reverse :: go [] rest else go (b :: piece) rest

/-- A piece without the carriage returns at its end. -/
def dropReturns (piece : List UInt8) : List UInt8 :=
  (piece.reverse.dropWhile (· = carriageReturn)).reverse

/-- The lines of an output that are not blank. -/
def outputLines (bytes : List UInt8) : List (List Char) :=
  ((pieces bytes).map fun piece => Text.Utf8.decode (dropReturns piece)).filter
    fun line => Text.trim line ≠ []

/-- The entries of an output, each line taken apart by `classify`. -/
def classified (classify : List Char → Entry) (bytes : List UInt8) : List Entry :=
  (outputLines bytes).map classify

/-- The entries of an output whose lines have a program's format. -/
def entries (format : Format) (bytes : List UInt8) : List Entry := classified format.read bytes

end OnionPool.Log
