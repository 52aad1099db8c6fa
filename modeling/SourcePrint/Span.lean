import SourcePrint.Lexeme.Basic
import SourcePrint.MapThread
import SourcePrint.Text.Utf8

namespace SourcePrint

/-- A category given to the bytes of a text from `start` up to `stop`. -/
structure Span where
  start : Nat
  stop : Nat
  category : Category
  deriving DecidableEq, Repr

namespace Span

def size (span : Span) : Nat := span.stop - span.start

/-- The text under a span, if its ends are character boundaries in order. -/
def text? (span : Span) (text : String) : Option String :=
  (Text.slice? span.start span.stop text.toList).map String.ofList

/-- The span of a lexeme at a byte offset, and the offset after it. -/
def place (start : Nat) (lexeme : Lexeme) : Span × Nat :=
  let stop := start + Text.byteLength lexeme.text
  (⟨start, stop, lexeme.category⟩, stop)

def layOut (lexemes : List Lexeme) : List Span := mapThread place 0 lexemes

end Span

end SourcePrint
