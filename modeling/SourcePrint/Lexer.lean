import SourcePrint.Category.Tag
import SourcePrint.Lexeme.Scan
import SourcePrint.Span

namespace SourcePrint

/-- Anything that cuts a text into spans. -/
structure Lexer where
  name : String
  scan : String → Except LexicalError (List Span)

def Language.spans (language : Language) (text : String) : List Span :=
  Span.layOut (language.scan text.toList)

def Language.lexer (language : Language) : Lexer :=
  ⟨language.title, fun text => .ok (language.spans text)⟩

/-- A span whose category is still a tag. -/
structure TaggedSpan where
  start : Nat
  stop : Nat
  tag : String
  deriving DecidableEq, Repr

/-- Spans that another program found in some text. -/
structure Recording where
  name : String
  spans : List TaggedSpan
  deriving DecidableEq, Repr

namespace Recording

def decode (span : TaggedSpan) : Except LexicalError Span :=
  (Category.ofTag span.tag).map fun category => ⟨span.start, span.stop, category⟩

/-- Replays the recorded spans whatever the text is. The first tag that is unknown is an error. -/
def lexer (recording : Recording) : Lexer :=
  ⟨recording.name, fun _ => recording.spans.mapM decode⟩

def placePiece (start : Nat) (piece : String × String) : TaggedSpan × Nat :=
  let stop := start + Text.byteLength piece.1.toList
  (⟨start, stop, piece.2⟩, stop)

/-- Lays texts with their tags end to end, and gives the whole text too. -/
def ofPieces (name : String) (pieces : List (String × String)) : String × Recording :=
  (String.join (pieces.map (·.1)), ⟨name, mapThread placePiece 0 pieces⟩)

end Recording

end SourcePrint
