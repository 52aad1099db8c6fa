import SourcePrint.MapThread
import SourcePrint.Token.Normalize

namespace SourcePrint

/-- A piece with its position. -/
def Piece.locate (position : Position) (piece : Piece) : (Piece × Position) × Position :=
  ((piece, position), position.advance piece.text)

namespace Token

def ofPiece? (classifier : Classifier) (sourceName : String) (located : Piece × Position) :
    Option Token :=
  (classifier.classify located.1.category located.1.text).map fun kind =>
    { kind := kind, text := String.ofList located.1.text, startOffset := located.1.start,
      line := located.2.line, column := located.2.column, sourceName := sourceName }

/-- A literal takes in the text of a literal right after it. -/
def absorb (token : Token) (after : List Token) : List Token :=
  match after with
  | [] => [token]
  | next :: rest =>
    if token.kind.isLiteral && next.kind.isLiteral then
      { token with text := token.text ++ next.text } :: rest
    else token :: next :: rest

/-- Joins literals that follow one another. -/
def mergeLiterals (tokens : List Token) : List Token := tokens.foldr absorb []

/-- The tokens of pieces, with literals joined only after all of them are known. -/
def ofPieces (classifier : Classifier) (sourceName : String) (pieces : List Piece) : List Token :=
  mergeLiterals ((mapThread Piece.locate .start pieces).filterMap (ofPiece? classifier sourceName))

theorem absorb_absorb {first second : Token} (hfirst : first.kind = .literal)
    (hsecond : second.kind = .literal) (after : List Token) :
    absorb first (absorb second after) =
      absorb { first with text := first.text ++ second.text } after := by
  cases after with
  | nil => simp [absorb, hfirst, hsecond, Symbol.isLiteral]
  | cons next rest =>
    by_cases hnext : next.kind = .literal
    · simp [absorb, hfirst, hsecond, hnext, Symbol.isLiteral, String.append_assoc]
    · simp [absorb, hfirst, hsecond, hnext, Symbol.isLiteral]

theorem absorb_of_apart {first second : Token}
    (h : (first.kind.isLiteral && second.kind.isLiteral) = false) (after : List Token) :
    absorb first (absorb second after) = first :: absorb second after := by
  obtain ⟨next, rest, hnext, hkind⟩ :
      ∃ next rest, absorb second after = next :: rest ∧ next.kind = second.kind := by
    cases after with
    | nil => exact ⟨second, [], rfl, rfl⟩
    | cons next rest =>
      by_cases hboth : (second.kind.isLiteral && next.kind.isLiteral) = true
      · exact ⟨_, rest, if_pos hboth, rfl⟩
      · exact ⟨second, next :: rest, if_neg hboth, rfl⟩
  rw [hnext, absorb, hkind, h]
  rfl

end Token

/-- What becomes of the tokens behind one that is held back. -/
def Pending.before (pending : Pending) (after : List Token) : List Token :=
  match pending with
  | .holding held => held.absorb after
  | .empty => after

/-- A token that is taken in goes in front of those behind it, whatever was held back. -/
theorem Pending.accept_spec (pending : Pending) (kind : Symbol) (piece : Piece)
    (position : Position) (sourceName : String) (out after : List Token) :
    let token : Token := ⟨kind, String.ofList piece.text, piece.start, position.line,
      position.column, none, sourceName⟩
    let accepted := pending.accept kind piece position sourceName out
    accepted.2.reverse ++ accepted.1.before after =
      out.reverse ++ pending.before (token.absorb after) := by
  intro token accepted
  cases pending with
  | empty => rfl
  | holding held =>
    cases hboth : held.kind.isLiteral && kind.isLiteral with
    | true =>
      have haccepted : accepted = (.holding { held with text := held.text ++ token.text }, out) :=
        if_pos hboth
      obtain ⟨hheld, hkind⟩ := Bool.and_eq_true_iff.mp hboth
      have hliteral : token.kind = .literal := beq_iff_eq.mp hkind
      rw [haccepted, before, before, Token.absorb_absorb (beq_iff_eq.mp hheld) hliteral]
    | false =>
      have haccepted : accepted = (.holding token, held :: out) :=
        if_neg (Bool.eq_false_iff.mp hboth)
      rw [haccepted, before, before, Token.absorb_of_apart hboth, List.reverse_cons,
        List.append_assoc]
      rfl

/-- The collector has put out, and holds back, what the pieces so far leave in front of any more. -/
theorem Collector.finish_foldl (classifier : Classifier) (sourceName : String)
    (pieces : List Piece) (collector : Collector) :
    (pieces.foldl (step classifier sourceName) collector).finish =
      collector.out.reverse ++ collector.pending.before
        (Token.mergeLiterals ((mapThread Piece.locate collector.position pieces).filterMap
          (Token.ofPiece? classifier sourceName))) := by
  induction pieces generalizing collector with
  | nil =>
    obtain ⟨out, pending, position⟩ := collector
    cases pending with
    | empty => exact (List.append_nil _).symm
    | holding held => exact List.reverse_cons
  | cons piece pieces ih =>
    rw [List.foldl_cons, ih, mapThread_cons]
    cases hkind : classifier.classify piece.category piece.text with
    | none =>
      simp only [step, hkind, Piece.locate, List.filterMap_cons, Token.ofPiece?, Option.map_none]
    | some kind =>
      simp only [step, hkind, Piece.locate, List.filterMap_cons, Token.ofPiece?, Option.map_some]
      exact Pending.accept_spec ..

namespace Token

/-- Joining literals as they come gives the same tokens as joining them in the end. -/
theorem collect_eq_ofPieces : collect = ofPieces := by
  funext classifier sourceName pieces
  exact Collector.finish_foldl classifier sourceName pieces .start

end Token

end SourcePrint
