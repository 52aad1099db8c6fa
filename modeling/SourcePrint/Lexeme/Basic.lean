import SourcePrint.Category

namespace SourcePrint

/-- A piece of source text with its category. -/
structure Lexeme where
  category : Category
  text : List Char
  deriving DecidableEq, Repr

/-- Lexemes read off the front of a text, and the text after them. -/
structure Reading where
  lexemes : List Lexeme
  rest : List Char
  deriving DecidableEq, Repr

def Reading.one (category : Category) (text rest : List Char) : Reading :=
  ⟨[⟨category, text⟩], rest⟩

/-- The longest run of characters in a class, as one lexeme. -/
def Reading.while (category : Category) (p : Char → Bool) (cs : List Char) : Reading :=
  one category (cs.takeWhile p) (cs.dropWhile p)

theorem length_dropWhile_le (p : Char → Bool) (cs : List Char) :
    (cs.dropWhile p).length ≤ cs.length :=
  (List.dropWhile_sublist p).length_le

/-- What a run of characters does at its next character. -/
inductive Move (σ : Type) where
  /-- The character belongs to the run, which goes on in state `next`. -/
  | take (next : σ)
  /-- The character is the last of the run. -/
  | close
  /-- The run ended before the character. -/
  | stop

/-- A run of characters, the text after it, and whether it ended at a character of its own. -/
structure Run where
  taken : List Char
  rest : List Char
  closed : Bool
  deriving DecidableEq, Repr

namespace Run

variable {σ : Type}

/-- Goes on with a run that has taken `taken`, last character first. -/
def resume (move : σ → Char → Move σ) (taken : List Char) (state : σ) : List Char → Run
  | [] => ⟨taken.reverse, [], false⟩
  | c :: cs =>
    match move state c with
    | .take next => resume move (c :: taken) next cs
    | .close => ⟨(c :: taken).reverse, cs, true⟩
    | .stop => ⟨taken.reverse, c :: cs, false⟩

def read (move : σ → Char → Move σ) (state : σ) (cs : List Char) : Run := resume move [] state cs

theorem resume_append (move : σ → Char → Move σ) (taken : List Char) (state : σ)
    (cs : List Char) :
    (resume move taken state cs).taken ++ (resume move taken state cs).rest =
      taken.reverse ++ cs := by
  induction cs generalizing taken state with
  | nil => simp [resume]
  | cons c cs ih =>
    simp only [resume]
    split
    · simp [ih]
    · simp
    · rfl

theorem read_append (move : σ → Char → Move σ) (state : σ) (cs : List Char) :
    (read move state cs).taken ++ (read move state cs).rest = cs :=
  resume_append move [] state cs

theorem length_read_rest_le (move : σ → Char → Move σ) (state : σ) (cs : List Char) :
    (read move state cs).rest.length ≤ cs.length := by
  have h := congrArg List.length (read_append move state cs)
  simp only [List.length_append] at h
  omega

end Run

end SourcePrint
