namespace SourcePrint.Text

def byteLength (cs : List Char) : Nat := cs.foldl (fun n c => n + c.utf8Size) 0

/-- What is left after exactly `n` bytes. There is no answer inside a character or past the end. -/
def dropBytes? : Nat → List Char → Option (List Char)
  | 0, cs => some cs
  | _ + 1, [] => none
  | n + 1, c :: cs => if c.utf8Size ≤ n + 1 then dropBytes? (n + 1 - c.utf8Size) cs else none

/-- The first `n` bytes after `taken`, which holds the characters read so far, last one first. -/
def takeBytesAfter? (taken : List Char) : Nat → List Char → Option (List Char)
  | 0, _ => some taken.reverse
  | _ + 1, [] => none
  | n + 1, c :: cs =>
    if c.utf8Size ≤ n + 1 then takeBytesAfter? (c :: taken) (n + 1 - c.utf8Size) cs else none

def takeBytes? (n : Nat) (cs : List Char) : Option (List Char) := takeBytesAfter? [] n cs

def slice? (start stop : Nat) (cs : List Char) : Option (List Char) :=
  if stop < start then none
  else (dropBytes? start cs).bind (takeBytes? (stop - start))

theorem byteLength_from (n : Nat) (cs : List Char) :
    cs.foldl (fun n c => n + c.utf8Size) n = n + byteLength cs := by
  induction cs generalizing n with
  | nil => rfl
  | cons c cs ih =>
    have h : byteLength (c :: cs) = 0 + c.utf8Size + byteLength cs := ih (0 + c.utf8Size)
    rw [List.foldl_cons, ih, h]
    omega

@[simp] theorem byteLength_nil : byteLength [] = 0 := rfl

@[simp] theorem byteLength_cons (c : Char) (cs : List Char) :
    byteLength (c :: cs) = c.utf8Size + byteLength cs :=
  (byteLength_from (0 + c.utf8Size) cs).trans (by rw [Nat.zero_add])

@[simp] theorem byteLength_append (a b : List Char) :
    byteLength (a ++ b) = byteLength a + byteLength b := by
  induction a with
  | nil => simp
  | cons c a ih => simp [ih, Nat.add_assoc]

theorem takeBytesAfter?_eq (taken : List Char) (n : Nat) (cs : List Char) :
    takeBytesAfter? taken n cs = (takeBytes? n cs).map (taken.reverse ++ ·) := by
  induction cs generalizing taken n with
  | nil => cases n <;> simp [takeBytes?, takeBytesAfter?]
  | cons c cs ih =>
    cases n with
    | zero => simp [takeBytes?, takeBytesAfter?]
    | succ n =>
      simp only [takeBytes?, takeBytesAfter?]
      split
      · rw [ih, ih [c]]
        simp [Option.map_map, Function.comp_def]
      · rfl

end SourcePrint.Text
