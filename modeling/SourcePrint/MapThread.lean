namespace SourcePrint

variable {σ α β : Type}

/-- Goes on with a threaded map behind `done`, last result first, in constant stack space. -/
def mapThreadAfter (f : σ → α → β × σ) (done : List β) (state : σ) : List α → List β
  | [] => done.reverse
  | a :: rest =>
    let step := f state a
    mapThreadAfter f (step.1 :: done) step.2 rest

/-- Maps a list while a state passes from element to element. -/
def mapThread (f : σ → α → β × σ) (state : σ) (as : List α) : List β :=
  mapThreadAfter f [] state as

theorem mapThreadAfter_eq (f : σ → α → β × σ) (done : List β) (state : σ) (as : List α) :
    mapThreadAfter f done state as = done.reverse ++ mapThread f state as := by
  induction as generalizing done state with
  | nil => simp [mapThread, mapThreadAfter]
  | cons a rest ih =>
    simp only [mapThread, mapThreadAfter]
    rw [ih, ih [_]]
    simp

@[simp] theorem mapThread_nil (f : σ → α → β × σ) (state : σ) : mapThread f state [] = [] := rfl

@[simp] theorem mapThread_cons (f : σ → α → β × σ) (state : σ) (a : α) (as : List α) :
    mapThread f state (a :: as) = (f state a).1 :: mapThread f (f state a).2 as :=
  mapThreadAfter_eq f [(f state a).1] (f state a).2 as

@[simp] theorem length_mapThread (f : σ → α → β × σ) (state : σ) (as : List α) :
    (mapThread f state as).length = as.length := by
  induction as generalizing state with
  | nil => rfl
  | cons a as ih => simp [ih]

end SourcePrint
