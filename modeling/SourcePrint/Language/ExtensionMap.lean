import SourcePrint.Language.Basic

namespace SourcePrint

/-- A language for each of some extensions. The extensions increase by code point, so equal maps
have equal entries. -/
structure ExtensionMap where
  entries : List (String × Language)
  sorted : entries.Pairwise fun a b => a.1 < b.1
  deriving DecidableEq

namespace ExtensionMap

/-- Puts one entry in its place, taking out the entry it replaces. -/
def insertSorted (key : String) (language : Language) :
    List (String × Language) → List (String × Language)
  | [] => [(key, language)]
  | entry :: rest =>
    if key < entry.1 then (key, language) :: entry :: rest
    else if entry.1 < key then entry :: insertSorted key language rest
    else (key, language) :: rest

theorem mem_insertSorted {key : String} {language : Language} {entries : List (String × Language)}
    {e : String × Language} (h : e ∈ insertSorted key language entries) :
    e = (key, language) ∨ e ∈ entries := by
  induction entries with
  | nil => simpa [insertSorted] using h
  | cons entry rest ih =>
    simp only [insertSorted] at h
    split at h
    · simpa using h
    · split at h
      · rcases List.mem_cons.mp h with rfl | h
        · simp
        · rcases ih h with rfl | h <;> simp_all
      · rcases List.mem_cons.mp h with rfl | h <;> simp_all

theorem sorted_insertSorted (key : String) (language : Language)
    (entries : List (String × Language)) (h : entries.Pairwise fun a b => a.1 < b.1) :
    (insertSorted key language entries).Pairwise fun a b => a.1 < b.1 := by
  induction entries with
  | nil => simp [insertSorted]
  | cons entry rest ih =>
    obtain ⟨hrest, hpair⟩ := List.pairwise_cons.mp h
    simp only [insertSorted]
    split
    · rename_i hlt
      refine List.pairwise_cons.mpr ⟨fun e he => ?_, h⟩
      rcases List.mem_cons.mp he with rfl | he
      · exact hlt
      · exact String.lt_trans hlt (hrest e he)
    · split
      · rename_i hgt
        refine List.pairwise_cons.mpr ⟨fun e he => ?_, ih hpair⟩
        rcases mem_insertSorted he with rfl | he
        · exact hgt
        · exact hrest e he
      · rename_i hlt hgt
        have heq : key = entry.1 :=
          String.le_antisymm (String.not_lt.mp hgt) (String.not_lt.mp hlt)
        exact List.pairwise_cons.mpr ⟨fun e he => heq ▸ hrest e he, hpair⟩

def empty : ExtensionMap := ⟨[], .nil⟩

/-- Adds an extension as it is spelled, or replaces its language. -/
def put (map : ExtensionMap) (extension : String) (language : Language) : ExtensionMap :=
  ⟨insertSorted extension language map.entries, sorted_insertSorted _ _ _ map.sorted⟩

/-- Puts entries in turn, so the last of two for one extension stays. -/
def ofList (entries : List (String × Language)) : ExtensionMap :=
  entries.foldl (fun map entry => map.put entry.1 entry.2) empty

/-- An order in which entries are gone through. -/
structure Order where
  arrange : List (String × Language) → List (String × Language)
  perm (entries : List (String × Language)) : (arrange entries).Perm entries

def Order.ascending : Order := ⟨id, fun _ => .refl _⟩

def find? (map : ExtensionMap) (extension : String) : Option Language :=
  map.entries.lookup extension

def extensions (map : ExtensionMap) : List String := map.entries.map (·.1)

def size (map : ExtensionMap) : Nat := map.entries.length

end ExtensionMap

end SourcePrint
