import Mathlib.Algebra.BigOperators.Fin
import Mathlib.Data.Int.ModEq
import Mathlib.Tactic.Ring
import SourcePrint.Proofs.Outcomes

namespace SourcePrint

namespace Text

/-- UTF-16 as the standard defines it: up to U+FFFF a character is its own unit, above it is a high
surrogate and a low one. -/
inductive Utf16 : List Char → List Nat → Prop
  | nil : Utf16 [] []
  | single {c : Char} {cs : List Char} {us : List Nat} (hc : c.toNat < 0x10000)
      (rest : Utf16 cs us) : Utf16 (c :: cs) (c.toNat :: us)
  | pair {c : Char} {cs : List Char} {us : List Nat} {high low : Nat}
      (hhigh : 0xD800 ≤ high ∧ high < 0xDC00) (hlow : 0xDC00 ≤ low ∧ low < 0xE000)
      (hc : c.toNat = 0x10000 + (high - 0xD800) * 0x400 + (low - 0xDC00))
      (rest : Utf16 cs us) : Utf16 (c :: cs) (high :: low :: us)

theorem toNat_lt (c : Char) : c.toNat < 0x110000 := by
  rcases c.valid with h | ⟨-, h⟩
  · exact Nat.lt_trans h (by decide)
  · exact h

theorem utf16_units (cs : List Char) : Utf16 cs (units cs) := by
  induction cs with
  | nil => exact .nil
  | cons c cs ih =>
    rw [units, List.flatMap_cons, charUnits]
    by_cases hc : c.toNat < 0x10000
    · rw [if_pos hc]
      exact .single hc ih
    · have hmax := toNat_lt c
      rw [if_neg hc]
      exact .pair (by omega) (by omega) (by omega) ih

theorem Utf16.eq_units {cs : List Char} {us : List Nat} (h : Utf16 cs us) : us = units cs := by
  induction h with
  | nil => rfl
  | single hc _ ih =>
    rw [ih, units, units, List.flatMap_cons, charUnits, if_pos hc]
    rfl
  | @pair c cs us high low hhigh hlow hc _ ih =>
    have habove : ¬ c.toNat < 0x10000 := by omega
    have hunits : charUnits c = [high, low] := by
      rw [charUnits, if_neg habove, hc]
      simp only [List.cons.injEq, and_true]
      omega
    rw [ih, units, units, List.flatMap_cons, hunits]
    rfl

theorem utf16_iff {cs : List Char} {us : List Nat} : Utf16 cs us ↔ us = units cs :=
  ⟨Utf16.eq_units, fun h => h ▸ utf16_units cs⟩

theorem units_append (cs ds : List Char) : units (cs ++ ds) = units cs ++ units ds :=
  List.flatMap_append

end Text

namespace Digest

/-- Each unit times the power of 31 that counts the units behind it. -/
def weigh (us : List Nat) : Int := ∑ i : Fin us.length, (us[i] : Int) * 31 ^ (us.length - 1 - i)

theorem weigh_cons (u : Nat) (us : List Nat) :
    weigh (u :: us) = u * 31 ^ us.length + weigh us := by
  have hfirst := Fin.sum_univ_succ (n := us.length) fun i =>
    ((u :: us)[i] : Int) * 31 ^ (us.length - i)
  simp only [Fin.val_succ, Nat.add_comm _ 1, ← Nat.sub_sub] at hfirst
  simpa [weigh] using hfirst

theorem polynomialStep_modEq (hash : Int32) (unit : Nat) :
    (polynomialStep hash unit).toInt ≡ hash.toInt * 31 + unit [ZMOD 2 ^ 32] := by
  have hbmod (x : Int) : x.bmod (2 ^ 32) ≡ x [ZMOD 2 ^ 32] := Int.bmod_emod
  have hproduct : (hash * 31).toInt ≡ hash.toInt * 31 [ZMOD 2 ^ 32] := by
    rw [Int32.toInt_mul]
    exact hbmod _
  have hunit : (Int32.ofNat unit).toInt ≡ unit [ZMOD 2 ^ 32] := by
    rw [Int32.toInt_ofNat']
    exact hbmod _
  rw [polynomialStep, Int32.toInt_add]
  exact (hbmod _).trans (hproduct.add hunit)

/-- Going on from a hash: each further unit moves it up by one power of 31. -/
theorem foldl_polynomialStep_modEq (hash : Int32) (us : List Nat) :
    (us.foldl polynomialStep hash).toInt ≡ hash.toInt * 31 ^ us.length + weigh us
      [ZMOD 2 ^ 32] := by
  induction us generalizing hash with
  | nil => simp [weigh]
  | cons u us ih =>
    have hstep := (polynomialStep_modEq hash u).mul_right (31 ^ us.length)
    have hmoved : (hash.toInt * 31 + u) * 31 ^ us.length + weigh us =
        hash.toInt * 31 ^ (u :: us).length + weigh (u :: us) := by
      rw [weigh_cons, List.length_cons]
      ring
    rw [List.foldl_cons, ← hmoved]
    exact (ih _).trans (hstep.add_right _)

theorem polynomial_modEq_weigh (text : String) :
    (polynomial text).toInt ≡ weigh (Text.units text.toList) [ZMOD 2 ^ 32] := by
  have hrun := foldl_polynomialStep_modEq 0 (Text.units text.toList)
  rwa [Int32.toInt_zero, Int.zero_mul, Int.zero_add] at hrun

theorem polynomial_append_modEq (a b : String) :
    (polynomial (a ++ b)).toInt ≡
      (polynomial a).toInt * 31 ^ (Text.units b.toList).length + (polynomial b).toInt
      [ZMOD 2 ^ 32] := by
  have happend : polynomial (a ++ b) =
      (Text.units b.toList).foldl polynomialStep (polynomial a) := by
    rw [polynomial, String.toList_append, Text.units_append, List.foldl_append, polynomial]
  rw [happend]
  exact (foldl_polynomialStep_modEq _ _).trans ((polynomial_modEq_weigh b).symm.add_left _)

/-- The hash of a text is the signed word of 32 bits in the residue class of the polynomial in 31
over its UTF-16 units. The hash of two texts in a row is found from their hashes and the number of
units of the second, and so is the hash of the tokens of two streams in a row, also when it is read
off their fingerprints. -/
theorem polynomial_residue :
    (∀ (cs : List Char) (us : List Nat), Text.Utf16 cs us ↔ us = Text.units cs) ∧
    (∀ text : String,
      -2 ^ 31 ≤ (polynomial text).toInt ∧ (polynomial text).toInt < 2 ^ 31 ∧
      (polynomial text).toInt ≡ weigh (Text.units text.toList) [ZMOD 2 ^ 32]) ∧
    (∀ a b : String,
      (polynomial (a ++ b)).toInt ≡
        (polynomial a).toInt * 31 ^ (Text.units b.toList).length + (polynomial b).toInt
        [ZMOD 2 ^ 32]) ∧
    (∀ xs ys : List Token,
      (polynomial (Token.canonicalText (xs ++ ys))).toInt ≡
        (polynomial (Token.canonicalText xs)).toInt *
            31 ^ (Text.units (Token.canonicalText ys).toList).length +
          (polynomial (Token.canonicalText ys)).toInt [ZMOD 2 ^ 32]) ∧
    ∀ (name : String) (version : UInt32) (xs ys : List Token), version ≠ 0 →
      ∃ first second whole, Fingerprint.ofTokens name xs version = .ok first ∧
        Fingerprint.ofTokens name ys version = .ok second ∧
        Fingerprint.ofTokens name (xs ++ ys) version = .ok whole ∧
        whole.hash.toInt ≡
          first.hash.toInt * 31 ^ (Text.units second.canonicalText.toList).length +
            second.hash.toInt [ZMOD 2 ^ 32] := by
  have htokens (xs ys : List Token) := Token.canonicalText_append xs ys ▸
    polynomial_append_modEq (Token.canonicalText xs) (Token.canonicalText ys)
  refine ⟨fun _ _ => Text.utf16_iff,
    fun text => ⟨Int32.le_toInt _, Int32.toInt_lt _, polynomial_modEq_weigh text⟩,
    polynomial_append_modEq, htokens, ?_⟩
  intro name version xs ys hversion
  obtain ⟨first, hfirst, -, hhash⟩ := Fingerprint.exists_ofTokens hversion name xs
  obtain ⟨second, hsecond, htext, hhash'⟩ := Fingerprint.exists_ofTokens hversion name ys
  obtain ⟨whole, hwhole, -, hhash''⟩ := Fingerprint.exists_ofTokens hversion name (xs ++ ys)
  refine ⟨first, second, whole, hfirst, hsecond, hwhole, ?_⟩
  rw [hhash, hhash', hhash'', htext]
  exact htokens xs ys

/-- A statement whose name is written with a surrogate pair. The sums leave the range of a word, and
the hashes of the first token and of the whole wrap below zero. -/
theorem polynomial_residue_surrogates :
    let keyword : Token := ⟨.verbatim "return", "return", 0, 1, 1, none, "a.c"⟩
    let rest : List Token := [⟨.verbatim "𝛼", "𝛼", 7, 1, 8, none, "a.c"⟩,
      ⟨.verbatim ";", ";", 11, 1, 9, none, "a.c"⟩]
    Text.Utf16 "𝛼;".toList [0xD835, 0xDEFC, 0x3B] ∧ (7 : UInt32) ≠ 0 ∧
      (polynomial "return").toInt = -934396624 ∧ (polynomial "𝛼;").toInt = 54960052 ∧
      (polynomial "return𝛼;").toInt = -871820156 ∧
      ∃ first second whole, Fingerprint.ofTokens "a.c" [keyword] 7 = .ok first ∧
        Fingerprint.ofTokens "a.c" rest 7 = .ok second ∧
        Fingerprint.ofTokens "a.c" (keyword :: rest) 7 = .ok whole ∧
        whole.hash.toInt ≡
          first.hash.toInt * 31 ^ (Text.units second.canonicalText.toList).length +
            second.hash.toInt [ZMOD 2 ^ 32] := by
  intro keyword rest
  obtain ⟨hunits, -, -, -, hfingerprints⟩ := polynomial_residue
  exact ⟨(hunits _ _).mpr (by decide), by decide, by decide +kernel, by decide +kernel,
    by decide +kernel, hfingerprints "a.c" 7 [keyword] rest (by decide)⟩

end Digest

end SourcePrint
