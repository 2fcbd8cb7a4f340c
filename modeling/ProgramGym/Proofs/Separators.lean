import Mathlib.Data.String.Basic

/-! Texts cut at a single character. The parts are those of the list of characters, and parts that
do not contain the character come back from where they were joined by it. -/
namespace ProgramGym
open String

theorem splitOnAux_singleton (s : String) (c : Char) (start stop : Pos.Raw) (found : List String) :
    splitOnAux s (singleton c) start stop 0 found = splitAux s (· == c) start stop found := by
  have first : Pos.Raw.get (singleton c) 0 = c := by simp [Pos.Raw.get, Pos.Raw.utf8GetAux]
  have last : Pos.Raw.atEnd (singleton c) (Pos.Raw.next (singleton c) 0) = true := by
    simp [Pos.Raw.atEnd, Pos.Raw.next, first]
  fun_induction splitAux s (· == c) start stop found with
  | case1 start stop found done => rw [splitOnAux, if_pos done]
  | case2 start stop found more _ here _ ih =>
    have back : (Pos.Raw.next s stop).unoffsetBy (Pos.Raw.next (singleton c) 0) = stop := by
      rw [Pos.Raw.ext_iff, Pos.Raw.next, Pos.Raw.next, first, eq_of_beq here]
      change stop.byteIdx + c.utf8Size - (0 + c.utf8Size) = stop.byteIdx
      omega
    rw [splitOnAux, if_neg more, first, if_pos here]
    dsimp only
    rw [if_pos last, back]
    exact ih
  | case3 start stop found more _ other ih =>
    rw [splitOnAux, if_neg more, first, if_neg other]
    exact ih

theorem splitOn_singleton (s : String) (c : Char) :
    s.splitOn (singleton c) = (s.toList.splitOn c).map ofList := by
  have some : ¬ (singleton c == "") = true := by simp
  rw [String.splitOn, if_neg some, splitOnAux_singleton]
  exact splitToList_of_valid s _

theorem splitOn_intercalate {parts : List String} {c : Char} (nonempty : parts ≠ [])
    (apart : ∀ part ∈ parts, c ∉ part.toList) :
    ((singleton c).intercalate parts).splitOn (singleton c) = parts := by
  rw [splitOn_singleton, toList_intercalate, toList_singleton,
    List.splitOn_intercalate c (by simpa using apart) (by simpa using nonempty), List.map_map]
  simp

end ProgramGym
