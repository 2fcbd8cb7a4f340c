import Mathlib
import ProgramGym.Proofs.Storage.Disk

/-! Paths by their parts. A path is absolute or not, and its parts are what stands between its
slashes; two dots take back the part before them. Main statements: a normalized path has the parts
that are left and leads to the same place, and a plain name joined to a path is one more part. -/
namespace ProgramGym.Path

/-- What may stand between the slashes of a path; two dots are such a part. -/
structure IsPart (part : String) : Prop where
  some : part ≠ ""
  moves : part ≠ "."
  whole : '/' ∉ part.toList

/-- A part that names an entry of a directory. -/
structure IsName (name : String) : Prop extends IsPart name where
  enters : name ≠ ".."

section
variable {path part : String} {ps qs : List String}

theorem not_mem_of_mem_splitOnP {p : Char → Bool} {cs piece : List Char}
    (inside : piece ∈ cs.splitOnP p) : ∀ c ∈ piece, p c = false := by
  induction cs generalizing piece with
  | nil =>
    rw [List.splitOnP_nil, List.mem_singleton] at inside
    simp [inside]
  | cons c cs ih =>
    rw [List.splitOnP_cons_eq_if_modifyHead] at inside
    split at inside
    · rcases List.mem_cons.mp inside with rfl | later
      · simp
      · exact ih later
    · next other =>
      obtain ⟨first, rest, pieces⟩ := List.exists_cons_of_ne_nil (List.splitOnP_ne_nil p cs)
      rw [pieces] at inside ih
      rcases List.mem_cons.mp inside with rfl | later
      · rintro d within
        rcases List.mem_cons.mp within with rfl | within
        · simpa using other
        · exact ih List.mem_cons_self d within
      · exact ih (List.mem_cons_of_mem _ later)

theorem isPart_of_mem_parts (inside : part ∈ parts path) : IsPart part := by
  rw [parts_eq, List.mem_filter, List.mem_map] at inside
  obtain ⟨⟨piece, found, rfl⟩, kept⟩ := inside
  simp only [Bool.and_eq_true, Bool.not_eq_true', bne_iff_ne] at kept
  refine ⟨fun empty => ?_, kept.2, fun slash => ?_⟩
  · simp [empty] at kept
  · rw [String.toList_ofList] at slash
    simpa using not_mem_of_mem_splitOnP found _ slash

theorem parts_of_isPart (isPart : IsPart part) : parts part = [part] := by
  have whole : ∀ c ∈ part.toList, (c == '/') = false := fun c inside =>
    beq_false_of_ne fun same => isPart.whole (same ▸ inside)
  rw [parts_eq, List.splitOnP_eq_singleton whole]
  simp [isPart.some, isPart.moves]

theorem parts_slash (a b : String) : parts (a ++ "/" ++ b) = parts a ++ parts b := by
  have cut : (a ++ "/" ++ b).toList = a.toList ++ '/' :: b.toList := by
    simp
  rw [parts_eq, parts_eq, parts_eq, cut, List.splitOnP_append_cons _ _ (by simp), List.map_append,
    List.filter_append]

theorem parts_empty : parts "" = [] := by
  rw [parts_eq]
  decide

theorem parts_dot : parts "." = [] := by
  rw [parts_eq]
  decide

theorem parts_behind_slash (path : String) : parts ("/" ++ path) = parts path :=
  (parts_slash "" path).trans (by rw [parts_empty, List.nil_append])

theorem parts_before_slash (path : String) : parts (path ++ "/") = parts path := by
  have ends := parts_slash path ""
  rwa [parts_empty, List.append_nil, String.append_empty] at ends

theorem parts_intercalate (isPart : ∀ p ∈ ps, IsPart p) : parts ("/".intercalate ps) = ps := by
  induction ps with
  | nil => exact parts_empty
  | cons p ps ih =>
    obtain ⟨first, rest⟩ := List.forall_mem_cons.mp isPart
    cases ps with
    | nil => exact parts_of_isPart first
    | cons q qs =>
      rw [String.intercalate_cons_cons, parts_slash, parts_of_isPart first, ih rest]
      rfl

end

/-! Dots, resolved on the parts read so far, the last one first. -/

def push (absolute : Bool) (reversed : List String) (part : String) : List String :=
  if part != ".." then part :: reversed
  else match reversed with
    | [] => if absolute then [] else [".."]
    | last :: rest => if last == ".." then ".." :: reversed else rest

section
variable {absolute : Bool} {reversed ps : List String} {part name last : String}

theorem resolveDots_eq (absolute : Bool) (ps : List String) :
    resolveDots absolute ps = (ps.foldl (push absolute) []).reverse := rfl

theorem push_name (enters : part ≠ "..") : push absolute reversed part = part :: reversed := by
  simp [push, enters]

theorem push_dots_name (enters : last ≠ "..") :
    push absolute (last :: reversed) ".." = reversed := by
  simp [push, enters]

/-- A part is kept, or it is two dots that mean nothing at the root or take back a name. -/
theorem push_cases (absolute : Bool) (reversed : List String) (part : String) :
    push absolute reversed part = part :: reversed ∨
    (part = ".." ∧ ((absolute = true ∧ reversed = [] ∧ push absolute reversed part = []) ∨
      ∃ last, last ≠ ".." ∧ reversed = last :: push absolute reversed part)) := by
  by_cases dots : part = ".."
  · subst dots
    match reversed with
    | [] =>
      cases absolute with
      | true => exact .inr ⟨rfl, .inl ⟨rfl, rfl, rfl⟩⟩
      | false => exact .inl rfl
    | last :: rest =>
      by_cases up : last = ".."
      · subst up
        exact .inl rfl
      · exact .inr ⟨rfl, .inr ⟨last, up, by rw [push_dots_name up]⟩⟩
  · exact .inl (push_name dots)

theorem resolveDots_concat (enters : name ≠ "..") :
    resolveDots absolute (ps ++ [name]) = resolveDots absolute ps ++ [name] := by
  rw [resolveDots_eq, resolveDots_eq, List.foldl_append, List.foldl_cons, List.foldl_nil,
    push_name enters, List.reverse_cons]

/-- Resolving only leaves parts out. -/
theorem resolveDots_subset (absolute : Bool) (ps : List String) : resolveDots absolute ps ⊆ ps := by
  rw [resolveDots_eq, List.reverse_subset]
  induction ps using List.reverseRecOn with
  | nil => exact List.Subset.refl []
  | append_singleton ps p ih =>
    rw [List.foldl_append, List.foldl_cons, List.foldl_nil]
    generalize ps.foldl (push absolute) [] = reversed at ih ⊢
    have earlier : reversed ⊆ ps ++ [p] := List.subset_append_of_subset_left _ ih
    rcases push_cases absolute reversed p with kept | ⟨_, ⟨_, _, none⟩ | ⟨last, _, left⟩⟩
    · rw [kept]
      exact List.cons_subset.mpr ⟨by simp, earlier⟩
    · rw [none]
      exact List.nil_subset _
    · rw [left] at earlier
      exact (List.cons_subset.mp earlier).2

/-- Resolved parts lead where the parts do, from anywhere for a relative path and from the root for
an absolute one. -/
theorem foldl_push_resolveDots {start : List String} (root : absolute = true → start = [])
    (ps : List String) :
    (resolveDots absolute ps).foldl (push true) start = ps.foldl (push true) start := by
  rw [resolveDots_eq]
  induction ps using List.reverseRecOn with
  | nil => rfl
  | append_singleton ps p ih =>
    rw [List.foldl_append, List.foldl_append, ← ih, List.foldl_cons, List.foldl_nil,
      List.foldl_cons, List.foldl_nil]
    generalize ps.foldl (push absolute) [] = reversed
    rcases push_cases absolute reversed p with kept | ⟨rfl, ⟨top, none, gone⟩ | ⟨last, up, left⟩⟩
    · rw [kept, List.reverse_cons, List.foldl_append, List.foldl_cons, List.foldl_nil]
    · rw [gone, none, root top]
      rfl
    · conv_rhs => rw [left]
      rw [List.reverse_cons, List.foldl_append, List.foldl_cons, List.foldl_nil, push_name up,
        push_dots_name up]

end

/-! Normalized paths. -/

/-- What a path starts with. -/
def root (absolute : Bool) : String := if absolute then "/" else ""

section
variable {path directory name part : String} {ps : List String}

theorem isAbsolute_append (some : path ≠ "") (rest : String) :
    isAbsolute (path ++ rest) = isAbsolute path := by
  obtain ⟨c, cs, chars⟩ := List.exists_cons_of_ne_nil (mt String.toList_eq_nil_iff.mp some)
  simp [isAbsolute, String.toList_append, chars]

theorem IsPart.isAbsolute (isPart : IsPart part) : isAbsolute part = false := by
  refine beq_false_of_ne fun first => isPart.whole ?_
  exact List.mem_of_mem_head? first

theorem isAbsolute_intercalate (isPart : ∀ p ∈ ps, IsPart p) :
    isAbsolute ("/".intercalate ps) = false := by
  match ps with
  | [] => rfl
  | [p] => exact (isPart p (by simp)).isAbsolute
  | p :: q :: ps =>
    have first := isPart p (by simp)
    rw [String.intercalate_cons_cons, String.append_assoc, isAbsolute_append first.some,
      first.isAbsolute]

/-- The parts that are left, with nothing but slashes around them; one at the end only if the path
had one. -/
theorem normalize_cases (some : path ≠ "") : ∃ body ending,
    normalize path = root (isAbsolute path) ++ body ++ ending ∧
    (ending = "" ∨ ending = "/" ∧ body ≠ "" ∧ path.toList.getLast? = .some '/') ∧
    (body = "/".intercalate (resolveDots (isAbsolute path) (parts path)) ∨
      body = "." ∧ resolveDots (isAbsolute path) (parts path) = []) := by
  have isPart : ∀ p ∈ resolveDots (isAbsolute path) (parts path), IsPart p := fun p inside =>
    isPart_of_mem_parts (resolveDots_subset _ _ inside)
  have spelled := parts_intercalate isPart
  rw [normalize, if_neg (by simpa using some)]
  dsimp only
  generalize resolveDots (isAbsolute path) (parts path) = left at spelled
  generalize "/".intercalate left = body at spelled
  have dotted : (if (body.isEmpty && !isAbsolute path) = true then "." else body) = body ∨
      (if (body.isEmpty && !isAbsolute path) = true then "." else body) = "." ∧ left = [] := by
    split
    · next none =>
      have none : body = "" := by simpa using (Bool.and_eq_true_iff.mp none).1
      exact .inr ⟨rfl, by rw [← spelled, none, parts_empty]⟩
    · exact .inl rfl
  generalize (if (body.isEmpty && !isAbsolute path) = true then "." else body) = shown at dotted ⊢
  refine ⟨shown, if path.toList.getLast? == .some '/' && !shown.isEmpty then "/" else "", ?_, ?_,
    dotted⟩
  · generalize (path.toList.getLast? == .some '/' && !shown.isEmpty) = ends
    cases isAbsolute path <;> cases ends <;> simp [root, String.append_assoc]
  · split
    · next slash =>
      obtain ⟨last, inner⟩ := Bool.and_eq_true_iff.mp slash
      exact .inr ⟨rfl, by simpa using inner, by simpa using last⟩
    · exact .inl rfl

theorem isPart_of_mem_resolveDots {absolute : Bool}
    (inside : part ∈ resolveDots absolute (parts path)) : IsPart part :=
  isPart_of_mem_parts (resolveDots_subset absolute _ inside)

theorem parts_normalize (path : String) :
    parts (normalize path) = resolveDots (isAbsolute path) (parts path) := by
  by_cases some : path = ""
  · subst some
    exact parts_dot.trans (by rw [parts_empty]; rfl)
  · obtain ⟨body, ending, eq, slash, spelled⟩ := normalize_cases some
    have inner : parts body = resolveDots (isAbsolute path) (parts path) := by
      rcases spelled with same | ⟨rfl, none⟩
      · rw [same, parts_intercalate fun p inside => isPart_of_mem_resolveDots inside]
      · rw [none, parts_dot]
    have behind : parts (body ++ ending) = parts body := by
      rcases slash with rfl | ⟨rfl, _⟩
      · rw [String.append_empty]
      · exact parts_before_slash body
    rw [eq, String.append_assoc, ← inner, ← behind]
    cases isAbsolute path with
    | true => exact parts_behind_slash _
    | false => exact congrArg parts (String.empty_append)

theorem isAbsolute_normalize (path : String) : isAbsolute (normalize path) = isAbsolute path := by
  by_cases some : path = ""
  · subst some
    rfl
  · obtain ⟨body, ending, eq, slash, spelled⟩ := normalize_cases some
    have inner : isAbsolute body = false := by
      rcases spelled with same | ⟨rfl, _⟩
      · rw [same, isAbsolute_intercalate fun p inside => isPart_of_mem_resolveDots inside]
      · rfl
    rw [eq, String.append_assoc]
    cases isAbsolute path with
    | true =>
      have slash : "/" ≠ "" := by decide
      exact isAbsolute_append slash _
    | false =>
      change isAbsolute ("" ++ (body ++ ending)) = false
      rw [String.empty_append]
      rcases slash with rfl | ⟨_, nonempty, _⟩
      · rw [String.append_empty, inner]
      · rw [isAbsolute_append nonempty, inner]

/-- A normalized path leads to the same place. -/
theorem components_normalize (working : List String) (path : String) :
    components working (normalize path) = components working path := by
  unfold components
  rw [isAbsolute_normalize, parts_normalize]
  cases absolute : isAbsolute path with
  | true =>
    rw [if_pos rfl, if_pos rfl, resolveDots_eq, foldl_push_resolveDots fun _ => rfl]
    rfl
  | false =>
    rw [if_neg (by simp), if_neg (by simp), resolveDots_eq, List.foldl_append,
      foldl_push_resolveDots (by simp), ← List.foldl_append]
    rfl

/-- A name behind a path, before anything is resolved. -/
def behind (directory name : String) : String :=
  if directory = "" then name else directory ++ "/" ++ name

theorem join_eq (isName : IsName name) :
    join [directory, name] = normalize (behind directory name) := by
  unfold join behind
  split
  · next none => simp [none, isName.some]
  · next some => simp [some, isName.some]

theorem getLast?_behind (isName : IsName name) :
    (behind directory name).toList.getLast? ≠ some '/' := by
  have last : name.toList.getLast? ≠ some '/' := fun slash =>
    isName.whole (List.mem_of_getLast? slash)
  unfold behind
  split
  · exact last
  · rw [String.toList_append, List.getLast?_append_of_ne_nil _ (by simpa using isName.some)]
    exact last

theorem parts_behind (isName : IsName name) :
    parts (behind directory name) = parts directory ++ [name] := by
  unfold behind
  split
  · next none => rw [none, parts_empty, parts_of_isPart isName.toIsPart, List.nil_append]
  · rw [parts_slash, parts_of_isPart isName.toIsPart]

theorem isAbsolute_behind (isName : IsName name) :
    isAbsolute (behind directory name) = isAbsolute directory := by
  unfold behind
  split
  · next none =>
    rw [none, isName.isAbsolute]
    rfl
  · next some => rw [String.append_assoc, isAbsolute_append some]

/-- A name joined to a directory is one part more than the normalized directory has. -/
theorem join_name (isName : IsName name) : join [directory, name] =
    root (isAbsolute (normalize directory)) ++
      "/".intercalate (parts (normalize directory) ++ [name]) := by
  have some : behind directory name ≠ "" := by
    intro none
    have parts : parts (behind directory name) = _ := parts_behind isName
    simp [none, parts_empty] at parts
  obtain ⟨body, ending, eq, slash, spelled⟩ := normalize_cases some
  rw [isAbsolute_behind isName, parts_behind isName, resolveDots_concat isName.enters] at spelled
  rw [join_eq isName, eq, isAbsolute_behind isName, isAbsolute_normalize, parts_normalize]
  have bare : ending = "" := slash.resolve_right fun ends => getLast?_behind isName ends.2.2
  rcases spelled with same | ⟨_, none⟩
  · rw [same, bare, String.append_empty]
  · simp at none

theorem components_join (isName : IsName name) (working : List String) :
    components working (join [directory, name]) =
      components working (normalize directory) ++ [name] := by
  rw [join_eq isName, components_normalize, components_normalize, components, parts_behind isName,
    isAbsolute_behind isName, components]
  split
  · exact resolveDots_concat isName.enters
  · rw [← List.append_assoc, resolveDots_concat isName.enters]

end
end ProgramGym.Path
