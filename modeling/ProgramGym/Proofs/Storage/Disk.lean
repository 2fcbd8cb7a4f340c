import Mathlib.Data.List.Induction
import Mathlib.Data.List.Nodup
import ProgramGym.Proofs.Checks
import ProgramGym.Proofs.Lookup
import ProgramGym.Proofs.Separators
import ProgramGym.Storage.Disk

/-! What operations do to a file system, said by its entries. In a tree everything has a directory
above it, so that a place can be looked up if its names are accepted and it has an entry, and the
names in a directory are those that have one. Main statement: a file is replaced in three steps,
and wherever that stops, nothing has changed but directories that were missing and the file beside
the target. -/
namespace ProgramGym

/-! Parts of paths. -/

/-- The parts of a path, said by its characters. -/
theorem Path.parts_eq (path : String) : parts path =
    ((path.toList.splitOnP (· == '/')).map String.ofList).filter fun p =>
      !p.isEmpty && p != "." :=
  congrArg (List.filter _) (splitOn_singleton path '/')

/-- No name on the way is too long, and neither is the text. -/
def Location.Named (l : Location) : Prop :=
  l.isTooLong = false ∧ ∀ n < l.path.length, Disk.nameTooLong (l.path.take (n + 1)) = false

namespace Disk
variable {d : Disk} {path other : List String} {name : String} {e : DiskEntry}

/-! Entries. -/

theorem entry?_of_ne_nil (below : path ≠ []) : d.entry? path = d.entries.lookup path := by
  rw [ entry?, if_neg (by simpa using below)]

theorem entry?_child (d : Disk) (path : List String) (name : String) :
    d.entry? (path ++ [name]) = d.entries.lookup (path ++ [name]) :=
  entry?_of_ne_nil (by simp)

theorem entry?_erase (below : path ≠ []) (other : List String) :
    entry? (d.erase path) other = if other = path then none else d.entry? other := by
  by_cases top : other = []
  · rw [top, if_neg (Ne.symm below)]
    rfl
  · rw [entry?_of_ne_nil top, entry?_of_ne_nil top]
    exact lookup_erased path other d.entries

theorem entry?_put (below : path ≠ []) (e : DiskEntry) (other : List String) :
    entry? (d.put path e) other = if other = path then some e else d.entry? other := by
  by_cases top : other = []
  · rw [top, if_neg (Ne.symm below)]
    rfl
  · rw [entry?_of_ne_nil top]
    change ((path, e) :: (d.erase path).entries).lookup other = _
    rw [lookup_cons, ← entry?_of_ne_nil top, entry?_erase below]
    split <;> rfl

theorem isSome_entry?_iff (below : path ≠ []) :
    (d.entry? path).isSome = true ↔ path ∈ d.entries.map (·.1) := by
  rw [entry?_of_ne_nil below, List.mem_map]
  induction d.entries with
  | nil => simp
  | cons entry entries ih =>
    obtain ⟨p, e⟩ := entry
    rw [lookup_cons]
    by_cases same : path = p
    · simp [same]
    · simp only [if_neg same, ih, List.mem_cons, exists_eq_or_imp, Ne.symm same, false_or]

/-! Trees. -/

/-- Each entry is below a directory, and no path has two. -/
structure WellFormed (d : Disk) : Prop where
  unique : (d.entries.map (·.1)).Nodup
  parents : ∀ path name, (d.entry? (path ++ [name])).isSome = true →
    d.entry? path = some .directory

/-- Only the places that have entries need a directory above them. -/
theorem wellFormed_of_entries (unique : (d.entries.map (·.1)).Nodup)
    (parents : ∀ entry ∈ d.entries, d.entry? entry.1.dropLast = some .directory) :
    d.WellFormed where
  unique := unique
  parents path name there := by
    obtain ⟨entry, inside, same⟩ := List.mem_map.mp ((isSome_entry?_iff (by simp)).mp there)
    have parent := parents entry inside
    rwa [same, List.dropLast_concat] at parent

theorem WellFormed.ancestors (wf : d.WellFormed) (there : (d.entry? path).isSome = true) {n : Nat}
    (above : n < path.length) : d.entry? (path.take n) = some .directory := by
  induction path using List.reverseRecOn with
  | nil => cases above
  | append_singleton path name ih =>
    have parent := wf.parents path name there
    rw [List.length_append, List.length_singleton] at above
    rw [List.take_append_of_le_length (by omega)]
    rcases Nat.lt_or_eq_of_le (Nat.le_of_lt_succ above) with below | last
    · exact ih (by rw [parent]; rfl) below
    · rw [last, List.take_length, parent]

theorem WellFormed.erase (wf : d.WellFormed) (leaf : d.entry? path ≠ some .directory) :
    (d.erase path).WellFormed where
  unique := wf.unique.sublist (List.filter_sublist.map _)
  parents := by
    have below : path ≠ [] := by
      rintro rfl
      exact leaf rfl
    intro p x there
    rw [entry?_erase below] at there
    split at there
    · cases there
    · have parent := wf.parents p x there
      have apart : p ≠ path := by
        rintro rfl
        exact leaf parent
      rw [entry?_erase below, if_neg apart, parent]

/-- A new entry below a directory, in the place of nothing but a leaf. -/
theorem WellFormed.put (wf : d.WellFormed) (parent : d.entry? path = some .directory)
    (leaf : d.entry? (path ++ [name]) = some .directory → e = .directory) :
    (d.put (path ++ [name]) e).WellFormed where
  unique := by
    refine List.nodup_cons.mpr ⟨fun there => ?_, wf.unique.sublist (List.filter_sublist.map _)⟩
    obtain ⟨entry, inside, same⟩ := List.mem_map.mp there
    simpa [same] using (List.mem_filter.mp inside).2
  parents := by
    have below : path ++ [name] ≠ [] := by simp
    intro p x there
    rw [entry?_put below] at there ⊢
    by_cases same : p ++ [x] = path ++ [name]
    · obtain ⟨rfl, -⟩ := List.append_inj' same rfl
      rw [if_neg (by simp), parent]
    · rw [if_neg same] at there
      have directory := wf.parents p x there
      split
      · next here => rw [leaf (here ▸ directory)]
      · exact directory

/-! Looking up. -/

theorem forM_eq_ok {ε β : Type} {f : β → Except ε Unit} (xs : List β) :
    xs.forM f = .ok () ↔ ∀ x ∈ xs, f x = .ok () := by
  induction xs with
  | nil => simp [pure, Except.pure]
  | cons x xs ih =>
    rw [List.forall_mem_cons, ← ih]
    change (f x >>= fun _ => xs.forM f) = .ok () ↔ _
    rw [bind_eq_ok]
    constructor
    · rintro ⟨_, first, rest⟩
      exact ⟨first, rest⟩
    · rintro ⟨first, rest⟩
      exact ⟨(), first, rest⟩

theorem checkParents_eq_ok_iff (d : Disk) (action : String) (l : Location) :
    d.checkParents action l = .ok () ↔
      l.Named ∧ ∀ n < l.path.length, d.entry? (l.path.take n) = some .directory := by
  cases long : l.isTooLong with
  | true =>
    rw [checkParents, Location.Named, long]
    simp [bind, Except.bind, throw, throwThe, MonadExceptOf.throw]
  | false =>
    rw [checkParents, Location.Named, long]
    change (List.range l.path.length).forM _ = _ ↔ _
    rw [forM_eq_ok]
    constructor
    · intro all
      refine ⟨⟨rfl, fun n below => ?_⟩, fun n below => ?_⟩ <;>
        have one := all n (List.mem_range.mpr below) <;> split at one
      · split at one
        · cases one
        · next short => exact Bool.eq_false_iff.mpr short
      · cases one
      · cases one
      · next found => exact found
      · cases one
      · cases one
    · rintro ⟨⟨_, names⟩, parents⟩ n inside
      have below := List.mem_range.mp inside
      simp only [parents n below, names n below]
      rfl

/-- What has an entry is found, if it is named properly. -/
theorem lookup_eq_ok_iff (wf : d.WellFormed) (action : String) (l : Location) (e : DiskEntry) :
    d.lookup action l = .ok e ↔ l.Named ∧ d.entry? l.path = some e := by
  rw [lookup, bind_eq_ok]
  constructor
  · rintro ⟨_, checked, found⟩
    refine ⟨((d.checkParents_eq_ok_iff action l).mp checked).1, ?_⟩
    cases there : d.entry? l.path with
    | none =>
      rw [there] at found
      cases found
    | some other =>
      rw [there] at found
      exact congrArg some (Except.ok.inj found)
  · rintro ⟨named, there⟩
    refine ⟨(), (d.checkParents_eq_ok_iff action l).mpr ⟨named, fun n below => ?_⟩, by rw [there]; rfl⟩
    exact wf.ancestors (by rw [there]; rfl) below

theorem contains_iff (wf : d.WellFormed) (l : Location) :
    d.contains l = true ↔ l.Named ∧ (d.entry? l.path).isSome = true := by
  rw [contains, Option.isSome_iff_exists]
  cases found : d.lookup "stat" l with
  | ok e =>
    have there := (lookup_eq_ok_iff wf "stat" l e).mp found
    exact ⟨fun _ => ⟨there.1, e, there.2⟩, fun _ => rfl⟩
  | error fault =>
    constructor
    · nofun
    · rintro ⟨named, e, there⟩
      rw [(lookup_eq_ok_iff wf "stat" l e).mpr ⟨named, there⟩] at found
      cases found

theorem readFile_file (wf : d.WellFormed) {l : Location} {content : String} (named : l.Named)
    (there : d.entry? l.path = some (.file content)) : d.readFile l = .ok content := by
  rw [readFile, (lookup_eq_ok_iff wf "open" l _).mpr ⟨named, there⟩]
  rfl

theorem readFile_directory (wf : d.WellFormed) {l : Location} (named : l.Named)
    (there : d.entry? l.path = some .directory) :
    d.readFile l = .error (l.error .isDirectory "read") := by
  rw [readFile, (lookup_eq_ok_iff wf "open" l _).mpr ⟨named, there⟩]
  rfl

/-! Names in a directory. -/

/-- The name under which a path is in a directory. -/
def childName? (path p : List String) : Option String :=
  if p.length == path.length + 1 && p.take path.length == path then p.getLast? else none

theorem childName?_eq_some_iff (path p : List String) (name : String) :
    childName? path p = some name ↔ p = path ++ [name] := by
  rw [childName?]
  constructor
  · intro found
    split at found
    · next front =>
      rw [Bool.and_eq_true, beq_iff_eq, beq_iff_eq] at front
      obtain ⟨init, rfl⟩ := List.getLast?_eq_some_iff.mp found
      rw [List.length_append, List.length_singleton, Nat.add_right_cancel_iff] at front
      rw [← front.2, List.take_append_of_le_length (by omega), ← front.1, List.take_length]
    · cases found
  · rintro rfl
    simp

/-- The names in a directory, in the order of the entries. -/
def children (d : Disk) (path : List String) : List String :=
  d.entries.filterMap fun entry => childName? path entry.1

theorem mem_children_iff {d : Disk} {path : List String} {name : String} :
    name ∈ d.children path ↔ (d.entry? (path ++ [name])).isSome = true := by
  rw [isSome_entry?_iff (by simp), children, List.mem_filterMap, List.mem_map]
  simp only [childName?_eq_some_iff]

theorem WellFormed.nodup_children (wf : d.WellFormed) (path : List String) :
    (d.children path).Nodup := by
  have names : d.children path = (d.entries.map (·.1)).filterMap (childName? path) := by
    rw [children, List.filterMap_map]
    rfl
  rw [names]
  refine wf.unique.filterMap fun p q name one other => ?_
  rw [Option.mem_def, childName?_eq_some_iff] at one other
  rw [one, other]

theorem names_directory (wf : d.WellFormed) {l : Location} (named : l.Named)
    (there : d.entry? l.path = some .directory) : d.names l = .ok (d.children l.path) := by
  rw [names, (lookup_eq_ok_iff wf "scandir" l _).mpr ⟨named, there⟩]
  rfl

/-- A path that is not directly in a directory has no say in the names there. -/
theorem children_put_of_ne (apart : ∀ name, other ≠ path ++ [name]) (e : DiskEntry) :
    (d.put other e).children path = d.children path := by
  have unnamed : childName? path other = none := by
    rw [Option.eq_none_iff_forall_ne_some]
    intro name found
    exact apart name ((childName?_eq_some_iff path other name).mp found)
  have rest : (d.erase other).children path = d.children path := by
    rw [children, children, erase, List.filterMap_filter]
    refine List.filterMap_congr fun entry _ => ?_
    by_cases same : entry.1 = other
    · rw [same, unnamed]
      split <;> rfl
    · rw [if_pos (by simpa using same)]
  rw [← rest]
  exact List.filterMap_cons_none unnamed

/-! Making directories. -/

/-- Directories are made of the parts of a path that have no entry; none of them is a file. -/
structure Extends (d : Disk) (path : List String) (d' : Disk) : Prop where
  wellFormed : d.WellFormed → d'.WellFormed
  clear : ∀ p, p <+: path → ∀ content, d.entry? p ≠ some (.file content)
  entries : ∀ p, d'.entry? p = if p <+: path then some .directory else d.entry? p
  children : ∀ p, path <+: p → d'.children p = d.children p

theorem extends_nil (d : Disk) : d.Extends [] d where
  wellFormed := id
  clear p top content := by
    rw [List.prefix_nil.mp top]
    nofun
  entries p := by
    split
    · next top => rw [List.prefix_nil.mp top]; rfl
    · rfl
  children _ _ := rfl

theorem Extends.entry?_next {d' : Disk} (ext : d.Extends path d') (name : String) :
    d'.entry? (path ++ [name]) = d.entry? (path ++ [name]) := by
  rw [ext.entries, if_neg]
  intro inside
  have short := inside.length_le
  rw [List.length_append, List.length_singleton] at short
  omega

/-- The next part becomes a directory. -/
theorem Extends.next {d' : Disk} (ext : d.Extends path d')
    (free : d'.entry? (path ++ [name]) = none) :
    d.Extends (path ++ [name]) (d'.put (path ++ [name]) .directory) where
  wellFormed wf := by
    refine (ext.wellFormed wf).put ?_ fun _ => rfl
    rw [ext.entries, if_pos (List.prefix_refl path)]
  clear p inside content := by
    rcases List.prefix_concat_iff.mp inside with rfl | earlier
    · rw [← ext.entry?_next, free]
      nofun
    · exact ext.clear p earlier content
  entries p := by
    simp only [entry?_put (by simp : path ++ [name] ≠ []), ext.entries, List.prefix_concat_iff]
    by_cases same : p = path ++ [name] <;> simp [same]
  children p inside := by
    rw [children_put_of_ne, ext.children p ((List.prefix_append path [name]).trans inside)]
    rintro x same
    have short := inside.length_le
    have long := congrArg List.length same
    simp only [List.length_append, List.length_singleton] at long short
    omega

/-- The next part is a directory already. -/
theorem Extends.kept {d' : Disk} (ext : d.Extends path d')
    (there : d'.entry? (path ++ [name]) = some .directory) : d.Extends (path ++ [name]) d' where
  wellFormed := ext.wellFormed
  clear p inside content := by
    rcases List.prefix_concat_iff.mp inside with rfl | earlier
    · rw [← ext.entry?_next, there]
      nofun
    · exact ext.clear p earlier content
  entries p := by
    simp only [List.prefix_concat_iff]
    by_cases same : p = path ++ [name]
    · rw [if_pos (.inl same), same, there]
    · simpa [same] using ext.entries p
  children p inside := ext.children p ((List.prefix_append path [name]).trans inside)

theorem makePart_extends {l : Location} {d' d'' : Disk} {n : Nat} (below : n < l.path.length)
    (ext : d.Extends (l.path.take n) d') (made : makePart l d' n = .ok d'') :
    nameTooLong (l.path.take (n + 1)) = false ∧ d.Extends (l.path.take (n + 1)) d'' := by
  have cut : l.path.take (n + 1) = l.path.take n ++ [l.path[n]] :=
    List.take_succ_eq_append_getElem below
  rw [makePart] at made
  split at made
  · cases made
  next short =>
  refine ⟨Bool.eq_false_iff.mpr short, ?_⟩
  rw [cut] at made ⊢
  split at made
  · next there =>
    cases made
    exact ext.kept there
  · split at made <;> cases made
  · next free =>
    cases made
    exact ext.next free

/-- A path that cannot be made to its end: a name on it is refused, or a file stands in its way. -/
def Blocked (d : Disk) (l : Location) : Prop :=
  ¬ l.Named ∨ ∃ n < l.path.length, ∃ content, d.entry? (l.path.take (n + 1)) = some (.file content)

theorem makePart_blocked {l : Location} {d' : Disk} {n : Nat} {e : SystemError}
    (below : n < l.path.length) (ext : d.Extends (l.path.take n) d')
    (failed : makePart l d' n = .error e) : d.Blocked l := by
  rw [makePart] at failed
  split at failed
  · next long =>
    refine .inl fun named => ?_
    rw [named.2 n below] at long
    cases long
  · split at failed
    · cases failed
    · next content there =>
      refine .inr ⟨n, below, content, ?_⟩
      rw [List.take_succ_eq_append_getElem below] at there ⊢
      rw [← ext.entry?_next]
      exact there
    · cases failed

/-- How far a path is made. -/
theorem makeParts_cases (d : Disk) {l : Location} {n : Nat} (below : n ≤ l.path.length) :
    match d.makeParts l n with
    | (.error _, d') => d.Blocked l ∧ ∃ m, d.Extends (l.path.take m) d'
    | (.ok (), d') =>
      (∀ m < n, nameTooLong (l.path.take (m + 1)) = false) ∧ d.Extends (l.path.take n) d' := by
  induction n with
  | zero => exact ⟨nofun, d.extends_nil⟩
  | succ n ih =>
    have front := ih (Nat.le_of_succ_le below)
    rw [makeParts]
    rcases before : d.makeParts l n with ⟨e | _, middle⟩ <;> rw [before] at front
    · exact front
    · obtain ⟨names, ext⟩ := front
      dsimp only
      cases last : makePart l middle n with
      | error e => exact ⟨makePart_blocked below ext last, n, ext⟩
      | ok d' =>
        obtain ⟨short, ext⟩ := makePart_extends below ext last
        refine ⟨fun m before => ?_, ext⟩
        rcases Nat.lt_succ_iff_lt_or_eq.mp before with earlier | rfl
        · exact names m earlier
        · exact short

/-- Either all of a path is made, or it is blocked and made up to some part. -/
theorem ensureDirectories_cases (d : Disk) (l : Location) :
    match d.ensureDirectories l with
    | (.error _, d') => d.Blocked l ∧ ∃ m, d.Extends (l.path.take m) d'
    | (.ok (), d') => l.Named ∧ d.Extends l.path d' := by
  rw [ensureDirectories]
  cases long : l.isTooLong with
  | true =>
    refine ⟨.inl fun named => ?_, 0, d.extends_nil⟩
    rw [named.1] at long
    cases long
  | false =>
    have parts := makeParts_cases d (Nat.le_refl l.path.length)
    rw [if_neg Bool.false_ne_true]
    rcases ends : d.makeParts l l.path.length with ⟨e | _, d'⟩ <;> rw [ends] at parts
    · exact parts
    · obtain ⟨names, ext⟩ := parts
      rw [List.take_length] at ext
      exact ⟨⟨long, names⟩, ext⟩

/-- Directories can be made where all names are accepted and no file is in the way. -/
theorem ensureDirectories_ok {l : Location} (clear : ¬ d.Blocked l) :
    ∃ d', d.ensureDirectories l = (.ok (), d') ∧ d.Extends l.path d' := by
  have made := d.ensureDirectories_cases l
  rcases ends : d.ensureDirectories l with ⟨e | _, d'⟩ <;> rw [ends] at made
  · exact absurd made.1 clear
  · exact ⟨d', rfl, made.2⟩

/-! Replacing files. -/

theorem writeFile_eq_ok_iff {l : Location} {content : String} {d' : Disk} :
    d.writeFile l content = .ok d' ↔
      (l.Named ∧ ∀ n < l.path.length, d.entry? (l.path.take n) = some .directory) ∧
        d.entry? l.path ≠ some .directory ∧ d' = d.put l.path (.file content) := by
  rw [writeFile, bind_eq_ok, ← d.checkParents_eq_ok_iff "open" l]
  constructor
  · rintro ⟨_, checked, written⟩
    refine ⟨checked, ?_⟩
    split at written
    · cases written
    · next leaf =>
      cases written
      exact ⟨leaf, rfl⟩
  · rintro ⟨checked, leaf, rfl⟩
    refine ⟨(), checked, ?_⟩
    split
    · next there => exact absurd there leaf
    · rfl

theorem readFile_eq_ok_iff (wf : d.WellFormed) {l : Location} {content : String} :
    d.readFile l = .ok content ↔ l.Named ∧ d.entry? l.path = some (.file content) := by
  constructor
  · intro read
    obtain ⟨e, found, same⟩ := bind_eq_ok.mp read
    have there := (lookup_eq_ok_iff wf "open" l e).mp found
    cases e with
    | file other =>
      cases same
      exact there
    | directory => cases same
  · rintro ⟨named, there⟩
    exact readFile_file wf named there

theorem renameFile_eq_ok_iff (wf : d.WellFormed) {source target : Location} {d' : Disk} :
    d.renameFile source target = .ok d' ↔
      ∃ content, (source.Named ∧ d.entry? source.path = some (.file content)) ∧
        (target.Named ∧ ∀ n < target.path.length,
          d.entry? (target.path.take n) = some .directory) ∧
        d.entry? target.path ≠ some .directory ∧
        d' = (d.erase source.path).put target.path (.file content) := by
  simp only [renameFile, bind_eq_ok, readFile_eq_ok_iff wf]
  refine exists_congr fun content => and_congr_right fun _ => ?_
  rw [← d.checkParents_eq_ok_iff "rename" target]
  constructor
  · rintro ⟨_, checked, moved⟩
    refine ⟨checked, ?_⟩
    split at moved
    · cases moved
    · next leaf =>
      cases moved
      exact ⟨leaf, rfl⟩
  · rintro ⟨checked, leaf, rfl⟩
    refine ⟨(), checked, ?_⟩
    split
    · next there => exact absurd there leaf
    · rfl

/-- The file that is written before it is moved to its target. -/
abbrev draft (directory : Location) (name : String) : Location := directory.below (name ++ ".tmp")

/-- The file system once the file is beside its target, and once it is there. -/
def written (d : Disk) (directory : Location) (name content : String) : Disk :=
  d.put (draft directory name).path (.file content)

def moved (d : Disk) (directory : Location) (name content : String) : Disk :=
  ((d.written directory name content).erase (draft directory name).path).put
    (directory.below name).path (.file content)

theorem append_tmp_ne (name : String) : name ++ ".tmp" ≠ name := by
  intro same
  have length := congrArg String.length same
  simp at length

section
variable {directory : Location} {content : String} {d' : Disk}

theorem draft_ne_target (directory : Location) (name : String) :
    (directory.below name).path ≠ (draft directory name).path := by
  intro same
  have last := (List.append_inj' (show directory.path ++ [name] = directory.path ++ [name ++ ".tmp"]
    from same) rfl).2
  exact append_tmp_ne name (List.singleton_inj.mp last).symm

theorem below_ne_nil (directory : Location) (name : String) : (directory.below name).path ≠ [] := by
  change directory.path ++ [name] ≠ []
  simp

theorem below_not_inside (directory : Location) (name : String) :
    ¬ (directory.below name).path <+: directory.path := by
  intro inside
  have short : (directory.path ++ [name]).length ≤ directory.path.length := inside.length_le
  rw [List.length_append, List.length_singleton] at short
  omega

theorem take_ne_below (directory : Location) (name : String) (n : Nat) :
    directory.path.take n ≠ (directory.below name).path := by
  intro same
  exact below_not_inside directory name (same ▸ List.take_prefix n _)

theorem ne_below (directory : Location) (name : String) :
    directory.path ≠ (directory.below name).path := by
  intro same
  have inside := List.prefix_refl directory.path
  nth_rewrite 1 [same] at inside
  exact below_not_inside directory name inside

theorem Extends.entry?_beyond (ext : d.Extends path d') (above : path <+: directory.path)
    (name : String) :
    d'.entry? (directory.below name).path = d.entry? (directory.below name).path := by
  rw [ext.entries, if_neg]
  intro inside
  exact below_not_inside directory name (inside.trans above)

theorem Extends.entry?_below (ext : d.Extends directory.path d') (name : String) :
    d'.entry? (directory.below name).path = d.entry? (directory.below name).path :=
  ext.entry?_beyond (List.prefix_refl _) name

theorem Extends.parents (ext : d.Extends directory.path d') {n : Nat}
    (above : n < (directory.below name).path.length) :
    (directory.below name).path.take n = directory.path.take n ∧
      d'.entry? (directory.path.take n) = some .directory := by
  have length : (directory.below name).path.length = directory.path.length + 1 := by
    simp [Location.below]
  constructor
  · exact List.take_append_of_le_length (by omega)
  · rw [ext.entries, if_pos (List.take_prefix n _)]

theorem WellFormed.written (wf : d.WellFormed) (there : d.entry? directory.path = some .directory)
    (leaf : d.entry? (draft directory name).path ≠ some .directory) (content : String) :
    (d.written directory name content).WellFormed :=
  wf.put there fun directory => absurd directory leaf

theorem entry?_written (d : Disk) (directory : Location) (name content : String)
    (other : List String) :
    entry? (d.written directory name content) other =
      if other = (draft directory name).path then some (.file content) else d.entry? other :=
  entry?_put (below_ne_nil directory _) _ other

theorem entry?_moved (d : Disk) (directory : Location) (name content : String)
    (other : List String) :
    entry? (d.moved directory name content) other =
      if other = (directory.below name).path then some (.file content)
      else if other = (draft directory name).path then none else d.entry? other := by
  rw [moved, entry?_put (below_ne_nil directory _), entry?_erase (below_ne_nil directory _),
    entry?_written]
  split
  · rfl
  · split <;> rfl

theorem WellFormed.moved (wf : d.WellFormed) (there : d.entry? directory.path = some .directory)
    (leaf : d.entry? (draft directory name).path ≠ some .directory)
    (free : d.entry? (directory.below name).path ≠ some .directory) (content : String) :
    (d.moved directory name content).WellFormed := by
  have beside := wf.written there leaf content
  have short := ne_below directory (name ++ ".tmp")
  have file : entry? (d.written directory name content) (draft directory name).path ≠
      some .directory := by
    rw [entry?_written, if_pos rfl]
    nofun
  refine (beside.erase file).put ?_ fun taken => absurd taken ?_
  · rw [entry?_erase (below_ne_nil directory _), if_neg short, entry?_written, if_neg short, there]
  · change entry? ((d.written directory name content).erase _) (directory.below name).path ≠ _
    rw [entry?_erase (below_ne_nil _ _), if_neg (draft_ne_target _ name), entry?_written,
      if_neg (draft_ne_target _ name)]
    exact free

/-- A replacement stops on the way to a directory that cannot be made, or with the directory there
and perhaps the file beside its target, or it moves the file to the target. -/
theorem replaceFile_cases (wf : d.WellFormed) (directory : Location) (name content : String) :
    match d.replaceFile directory name content with
    | (.error _, d') => (d.Blocked directory ∧ ∃ m, d.Extends (directory.path.take m) d') ∨
        ∃ made, directory.Named ∧ d.Extends directory.path made ∧
          (d' = made ∨ made.entry? (draft directory name).path ≠ some .directory ∧
            d' = made.written directory name content)
    | (.ok (), d') => ∃ made, directory.Named ∧ d.Extends directory.path made ∧
        (directory.below name).Named ∧
        made.entry? (draft directory name).path ≠ some .directory ∧
        made.entry? (directory.below name).path ≠ some .directory ∧
        d' = made.moved directory name content := by
  rw [replaceFile]
  have makes := d.ensureDirectories_cases directory
  rcases ends : d.ensureDirectories directory with ⟨e | _, made⟩ <;> rw [ends] at makes
  · exact .inl makes
  · obtain ⟨named, ext⟩ := makes
    have there : made.entry? directory.path = some .directory := by
      rw [ext.entries, if_pos (List.prefix_refl _)]
    dsimp only
    cases writes : made.writeFile (directory.below (name ++ ".tmp")) content with
    | error e => exact .inr ⟨made, named, ext, .inl rfl⟩
    | ok beside =>
      obtain ⟨_, leaf, same⟩ := writeFile_eq_ok_iff.mp writes
      change beside = made.written directory name content at same
      subst same
      have wf := (ext.wellFormed wf).written there leaf content
      dsimp only
      cases moves : (made.written directory name content).renameFile
        (directory.below (name ++ ".tmp")) (directory.below name) with
      | error e => exact .inr ⟨made, named, ext, .inr ⟨leaf, rfl⟩⟩
      | ok final =>
        obtain ⟨other, ⟨_, beside⟩, ⟨target, _⟩, free, rfl⟩ := (renameFile_eq_ok_iff wf).mp moves
        rw [entry?_written, if_pos rfl, Option.some.injEq, DiskEntry.file.injEq] at beside
        rw [entry?_written, if_neg (draft_ne_target directory name)] at free
        exact ⟨made, named, ext, target, leaf, free, beside ▸ rfl⟩

/-- A directory is there or can be made. -/
structure Usable (d : Disk) (directory : Location) : Prop where
  wellFormed : d.WellFormed
  named : directory.Named
  clear : ∀ n ≤ directory.path.length, ∀ content,
    d.entry? (directory.path.take n) ≠ some (.file content)

theorem Usable.unblocked {directory : Location} (usable : d.Usable directory) :
    ¬ d.Blocked directory := by
  rintro (unnamed | ⟨n, below, content, file⟩)
  · exact unnamed usable.named
  · exact usable.clear (n + 1) below content file

/-- Where all names are accepted and nothing is in the way, a file is replaced. -/
theorem replaceFile_ok {directory : Location} (usable : d.Usable directory)
    (beside : (draft directory name).Named) (target : (directory.below name).Named)
    (leaf : d.entry? (draft directory name).path ≠ some .directory)
    (free : d.entry? (directory.below name).path ≠ some .directory) (content : String) :
    ∃ d', d.replaceFile directory name content = (.ok (), d') := by
  obtain ⟨made, makes, ext⟩ := ensureDirectories_ok usable.unblocked
  have there : made.entry? directory.path = some .directory := by
    rw [ext.entries, if_pos (List.prefix_refl _)]
  rw [← ext.entry?_below] at leaf free
  have writes : made.writeFile (directory.below (name ++ ".tmp")) content =
      .ok (made.written directory name content) := by
    refine writeFile_eq_ok_iff.mpr ⟨⟨beside, fun n above => ?_⟩, leaf, rfl⟩
    rw [(ext.parents above).1, (ext.parents above).2]
  have moves : (made.written directory name content).renameFile
      (directory.below (name ++ ".tmp")) (directory.below name) =
      .ok (made.moved directory name content) := by
    refine (renameFile_eq_ok_iff ((ext.wellFormed usable.wellFormed).written there leaf content)).mpr
      ⟨content, ⟨beside, ?_⟩, ⟨target, fun n above => ?_⟩, ?_, rfl⟩
    · rw [entry?_written, if_pos rfl]
    · rw [(ext.parents above).1, entry?_written, if_neg (take_ne_below _ _ n),
        (ext.parents above).2]
    · rw [entry?_written, if_neg (draft_ne_target directory name)]
      exact free
  refine ⟨made.moved directory name content, ?_⟩
  simp only [replaceFile, makes, writes, moves]

end

end Disk
end ProgramGym
