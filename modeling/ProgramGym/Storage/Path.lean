/-! File paths with slashes: joining with the dots resolved, and the components below a
working directory. -/
namespace ProgramGym.Path

/-- Parts between slashes, empty ones and single dots left out. -/
def parts (path : String) : List String :=
  (path.splitOn "/").filter fun p => !p.isEmpty && p != "."

/-- Two dots cancel the part before them; at the top they stay in a relative path and mean
nothing in an absolute one. -/
def resolveDots (absolute : Bool) (parts : List String) : List String :=
  (parts.foldl (fun (reversed : List String) part =>
    if part != ".." then part :: reversed
    else match reversed with
      | [] => if absolute then [] else [".."]
      | last :: rest => if last == ".." then ".." :: reversed else rest) []).reverse

def isAbsolute (path : String) : Bool := path.toList.head? == some '/'

def normalize (path : String) : String :=
  if path.isEmpty then "." else
    let absolute := isAbsolute path
    let body := "/".intercalate (resolveDots absolute (parts path))
    let trailing := path.toList.getLast? == some '/'
    let body := if body.isEmpty && !absolute then "." else body
    let body := if trailing && !body.isEmpty then body ++ "/" else body
    if absolute then "/" ++ body else body

/-- The parts that are not empty, with slashes between them, normalized. -/
def join (segments : List String) : String :=
  normalize ("/".intercalate (segments.filter (!·.isEmpty)))

/-- A path from the root. -/
def absolute (path : List String) : String := "/" ++ "/".intercalate path

/-- The components of a path, a relative one taken below a working directory. -/
def components (working : List String) (path : String) : List String :=
  resolveDots true (if isAbsolute path then parts path else working ++ parts path)

end ProgramGym.Path
