/-!
# Paths

Paths are texts whose components are separated by slashes.  They are joined without being
normalised: joining an absolute path replaces everything before it.
-/

namespace ParcelCompanion.Path

/-- Whether a path starts at the root of the file system. -/
def isAbsolute (path : String) : Bool :=
  path.toList.head? == some '/'

/-- The path `tail` taken relative to `base`. -/
def join (base tail : String) : String :=
  if isAbsolute tail then tail
  else if base.isEmpty || base.toList.getLast? == some '/' then base ++ tail
  else base ++ "/" ++ tail

/-- The components of a path.  Repeated slashes count once. -/
def components (path : String) : List String :=
  ((path.toList.splitOn '/').filter (! ·.isEmpty)).map String.ofList

/-- The path of the directory that `path` names an entry of: `path` without its last component.
A path without a component, such as the root, has none. -/
def parent? (path : String) : Option String :=
  let reversed := path.toList.reverse.dropWhile (· == '/')
  if reversed.isEmpty then none
  else
    let front := reversed.dropWhile (· != '/')
    let trimmed := front.dropWhile (· == '/')
    some (String.ofList (if trimmed.isEmpty then front.take 1 else trimmed.reverse))

/-- A parent has fewer characters than its path. -/
theorem length_lt_of_parent? {path parent : String} (h : parent? path = some parent) :
    parent.length < path.length := by
  have shorter (p : Char → Bool) (l : List Char) : (l.dropWhile p).length ≤ l.length :=
    (List.dropWhile_suffix p).length_le
  have hpath := shorter (· == '/') path.toList.reverse
  simp only [parent?] at h
  cases hd : path.toList.reverse.dropWhile (· == '/') with
  | nil => simp [hd] at h
  | cons c cs =>
    have hc : c ≠ '/' := by
      have := List.head?_dropWhile_not (· == '/') path.toList.reverse
      simpa [hd] using this
    have hfront := shorter (· != '/') cs
    have htrimmed := shorter (· == '/') (cs.dropWhile (· != '/'))
    have hdrop : (c :: cs).dropWhile (· != '/') = cs.dropWhile (· != '/') := by simp [hc]
    simp only [hd, List.length_cons, List.length_reverse, String.length_toList] at hpath
    simp only [hd, hdrop, List.isEmpty_cons, Bool.false_eq_true, if_false,
      Option.some.injEq] at h
    subst h
    split <;> simp only [String.length_ofList, List.length_take, List.length_reverse] <;> omega

/-- A path followed by its parent, the parent of that, and so on. -/
def ancestors (path : String) : List String :=
  path :: match _h : parent? path with
    | some parent => ancestors parent
    | none => []
termination_by path.length
decreasing_by exact length_lt_of_parent? _h

end ParcelCompanion.Path
