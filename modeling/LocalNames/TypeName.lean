import LocalNames.Text.Lowercase

namespace LocalNames.TypeName

def receiver : Text := "this"

/-- The name without type arguments and without the packages and classes around it: what follows
the last `.` of the text before the first `<`. -/
def simple (ty : Text) : Text :=
  ((ty.takeWhile (· ≠ '<')).reverse.takeWhile (· ≠ '.')).reverse

def isCapitalized (ty : Text) : Bool := ty.head?.any Char.isUpper

def hasNestedArray : Text → Bool
  | '[' :: ']' :: '[' :: ']' :: _ => true
  | _ :: rest => hasNestedArray rest
  | [] => false

def joinArrays : Text → Text
  | '[' :: ']' :: '[' :: ']' :: rest => '[' :: ']' :: joinArrays rest
  | c :: rest => c :: joinArrays rest
  | [] => []

theorem length_joinArrays_le (ty : Text) : (joinArrays ty).length ≤ ty.length := by
  fun_induction joinArrays ty <;> simp <;> omega

theorem length_joinArrays_lt {ty : Text} (h : hasNestedArray ty) :
    (joinArrays ty).length < ty.length := by
  fun_induction hasNestedArray ty with
  | case1 rest =>
    have := length_joinArrays_le rest
    simp only [joinArrays, List.length_cons]
    omega
  | case2 c rest hne ih =>
    rw [joinArrays.eq_2 _ _ hne]
    simpa only [List.length_cons, Nat.add_lt_add_iff_right] using ih h
  | case3 => cases h

/-- `T[][][]` becomes `T[]`: array markers are joined until no two stand side by side. -/
def collapse (ty : Text) : Text :=
  if _h : hasNestedArray ty then collapse (joinArrays ty) else ty
termination_by ty.length
decreasing_by exact length_joinArrays_lt _h

def hasEllipsis : Text → Bool
  | '.' :: '.' :: '.' :: _ => true
  | _ :: rest => hasEllipsis rest
  | [] => false

def isArray (ty : Text) : Bool := ty.contains '[' || hasEllipsis ty

def ellipsisToArray : Text → Text
  | '.' :: '.' :: '.' :: rest => '[' :: ']' :: ellipsisToArray rest
  | c :: rest => c :: ellipsisToArray rest
  | [] => []

def dropArrays : Text → Text
  | '[' :: ']' :: rest => dropArrays rest
  | c :: rest => c :: dropArrays rest
  | [] => []

def key (ty : Text) : Text := lowercase (collapse (ellipsisToArray ty))

/-- The name that this family issues: the key without dots, and for an array without its markers
and with an `a` in front. -/
def base (ty : Text) : Text :=
  let plain := (key ty).filter (· ≠ '.')
  if (collapse (ellipsisToArray ty)).contains '[' then dropArrays ('a' :: plain) else plain

end LocalNames.TypeName
