import EsModule.Text.Blank
import EsModule.Text.Offset

/-!
# What stands between tokens

Between tokens there are blanks, line ends and comments. `skipTrivia` moves over all of them and
reports whether a line ended on the way; a line that ends inside a block comment counts. A block
comment that is never closed reaches to the end of the source.
-/

namespace EsModule.Syntax

open EsModule.Text

/-- Splits a text behind the first `*/`. Without one, the whole text is inside. -/
def splitComment : List Char → List Char × List Char
  | [] => ([], [])
  | '*' :: '/' :: cs => (['*', '/'], cs)
  | c :: cs =>
    let (inside, behind) := splitComment cs
    (c :: inside, behind)

theorem splitComment_append (cs : List Char) : (splitComment cs).1 ++ (splitComment cs).2 = cs := by
  fun_induction splitComment cs with
  | case1 => rfl
  | case2 => rfl
  | case3 c cs _ inside behind h ih => simpa [h] using ih

/-- Moves over the first blank, line end or comment, and reports whether it ends a line. -/
def skipOne? (c : Cursor) : Option (Bool × Cursor) :=
  match c.rest with
  | [] => none
  | '/' :: '/' :: _ => some (false, c.skipWhile fun ch => !isLineTerminator ch)
  | '/' :: '*' :: cs =>
    let inside := (splitComment cs).1
    some (inside.any isLineTerminator, c.drop (inside.length + 2))
  | ch :: _ =>
    if isLineTerminator ch then some (true, c.advance)
    else if isBlank ch then some (false, c.advance)
    else none

theorem length_skipOne? {c c' : Cursor} {newline : Bool} (h : skipOne? c = some (newline, c')) :
    c'.rest.length < c.rest.length := by
  unfold skipOne? at h
  split at h
  · exact absurd h (by simp)
  · next cs hc =>
    injection h with h; injection h with _ h; subst h
    have hs : (c.skipWhile fun ch => !isLineTerminator ch).rest
        = cs.dropWhile fun ch => !isLineTerminator ch := by
      simp [Cursor.skipWhile, Cursor.takeWhile, hc, isLineTerminator]
    have hl := (List.dropWhile_suffix (l := cs) fun ch => !isLineTerminator ch).length_le
    simp only [hs, hc, List.length_cons]
    omega
  · next cs hc =>
    injection h with h; injection h with _ h; subst h
    simp only [Cursor.drop, List.length_drop, hc, List.length_cons]
    omega
  · next ch cs _ _ hc =>
    split at h
    · injection h with h; injection h with _ h; subst h
      exact Cursor.length_advance_lt hc
    · split at h
      · injection h with h; injection h with _ h; subst h
        exact Cursor.length_advance_lt hc
      · exact absurd h (by simp)

/-- Moves over everything up to the next token, and reports whether a line ends on the way. -/
def skipTrivia (c : Cursor) : Bool × Cursor :=
  match _h : skipOne? c with
  | none => (false, c)
  | some (newline, c') =>
    let (newlines, c'') := skipTrivia c'
    (newline || newlines, c'')
termination_by c.rest.length
decreasing_by exact length_skipOne? _h

theorem length_skipTrivia (c : Cursor) : (skipTrivia c).2.rest.length ≤ c.rest.length := by
  fun_induction skipTrivia c with
  | case1 => exact Nat.le_refl _
  | case2 c newline c' h newlines c'' _ ih =>
    have := length_skipOne? h
    simp_all
    omega

end EsModule.Syntax
