/-!
# Words of an identifier

An identifier is cut into words at underscores and where the case of its letters turns. A capital
after a small letter starts a word. A run of capitals that a small letter follows ends one letter
early, so that `OpenGLESView` has the words `Open`, `GLES` and `View`. Digits belong to the word
around them and have the case of the letter before them. Only ASCII letters have a case here.
-/

namespace XrBindings.Naming

def isSmall (c : Char) : Bool := 'a' ≤ c && c ≤ 'z'

def isCapital (c : Char) : Bool := 'A' ≤ c && c ≤ 'Z'

/-- Finish the word that has begun. `read` is what has been read of it, last first, and `small`
says whether its last letter is a small one. The result is the word and what follows it. -/
def finishWord (read : List Char) (small : Bool) : List Char → List Char × List Char
  | [] => (read.reverse, [])
  | c :: rest =>
    if c == '_' || (isCapital c && small) then (read.reverse, c :: rest)
    else
      match read with
      | last :: before :: earlier =>
        if isCapital last && isSmall c then ((before :: earlier).reverse, last :: c :: rest)
        else finishWord (c :: read) (if isSmall c || isCapital c then isSmall c else small) rest
      | _ => finishWord (c :: read) (if isSmall c || isCapital c then isSmall c else small) rest

theorem append_finishWord (read : List Char) (small : Bool) (cs : List Char) :
    (finishWord read small cs).1 ++ (finishWord read small cs).2 = read.reverse ++ cs := by
  fun_induction finishWord read small cs <;> simp_all

theorem finishWord_ne_nil {read : List Char} (h : read ≠ []) (small : Bool) (cs : List Char) :
    (finishWord read small cs).1 ≠ [] := by
  fun_induction finishWord read small cs <;> simp_all

theorem length_finishWord_lt (c : Char) (cs : List Char) :
    (finishWord [c] (isSmall c) cs).2.length < (c :: cs).length := by
  have h := congrArg List.length (append_finishWord [c] (isSmall c) cs)
  have hne := List.length_pos_iff.mpr (finishWord_ne_nil (List.cons_ne_nil c []) (isSmall c) cs)
  simp only [List.length_append, List.reverse_singleton, List.length_singleton] at h
  simp only [List.length_cons]
  omega

/-- The words of an identifier. -/
def segment (cs : List Char) : List (List Char) :=
  match cs with
  | [] => []
  | c :: rest =>
    if c == '_' then segment rest
    else (finishWord [c] (isSmall c) rest).1 :: segment (finishWord [c] (isSmall c) rest).2
termination_by cs.length
decreasing_by
  · simp
  · exact length_finishWord_lt c rest

def segmentWords (name : String) : List String := (segment name.toList).map String.ofList

end XrBindings.Naming
