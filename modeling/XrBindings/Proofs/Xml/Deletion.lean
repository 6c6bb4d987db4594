import Mathlib.Data.List.Basic
import XrBindings.Xml.Element

/-!
# Deleting elements

A place in a tree is a path: at each step, the position of a child. Deleting what stands at a place
takes the element out of its parent, with everything inside it and the text up to its next sibling,
which the tree keeps beside the element. Elsewhere the tree stays as it is.
-/

namespace XrBindings.Xml.Element

/-- The element at a place. -/
def at? : Element → List Nat → Option Element
  | e, [] => some e
  | e, i :: path => e.children[i]?.bind (·.at? path)

/-- The tree without the element at a place. The root itself stays. -/
def delete : Element → List Nat → Element
  | e, [] => e
  | e, [i] => { e with children := e.children.eraseIdx i }
  | e, i :: j :: path => { e with children := e.children.modify i (·.delete (j :: path)) }

variable {e f : Element} {path : List Nat}

theorem tag_delete (e : Element) (path : List Nat) : (e.delete path).tag = e.tag := by
  rw [delete.eq_def]
  split <;> rfl

theorem attributes_delete (e : Element) (path : List Nat) :
    (e.delete path).attributes = e.attributes := by
  rw [delete.eq_def]
  split <;> rfl

/-- A deletion replaces one child: by nothing, or by what the deletion leaves of it. -/
theorem exists_delete_eq {i : Nat} (h : e.at? (i :: path) = some f) :
    ∃ before x after, e.children = before ++ [x] ++ after ∧ e.children[i]? = some x ∧
      x.at? path = some f ∧ e.delete (i :: path) =
        { e with children := before ++ (if path = [] then [] else [x.delete path]) ++ after } := by
  obtain ⟨x, hx, hat⟩ := Option.bind_eq_some_iff.mp h
  obtain ⟨hi, rfl⟩ := List.getElem?_eq_some_iff.mp hx
  refine ⟨e.children.take i, e.children[i], e.children.drop (i + 1), by simp, hx, hat, ?_⟩
  cases path with
  | nil => simp [delete, List.eraseIdx_eq_take_drop_succ]
  | cons j path => simp [delete, List.modify_eq_take_cons_drop hi]

end XrBindings.Xml.Element
