import Mathlib.Data.List.Basic
import TermRules.Files.Disk

/-!
Where paths lead in a tree of directories. A path that has been resolved goes down only, so what
stands there is found by its names alone, whatever the working directory.
-/

namespace TermRules

namespace Path

variable {p : Path}

private theorem not_mem_cancel (parts : List String) : ".." ∉ cancel parts := by
  -- Nothing that is put on the stack is a double point, and what is taken from it adds none.
  have hstep (stack : List String) (hstack : ".." ∉ stack) :
      ".." ∉ parts.foldl (fun stack p => if p == ".." then stack.drop 1 else p :: stack) stack := by
    induction parts generalizing stack with
    | nil => exact hstack
    | cons p parts ih =>
        rw [List.foldl_cons]
        refine ih _ ?_
        split
        · exact fun h => hstack (List.mem_of_mem_drop h)
        · rename_i hp
          simp only [beq_iff_eq] at hp
          simp only [List.mem_cons, not_or]
          exact ⟨fun h => hp h.symm, hstack⟩
  rw [cancel, List.mem_reverse]
  exact hstep [] List.not_mem_nil

theorem not_mem_resolve (p start : Path) : ".." ∉ (p.resolve start).parts :=
  not_mem_cancel _

private theorem isAbsolute_ofText {s : String} {cs : List Char} (h : s.toList = '/' :: cs) :
    (ofText s).isAbsolute = true := by
  have hroot : rootOf s.toList = "/" ∨ rootOf s.toList = "//" := by
    rw [h, rootOf.eq_def]
    split <;> simp_all
  rcases hroot with hroot | hroot <;> simp [isAbsolute, ofText, hroot]

/-- The text of an absolute path reads as an absolute path. -/
theorem isAbsolute_ofText_text (parts : List String) :
    (ofText (text ⟨"/", parts⟩)).isAbsolute = true := by
  have hroot : "/".toList = ['/'] := by decide
  have htext : (text ⟨"/", parts⟩).toList = '/' :: ("/".intercalate parts).toList := by
    rw [text, if_neg (by simp), String.toList_append, hroot]
    rfl
  exact isAbsolute_ofText htext

private theorem join_of_isAbsolute {q : Path} (h : q.isAbsolute = true) : p.join q = q := by
  rw [join, if_pos h]

end Path

namespace Tree

variable {t u : Tree} {above : List Tree} {parts : List String}

/-- The tree that the names lead down to. -/
def descend? : Tree → List String → Option Tree
  | t, [] => some t
  | t, name :: names => (t.child? name).bind fun u => u.descend? names

/-- How a tree looks from above. -/
def look : Tree → Look
  | .file bytes => .file bytes
  | .directory _ => .directory

theorem isThere_look (t : Tree) : t.look.isThere = true := by
  cases t <;> rfl

section Directory

variable {entries : List (String × Tree)} {name : String} {names : List String}

private theorem walk_into (hname : name ≠ "..") (h : child? (.directory entries) name = some u) :
    walk (.directory entries :: above) (name :: names) =
      walk (u :: .directory entries :: above) names := by
  rw [walk, h]
  · exact nofun
  · exact hname

private theorem walk_astray (hname : name ≠ "..") (h : child? (.directory entries) name = none) :
    walk (.directory entries :: above) (name :: names) = .missing := by
  rw [walk, h]
  · exact nofun
  · exact hname

end Directory

/-- Without double points a walk comes to what its names lead down to. -/
theorem walk_of_descend (hparts : ".." ∉ parts) (h : t.descend? parts = some u) :
    walk (t :: above) parts = u.look := by
  induction parts generalizing t above with
  | nil =>
      obtain rfl := Option.some.inj h
      cases t <;> rfl
  | cons name parts ih =>
      obtain ⟨hname, hparts⟩ := List.ne_and_not_mem_of_not_mem_cons hparts
      obtain ⟨s, hchild, hs⟩ := Option.bind_eq_some_iff.mp h
      cases t with
      | file bytes => contradiction
      | directory entries =>
          rw [walk_into hname.symm hchild]
          exact ih hparts hs

private theorem walk_of_descend_eq_none (hparts : ".." ∉ parts) (h : t.descend? parts = none) :
    (walk (t :: above) parts).isThere = false := by
  induction parts generalizing t above with
  | nil => contradiction
  | cons name parts ih =>
      obtain ⟨hname, hparts⟩ := List.ne_and_not_mem_of_not_mem_cons hparts
      cases t with
      | file bytes => rfl
      | directory entries =>
          cases hchild : child? (.directory entries) name with
          | none =>
              rw [walk_astray hname.symm hchild]
              rfl
          | some s =>
              rw [descend?, hchild, Option.bind_some] at h
              rw [walk_into hname.symm hchild]
              exact ih hparts h

theorem isThere_walk (hparts : ".." ∉ parts) :
    (walk (t :: above) parts).isThere = (t.descend? parts).isSome := by
  cases h : t.descend? parts with
  | none => exact walk_of_descend_eq_none hparts h
  | some u =>
      rw [walk_of_descend hparts h]
      exact u.isThere_look

/-- An absolute path leads to one place from wherever it is followed. -/
theorem look_disk {p : Path} (h : p.isAbsolute = true) (t : Tree) (workingDirectory : Path) :
    (t.disk workingDirectory).look p = walk [t] p.parts := by
  simp only [disk, Path.join_of_isAbsolute h]
  rfl

end Tree

end TermRules
