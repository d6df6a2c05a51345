import IncludeOnce.Path

/-! Which file a path means.

Two ways to reach one file give one identity. The key decides: the number of the
file where it was looked up, or the path itself, up to spelling, where no file
system was asked. The path is carried along to be shown and to search beside;
it is not part of the identity. -/
namespace IncludeOnce

inductive Identity.Key
  | inode (number : Nat)
  | path (parts : Path.Parts)
deriving DecidableEq

structure Identity where
  key : Identity.Key
  path : Path
deriving DecidableEq

namespace Identity

/-- The identity of a path that no file system was asked about. -/
def ofCanonical (p : Path) : Identity := ⟨.path p.parts, p⟩

/-- The same file, under whatever names. -/
def isSame (a b : Identity) : Bool := a.key = b.key

/-- Where quoted headers named inside the file are sought first. -/
def directory (f : Identity) : Path := f.path.directory

def display (f : Identity) : String := f.path.display

theorem isSame_iff {a b : Identity} : a.isSame b = true ↔ a.key = b.key := by
  simp [isSame]

@[simp] theorem isSame_refl (a : Identity) : a.isSame a = true := by simp [isSame]

theorem isSame_comm (a b : Identity) : a.isSame b = b.isSame a := by
  simp only [isSame, eq_comm]

/-- Sameness is told by the key, so the same file may stand in for another name. -/
theorem isSame_congr {a b : Identity} (h : a.isSame b = true) (c : Identity) :
    a.isSame c = b.isSame c := by
  simp only [isSame, isSame_iff.mp h]

end Identity

end IncludeOnce
