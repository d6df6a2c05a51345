import IncludeOnce.Text

/-! The macro table: names and the bodies they were defined with. A body is never
put into the text; it only counts where a condition reads it as a number. -/
namespace IncludeOnce

/-- The name of a macro. -/
abbrev Name := Text

structure Macros where
  entries : List (Name × Text) := []

namespace Macros

def body? (m : Macros) (name : Name) : Option Text := m.entries.lookup name

def isDefined (m : Macros) (name : Name) : Bool := (m.body? name).isSome

def undefine (m : Macros) (name : Name) : Macros :=
  ⟨m.entries.filter (·.1 ≠ name)⟩

/-- Defines a name, in place of any earlier body. -/
def define (m : Macros) (name : Name) (body : Text) : Macros :=
  ⟨(name, body) :: (m.undefine name).entries⟩

/-- The names, each once. -/
def names (m : Macros) : List Name := m.entries.map (·.1)

/-- The table before the first line: a name given without a value means `1`, and
the last definition of a name wins. -/
def ofDefinitions (definitions : List (Name × Option Text)) : Macros :=
  definitions.foldl (fun m (name, value) => m.define name (value.getD ['1'])) {}

end Macros

end IncludeOnce
