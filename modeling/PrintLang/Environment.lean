import PrintLang.Value
import Std.Data.TreeMap

/-!
# Environments

An environment holds the value that each name is bound to.  There is a single one for a whole
program, and names are never unbound.

## Main Definitions

* `Environment` — a finite map from names to values
* `Environment.get?`, `Environment.bind`, `Environment.size` — its operations
-/

namespace PrintLang

/-- The values that names are bound to. -/
structure Environment where
  /-- The bindings, in the order of the names. -/
  bindings : Std.TreeMap String Value

namespace Environment

/-- No name is bound. -/
def empty : Environment :=
  ⟨∅⟩

/-- The value of a name, if it is bound. -/
def get? (environment : Environment) (name : String) : Option Value :=
  environment.bindings[name]?

/-- The environment with `name` bound to `value` instead of any earlier value. -/
def bind (environment : Environment) (name : String) (value : Value) : Environment :=
  ⟨environment.bindings.insert name value⟩

/-- The number of bound names. -/
def size (environment : Environment) : Nat :=
  environment.bindings.size

/-- Whether no name is bound. -/
def isEmpty (environment : Environment) : Bool :=
  environment.bindings.isEmpty

/-! ### What is bound -/

@[simp] theorem get?_empty (name : String) : empty.get? name = none := by
  simp [get?, empty]

theorem get?_bind (environment : Environment) (name other : String) (value : Value) :
    (environment.bind name value).get? other =
      if name = other then some value else environment.get? other := by
  simp [get?, bind, Std.TreeMap.getElem?_insert, Std.LawfulEqCmp.compare_eq_iff_eq]

@[simp] theorem size_empty : empty.size = 0 := by
  simp [size, empty]

theorem size_bind (environment : Environment) (name : String) (value : Value) :
    (environment.bind name value).size =
      if (environment.get? name).isSome then environment.size else environment.size + 1 := by
  simp [size, bind, get?, Std.TreeMap.size_insert]

end Environment

end PrintLang
