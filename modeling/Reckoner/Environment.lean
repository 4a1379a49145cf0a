import Reckoner.Value

/-! Environments: the values of names, in scopes inside each other. -/

namespace Reckoner

/-- The names bound in one scope with their values, the latest first. -/
abbrev Scope := List (String × Value)

namespace Scope

/-- The bindings of all other names. -/
def erase (scope : Scope) (name : String) : Scope :=
  scope.filter fun entry => entry.1 ≠ name

/-- Binds a name in a scope, in place of what it was bound to there. -/
def insert (scope : Scope) (name : String) (value : Value) : Scope :=
  (name, value) :: scope.erase name

/-- The first binding decides, if it is of the name that is looked up. -/
theorem lookup_cons (entry : String × Value) (rest : Scope) (name : String)
    : List.lookup name (entry :: rest)
      = if name = entry.1 then some entry.2 else List.lookup name rest := by
  obtain ⟨key, value⟩ := entry
  by_cases same : name = key
  · simp [same]
  · have differs : (name == key) = false := beq_eq_false_iff_ne.mpr same
    simp only [List.lookup_cons, differs, same, if_false]

/-- Erasing a name leaves the values of all others, by induction on the bindings. -/
theorem lookup_erase {scope : Scope} {name other : String} (distinct : other ≠ name)
    : (scope.erase name).lookup other = scope.lookup other := by
  induction scope with
  | nil => rfl
  | cons entry rest ih =>
      simp only [erase] at ih ⊢
      by_cases same : entry.1 = name
      · have differs : other ≠ entry.1 := same ▸ distinct
        rw [List.filter_cons_of_neg (by simpa using same), lookup_cons, if_neg differs, ih]
      · rw [List.filter_cons_of_pos (by simpa using same), lookup_cons, lookup_cons, ih]

/-- Binding a name changes its own value and no other. -/
theorem lookup_insert (scope : Scope) (name other : String) (value : Value)
    : (scope.insert name value).lookup other
      = if other = name then some value else scope.lookup other := by
  rw [insert, lookup_cons]
  split
  · rfl
  · next distinct => exact lookup_erase distinct

/-- Erasing a name that is not bound changes nothing, by induction on the bindings. -/
theorem erase_of_lookup_eq_none {scope : Scope} {name : String}
    (absent : scope.lookup name = none)
    : scope.erase name = scope := by
  induction scope with
  | nil => rfl
  | cons entry rest ih =>
      rw [lookup_cons] at absent
      split at absent
      · cases absent
      · next distinct =>
          have later := ih absent
          simp only [erase] at later ⊢
          rw [List.filter_cons_of_pos (by simpa using Ne.symm distinct), later]

end Scope

/-- The open scopes, of which there is always one: the last is the global scope. -/
structure Environment where
  innermost : Scope
  outer : List Scope
  deriving DecidableEq

namespace Environment

/-- The environment with an empty global scope and no other. -/
def empty : Environment :=
  { innermost := [], outer := [] }

/-- The scopes from the innermost to the global one. -/
def scopes (env : Environment) : List Scope :=
  env.innermost :: env.outer

/-- The value of a name in the innermost scope. -/
def localValue? (env : Environment) (name : String) : Option Value :=
  env.innermost.lookup name

/-- Whether a name is bound in the innermost scope. -/
def containsLocal (env : Environment) (name : String) : Bool :=
  (env.localValue? name).isSome

/-- The value of a name in the innermost scope that binds it. -/
def lookup (env : Environment) (name : String) : Option Value :=
  env.scopes.findSome? (·.lookup name)

/-- Binds a name in the innermost scope. -/
def bind (env : Environment) (name : String) (value : Value) : Environment :=
  { env with innermost := env.innermost.insert name value }

/-- Binds a name in the innermost scope and gives the value it had there. -/
def declare (env : Environment) (name : String) (value : Value)
    : Option Value × Environment :=
  (env.localValue? name, env.bind name value)

/-- Opens an empty scope inside the others. -/
def pushScope (env : Environment) : Environment :=
  { innermost := [], outer := env.scopes }

/-- Closes the innermost scope and says so, unless it is the global one. -/
def popScope (env : Environment) : Bool × Environment :=
  match env.outer with
  | [] => (false, env)
  | scope :: outer => (true, { innermost := scope, outer := outer })

/-- The number of open scopes. -/
def depth (env : Environment) : Nat :=
  env.scopes.length

/-- The distinct names bound in any scope. -/
def names (env : Environment) : List String :=
  (env.scopes.flatMap fun scope => scope.map Prod.fst).eraseDups

/-- The number of names that have a value. -/
def size (env : Environment) : Nat :=
  env.names.length

/-- Whether no scope binds anything. -/
def isEmpty (env : Environment) : Bool :=
  env.scopes.all List.isEmpty

/-- Binding a name in the innermost scope changes what it is looked up as, whatever outer
scopes bind, and no other name.
-/
theorem lookup_bind (env : Environment) (name other : String) (value : Value)
    : (env.bind name value).lookup other
      = if other = name then some value else env.lookup other := by
  simp only [lookup, bind, scopes, List.findSome?_cons, Scope.lookup_insert]
  by_cases same : other = name <;> simp [same]

/-- Closing a scope that was just opened leaves the environment as it was. -/
theorem popScope_pushScope (env : Environment)
    : env.pushScope.popScope = (true, env) :=
  rfl

end Environment
end Reckoner
