/-!
# Directories of names

A directory gives names to things and lists them in the order of their names.
-/

namespace FairShare

/-- Named things, in ascending order of the names. -/
abbrev Directory (α : Type) := List (String × α)

namespace Directory

variable {α : Type}

/-- The thing of this name. -/
def get? (name : String) (d : Directory α) : Option α :=
  d.lookup name

/-- Whether the name is in use. -/
def has (name : String) (d : Directory α) : Bool :=
  (d.lookup name).isSome

/-- Adds a thing under a name that is not in use. -/
def insert (name : String) (a : α) : Directory α → Directory α
  | [] => [(name, a)]
  | (n, b) :: rest =>
    if name < n then (name, a) :: (n, b) :: rest else (n, b) :: insert name a rest

/-- Frees a name. -/
def erase (name : String) (d : Directory α) : Directory α :=
  d.filter fun entry => entry.1 != name

theorem has_erase (name : String) (d : Directory α) : (d.erase name).has name = false := by
  induction d with
  | nil => rfl
  | cons entry rest ih =>
    obtain ⟨n, a⟩ := entry
    by_cases h : n = name
    · simpa [erase, has, h] using ih
    · have h' : (name == n) = false := by simp [Ne.symm h]
      simpa [erase, has, h, List.lookup_cons, h'] using ih

/-- The name in the place of the number, which counts round the directory. -/
def nameAt? (n : Nat) (d : Directory α) : Option String :=
  (d[n % d.length]?).map Prod.fst

end Directory

/-- How a step says which thing it means: by name, or by number among the names in use. -/
inductive Pick where
  | name (name : String)
  | number (n : Nat)
deriving DecidableEq, Repr

/-- The name and the thing that are meant. -/
def Directory.pick? {α : Type} (pick : Pick) (d : Directory α) : Option (String × α) :=
  let name? :=
    match pick with
    | .name name => some name
    | .number n => d.nameAt? n
  name?.bind fun name => (d.get? name).map fun a => (name, a)

end FairShare
