/-!
# Environments

An environment is a list of texts, one for a variable, in which an equals sign stands between the
name and the value. Nothing else marks where the name ends, so a name is found wherever a text
starts with it and an equals sign: the variable `A` with the value `B=1` can be asked for as `A`,
and as `A=B` too.
-/

namespace ReactiveForm

/-- The variables of a process. -/
structure Environment where
  /-- One text for a variable. -/
  entries : List String
deriving DecidableEq, Inhabited

namespace Environment

/-- The text of a variable. -/
def entry (name value : String) : String := name ++ "=" ++ value

/-- The environment of the given variables with their values. -/
def ofList (pairs : List (String × String)) : Environment :=
  ⟨pairs.map fun p => entry p.1 p.2⟩

/-- What a text has behind a name and an equals sign, if it starts with them. -/
def valueOf? (name text : String) : Option String :=
  ((name ++ "=").toList.isPrefixOf? text.toList).map String.ofList

/-- The value of a variable. The empty name belongs to none. -/
def get? (e : Environment) (name : String) : Option String :=
  if name.isEmpty then none else e.entries.findSome? (valueOf? name)

/-- The environment with one more variable. -/
def add (e : Environment) (name value : String) : Environment :=
  ⟨e.entries ++ [entry name value]⟩

end Environment

end ReactiveForm
