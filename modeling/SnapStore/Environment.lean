import SnapStore.Path

namespace SnapStore

/-!
# Environments

* `Variables` are the variables that a program finds set.  The value of one need not be a text.
* `Environment` are the variables, with the place that the system has for the caches of a user, which may
  depend on them: what that place is, is up to the system.  `Variables.cacheHome?` is the usual answer.
* `Environment.get?` is the value of a variable that is set to a text, `Environment.addNew` sets a variable
  that is not set to one yet.
-/

/-- The variables of an environment, the one that counts before others of its name. -/
abbrev Variables := List (String × Bytes)

namespace Variables

/-- The value of a variable. -/
def value? (vars : Variables) (name : String) : Option Bytes := (vars.find? (·.1 = name)).map (·.2)

/-- The home directory of the user: the one that is named, or else the one in the list of users. -/
def home? (listed : Option Path) (vars : Variables) : Option Path :=
  match vars.value? "HOME" with
  | some home => if home = [] then listed else some ⟨home⟩
  | none => listed

/-- The directory for caches on a desktop system: the one that is named, if its path is absolute, or else
the usual place in the home directory. -/
def cacheHome? (listed : Option Path) (vars : Variables) : Option Path :=
  let usual := (vars.home? listed).map (·.join (.ofString ".cache"))
  match vars.value? "XDG_CACHE_HOME" with
  | some dir => if Path.isAbsolute ⟨dir⟩ then some ⟨dir⟩ else usual
  | none => usual

end Variables

/-- The environment of a program. -/
structure Environment where
  vars : Variables := []
  /-- Where the system keeps the caches of the user, given the variables, if it has a place for them. -/
  cacheHome : Variables → Option Path

namespace Environment

/-- The value of a variable that is set to a text. -/
def get? (env : Environment) (name : String) : Option String :=
  (env.vars.value? name).bind Bytes.toString?

/-- The directory for the caches of the user. -/
def userCacheDir? (env : Environment) : Option Path := env.cacheHome env.vars

/-- Sets a variable unless it is set to a text. -/
def addNew (env : Environment) (name value : String) : Environment :=
  if (env.get? name).isSome then env
  else { env with vars := (name, Bytes.ofString value) :: env.vars }

end Environment

end SnapStore
