namespace SnapStore

/-!
# Service registries

A registry keeps at most one service of each type.  The services of all types share one table, so
that each is stored with its own type and is only handed out as a service of that type.

* `Registry.find?`, `Registry.put` and `Registry.take` are what is done with the table; they know of no
  types.
* `Registry.register`, `Registry.get?` and `Registry.unregister` are the operations; those that take
  a service out of the table return it, if it is of the type that they ask for.
-/

/-- A service together with its type, where `Service t` are the services of the type `t`. -/
structure Registry.Entry {T : Type} (Service : T → Type) where
  type : T
  service : Service type

/-- A table of services by type. -/
structure Registry {T : Type} (Service : T → Type) where
  /-- The types that a service is registered under, each with what is stored there. -/
  entries : List (T × Registry.Entry Service) := []

namespace Registry

variable {T : Type} [DecidableEq T] {Service : T → Type}

/-- A stored service as one of the type `t`, if that is its type. -/
def Entry.as? (t : T) (e : Entry Service) : Option (Service t) :=
  if h : e.type = t then some (h ▸ e.service) else none

/-- What is stored under a type. -/
def find? (r : Registry Service) (t : T) : Option (Entry Service) :=
  (r.entries.find? (·.1 = t)).map (·.2)

/-- Stores something under a type, and gives back what was stored there. -/
def put (r : Registry Service) (t : T) (e : Entry Service) : Option (Entry Service) × Registry Service :=
  (r.find? t, ⟨(t, e) :: r.entries.filter (·.1 ≠ t)⟩)

/-- Takes out what is stored under a type. -/
def take (r : Registry Service) (t : T) : Option (Entry Service) × Registry Service :=
  (r.find? t, ⟨r.entries.filter (·.1 ≠ t)⟩)

/-- The service registered under a type. -/
def get? (r : Registry Service) (t : T) : Option (Service t) := (r.find? t).bind (·.as? t)

/-- Takes the service registered under a type out of the table. -/
def unregister (r : Registry Service) (t : T) : Option (Service t) × Registry Service :=
  let (old, r) := r.take t
  (old.bind (·.as? t), r)

/-- Registers a service and returns the one that it replaces. -/
def register (r : Registry Service) (t : T) (s : Service t) : Option (Service t) × Registry Service :=
  let (old, r) := r.put t ⟨t, s⟩
  (old.bind (·.as? t), r)

/-- The number of services. -/
def size (r : Registry Service) : Nat := r.entries.length

/-- Whether there are no services. -/
def isEmpty (r : Registry Service) : Bool := r.entries.isEmpty

/-- The wording of a registry. -/
def describe (r : Registry Service) : String :=
  "ServiceRegistry \x7b services: " ++ toString r.size ++ " \x7d"

end Registry

end SnapStore
