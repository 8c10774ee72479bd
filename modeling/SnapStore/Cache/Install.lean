import SnapStore.Config
import SnapStore.Registry

namespace SnapStore.Registry

/-!
# Installing a cache

A host that looks its cache up in a registry installs it there once.  Nothing is registered when the
configuration turns caching off, or when the cache cannot be opened.

* `Registry.install` opens a cache and registers it.
* `Registry.cache?` is the cache of a kind of models.
* `install_fst_ne_of_ne` says that the registry only changes when there is a cache to register.
-/

variable {T : Type} [DecidableEq T] {Service : T → Type} {ε : Type}

/-- Opens a cache and registers it under its type, unless the configuration turns caching off. -/
def install (r : Registry Service) (t : T) (c : Config) (openCache : Config → Except ε (Service t)) :
    Except ε (Option (Service t)) × Registry Service :=
  if c.enabled then
    match openCache c with
    | .ok s => (.ok (some s), (r.register t s).2)
    | .error e => (.error e, r)
  else (.ok none, r)

/-- The cache of a kind of models, if there is one; `cacheType` says under which type it is registered. -/
def cache? {K : Type} (r : Registry Service) (cacheType : K → T) (k : K) : Option (Service (cacheType k)) :=
  r.get? (cacheType k)

theorem install_fst_ne_of_ne {r : Registry Service} {t : T} {c : Config}
    {openCache : Config → Except ε (Service t)} (h : (r.install t c openCache).2 ≠ r) :
    ∃ s, (r.install t c openCache).1 = .ok (some s) := by
  unfold install at h ⊢
  split
  · split <;> simp_all
  · simp_all

end SnapStore.Registry
