import SnapStore.Cache.Install
import SnapStore.Run
import Mathlib.Data.List.Induction

namespace SnapStore.Registry

/-!
# Registries are maps by type

The services of all types are in one table, and one that is not of the type it is asked for is passed over
in silence.  This never happens: whatever a host does with a registry, each type sees its own services, and
no others.

* `find?_put_self`, `find?_put_of_ne`, `find?_take_self` and `find?_take_of_ne` — what is done with the
  table; `get?_register_self` and its like say the same of services.
* `Sound` — every service is stored under its own type, and no type has two.
* `Call` is what a host can ask of a registry, and `after` the registry after some calls; `sound_after` says
  that it is sound.
* `Call.Registers` and `IsLast` — what a call registers, and what some calls have registered last.
* `get?_after_eq_some_iff` — what is found is what has been registered last.
* `acts_as_map` puts it together.
-/

variable {T : Type} [DecidableEq T] {Service : T → Type} {ε : Type} {t u : T}

/-! ### What is done with the table -/

theorem find?_put_self (r : Registry Service) (t : T) (e : Entry Service) :
    (r.put t e).2.find? t = some e := by
  simp [put, find?]

theorem find?_take_self (r : Registry Service) (t : T) : (r.take t).2.find? t = none := by
  simp [take, find?]

theorem find?_take_of_ne (r : Registry Service) (h : u ≠ t) : (r.take t).2.find? u = r.find? u := by
  simp only [take, find?, List.find?_filter]
  congr 2
  funext x
  by_cases hx : x.1 = u <;> simp [hx, h]

theorem find?_put_of_ne (r : Registry Service) (h : u ≠ t) (e : Entry Service) :
    (r.put t e).2.find? u = r.find? u := by
  rw [← find?_take_of_ne r h]
  simp [put, take, find?, Ne.symm h]

/-! ### What that means for services -/

@[simp] theorem Entry.as?_mk (t : T) (s : Service t) : Entry.as? t ⟨t, s⟩ = some s := by simp [Entry.as?]

/-- A service is of the type that it is stored with. -/
theorem Entry.exists_as? {e : Entry Service} (h : e.type = t) : ∃ s, e.as? t = some s := by
  subst h
  exact ⟨e.service, Entry.as?_mk e.type e.service⟩

theorem get?_register_self (r : Registry Service) (t : T) (s : Service t) :
    (r.register t s).2.get? t = some s := by
  simp only [register, get?, find?_put_self, Option.bind_some, Entry.as?_mk]

theorem get?_register_of_ne (r : Registry Service) (h : u ≠ t) (s : Service t) :
    (r.register t s).2.get? u = r.get? u := by
  simp only [register, get?, find?_put_of_ne r h]

theorem get?_unregister_self (r : Registry Service) (t : T) : (r.unregister t).2.get? t = none := by
  simp only [unregister, get?, find?_take_self, Option.bind_none]

theorem get?_unregister_of_ne (r : Registry Service) (h : u ≠ t) : (r.unregister t).2.get? u = r.get? u := by
  simp only [unregister, get?, find?_take_of_ne r h]

/-! ### Sound registries -/

/-- Every service is stored under its own type, and no type has two. -/
structure Sound (r : Registry Service) : Prop where
  typed : ∀ x ∈ r.entries, x.2.type = x.1
  nodup : (r.entries.map (·.1)).Nodup

namespace Sound

variable {r : Registry Service}

theorem take (hr : r.Sound) (t : T) : (r.take t).2.Sound where
  typed x hx := hr.typed x (List.mem_filter.mp hx).1
  nodup := hr.nodup.sublist (List.filter_sublist.map _)

theorem put (hr : r.Sound) {e : Entry Service} (he : e.type = t) : (r.put t e).2.Sound where
  typed x hx := by
    rcases List.mem_cons.mp hx with rfl | hx
    · exact he
    · exact hr.typed x (List.mem_filter.mp hx).1
  nodup := by
    -- what was stored under the type before is taken away first
    refine List.nodup_cons.mpr ⟨fun hmem => ?_, (hr.take t).nodup⟩
    obtain ⟨x, hx, hxt⟩ := List.mem_map.mp hmem
    have hne := (List.mem_filter.mp hx).2
    simp [hxt] at hne

/-- What is found is of the type that it is looked up by. -/
theorem exists_as? (hr : r.Sound) {e : Entry Service} (he : r.find? t = some e) : ∃ s, e.as? t = some s := by
  obtain ⟨x, hx, rfl⟩ := Option.map_eq_some_iff.mp he
  refine Entry.exists_as? ?_
  rw [hr.typed x (List.mem_of_find?_eq_some hx)]
  simpa using List.find?_some hx

/-- The types that a service is found for are those that one is stored under. -/
theorem isSome_get?_iff (hr : r.Sound) : (r.get? t).isSome = true ↔ t ∈ r.entries.map (·.1) := by
  have hfind : (r.find? t).isSome = true ↔ t ∈ r.entries.map (·.1) := by
    simp [find?, List.mem_map]
  rw [← hfind, get?]
  cases hstored : r.find? t with
  | none => simp
  | some e =>
    obtain ⟨s, hs⟩ := hr.exists_as? hstored
    simp [hs]

end Sound

/-! ### Calls -/

/-- What a host can ask of a registry. -/
inductive Call (Service : T → Type) (ε : Type)
  | register (t : T) (s : Service t)
  | get (t : T)
  | unregister (t : T)
  | install (t : T) (c : Config) (openCache : Config → Except ε (Service t))

/-- The type that a call is about. -/
def Call.type : Call Service ε → T
  | .register t _ | .get t | .unregister t | .install t _ _ => t

/-- The registry when the call is over. -/
def Call.perform : Call Service ε → Registry Service → Registry Service
  | .register t s, r => (r.register t s).2
  | .get _, r => r
  | .unregister t, r => (r.unregister t).2
  | .install t c openCache, r => (r.install t c openCache).2

/-- The registry after some calls, which is empty at first. -/
def after (calls : List (Call Service ε)) : Registry Service := calls.foldl (fun r call => call.perform r) {}

theorem after_concat (calls : List (Call Service ε)) (call : Call Service ε) :
    after (calls ++ [call]) = call.perform (after calls) := by
  simp [after]

/-- A cache that can be opened is registered, unless caching is turned off. -/
theorem install_of_opened (r : Registry Service) {c : Config} {openCache : Config → Except ε (Service t)}
    {s : Service t} (henabled : c.enabled = true) (hopen : openCache c = .ok s) :
    r.install t c openCache = (.ok (some s), (r.register t s).2) := by
  simp only [install, henabled, hopen, if_true]

/-- Either a cache has been opened and registered, or nothing has changed. -/
theorem install_cases (r : Registry Service) (t : T) (c : Config)
    (openCache : Config → Except ε (Service t)) :
    (∃ s, c.enabled = true ∧ openCache c = .ok s ∧
      r.install t c openCache = (.ok (some s), (r.register t s).2)) ∨
    (r.install t c openCache).2 = r ∧ ∀ s, (r.install t c openCache).1 ≠ .ok (some s) := by
  cases henabled : c.enabled with
  | false => exact .inr (by simp [install, henabled])
  | true =>
    cases hopen : openCache c with
    | error e => exact .inr (by simp [install, henabled, hopen])
    | ok s => exact .inl ⟨s, rfl, rfl, install_of_opened r henabled hopen⟩

/-- Every call keeps a registry sound. -/
theorem Sound.perform {r : Registry Service} (hr : r.Sound) (call : Call Service ε) :
    (call.perform r).Sound := by
  cases call with
  | register t s => exact hr.put rfl
  | get t => exact hr
  | unregister t => exact hr.take t
  | install t c openCache =>
    rw [Call.perform]
    rcases install_cases r t c openCache with ⟨s, -, -, h⟩ | ⟨h, -⟩ <;> rw [h]
    · exact hr.put rfl
    · exact hr

theorem sound_after (calls : List (Call Service ε)) : (after calls).Sound := by
  induction calls using List.reverseRecOn with
  | nil => exact ⟨by simp [after], by simp [after]⟩
  | append_singleton calls call ih =>
    rw [after_concat]
    exact ih.perform call

/-! ### What has been registered last -/

/-- A call registers a service of a type. -/
inductive Call.Registers : Call Service ε → (t : T) → Service t → Prop
  | register (t : T) (s : Service t) : Registers (.register t s) t s
  | /-- A cache that could be opened. -/
    install {t : T} {c : Config} {openCache : Config → Except ε (Service t)} {s : Service t}
      (henabled : c.enabled = true) (hopen : openCache c = .ok s) : Registers (.install t c openCache) t s

/-- A call decides what is registered under a type from then on. -/
def Call.Settles (call : Call Service ε) (t : T) : Prop := call = .unregister t ∨ ∃ s, call.Registers t s

/-- The service is the last one that has been registered under the type, and has not been unregistered
since. -/
def IsLast (calls : List (Call Service ε)) (t : T) (s : Service t) : Prop :=
  ∃ before call rest, calls = before ++ call :: rest ∧ call.Registers t s ∧ ∀ c ∈ rest, ¬ c.Settles t

section Last

variable {call : Call Service ε} {calls : List (Call Service ε)} {s : Service t}

theorem Call.Registers.get?_perform (h : call.Registers t s) (r : Registry Service) :
    (call.perform r).get? t = some s := by
  cases h with
  | register => exact get?_register_self r t s
  | install henabled hopen =>
    rw [Call.perform, install_of_opened r henabled hopen]
    exact get?_register_self r t s

/-- Other types are left alone. -/
theorem get?_perform_of_ne (r : Registry Service) (call : Call Service ε) (h : u ≠ call.type) :
    (call.perform r).get? u = r.get? u := by
  cases call with
  | register t s => exact get?_register_of_ne r h s
  | get t => rfl
  | unregister t => exact get?_unregister_of_ne r h
  | install t c openCache =>
    rw [Call.perform]
    rcases install_cases r t c openCache with ⟨s, -, -, hs⟩ | ⟨hs, -⟩ <;> rw [hs]
    exact get?_register_of_ne r h s

/-- A call that does not settle what is registered under a type leaves it as it is. -/
theorem get?_perform_of_not_settles (r : Registry Service) (h : ¬ call.Settles t) :
    (call.perform r).get? t = r.get? t := by
  by_cases hne : t = call.type
  · subst hne
    cases call with
    | register t s => exact absurd (.inr ⟨s, .register t s⟩) h
    | get t => rfl
    | unregister t => exact absurd (.inl rfl) h
    | install t c openCache =>
      rw [Call.perform]
      rcases install_cases r t c openCache with ⟨s, henabled, hopen, -⟩ | ⟨hsame, -⟩
      · exact absurd (.inr ⟨s, .install henabled hopen⟩) h
      · rw [hsame]
  · exact get?_perform_of_ne r call hne

omit [DecidableEq T] in
theorem isLast_concat_iff :
    IsLast (calls ++ [call]) t s ↔ call.Registers t s ∨ ¬ call.Settles t ∧ IsLast calls t s := by
  constructor
  · rintro ⟨before, c, rest, hcalls, hregisters, hrest⟩
    rcases eq_or_exists_of_concat hcalls with ⟨-, rfl, -⟩ | ⟨init, rfl, rfl⟩
    · exact .inl hregisters
    · refine .inr ⟨hrest call (by simp), before, c, init, rfl, hregisters, fun x hx =>
        hrest x (by simp [hx])⟩
  · rintro (hregisters | ⟨hsettles, before, c, rest, rfl, hregisters, hrest⟩)
    · exact ⟨calls, call, [], rfl, hregisters, by simp⟩
    · refine ⟨before, c, rest ++ [call], by simp, hregisters, fun x hx => ?_⟩
      rcases List.mem_append.mp hx with hx | hx
      · exact hrest x hx
      · rwa [List.mem_singleton.mp hx]

/-- **What is found** is what has been registered last. -/
theorem get?_after_eq_some_iff : (after calls).get? t = some s ↔ IsLast calls t s := by
  induction calls using List.reverseRecOn with
  | nil => simp [after, get?, find?, IsLast]
  | append_singleton calls call ih =>
    rw [after_concat, isLast_concat_iff]
    -- a call that settles the type does so whatever came before, and any other call leaves it to those
    -- before
    by_cases hsettles : call.Settles t
    · obtain rfl | ⟨s', hs'⟩ := hsettles
      · have hnone : ¬ (Call.unregister t : Call Service ε).Registers t s := nofun
        simp [Call.perform, get?_unregister_self, hnone, Call.Settles]
      · have hsame : call.Registers t s ↔ s' = s := by
          refine ⟨fun hs => ?_, fun h => h ▸ hs'⟩
          rw [← Option.some.injEq, ← hs'.get?_perform {}, ← hs.get?_perform {}]
        rw [hs'.get?_perform, Option.some.injEq, hsame]
        simp [Call.Settles, show ∃ s, call.Registers t s from ⟨s', hs'⟩]
    · have hnone : ¬ call.Registers t s := fun h => hsettles (.inr ⟨s, h⟩)
      rw [get?_perform_of_not_settles _ hsettles, ih]
      simp [hsettles, hnone]

end Last

/-! ### The results together -/

/-- The number of services is that of the types that one is found for. -/
theorem Sound.exists_types {r : Registry Service} (hr : r.Sound) :
    ∃ types : List T, types.Nodup ∧ (∀ t, t ∈ types ↔ (r.get? t).isSome = true) ∧ r.size = types.length :=
  ⟨r.entries.map (·.1), hr.nodup, fun _ => hr.isSome_get?_iff.symm, by simp [size]⟩

theorem Sound.isEmpty_iff {r : Registry Service} (hr : r.Sound) :
    r.isEmpty = true ↔ ∀ t, r.get? t = none := by
  simp only [← Option.not_isSome_iff_eq_none, hr.isSome_get?_iff, isEmpty, List.isEmpty_iff,
    ← List.eq_nil_iff_forall_not_mem, List.map_eq_nil_iff]

/-- **A registry is a map by type**, whatever has been asked of it before.  What is found under a type is
the service that has been registered there last, unless it has been unregistered since.  Who registers or
unregisters a service is given the one that would have been found.  No call changes what is found under
another type.  There are as many services as types that one is found for, and what is stored under a type is
found: it is of that type.  Caches of different kinds of models are of different types.  An installation
returns a cache exactly if caching is turned on and the cache can be opened, only then changes the registry,
and afterwards that cache is found for its kind, and for other kinds what was found before. -/
theorem acts_as_map {K : Type} {cacheType : K → T} (hkinds : Function.Injective cacheType)
    (calls : List (Call Service ε)) :
    (∀ t s, (after calls).get? t = some s ↔ IsLast calls t s) ∧
      (∀ t s, ((after calls).register t s).1 = (after calls).get? t) ∧
      (∀ t, ((after calls).unregister t).1 = (after calls).get? t) ∧
      (∀ (call : Call Service ε) u, u ≠ call.type →
        (call.perform (after calls)).get? u = (after calls).get? u) ∧
      (∃ types : List T, types.Nodup ∧ (∀ t, t ∈ types ↔ ((after calls).get? t).isSome = true) ∧
        (after calls).size = types.length) ∧
      ((after calls).isEmpty = true ↔ ∀ t, (after calls).get? t = none) ∧
      (∀ t e, (after calls).find? t = some e → ∃ s, e.as? t = some s ∧ (after calls).get? t = some s) ∧
      ∀ k c (openCache : Config → Except ε (Service (cacheType k))),
        let installed := (after calls).install (cacheType k) c openCache
        (∀ s, installed.1 = .ok (some s) ↔ c.enabled = true ∧ openCache c = .ok s) ∧
          (installed.2 ≠ after calls → ∃ s, installed.1 = .ok (some s)) ∧
          ∀ s, installed.1 = .ok (some s) → installed.2.cache? cacheType k = some s ∧
            ∀ k' ≠ k, installed.2.cache? cacheType k' = (after calls).cache? cacheType k' := by
  have hsound := sound_after calls
  refine ⟨fun t s => get?_after_eq_some_iff, fun t s => rfl, fun t => rfl,
    fun call u hu => get?_perform_of_ne _ call hu, hsound.exists_types, hsound.isEmpty_iff, fun t e he => ?_,
    fun k c openCache => ⟨fun s => ⟨fun hs => ?_, fun hs => ?_⟩, install_fst_ne_of_ne, fun s hs => ?_⟩⟩
  · obtain ⟨s, hs⟩ := hsound.exists_as? he
    exact ⟨s, hs, by rw [get?, he, Option.bind_some, hs]⟩
  · rcases install_cases (after calls) (cacheType k) c openCache with ⟨s', henabled, hopen, h⟩ | ⟨-, h⟩
    · rw [h, Except.ok.injEq, Option.some.injEq] at hs
      exact ⟨henabled, hs ▸ hopen⟩
    · exact absurd hs (h s)
  · rw [install_of_opened _ hs.1 hs.2]
  · rcases install_cases (after calls) (cacheType k) c openCache with ⟨s', -, -, h⟩ | ⟨-, h⟩
    · rw [h, Except.ok.injEq, Option.some.injEq] at hs
      subst hs
      rw [h]
      exact ⟨get?_register_self _ _ s', fun k' hk' => get?_register_of_ne _ (hkinds.ne hk') s'⟩
    · exact absurd hs (h s)

/-- The types of services of a host that has a greeter, and caches of two kinds of models. -/
inductive HostType
  | greeter
  | cache (isText : Bool)
  deriving DecidableEq

/-- A greeter is what it says, and a cache a number. -/
def HostService : HostType → Type
  | .greeter => String
  | .cache _ => Nat

/-- What the host asks for. -/
def hostCalls : List (Call HostService String) :=
  [.register .greeter "hello", .install (.cache true) {} fun _ => .ok (3 : Nat),
    .register .greeter "goodbye", .install (.cache false) {} fun _ => .error "busy",
    .register (.cache false) (4 : Nat), .unregister .greeter,
    .install (.cache true) { enabled := false } fun _ => .ok (5 : Nat)]

/-- The greeter has gone; the cache that was installed is still there, when it is asked for, when it is
replaced, and when one of the other kind is installed. -/
theorem acts_as_map_hosted :
    Function.Injective HostType.cache ∧ IsLast hostCalls (.cache true) (3 : Nat) ∧
      (∀ s, ¬ IsLast hostCalls .greeter s) ∧ (after hostCalls).size = 2 ∧
      ((after hostCalls).register (.cache true) (6 : Nat)).1 = some (3 : Nat) ∧
      ((after hostCalls).install (.cache false) {} (fun _ => .ok 7 : Config → Except String Nat)).2.cache?
        .cache true = some (3 : Nat) := by
  have hkinds : Function.Injective HostType.cache := fun _ _ => HostType.cache.inj
  obtain ⟨hlast, hregister, -, -, -, -, -, hinstall⟩ := acts_as_map hkinds hostCalls
  refine ⟨hkinds, (hlast _ _).mp rfl, fun s hs => ?_, rfl, hregister _ _, ?_⟩
  · have hfound := (hlast .greeter s).mpr hs
    cases hfound
  · exact ((hinstall false {} fun _ => .ok (7 : Nat)).2.2 (7 : Nat) rfl).2 true (by decide)

end SnapStore.Registry
