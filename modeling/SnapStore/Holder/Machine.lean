import SnapStore.Holder
import SnapStore.Run

namespace SnapStore.Holder

/-!
# The threads of a model holder

Any number of threads change a holder.  Each of them takes the lock of the holder, works on the model
in several steps, and counts its change before it releases the lock; a thread that only looks waits
for the lock to be free.

* `Editor` says where a thread stands.
* `Machine.step` is one step of one thread, `Machine.start` a holder that nobody is working on.
-/

/-- What a thread does to a holder. -/
inductive Change (M : Type)
  | replace (model : M)
  | update (edit : M → M)
  | clear

/-- What a thread asks of a holder. -/
inductive Call (M : Type)
  | change (c : Change M)
  | look

/-- What a thread is told. -/
inductive Answer (M : Type)
  | /-- The revision of a change, unless there was no model to edit. -/ revision (n : Option UInt64)
  | cleared
  | seen (model : Option M)

/-- Where a thread stands. -/
inductive Editor (M : Type)
  | /-- Outside, with the answer to its last call. -/ outside (last : Option (Answer M))
  | /-- About to look at the model, when nobody holds the lock. -/ looking
  | /-- About to take the lock. -/ entering (c : Change M)
  | /-- About to look at the model, with the lock in hand. -/ holding (c : Change M)
  | /-- About to edit a copy of the model. -/ editing (model : M) (edit : M → M)
  | /-- About to install a model. -/ installing (model : M)
  | /-- About to count the change. -/ counting
  | /-- About to release the lock. -/ leaving (a : Answer M)

/-- The start of a call. -/
def Editor.start {M : Type} : Call M → Editor M
  | .change c => .entering c
  | .look => .looking

/-- A holder with its threads. -/
structure Machine (M : Type) where
  holder : Holder M := {}
  /-- Who holds the lock. -/
  lock : Option ThreadId := none
  editors : ThreadId → Editor M := fun _ => .outside none

namespace Machine

variable {M : Type}

/-- One step. -/
inductive Label (M : Type)
  | /-- A thread that is outside makes a call. -/ call (i : ThreadId) (c : Call M)
  | /-- A thread goes on. -/ editor (i : ThreadId)

/-- A holder that nobody is working on. -/
def start (holder : Holder M) : Machine M := { holder }

/-- A thread goes on to another place. -/
def move (m : Machine M) (i : ThreadId) (e : Editor M) : Machine M :=
  { m with editors := goTo m.editors i e }

/-- The step of a thread; there is none while it waits for the lock. -/
def stepEditor (i : ThreadId) (m : Machine M) : Option (Machine M) :=
  match m.editors i with
  | .outside _ => none
  | .looking =>
    if m.lock.isNone then some (m.move i (.outside (some (.seen m.holder.current)))) else none
  | .entering c => if m.lock.isNone then some ({ m with lock := some i }.move i (.holding c)) else none
  | .holding (.replace model) => some (m.move i (.installing model))
  | .holding (.update edit) =>
    match m.holder.current with
    | some model => some (m.move i (.editing model edit))
    | none => some (m.move i (.leaving (.revision none)))
  | .holding .clear => some ({ m with holder := m.holder.clear }.move i (.leaving .cleared))
  | .editing model edit => some (m.move i (.installing (edit model)))
  | .installing model =>
    some ({ m with holder := { m.holder with current := some model } }.move i .counting)
  | .counting =>
    let n := m.holder.revision + 1
    some ({ m with holder := { m.holder with revision := n } }.move i (.leaving (.revision (some n))))
  | .leaving a => some ({ m with lock := none }.move i (.outside (some a)))

/-- One step of one thread. -/
def step : Label M → Machine M → Option (Machine M)
  | .call i c, m =>
    match m.editors i with
    | .outside _ => some (m.move i (.start c))
    | _ => none
  | .editor i, m => m.stepEditor i

end Machine

end SnapStore.Holder
