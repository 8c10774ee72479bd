import SnapStore.Cache.Install
import SnapStore.Cache.Machine
import SnapStore.Text.Quoted

namespace SnapStore.Cache

/-!
# Scripts for a cache

A script is what a host does with a cache, one command after another, and what is done to the slot
and the holder meanwhile.  A slot in memory can be told to fail, and a hook can be set on a kind of
access: the next thread that makes one first carries out the commands of the hook.

A host has one cache at a time, but a cache that it has given up, or replaced by another one, lives
on until the last call to it has ended.  Only then does the thread of that call stop its writer.

* `Script.run` carries out a script.  Every command has a result: its reply, the replies of the hooks
  that were carried out meanwhile, and what was logged.
* `Host` is the slot, the holder and the reports, with the caches on them, each of them a `Session`, and
  the threads that use these.  `Host.advance` is the next step of a thread, in terms of `Machine.step`.
* `Host.tick` lets the first thread that can go on do so: the one of the script before the writer, and
  both before the threads that the script has started.  Time is virtual, and passes only when no
  thread can go on: then it is the earliest time that one of them waits for.
-/

/-- The kinds of access to a slot. -/
inductive Access
  | read | write | remove
  deriving DecidableEq, Repr

/-- The access that a save is about to make. -/
def Save.access? {M : Type} : Save M → Option Access
  | .receive .. => some .read
  | .write .. => some .write
  | _ => none

/-- The access that a caller is about to make. -/
def Caller.access? {M : Type} : Caller M → Option Access
  | .loading (.receive _) => some .read
  | .saving p => p.access?
  | .invalidating .remove => some .remove
  | _ => none

/-- The access that the writer is about to make. -/
def Writer.access? {M : Type} : Writer M → Option Access
  | .saving _ p => p.access?
  | _ => none

/-- What a host can do. -/
inductive Command (M : Type)
  | load | save | invalidate | schedule | shutdown | stats | location | describe
  | waitIdle (timeout : Nat)
  | /-- So many loads at the same time. -/ parallelLoad (n : Nat)
  | parallelSave (n : Nat)
  | /-- Starts a thread that invalidates the cache, and pauses. -/ spawnInvalidate (pause : Nat)
  | /-- Waits for the threads that invalidate the cache. -/ join
  | /-- Closes the cache. -/ drop
  | /-- Closes the cache and opens it, with another configuration if there is one. -/
    reopen (c : Option Config)
  | replace (model : M)
  | update (edit : M → M)
  | clear | revision | current
  | diagnostics | clearDiagnostics
  | blob
  | setBlob (b : Bytes)
  | files (chore : FileTree.Chore)
  | writeCount
  | refuseWrites (on : Bool)
  | /-- Makes an access fail, or work again. -/ fail (p : Access) (e : Option CacheError)
  | hook (p : Access) (steps : List (Command M))
  deriving Inhabited

mutual

/-- A measure of how much a command gives the threads to do. -/
def Command.weight {M : Type} : Command M → Nat
  | .hook _ steps => weights steps + 1
  | .parallelLoad n => n + 1
  | .parallelSave n => n + 1
  | _ => 1
termination_by structural c => c

/-- The weight of several commands. -/
def Command.weights {M : Type} : List (Command M) → Nat
  | [] => 0
  | c :: cs => c.weight + Command.weights cs
termination_by structural cs => cs

end

/-- What a host is told. -/
inductive Reply (M : Type)
  | nothing
  | /-- There is no open cache. -/ noCache
  | /-- There is no registered cache. -/ unavailable
  | answer (a : Answer M)
  | answers (as : List (Answer M))
  | spawned
  | truth (b : Bool)
  | text (s : String)
  | number (n : Nat)
  | revision (n : Option Nat)
  | model (m : Option M)
  | /-- The cache has been opened, unless it is turned off. -/ opened (r : Except ConfigFault Bool)
  | diagnostics (ds : List Diagnostic)
  | blob (b : Option Bytes)
  | names (ns : Option (List Bytes))

/-- What comes of a command. -/
structure Result (M : Type) where
  reply : Reply M
  /-- The replies to the commands of hooks. -/
  events : List (Reply M)
  log : List LogEntry

/-- Where the slots of a host are. -/
structure Stores where
  tree : FileTree
  memory : MemorySlot := {}

/-- How a host opens its cache. -/
inductive Opening
  | /-- On a slot in memory. -/ memory
  | /-- On the file that the configuration names. -/ file
  | /-- On that file, by way of a registry. -/ install
  deriving DecidableEq, Repr

/-- The number of a cache that a host has opened. -/
abbrev SessionId := Nat

/-- A cache that a host has opened. -/
structure Session (M : Type) where
  setup : Setup Stores M
  machine : Machine Stores M
  /-- Whether the last one to use it has gone. -/
  abandoned : Bool := false

/-- The wording of a cache. -/
def Session.describe {M : Type} (s : Session M) : String :=
  "SnapshotCache \x7b location: " ++ Text.quote s.setup.slot.location ++ ", model_version: " ++
    toString s.setup.modelVersion ++ ", stats: " ++ s.machine.shared.stats.describe ++ " \x7d"

/-- A call that a thread of its own makes. -/
structure Errand where
  thread : Nat
  session : SessionId
  call : ThreadId
  deriving DecidableEq, Repr

/-- How a command ends. -/
inductive Ending (M : Type)
  | /-- With a reply; `asked` tells whether the command only asked for a save. -/
    reply (r : Reply M) (asked : Bool)
  | /-- The cache is opened, with another configuration if there is one. -/ reopen (c : Option Config)

/-- What a thread is in the middle of. -/
inductive Frame (M : Type)
  | /-- Commands, of the script itself or of a hook. -/ script (todo : List (Command M)) (isHook : Bool)
  | /-- A call; `passed` tells whether the hook of the next access has had its turn. -/
    call (session : SessionId) (i : ThreadId) (passed : Bool)
  | /-- The work of the writer. -/ serve (session : SessionId) (passed : Bool)
  | /-- Waits for calls, and perhaps puts them in the order of their saves; meanwhile it may keep a
    cache in use. -/
    gather (errands : List Errand) (sorted : Bool) (kept : Option SessionId)
  | pause (till : Nat)
  | /-- Is about to end a command. -/ ending (e : Ending M)

/-- Whether a cache is in use because of what a thread is in the middle of. -/
def Frame.uses {M : Type} (k : SessionId) : Frame M → Bool
  | .call session _ _ => session == k
  | .gather _ _ kept => kept == some k
  | _ => false

/-- A thread is what it is in the middle of, the innermost thing first. -/
abbrev Thread (M : Type) := List (Frame M)

/-- A host with its caches. -/
structure Host (M : Type) where
  opening : Opening
  env : Environment
  codec : Codec M
  sink : Sink
  config : Config
  stores : Stores
  holder : Holder M
  reports : Reports := {}
  /-- The caches that have been opened, the first one first. -/
  sessions : List (Session M) := []
  /-- The cache that is open. -/
  cache : Option SessionId := none
  registry : Registry (fun _ : Unit => SessionId) := {}
  now : Nat := 0
  /-- The thread of the script, and then the writers and others in the order in which they started. -/
  threads : List (Thread M)
  nextCall : ThreadId := 0
  /-- The invalidations that have not been joined. -/
  spawned : List Errand := []
  faults : Access → Option CacheError := fun _ => none
  hooks : Access → Option (List (Command M)) := fun _ => none
  events : List (Reply M) := []
  /-- The results, the last one first. -/
  results : List (Result M) := []

namespace Host

variable {M : Type}

/-! ### The state of a host -/

/-- The time of day when a script starts, in seconds since 1970. -/
def epoch : Nat := 1700000000

/-- The time of day. -/
def unixTime (h : Host M) : UInt64 := UInt64.ofNat (epoch + h.now / 1000)

/-- A slot in the file tree of a host, as one of its stores. -/
def inTree (slot : Slot FileTree) : Slot Stores :=
  slot.within (·.tree) fun tree s => { s with tree }

/-- The slot in memory. -/
def memorySlot : Slot Stores :=
  (MemorySlot.slot "memory").within (·.memory) fun memory s => { s with memory }

/-- The file of the cache. -/
def path (h : Host M) : Path := ((h.config.cachePath h.env).toOption).getD ⟨[]⟩

/-- The slot of the cache. -/
def slot (h : Host M) : Slot Stores :=
  match h.opening with
  | .memory => memorySlot
  | _ => inTree (FileSlot.slot h.path)

/-- Changes the stores. -/
def store (h : Host M) (f : Stores → Stores) : Host M := { h with stores := f h.stores }

/-- A cache as it finds the slot, the holder and the reports, which other caches share with it. -/
def machine (h : Host M) (s : Session M) : Machine Stores M :=
  { s.machine with
    shared := { s.machine.shared with slot := h.stores, holder := h.holder, reports := h.reports } }

/-- A step of a cache. -/
def stepSession (h : Host M) (k : SessionId) (label : Machine.Label Stores M) : Option (Host M) := do
  let s ← h.sessions[k]?
  let m ← Machine.step s.setup label (h.machine s)
  pure { h with
    sessions := h.sessions.set k { s with machine := m }
    stores := m.shared.slot
    holder := m.shared.holder
    reports := m.shared.reports }

/-- Where a caller of a cache stands. -/
def caller (h : Host M) (k : SessionId) (i : ThreadId) : Caller M :=
  match h.sessions[k]? with
  | some s => s.machine.callers i
  | none => .outside none

/-- Where the writer of a cache stands. -/
def writer (h : Host M) (k : SessionId) : Writer M :=
  match h.sessions[k]? with
  | some s => s.machine.writer
  | none => .stopped

/-- Whether a cache is open, registered or in the middle of a call. -/
def isInUse (h : Host M) (k : SessionId) : Bool :=
  h.cache == some k || h.registry.get? () == some k || h.threads.any (·.any (·.uses k))

/-- Puts another value at one access. -/
def atAccess {α : Type} (f : Access → α) (p : Access) (a : α) : Access → α :=
  fun q => if q = p then a else f q

/-- Changes what a thread is in the middle of. -/
def setThread (h : Host M) (i : Nat) (t : Thread M) : Host M :=
  { h with threads := h.threads.set i t }

/-- A thread takes something up. -/
def push (h : Host M) (i : Nat) (f : Frame M) : Host M :=
  h.setThread i (f :: h.threads.getD i [])

/-- The thread that is in the middle of a script gets a reply.  What was reported is left for the next
result if the command only asked for a save. -/
def deliver (h : Host M) (i : Nat) (r : Reply M) (asked : Bool) : Host M :=
  match h.threads[i]? with
  | some (.script _ true :: _) => { h with events := h.events ++ [r] }
  | some (.script _ false :: _) =>
    if asked then { h with results := ⟨r, [], []⟩ :: h.results }
    else
      { h with
        results := ⟨r, h.events, h.reports.log⟩ :: h.results
        events := []
        reports := { h.reports with log := [] } }
  | _ => h

/-! ### Opening and closing -/

/-- Opens a cache. -/
def openSetup (h : Host M) (c : Config) : Except ConfigFault (Setup Stores M) :=
  match h.opening with
  | .memory => Setup.onSlot c memorySlot h.codec h.sink
  | _ =>
    (Setup.onFile c h.env h.codec h.sink).map (·.within (·.tree) fun tree s => { s with tree })

/-- Opens a cache with the present configuration, unless that turns caching off. -/
def openCache (h : Host M) : Except ConfigFault Bool × Host M :=
  let k := h.sessions.length
  let setup := h.openSetup h.config
  let (opened, registry) : Except ConfigFault (Option SessionId) × _ :=
    match h.opening with
    | .install => h.registry.install () h.config fun _ => setup.map fun _ => k
    | _ => (setup.map fun _ => some k, h.registry)
  match opened, setup with
  | .ok (some k), .ok setup =>
    let machine : Machine Stores M := .start h.stores h.holder h.reports
    (.ok true,
      { h with
        registry
        sessions := h.sessions ++ [{ setup, machine }]
        cache := some k
        threads := h.threads ++ [[.serve k false]] })
  | .error e, _ => (.error e, { h with registry })
  | _, _ => (.ok false, { h with registry })

/-- A thread makes a call to a cache. -/
def call (h : Host M) (i : Nat) (k : SessionId) (c : Call) : Host M :=
  { (h.stepSession k (.call h.nextCall c)).getD h with nextCall := h.nextCall + 1 }.push i
    (.call k h.nextCall false)

/-- A thread has no more use for a cache and is about to end a command.  If nobody else uses the cache
it is shut down first. -/
def release (h : Host M) (i : Nat) (k : SessionId) (e : Ending M) : Host M :=
  let h := h.push i (.ending e)
  match h.sessions[k]? with
  | some s =>
    if s.abandoned || h.isInUse k then h
    else { h with sessions := h.sessions.set k { s with abandoned := true } }.call i k .shutdown
  | none => h

/-- Ends a command.  A cache that is open although another one is to be opened is given up. -/
def finish (h : Host M) (i : Nat) : Ending M → Host M
  | .reply r asked => h.deliver i r asked
  | .reopen c =>
    let earlier := h.cache
    let (r, h) := { h with config := c.getD h.config }.openCache
    match earlier with
    | some k => h.release i k (.reply (.opened r) false)
    | none => h.deliver i (.opened r) false

/-! ### Commands -/

/-- A new thread makes a call. -/
def spawn (h : Host M) (k : SessionId) (c : Call) : Errand × Host M :=
  (⟨h.threads.length, k, h.nextCall⟩,
    { h with threads := h.threads ++ [[]] }.call h.threads.length k c)

/-- So many new threads make a call, and a thread waits for them. -/
def parallel (h : Host M) (i : Nat) (k : SessionId) (c : Call) (sorted : Bool) (n : Nat) : Host M :=
  let (errands, h) := (List.range n).foldl (fun (errands, h) _ =>
    let (errand, h) := h.spawn k c
    (errands ++ [errand], h)) (([] : List Errand), h)
  h.push i (.gather errands sorted (some k))

/-- Does something with the cache, if there is one. -/
def withCache (h : Host M) (i : Nat) (f : SessionId → Host M) : Host M :=
  match h.cache with
  | some k => f k
  | none => h.deliver i .noCache false

/-- Does something with the cache that is in the registry, if the host has one. -/
def withService (h : Host M) (i : Nat) (asked : Bool) (f : SessionId → Host M) : Host M :=
  match h.opening with
  | .install =>
    match h.registry.get? () with
    | some k => f k
    | none => h.deliver i .unavailable asked
  | _ =>
    match h.cache with
    | some k => f k
    | none => h.deliver i .noCache asked

/-- Gives up the cache; what comes after that is told whether there was one. -/
def close (h : Host M) (i : Nat) (e : Bool → Ending M) : Host M :=
  match h.cache with
  | some k =>
    { h with cache := none, registry := (h.registry.unregister ()).2 }.release i k (e true)
  | none => h.finish i (e false)

/-- A text about the cache, if there is one. -/
def tell (h : Host M) (i : Nat) (text : Session M → String) : Host M :=
  match h.cache.bind (h.sessions[·]?) with
  | some s => h.deliver i (.text (text s)) false
  | none => h.deliver i .noCache false

/-- Puts a blob into the slot without an access that a hook could see. -/
def setBlob (h : Host M) (b : Bytes) : Host M :=
  match h.opening with
  | .memory => h.store fun s => { s with memory := { s.memory with blob := some b } }
  | _ => h.store fun s => { s with tree := s.tree.plantFile h.path b }

/-- A thread carries out a command, or takes it up. -/
def perform (h : Host M) (i : Nat) : Command M → Host M
  | .load => h.withService i false fun k => h.call i k .load
  | .schedule => h.withService i true fun k => h.call i k .schedule
  | .save => h.withCache i fun k => h.call i k .save
  | .invalidate => h.withCache i fun k => h.call i k .invalidate
  | .shutdown => h.withCache i fun k => h.call i k .shutdown
  | .stats => h.withCache i fun k => h.call i k .stats
  | .waitIdle timeout => h.withCache i fun k => h.call i k (.waitIdle timeout)
  | .location => h.tell i (·.setup.slot.location)
  | .describe => h.tell i Session.describe
  | .parallelLoad n => h.withCache i fun k => h.parallel i k .load false n
  | .parallelSave n => h.withCache i fun k => h.parallel i k .save true n
  | .spawnInvalidate pause =>
    h.withCache i fun k =>
      let (errand, h) := h.spawn k .invalidate
      { h with spawned := h.spawned ++ [errand] }.push i (.pause (h.now + pause))
  | .join => { h with spawned := [] }.push i (.gather h.spawned false none)
  | .drop => h.close i fun had => .reply (.truth had) false
  | .reopen c => h.close i fun _ => .reopen c
  | .replace model =>
    let (n, holder) := h.holder.replace model
    { h with holder }.deliver i (.number n.toNat) false
  | .update edit =>
    let (n, holder) := h.holder.update edit
    { h with holder }.deliver i (.revision (n.map UInt64.toNat)) false
  | .clear => { h with holder := h.holder.clear }.deliver i .nothing false
  | .revision => h.deliver i (.number h.holder.revision.toNat) false
  | .current => h.deliver i (.model h.holder.current) false
  | .diagnostics => h.deliver i (.diagnostics h.reports.recorded) false
  | .clearDiagnostics =>
    { h with reports := { h.reports with recorded := [] } }.deliver i .nothing false
  | .blob => h.deliver i (.blob (((h.slot.read h.stores).toOption).getD none)) false
  | .setBlob b => (h.setBlob b).deliver i .nothing false
  | .files chore =>
    let (ns, tree) := h.stores.tree.perform chore
    (h.store fun s => { s with tree }).deliver i (.names ns) false
  | .writeCount => h.deliver i (.number h.stores.memory.writes) false
  | .refuseWrites on =>
    (h.store fun s => { s with memory := { s.memory with failWrites := on } }).deliver i .nothing false
  | .fail p e => { h with faults := atAccess h.faults p e }.deliver i .nothing false
  | .hook p steps => { h with hooks := atAccess h.hooks p (some steps) }.deliver i .nothing false

/-! ### Threads -/

/-- The order of saves that were made at the same time. -/
def saveOrder {M : Type} : Answer M → Nat
  | .saved (.ok (some r)) => r.header.generation.toNat
  | _ => 0

/-- Whether a reply only says that a save was asked for. -/
def isRequest {M : Type} : Answer M → Bool
  | .scheduled _ => true
  | _ => false

/-- A thread takes a step of a cache.  When it is about to access a slot in memory, the commands of the
hook come first. -/
def proceed (h : Host M) (i : Nat) (k : SessionId) (access : Option Access) (passed : Bool)
    (frames : Bool → Thread M) (label : Outside → Machine.Label Stores M) : Option (Host M) :=
  let access := if h.opening = .memory then access else none
  let hook := if passed then none else access.bind h.hooks
  match access, hook with
  | some p, some steps =>
    some { h with
      hooks := atAccess h.hooks p none
      threads := h.threads.set i (.script steps true :: frames true) }
  | _, _ =>
    let o : Outside := { now := h.now, unixTime := h.unixTime, fault := access.bind h.faults }
    (h.setThread i (frames false)).stepSession k (label o)

/-- The answer to a call, once the thread that made it has ended. -/
def answer? (h : Host M) (errand : Errand) : Option (Answer M) :=
  if (h.threads.getD errand.thread []).isEmpty then (h.caller errand.session errand.call).answer?
  else none

/-- The next step of a thread, unless it has ended or waits for something. -/
def advance (h : Host M) (i : Nat) : Option (Host M) :=
  match h.threads[i]? with
  | none => none
  | some [] => none
  | some (frame :: rest) =>
    let below := h.setThread i rest
    match frame with
    | .script [] isHook => if isHook then some below else none
    | .script (c :: cs) isHook => some ((h.setThread i (.script cs isHook :: rest)).perform i c)
    | .call k call passed =>
      match h.caller k call with
      | .outside (some a) => some (below.release i k (.reply (.answer a) (isRequest a)))
      | p => h.proceed i k p.access? passed (fun b => .call k call b :: rest) (.caller call)
    | .serve k passed =>
      h.proceed i k (h.writer k).access? passed (fun b => .serve k b :: rest) .writer
    | .gather errands sorted kept =>
      let answers := errands.filterMap h.answer?
      if answers.length < errands.length then none
      else
        let answers := if sorted then answers.mergeSort fun a b => saveOrder a ≤ saveOrder b else answers
        some (match kept with
          | some k => below.release i k (.reply (.answers answers) false)
          | none => below.deliver i (.answers answers) false)
    | .pause till => if till ≤ h.now then some (below.deliver i .spawned false) else none
    | .ending e => some (below.finish i e)

/-! ### Time -/

/-- The time that a thread waits for. -/
def deadline? (h : Host M) : Thread M → Option Nat
  | .pause till :: _ => some till
  | .call k call _ :: _ =>
    match h.caller k call with
    | .checking deadline => some deadline
    | _ => none
  | .serve k _ :: _ =>
    match h.sessions[k]?, h.writer k with
    | some s, .ready => s.machine.shared.signal.due? s.setup.timing
    | _, _ => none
  | _ => none

/-- The earliest time to come that a thread waits for. -/
def nextTime? (h : Host M) : Option Nat :=
  ((h.threads.filterMap h.deadline?).filter (h.now < ·)).min?

/-- The first thread that can go on does so; if there is none, time passes. -/
def tick (h : Host M) : Option (Host M) :=
  match (List.range h.threads.length).findSome? h.advance with
  | some h => some h
  | none => h.nextTime?.map fun now => { h with now }

/-- Whether the script has come to its end. -/
def isDone (h : Host M) : Bool :=
  match h.threads with
  | [.script [] false] :: _ => true
  | _ => false

/-- At most `fuel` ticks. -/
def ticks : Nat → Host M → Host M
  | 0, h => h
  | fuel + 1, h =>
    if h.isDone then h
    else
      match h.tick with
      | some h => h.ticks fuel
      | none => h

end Host

namespace Script

variable {M : Type}

/-- What a script starts with. -/
structure Start (M : Type) where
  opening : Opening := .memory
  config : Config := {}
  env : Environment
  codec : Codec M
  sink : Sink := .recording
  holder : Holder M := {}
  tree : FileTree

/-- More ticks than a command of weight one can take: its own steps, those of the saves that it leads
to, and the times that it waits for. -/
def ticksPerCommand : Nat := 200

/-- Opens a cache and carries out a script. -/
def run (s : Start M) (script : List (Command M)) :
    Except ConfigFault Bool × List (Result M) :=
  let host : Host M := {
    opening := s.opening
    env := s.env
    codec := s.codec
    sink := s.sink
    config := s.config
    stores := { tree := s.tree }
    holder := s.holder
    threads := [[.script script false]] }
  let (opened, host) := host.openCache
  let fuel := ticksPerCommand * (Command.weights script + 1)
  (opened, (host.ticks fuel).results.reverse)

end Script

end SnapStore.Cache
