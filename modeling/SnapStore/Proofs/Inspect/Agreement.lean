import SnapStore.Inspect.Command
import SnapStore.Proofs.Cache.Alone
import SnapStore.Proofs.Cache.LastSave
import SnapStore.Proofs.Config.Location
import SnapStore.Proofs.Config.Written

namespace SnapStore

/-!
# The tool and the cache agree

The tool finds the file of a cache, reads its header and removes it with code of its own, apart from the
cache.  Nevertheless it speaks of the same file, and of what the cache has saved there.

* `Cache.Setup.opened` — a cache that is opened from a configuration file and the environment;
  `Inspect.resolve_eq_opened` — the tool finds the file of that cache.
* `Inspect.report_of_content` — what the tool makes of a file, whatever its contents.
* `Inspect.command_unchanged` — the tool changes no file unless it is told to.
* `FileSlot.remove_ok` — what is left after a removal.
* `Inspect.agrees_with_cache` — all of this together.
-/

/-! ### The file of a cache -/

namespace Cache

variable {m : Type → Type} [Monad m] {M : Type}

/-- The setup of a configuration that has been loaded, with the environment taken into account. -/
def Setup.ofLoaded (env : Environment) (codec : Codec M) (sink : Sink) :
    Except CacheError Config → Except CacheError (Setup FileTree M)
  | .error e => .error e
  | .ok c =>
    match onFile (c.override env).1 env codec sink with
    | .ok setup => .ok setup
    | .error fault => .error (.config fault)

/-- The setup of a host that loads a configuration file, or takes the defaults if it has none. -/
def Setup.opened (d : Disk m) (env : Environment) (codec : Codec M) (sink : Sink) :
    Option Path → m (Except CacheError (Setup FileTree M))
  | some file => do
    let loaded ← Config.load d file
    pure (ofLoaded env codec sink loaded)
  | none => pure (ofLoaded env codec sink (.ok {}))

/-- A valid configuration sets up the slot in its file. -/
theorem Setup.slot_onFile {c : Config} (h : c.validate = .ok ()) (env : Environment) (codec : Codec M)
    (sink : Sink) : (onFile c env codec sink).map slot = (c.cachePath env).map FileSlot.slot := by
  unfold onFile onSlot
  cases c.cachePath env with
  | error fault => rfl
  | ok path =>
    simp only [h, bind, Except.bind]
    rfl

end Cache

namespace Inspect

open Cache (Setup)

variable {m : Type → Type} [Monad m] {M : Type}

/-- The file of a configuration that has been loaded, with the environment taken into account. -/
def located (env : Environment) : Except CacheError Config → Except CacheError Path
  | .error e => .error e
  | .ok c =>
    match (c.override env).1.cachePath env with
    | .ok path => .ok path
    | .error fault => .error (.config fault)

/-- Without a path, the tool looks for the file of the configuration. -/
theorem resolve_of_no_path (d : Disk m) (env : Environment) {r : Request} (h : r.path = none) :
    resolve d env r = configuration d r >>= fun loaded => pure (located env loaded) := by
  unfold resolve
  rw [h]
  refine bind_congr fun loaded => ?_
  cases loaded with
  | error e => rfl
  | ok c =>
    cases hpath : (c.override env).1.cachePath env <;> simp only [located, hpath]

/-- A cache is set up on the slot in the file of its configuration. -/
theorem map_slot_ofLoaded {loaded : Except CacheError Config}
    (h : ∀ c, loaded = .ok c → c.validate = .ok ()) (env : Environment) (codec : Codec M) (sink : Sink) :
    (Setup.ofLoaded env codec sink loaded).map Setup.slot = (located env loaded).map FileSlot.slot := by
  cases loaded with
  | error e => rfl
  | ok c =>
    have hslot := Setup.slot_onFile ((c.validate_override env).trans (h c rfl)) env codec sink
    simp only [Setup.ofLoaded, located]
    cases hsetup : Setup.onFile (c.override env).1 env codec sink <;>
      cases hpath : (c.override env).1.cachePath env <;>
      simp only [hsetup, hpath, Except.map, Except.ok.injEq, Except.error.injEq, reduceCtorEq] at hslot ⊢
    · rw [hslot]
    · exact hslot

/-- **One file.** Without a path, the tool finds the file that a cache is opened on which is set up from the
same configuration file and the same environment; where there is no such file, both fail alike. -/
theorem resolve_eq_opened [LawfulMonad m] (d : Disk m) (env : Environment) {r : Request} (h : r.path = none)
    (codec : Codec M) (sink : Sink) :
    Except.map FileSlot.slot <$> resolve d env r =
      Except.map Setup.slot <$> Setup.opened d env codec sink r.config := by
  rw [resolve_of_no_path d env h]
  unfold configuration
  cases r.config with
  | none =>
    simp only [pure_bind, map_pure, Setup.opened]
    rw [map_slot_ofLoaded (fun c hc => by cases hc; rfl)]
  | some file =>
    -- whatever is read, a configuration that comes of it is valid
    simp only [Setup.opened, Config.load, map_bind, map_pure, bind_assoc]
    refine bind_congr fun content => ?_
    cases content with
    | ok content =>
      simp only [pure_bind]
      rw [map_slot_ofLoaded (fun c hc => Config.validate_of_ofFile hc)]
    | error e =>
      simp only
      split
      · simp only [pure_bind]
        rw [map_slot_ofLoaded (fun c hc => by cases hc; rfl)]
      · simp only [pure_bind]
        rw [map_slot_ofLoaded (fun c hc => by cases hc)]

/-! ### Reports -/

open FileTree

variable {t t' : FileTree} {env : Environment} {r : Request} {path : Path}

/-- Looking for a file changes nothing. -/
theorem resolve_unchanged (env : Environment) (r : Request) (t : FileTree) :
    (resolve disk env r t).2 = t := by
  unfold resolve
  cases r.path with
  | some path => rfl
  | none =>
    simp only
    rw [bind_apply]
    have hload : (configuration disk r t).2 = t := by
      unfold configuration Config.load
      cases r.config with
      | none => rfl
      | some file =>
        simp only
        rw [bind_apply, readFile_disk]
        cases t.readFile file with
        | ok content => rfl
        | error e =>
          simp only
          split <;> rfl
    rw [hload]
    cases (configuration disk r t).1 with
    | error e => rfl
    | ok c =>
      simp only
      cases (c.override env).1.cachePath env <;> rfl

/-- What the tool does with a file that it has found. -/
theorem report_eq (h : (resolve disk env r t).1 = .ok path) : report disk env r t =
    if r.invalidate then invalidate disk path t
    else
      match t.readFile path with
      | .ok blob => (describe path blob, t)
      | .error e =>
        (if e.kind = .notFound then .ok (.absent path)
          else .error (.cache (.ioAt "read cache file" path e)), t) := by
  unfold report
  rw [bind_apply, h, resolve_unchanged]
  simp only
  split
  · rfl
  · rw [bind_apply, FileSlot.read_disk]
    cases t.readFile path with
    | ok blob => rfl
    | error e =>
      simp only
      split <;> rfl

/-- **Any contents.** The tool reports on a file exactly if its header can be read, and otherwise says what
is wrong with it. -/
theorem report_of_content (hinvalidate : r.invalidate = false) (h : (resolve disk env r t).1 = .ok path)
    {blob : Bytes} (hread : t.readFile path = .ok blob) :
    (∀ header, Snapshot.readHeader blob = .ok header →
        report disk env r t = (.ok (.present path blob.length header), t)) ∧
      ∀ e, Snapshot.readHeader blob = .error e → report disk env r t = (.error (.unreadable path e), t) := by
  rw [report_eq h, hinvalidate, hread]
  refine ⟨fun header hheader => ?_, fun e he => ?_⟩
  · simp only [describe, hheader, Bool.false_eq_true, if_false]
  · simp only [describe, he, Bool.false_eq_true, if_false]

/-- Without being told to remove the cache, a report changes nothing. -/
theorem report_unchanged (env : Environment) (h : r.invalidate = false) (t : FileTree) :
    (report disk env r t).2 = t := by
  cases hresolve : (resolve disk env r t).1 with
  | error e =>
    unfold report
    rw [bind_apply, hresolve, resolve_unchanged]
    rfl
  | ok path =>
    rw [report_eq hresolve, h]
    simp only [Bool.false_eq_true, if_false]
    split <;> rfl

end Inspect

/-! ### Environment files -/

namespace Environment

open FileTree

theorem nearest?_unchanged (depth : Nat) (dir : Path) (t : FileTree) :
    (nearest? disk depth dir t).2 = t := by
  induction depth generalizing dir with
  | zero => rfl
  | succ depth ih =>
    unfold nearest?
    rw [bind_apply, readFile_disk]
    cases t.readFile (dir.join fileName) with
    | ok content => rfl
    | error e =>
      simp only
      split
      · cases dir.parent? with
        | none => rfl
        | some above => exact ih above
      · rfl

/-- Reading an environment file changes nothing. -/
theorem loadNearest_unchanged (env : Environment) (t : FileTree) : (env.loadNearest disk t).2 = t := by
  unfold loadNearest
  rw [bind_apply, show disk.currentDir t = (.ok t.workingPath, t) from rfl]
  simp only
  rw [bind_apply, nearest?_unchanged]
  cases (nearest? disk (t.workingPath.bytes.length + 1) t.workingPath t).1 <;> rfl

end Environment

namespace Inspect

open FileTree

/-- The tool does what is asked of it in the environment that the environment file is part of. -/
theorem command_eq (env : Environment) {args : List String} {r : Request}
    (h : Arguments.parse args = .ok (.report r)) (t : FileTree) : command disk env args t =
      (.ofReport (report disk (env.loadNearest disk t).1 r t).1,
        (report disk (env.loadNearest disk t).1 r t).2) := by
  unfold command
  rw [bind_apply, Environment.loadNearest_unchanged, h]
  rfl

/-- **The tool changes nothing** unless it is told to remove the cache. -/
theorem command_unchanged (env : Environment) {args : List String}
    (h : ∀ r, Arguments.parse args = .ok (.report r) → r.invalidate = false) (t : FileTree) :
    (command disk env args t).2 = t := by
  cases hargs : Arguments.parse args with
  | error fault =>
    unfold command
    rw [bind_apply, Environment.loadNearest_unchanged, hargs]
    rfl
  | ok action =>
    cases action with
    | help | version =>
      unfold command
      rw [bind_apply, Environment.loadNearest_unchanged, hargs]
      rfl
    | report r =>
      rw [command_eq env hargs]
      exact report_unchanged _ (h r hargs) t

end Inspect

/-! ### After a removal -/

/-- A fresh cache on a slot that holds nothing loads nothing and has nothing to report. -/
theorem Cache.load_absent {σ M : Type} {c : Setup σ M} {slot : σ} (h : c.slot.read slot = .ok none)
    (holder : Holder M) (reports : Reports) (i : ThreadId) :
    ∃ n m, run (Machine.step c) (.start slot holder reports)
      (.call i .load :: List.replicate n (.caller i {})) =
      some m ∧ m.callers i = .done (.loaded none) ∧ m.shared.reports = reports := by
  have hload : run (Load.next c (.caller i)) (.peek, { slot, holder, reports }) (List.replicate 7 {}) =
      some (.done none, { slot, holder, reports }) := by
    simp only [List.replicate, run_cons, run_nil, Load.next, Load.step, h, Outside.outcome,
      Option.isNone_none, if_true, Bool.false_eq_true, if_false, Option.bind_some]
  have hrun := run_loading (Machine.start slot holder reports) i hload
  rw [List.map_replicate] at hrun
  have hbegin : Machine.step c (.call i .load) (.start slot holder reports) =
      some ((Machine.start slot holder reports).move i (.loading .peek) { slot, holder, reports }) := rfl
  refine ⟨8, (Machine.start slot holder reports).move i (.done (.loaded none)) { slot, holder, reports }, ?_,
    Machine.callers_move_self .., rfl⟩
  rw [run_cons, hbegin, Option.bind_some, List.replicate_succ', run_append, hrun, Option.bind_some,
    run_singleton]
  simp only [Machine.step, Machine.stepCaller, Machine.callers_move_self, Machine.move_move]
  rfl

namespace Inspect

open Cache (Setup Machine Chronicle Deed SaveReport Caller)
open FileTree (disk)

variable {t t' : FileTree} {env : Environment} {r : Request} {path : Path} {M : Type}

/-- **After a save.** When the last that has been done to the file of a cache is a save, the tool reports
what the save has reported. -/
theorem report_of_last_save {c : Setup FileTree M} (hslot : c.slot = FileSlot.slot path)
    {m : Machine FileTree M} {holder : Holder M} {reports : Reports}
    (hm : Reachable (Machine.step c) (.start t holder reports) m)
    {ls : List (Machine.Label FileTree M)} {w : Chronicle FileTree M}
    (hrun : run (Chronicle.step c) ⟨m, []⟩ ls = some w) (hls : ∀ l ∈ ls, ∀ slot, l ≠ .stranger slot)
    {d : Deed M} {report : SaveReport} (hd : w.deeds.getLast? = some d) (hreport : d.report? = some report)
    (hinvalidate : r.invalidate = false)
    (hresolve : (resolve disk env r w.machine.shared.slot).1 = .ok path) :
    Inspect.report disk env r w.machine.shared.slot =
      (.ok (.present path report.bytes report.header), w.machine.shared.slot) := by
  have hkeeps : c.slot.Keeps (FileSlot.contents path) := by
    rw [hslot]
    exact FileSlot.keeps path
  obtain ⟨blob, hblob, hheader, hbytes⟩ := Cache.content_of_last_save hkeeps hm hrun hls hd hreport
  rw [hbytes]
  exact (report_of_content hinvalidate hresolve (FileSlot.contents_eq_some_iff.mp hblob)).1 _ hheader

/-- **After a removal.** The file is gone and nothing else is, and a fresh cache finds nothing to load and
nothing to complain about. -/
theorem report_of_invalidate (hinvalidate : r.invalidate = true)
    (hresolve : (resolve disk env r t).1 = .ok path)
    {report : Report} (h : Inspect.report disk env r t = (.ok report, t')) :
    ∃ removed, report = .invalidated path removed ∧ t.LosesOnly t' path ∧
      (removed = true ↔ ∃ blob, t.readFile path = .ok blob) ∧
      ∀ (c : Setup FileTree M), c.slot = FileSlot.slot path → ∀ holder reports i, ∃ n m,
        run (Machine.step c) (.start t' holder reports) (.call i .load :: List.replicate n (.caller i {})) =
          some m ∧ m.callers i = .done (.loaded none) ∧ m.shared.reports = reports := by
  rw [report_eq hresolve, hinvalidate, if_pos rfl] at h
  unfold invalidate at h
  rw [FileTree.bind_apply] at h
  cases hremove : (FileSlot.remove disk path t).1 with
  | error e =>
    rw [hremove] at h
    cases h
  | ok removed =>
    rw [hremove] at h
    cases h
    obtain ⟨hloses, hremoved⟩ := FileSlot.remove_ok (Prod.ext hremove rfl)
    refine ⟨removed, rfl, hloses, hremoved, fun c hslot holder reports i => ?_⟩
    refine Cache.load_absent ?_ holder reports i
    rw [hslot]
    show (FileSlot.read disk path _).1 = _
    rw [FileSlot.read_disk, FileTree.readFile, hloses.absent]
    rfl

/-- A file that is there can be removed. -/
theorem exists_report_of_invalidate (hinvalidate : r.invalidate = true)
    (hresolve : (resolve disk env r t).1 = .ok path) (hwell : t.WellFormed) {blob : Bytes}
    (hread : t.readFile path = .ok blob) :
    ∃ t', Inspect.report disk env r t = (.ok (.invalidated path true), t') := by
  obtain ⟨u, hremove⟩ := FileTree.exists_removeFile hwell hread
  refine ⟨u, ?_⟩
  rw [report_eq hresolve, hinvalidate, if_pos rfl]
  unfold invalidate
  rw [FileTree.bind_apply, FileSlot.remove_disk, hremove]
  rfl

/-! ### The tool and the cache -/

/-- **The tool and the cache agree.** Without a path, the tool finds the file that a cache is opened on
which is set up from the same configuration file and the same environment.  If the last that has been done
to that file is a successful save, the tool reports the size and the header that the save has reported;
whatever else the file holds, it reports on it exactly if the header can be read, of whatever format and
whatever comes after it, and otherwise fails with what is wrong.  No command changes any file unless it is
told to remove the cache, which it does if there is one.  Then the file is gone and nothing else is, the
answer tells whether there was one, and a fresh cache finds nothing to load and nothing to complain
about. -/
theorem agrees_with_cache {M : Type} :
    (∀ {m : Type → Type} [Monad m] [LawfulMonad m] (d : Disk m) (env : Environment) (r : Request)
        (codec : Codec M) (sink : Sink), r.path = none →
      Except.map FileSlot.slot <$> resolve d env r =
        Except.map Setup.slot <$> Setup.opened d env codec sink r.config) ∧
    (∀ (c : Setup FileTree M) (path : Path) (t : FileTree) (holder : Holder M) (reports : Reports)
        (m : Machine FileTree M) (ls : List (Machine.Label FileTree M)) (w : Chronicle FileTree M)
        (d : Deed M) (saved : SaveReport) (env : Environment) (r : Request),
      c.slot = FileSlot.slot path → Reachable (Machine.step c) (.start t holder reports) m →
      run (Chronicle.step c) ⟨m, []⟩ ls = some w → (∀ l ∈ ls, ∀ slot, l ≠ .stranger slot) →
      w.deeds.getLast? = some d → d.report? = some saved →
      r.invalidate = false → (resolve disk env r w.machine.shared.slot).1 = .ok path →
        report disk env r w.machine.shared.slot =
          (.ok (.present path saved.bytes saved.header), w.machine.shared.slot)) ∧
    (∀ (env : Environment) (r : Request) (t : FileTree) (path : Path) (blob : Bytes),
      r.invalidate = false → (resolve disk env r t).1 = .ok path → t.readFile path = .ok blob →
        (∀ h, Snapshot.readHeader blob = .ok h →
          report disk env r t = (.ok (.present path blob.length h), t)) ∧
        ∀ e, Snapshot.readHeader blob = .error e →
          report disk env r t = (.error (.unreadable path e), t)) ∧
    (∀ (level : Int) (h : Snapshot.Header) (body : Bytes),
      Snapshot.readHeader (Zstandard.compress level (h.encode ++ body)) = .ok h) ∧
    (∀ (env : Environment) (args : List String) (t : FileTree),
      (∀ r, Arguments.parse args = .ok (.report r) → r.invalidate = false) →
        (command disk env args t).2 = t) ∧
    (∀ (env : Environment) (r : Request) (t : FileTree) (path : Path) (blob : Bytes),
      r.invalidate = true → (resolve disk env r t).1 = .ok path → t.WellFormed → t.readFile path = .ok blob →
        ∃ t', report disk env r t = (.ok (.invalidated path true), t')) ∧
    ∀ (env : Environment) (r : Request) (t t' : FileTree) (path : Path) (answer : Report),
      r.invalidate = true → (resolve disk env r t).1 = .ok path → report disk env r t = (.ok answer, t') →
        ∃ removed, answer = .invalidated path removed ∧ t.LosesOnly t' path ∧
          (removed = true ↔ ∃ blob, t.readFile path = .ok blob) ∧
          ∀ (c : Setup FileTree M), c.slot = FileSlot.slot path → ∀ holder reports i, ∃ n m,
            run (Machine.step c) (.start t' holder reports)
                (.call i .load :: List.replicate n (.caller i {})) = some m ∧
              m.callers i = .done (.loaded none) ∧ m.shared.reports = reports := by
  refine ⟨fun d env r codec sink h => resolve_eq_opened d env h codec sink, ?_, ?_, ?_, ?_, ?_, ?_⟩
  · intro c path t holder reports m ls w d saved env r hslot hm hrun hls hd hsaved hinvalidate hresolve
    exact report_of_last_save hslot hm hrun hls hd hsaved hinvalidate hresolve
  · intro env r t path blob hinvalidate hresolve hread
    exact report_of_content hinvalidate hresolve hread
  · exact Snapshot.readHeader_compress
  · exact fun env _ t h => command_unchanged env h t
  · intro env r t path blob hinvalidate hresolve hwell hread
    exact exists_report_of_invalidate hinvalidate hresolve hwell hread
  · intro env r t t' path answer hinvalidate hresolve h
    exact report_of_invalidate hinvalidate hresolve h

/-- The file of a cache in a directory that the environment names. -/
def cacheFile : Path := .ofString "d/global-model-cache.bin.zst"

/-- An environment that names it. -/
def cacheEnvironment : Environment where
  vars := [(Config.dirVariable, Bytes.ofString "d")]
  cacheHome := Variables.cacheHome? none

/-- A file system with nothing in it but the working directory. -/
def bareTree : FileTree := .empty [Bytes.ofString "w"]

/-- A cache of texts in that file. -/
def fileSetup : Setup FileTree Value where
  slot := FileSlot.slot cacheFile
  codec := (Layout.mk .string []).codec
  modelVersion := 1
  level := 3
  timing := ⟨1000, 10000⟩
  flushOnShutdown := true
  sink := .recording

/-- A save from the beginning to the end. -/
def savingRun : List (Machine.Label FileTree Value) := .call 0 .save :: List.replicate 11 (.caller 0 {})

/-- A cache is opened and saves a text; then the tool reports on it and removes it. -/
theorem agrees_with_cache_text :
    ∃ (w : Chronicle FileTree Value) (saved : SaveReport) (t' : FileTree),
      (Setup.opened disk cacheEnvironment fileSetup.codec .recording none bareTree).1 = .ok fileSetup ∧
      fileSetup.slot = FileSlot.slot cacheFile ∧
      run (Chronicle.step fileSetup) ⟨.start bareTree { current := some (.string "a") } {}, []⟩
        savingRun = some w ∧
      report disk cacheEnvironment {} w.machine.shared.slot =
        (.ok (.present cacheFile saved.bytes saved.header), w.machine.shared.slot) ∧
      report disk cacheEnvironment { invalidate := true } w.machine.shared.slot =
        (.ok (.invalidated cacheFile true), t') ∧
      w.machine.shared.slot.LosesOnly t' cacheFile := by
  obtain ⟨hlocation, hsave, -, -, -, -, hremove⟩ := agrees_with_cache (M := Value)
  have hopened : (Setup.opened disk cacheEnvironment fileSetup.codec .recording none bareTree).1 =
    .ok fileSetup := rfl
  have hresolve (invalidate : Bool) (t : FileTree) :
      (resolve disk cacheEnvironment { invalidate } t).1 = .ok cacheFile := rfl
  -- the cache is opened on the file that the tool finds
  have hslot : fileSetup.slot = FileSlot.slot cacheFile := by
    have hboth := congrFun (hlocation disk cacheEnvironment {} fileSetup.codec .recording rfl) bareTree
    have h' : Except.map FileSlot.slot (resolve disk cacheEnvironment {} bareTree).1 =
        Except.map Setup.slot
          (Setup.opened disk cacheEnvironment fileSetup.codec .recording none bareTree).1 :=
      congrArg Prod.fst hboth
    rw [hresolve, hopened] at h'
    exact (Except.ok.inj h').symm
  obtain ⟨w, d, saved, t', hrun, hd, hsaved, hanswer⟩ : ∃ w d saved t',
      run (Chronicle.step fileSetup) ⟨.start bareTree { current := some (.string "a") } {}, []⟩
        savingRun = some w ∧ w.deeds.getLast? = some d ∧ d.report? = some saved ∧
          report disk cacheEnvironment { invalidate := true } w.machine.shared.slot =
            (.ok (.invalidated cacheFile true), t') := ⟨_, _, _, _, rfl, rfl, rfl, rfl⟩
  have hls : ∀ l ∈ savingRun, ∀ slot, l ≠ .stranger slot := by
    intro l hl slot
    rcases List.mem_cons.mp hl with rfl | hl
    · simp
    · rw [List.eq_of_mem_replicate hl]
      simp
  have hpresent := hsave fileSetup cacheFile _ _ _ _ _ w d saved cacheEnvironment {} hslot
    (.refl _) hrun hls hd
    hsaved rfl (hresolve false _)
  obtain ⟨_, -, hloses, -⟩ := hremove _ _ _ _ _ _ rfl (hresolve true _) hanswer
  exact ⟨w, saved, t', hopened, hslot, hrun, hpresent, hanswer, hloses⟩

end Inspect

end SnapStore
