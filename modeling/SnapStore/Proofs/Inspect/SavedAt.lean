import SnapStore.Proofs.Calendar.Written
import SnapStore.Proofs.Inspect.Agreement

namespace SnapStore.Inspect

/-!
# The reported time is the time of the save

A header counts the seconds since 1970; a report writes that time in the calendar too, if it can be written
there.

* `SavedAt` — the moment that a header means.
* `savedAtText?_eq_some_iff` — what is written is that moment, by the rules of RFC 3339.
* `isSome_savedAtText?_iff` — it is written up to the last second of the last year.
* `command_of_header` — whatever time a header holds, the tool reports on its file.
* `time_of_save_is_reported` — all of this together.
-/

/-- The moment that a header means: it is of the calendar, and as many seconds after the start of 1970 as
the header says. -/
structure SavedAt (h : Snapshot.Header) (m : Moment) : Prop where
  isValid : m.IsValid
  seconds : m.seconds = Moment.epoch.seconds + h.savedAt.toNat

variable {h h' : Snapshot.Header} {m : Moment}

theorem savedAt_iff : SavedAt h m ↔ m = Moment.ofUnix h.savedAt.toNat := by
  constructor
  · rintro ⟨hvalid, hseconds⟩
    exact (hvalid.seconds_eq_iff _).mp hseconds
  · rintro rfl
    exact ⟨Moment.isValid_ofUnix _, Moment.seconds_ofUnix _⟩

/-- Headers that mean the same moment hold the same time. -/
theorem SavedAt.savedAt_eq (hm : SavedAt h m) (hm' : SavedAt h' m) : h.savedAt = h'.savedAt :=
  UInt64.toNat_inj.mp (Nat.add_left_cancel (hm.seconds.symm.trans hm'.seconds))

/-- **What is written** is the moment that the header means, by the rules of RFC 3339. -/
theorem savedAtText?_eq_some_iff {text : String} : savedAtText? h = some text ↔
    ∃ m, SavedAt h m ∧ m.date.year ≤ Moment.lastYear ∧ IsRfc3339 m text.toList := by
  simp only [savedAtText?, Option.map_eq_some_iff, Moment.ofUnix?_eq_some_iff, ← savedAt_iff]
  constructor
  · rintro ⟨m, ⟨hm, hyear⟩, rfl⟩
    exact ⟨m, hm, hyear, Moment.isRfc3339 hm.isValid⟩
  · rintro ⟨m, hm, hyear, htext⟩
    refine ⟨m, ⟨hm, hyear⟩, String.toList_inj.mp ?_⟩
    exact (Moment.isRfc3339 hm.isValid).text_eq htext

/-- **Something is written** exactly if the moment is one that can be written, -/
theorem isSome_savedAtText?_iff_exists :
    (savedAtText? h).isSome ↔ ∃ m, SavedAt h m ∧ m.date.year ≤ Moment.lastYear := by
  rw [savedAtText?, Option.isSome_map, Option.isSome_iff_exists]
  simp only [Moment.ofUnix?_eq_some_iff, ← savedAt_iff]

/-- that is, up to the last second of the last year. -/
theorem isSome_savedAtText?_iff : (savedAtText? h).isSome ↔ h.savedAt.toNat ≤ 8210266876799 := by
  have hyear := Moment.year_ofUnix_le_lastYear_iff h.savedAt.toNat
  simp only [isSome_savedAtText?_iff_exists, savedAt_iff, exists_eq_left, hyear]
  omega

/-- Texts that are the same are those of the same time. -/
theorem savedAt_eq_of_savedAtText? {text : String} (h₁ : savedAtText? h = some text)
    (h₂ : savedAtText? h' = some text) : h.savedAt = h'.savedAt := by
  obtain ⟨m, hm, -, htext⟩ := savedAtText?_eq_some_iff.mp h₁
  obtain ⟨m', hm', -, htext'⟩ := savedAtText?_eq_some_iff.mp h₂
  rw [← htext.moment_eq htext'] at hm'
  exact hm.savedAt_eq hm'

/-! ### The report -/

open FileTree (disk)

/-- **No time makes the report fail:** if the header of a file can be read, the tool reports on the file, of
which it gives the path as a text. -/
theorem command_of_header {env : Environment} {args : List String} {r : Request} {t : FileTree} {path : Path}
    {name : String} {blob : Bytes} (hname : path.text? = some name)
    (hargs : Arguments.parse args = .ok (.report r)) (hinvalidate : r.invalidate = false)
    (hresolve : (resolve disk (env.loadNearest disk t).1 r t).1 = .ok path)
    (hread : t.readFile path = .ok blob) (hheader : Snapshot.readHeader blob = .ok h) :
    command disk env args t =
      ({ out := ((Report.present path blob.length h).document name).pretty 0 ++ "\n" }, t) := by
  rw [command_eq env hargs, (report_of_content hinvalidate hresolve hread).1 h hheader]
  simp only [Output.ofReport, Report.path, hname]

/-- **The reported time is the time of the save.** A report has a text for the time in a header exactly if
the moment that is so many seconds after the start of 1970 is in the years that can be written, up to
262142, and the text is then the one of that moment by RFC 3339.  So times that differ have texts that
differ.  Every time can stand in a file, and whichever one does, the tool reports on the file without a
failure, if the path of the file is a text. -/
theorem time_of_save_is_reported :
    (∀ (h : Snapshot.Header) (text : String), savedAtText? h = some text ↔
      ∃ m, SavedAt h m ∧ m.date.year ≤ Moment.lastYear ∧ IsRfc3339 m text.toList) ∧
    (∀ h : Snapshot.Header,
      ((savedAtText? h).isSome ↔ ∃ m, SavedAt h m ∧ m.date.year ≤ Moment.lastYear) ∧
        ((savedAtText? h).isSome ↔ h.savedAt.toNat ≤ 8210266876799)) ∧
    (∀ (h h' : Snapshot.Header) (text : String), savedAtText? h = some text → savedAtText? h' = some text →
      h.savedAt = h'.savedAt) ∧
    (∀ (level : Int) (h : Snapshot.Header) (body : Bytes),
      Snapshot.readHeader (Zstandard.compress level (h.encode ++ body)) = .ok h) ∧
    ∀ (h : Snapshot.Header) (env : Environment) (args : List String) (r : Request) (t : FileTree)
        (path : Path) (name : String) (blob : Bytes), path.text? = some name →
      Arguments.parse args = .ok (.report r) → r.invalidate = false →
      (resolve disk (env.loadNearest disk t).1 r t).1 = .ok path → t.readFile path = .ok blob →
      Snapshot.readHeader blob = .ok h →
        command disk env args t =
          ({ out := ((Report.present path blob.length h).document name).pretty 0 ++ "\n" }, t) := by
  refine ⟨fun _ _ => savedAtText?_eq_some_iff, fun _ =>
    ⟨isSome_savedAtText?_iff_exists, isSome_savedAtText?_iff⟩,
    fun _ _ _ h₁ h₂ => savedAt_eq_of_savedAtText? h₁ h₂, Snapshot.readHeader_compress, ?_⟩
  intro h env args r t path name blob hname hargs hinvalidate hresolve hread hheader
  exact command_of_header hname hargs hinvalidate hresolve hread hheader

/-- A header that holds the given time. -/
def headerOf (savedAt : UInt64) : Snapshot.Header := { modelVersion := 1, generation := 1, savedAt }

/-- A snapshot that was saved at the given time. -/
def blobOf (savedAt : UInt64) : Bytes := Zstandard.compress 3 ((headerOf savedAt).encode ++ [7])

/-- A file system with that snapshot. -/
def treeOf (savedAt : UInt64) : FileTree :=
  bareTree.put [Bytes.ofString "w", Bytes.ofString "f"] (.file (blobOf savedAt))

/-- The last second that can be written, the first one that cannot, and the last one that a header can hold,
which is reported all the same. -/
theorem time_of_save_is_reported_to_the_last :
    savedAtText? (headerOf 8210266876799) = some "+262142-12-31T23:59:59+00:00" ∧
    SavedAt (headerOf 8210266876799) ⟨⟨262142, 12, 31⟩, 23, 59, 59⟩ ∧
    IsRfc3339 ⟨⟨262142, 12, 31⟩, 23, 59, 59⟩ "+262142-12-31T23:59:59+00:00".toList ∧
    (savedAtText? (headerOf 8210266876800)).isSome = false ∧
    (headerOf 8210266876799).savedAt = { headerOf 8210266876799 with generation := 2 }.savedAt ∧
    command disk cacheEnvironment ["--path", "f"] (treeOf 18446744073709551615) =
      ({ out := ((Report.present (.ofString "f") (blobOf 18446744073709551615).length
          (headerOf 18446744073709551615)).document "f").pretty 0 ++ "\n" },
            treeOf 18446744073709551615) := by
  obtain ⟨htext, hsome, hdistinct, hblob, hcommand⟩ := time_of_save_is_reported
  have hlast : savedAtText? (headerOf 8210266876799) = some "+262142-12-31T23:59:59+00:00" := by decide
  obtain ⟨m, hm, -, hrfc⟩ := (htext _ _).mp hlast
  obtain rfl : m = ⟨⟨262142, 12, 31⟩, 23, 59, 59⟩ := (savedAt_iff.mp hm).trans (by decide)
  refine ⟨hlast, hm, hrfc, ?_, hdistinct _ _ _ hlast (by decide), ?_⟩
  · have := (hsome (headerOf 8210266876800)).2.mp
    rw [← Bool.not_eq_true]
    exact fun h => absurd (this h) (by decide)
  · exact hcommand _ cacheEnvironment ["--path", "f"] { path := some (.ofString "f") } (treeOf _)
      (.ofString "f") "f"
      (blobOf _) (Path.text?_ofString "f") rfl rfl rfl rfl (hblob 3 _ [7])

end SnapStore.Inspect
