import SnapStore.Config.File
import SnapStore.Disk.Tree
import SnapStore.Proofs.Json.Written

namespace SnapStore.Config

/-!
# Configuration files load as written

A configuration file says which settings have which values.  How it is laid out, in which order it names the
settings and how it escapes its texts makes no difference.

* `Field.Value`, `Field.Member` and `Object` are the ways to write the value of a setting, a setting with
  its name and an object of settings; `json` is the shortest one.
* `overlay` is a configuration with some of the settings of another one.
* `Field.read_value`, `Field.Member.readMember`, `readMembers_object` and `ofJson_object` — what is written
  so is read.
* `ofReading` is what loading comes to; `files_load_as_written` — all of this together, for any file.
-/

open Json

/-! ### Written configurations -/

/-- The ways to write the value of a setting. -/
def Field.Value (f : Field) (c : Config) (text : List Char) : Prop :=
  match f with
  | .enabled => text = truth c.enabled
  | .cacheDir =>
    match c.cacheDir with
    | none => text = ['n', 'u', 'l', 'l']
    | some dir => ∃ name, dir = .ofString name ∧ Quoted name text
  | .fileName => Quoted c.fileName text
  | .modelVersion => text = numeral c.modelVersion.toNat
  | .saveDelayMs => text = numeral c.saveDelayMs.toNat
  | .maxSaveDelayMs => text = numeral c.maxSaveDelayMs.toNat
  | .flushOnShutdown => text = truth c.flushOnShutdown
  | .compressionLevel => text = numeral c.compressionLevel.toInt

/-- The ways to write a setting with its name, with blanks around them. -/
inductive Field.Member (f : Field) (c : Config) : List Char → Prop
  | mk {before name between ahead value after : List Char} (hbefore : Blank before)
    (hname : Quoted f.name name)
    (hbetween : Blank between) (hahead : Blank ahead) (hvalue : f.Value c value) (hafter : Blank after) :
    Member f c (before ++ (name ++ (between ++ ':' :: (ahead ++ (value ++ after)))))

/-- The ways to write an object of some of the settings, one after another. -/
inductive Object (c : Config) (fields : List Field) : List Char → Prop
  | mk {before inside after : List Char} {members : List (List Char)} (hbefore : Blank before)
    (hinside : Blank inside) (hmembers : List.Forall₂ (fun f => f.Member c) fields members)
    (hafter : Blank after) :
    Object c fields (before ++ '\x7b' :: (inside ++ ([','].intercalate members ++ '\x7d' :: after)))

/-- The configuration `base` with the values of `c` for the given settings. -/
def overlay (fields : List Field) (c base : Config) : Config where
  enabled := if .enabled ∈ fields then c.enabled else base.enabled
  cacheDir := if .cacheDir ∈ fields then c.cacheDir else base.cacheDir
  fileName := if .fileName ∈ fields then c.fileName else base.fileName
  modelVersion := if .modelVersion ∈ fields then c.modelVersion else base.modelVersion
  saveDelayMs := if .saveDelayMs ∈ fields then c.saveDelayMs else base.saveDelayMs
  maxSaveDelayMs := if .maxSaveDelayMs ∈ fields then c.maxSaveDelayMs else base.maxSaveDelayMs
  flushOnShutdown := if .flushOnShutdown ∈ fields then c.flushOnShutdown else base.flushOnShutdown
  compressionLevel := if .compressionLevel ∈ fields then c.compressionLevel else base.compressionLevel

theorem overlay_nil (c base : Config) : overlay [] c base = base := rfl

theorem overlay_all (c base : Config) : overlay Field.all c base = c := rfl

theorem overlay_cons (f : Field) (fields : List Field) (c base : Config) :
    overlay (f :: fields) c base = overlay fields c (overlay [f] c base) := by
  have hpick {α : Type} (g : Field) (a b : α) :
      (if g ∈ f :: fields then a else b) = if g ∈ fields then a else if g ∈ [f] then a else b := by
    by_cases h : g ∈ fields <;> simp [h]
  simp only [overlay, Config.mk.injEq]
  refine ⟨?_, ?_, ?_, ?_, ?_, ?_, ?_, ?_⟩ <;> exact hpick _ _ _

/-! ### Members -/

variable {f : Field} {fields seen : List Field} {c base : Config} {blank text rest : List Char}

theorem Field.ofName?_name (f : Field) : Field.ofName? f.name = some f := by
  cases f <;> rfl

theorem word_numeral (hblank : Blank blank) (n : UInt64) (hrest : Apart rest) :
    Field.word (blank ++ (numeral n.toNat ++ rest)) = .ok (n, rest) := by
  have hn := n.toNat_lt
  unfold Field.word
  rw [integer_numeral hblank _ (by omega) (by omega) hrest]
  simp [bind, Except.bind, pure, Except.pure]

/-- **The value of a setting is read**, however it is written. -/
theorem Field.read_value (hblank : Blank blank) (h : f.Value c text) (hrest : Apart rest) :
    f.read base (blank ++ (text ++ rest)) = .ok (overlay [f] c base, rest) := by
  cases f with
  | enabled =>
    cases h
    simp only [Field.read, bool_truth hblank]
    rfl
  | cacheDir =>
    rcases hdir : c.cacheDir with _ | dir <;> simp only [Field.Value, hdir] at h
    · subst h
      simp only [Field.read, List.cons_append, List.nil_append, nullable_null hblank]
      simp [overlay, hdir, bind, Except.bind, pure, Except.pure]
    · obtain ⟨name, rfl, hname⟩ := h
      simp only [Field.read, nullable_quoted hblank hname]
      simp [overlay, hdir, bind, Except.bind, pure, Except.pure]
  | fileName =>
    simp only [Field.read, text_quoted hblank h]
    rfl
  | modelVersion =>
    cases h
    have hn := c.modelVersion.toNat_lt
    simp only [Field.read]
    rw [integer_numeral hblank _ (by omega) (by omega) hrest]
    simp [overlay, bind, Except.bind, pure, Except.pure]
  | saveDelayMs =>
    cases h
    simp only [Field.read, word_numeral hblank _ hrest]
    rfl
  | maxSaveDelayMs =>
    cases h
    simp only [Field.read, word_numeral hblank _ hrest]
    rfl
  | flushOnShutdown =>
    cases h
    simp only [Field.read, bool_truth hblank]
    rfl
  | compressionLevel =>
    cases h
    have hlow := c.compressionLevel.le_toInt
    have hhigh := c.compressionLevel.toInt_lt
    simp only [Field.read]
    rw [integer_numeral hblank _ (by omega) (by omega) hrest]
    simp [overlay, bind, Except.bind, pure, Except.pure]

/-- What stands behind a member: blanks, and a comma or a closing brace. -/
theorem apart_blank_cons (hblank : Blank blank) {x : Char} (hx : x = ',' ∨ x = '\x7d') (rest : List Char) :
    Apart (blank ++ x :: rest) := by
  have hall {y : Char} (hy : y ∈ [' ', '\t', '\n', '\r', ',', '\x7d']) :
      Json.Scan.digit? y = none ∧ y ≠ '.' ∧ y ≠ 'e' ∧ y ≠ 'E' := by
    simp only [List.mem_cons, List.not_mem_nil, or_false] at hy
    obtain rfl | rfl | rfl | rfl | rfl | rfl := hy <;> decide
  intro y hy
  cases blank with
  | nil =>
    cases hy
    exact hall (by rcases hx with rfl | rfl <;> decide)
  | cons b blank =>
    cases hy
    exact hall (List.mem_append_left [',', '\x7d'] (hblank _ List.mem_cons_self))

theorem apart_rest (hblank : Blank blank) {members : List (List Char)} :
    Apart (blank ++ (members.flatMap (',' :: ·) ++ '\x7d' :: rest)) := by
  cases members with
  | nil => exact apart_blank_cons hblank (.inr rfl) rest
  | cons member members => exact apart_blank_cons hblank (.inl rfl) _

/-- Further blanks may stand in front of a member. -/
theorem Field.Member.blank_append (h : f.Member c text) (hblank : Blank blank) :
    f.Member c (blank ++ text) := by
  obtain ⟨hbefore, hname, hbetween, hahead, hvalue, hafter⟩ := h
  rw [← List.append_assoc]
  exact .mk (hblank.append hbefore) hname hbetween hahead hvalue hafter

/-- **A member is read** from behind the quote that opens its name, if the setting has not been given yet. -/
theorem Field.Member.readMember (h : f.Member c text) :
    ∃ before behind after, Blank before ∧ Blank after ∧ text = before ++ '"' :: (behind ++ after) ∧
      ∀ seen base rest, f ∉ seen → Apart (after ++ rest) →
        readMember seen base (behind ++ (after ++ rest)) =
          .ok ((f :: seen, overlay [f] c base), after ++ rest) := by
  obtain ⟨hbefore, ⟨letters, hletters, rfl⟩, hbetween, hahead, hvalue, hafter⟩ := h
  rename_i before between ahead value after
  refine ⟨before, letters.flatten ++ '"' :: (between ++ ':' :: (ahead ++ value)), after, hbefore, hafter,
    by simp, fun seen base rest hseen hrest => ?_⟩
  simp only [List.append_assoc, List.cons_append]
  unfold Config.readMember
  rw [string_letters hletters]
  simp only [bind, Except.bind, Field.ofName?_name, if_neg hseen]
  rw [skipSpace_blank_cons hbetween rfl]
  simp only [Field.read_value hahead hvalue hrest]
  rfl

theorem readMembers_end (fuel : Nat) (first : Bool) (hblank : Blank blank) :
    readMembers (fuel + 1) first seen base (blank ++ '\x7d' :: rest) = .ok (base, rest) := by
  rw [readMembers, skipSpace_blank_cons hblank rfl]
  rfl

/-- The first member is read like one behind a comma. -/
theorem readMembers_first (fuel : Nat) (hblank : Blank blank) (text : List Char) :
    readMembers (fuel + 1) true seen base (blank ++ '"' :: text) =
      readMembers (fuel + 1) false seen base (',' :: (blank ++ '"' :: text)) := by
  have hquote : isSpace '"' = false := rfl
  have hcomma : skipSpace (',' :: (blank ++ '"' :: text)) = ',' :: (blank ++ '"' :: text) := rfl
  rw [readMembers, readMembers, skipSpace_blank_cons hblank hquote, hcomma]
  simp [skipSpace_blank_cons hblank hquote]

theorem readMembers_next {fuel : Nat} {before name : List Char} (hblank : Blank blank)
    (hbefore : Blank before) {r : List Field × Config} (h : readMember seen base name = .ok (r, rest)) :
    readMembers (fuel + 1) false seen base (blank ++ ',' :: (before ++ '"' :: name)) =
      readMembers fuel false r.1 r.2 rest := by
  rw [readMembers, skipSpace_blank_cons hblank rfl]
  simp [h, skipSpace_blank_cons hbefore (show isSpace '"' = false from rfl)]

/-- **All further members are read**, each behind a comma. -/
theorem readMembers_members {members : List (List Char)}
    (h : List.Forall₂ (fun f => Field.Member f c) fields members) (hnodup : fields.Nodup)
    (hseen : ∀ f ∈ fields, f ∉ seen) {fuel : Nat} (hfuel : members.length < fuel) (hblank : Blank blank) :
    readMembers fuel false seen base (blank ++ (members.flatMap (',' :: ·) ++ '\x7d' :: rest)) =
      .ok (overlay fields c base, rest) := by
  induction h generalizing fuel seen base blank with
  | nil =>
    obtain ⟨fuel, rfl⟩ := Nat.exists_eq_add_of_lt hfuel
    rw [overlay_nil]
    exact readMembers_end _ false hblank
  | @cons f member fields members hmember hmembers ih =>
    obtain ⟨fuel, rfl⟩ := Nat.exists_eq_add_of_lt (Nat.zero_lt_of_lt hfuel)
    rw [Nat.zero_add] at hfuel ⊢
    obtain ⟨before, behind, after, hbefore, hafter, rfl, hread⟩ := hmember.readMember
    have hseen' : ∀ g ∈ fields, g ∉ f :: seen := by
      intro g hg hmem
      rcases List.mem_cons.mp hmem with rfl | hmem
      · exact (List.nodup_cons.mp hnodup).1 hg
      · exact hseen g (List.mem_cons_of_mem _ hg) hmem
    have hrest : readMembers fuel false (f :: seen) (overlay [f] c base)
        (after ++ (members.flatMap (',' :: ·) ++ '\x7d' :: rest)) =
          .ok (overlay (f :: fields) c base, rest) := by
      rw [overlay_cons f fields]
      exact ih (List.nodup_cons.mp hnodup).2 hseen' (by simpa using hfuel) hafter
    have hfirst := hread seen base (members.flatMap (',' :: ·) ++ '\x7d' :: rest)
      (hseen f List.mem_cons_self) (apart_rest hafter)
    rw [← hrest, ← readMembers_next hblank hbefore hfirst]
    simp

/-! ### Objects -/

theorem intercalate_cons (member : List Char) (members : List (List Char)) :
    [','].intercalate (member :: members) = member ++ members.flatMap (',' :: ·) := by
  induction members generalizing member with
  | nil => simp
  | cons next members ih =>
    rw [List.intercalate_cons_cons, ih]
    simp

/-- **All members are read**, if no setting is given twice. -/
theorem readMembers_object {members : List (List Char)}
    (h : List.Forall₂ (fun f => Field.Member f c) fields members) (hnodup : fields.Nodup) {fuel : Nat}
    (hfuel : members.length < fuel) (hinside : Blank blank) :
    readMembers fuel true [] base (blank ++ ([','].intercalate members ++ '\x7d' :: rest)) =
      .ok (overlay fields c base, rest) := by
  obtain ⟨fuel, rfl⟩ := Nat.exists_eq_add_of_lt (Nat.zero_lt_of_lt hfuel)
  rw [Nat.zero_add] at hfuel ⊢
  cases h with
  | nil =>
    rw [overlay_nil]
    exact readMembers_end fuel true hinside
  | @cons f member fields members hmember hmembers =>
    -- the blanks behind the brace count as blanks in front of the first member
    have hmember := hmember.blank_append hinside
    obtain ⟨before, behind, after, hbefore, -, htext, -⟩ := hmember.readMember
    have htext : blank ++ ([','].intercalate (member :: members) ++ '\x7d' :: rest) =
        before ++ '"' :: (behind ++ (after ++ (members.flatMap (',' :: ·) ++ '\x7d' :: rest))) := by
      have := congrArg (· ++ (members.flatMap (',' :: ·) ++ '\x7d' :: rest)) htext
      simpa [intercalate_cons] using this
    have hall : readMembers (fuel + 1) false [] base
        ([] ++ (((blank ++ member) :: members).flatMap (',' :: ·) ++ '\x7d' :: rest)) =
          .ok (overlay (f :: fields) c base, rest) :=
      readMembers_members (.cons hmember hmembers) hnodup (fun _ _ => List.not_mem_nil) hfuel blank_nil
    rw [htext, readMembers_first fuel hbefore, ← htext, ← hall, intercalate_cons]
    simp

/-- There are no more members than characters, commas being between them. -/
theorem length_le_length_intercalate (members : List (List Char)) :
    members.length ≤ ([','].intercalate members).length + 1 := by
  cases members with
  | nil => exact Nat.zero_le _
  | cons member members =>
    have hrest : members.length ≤ (members.flatMap (',' :: ·)).length := by
      induction members with
      | nil => exact Nat.le_refl _
      | cons next members ih =>
        simp only [List.flatMap_cons, List.length_append, List.length_cons]
        omega
    rw [intercalate_cons, List.length_append, List.length_cons]
    omega

/-- **An object is read**, if it gives no setting twice. -/
theorem ofJson_object {s : String} (h : Object c fields s.toList) (hnodup : fields.Nodup) :
    ofJson s = .ok (overlay fields c {}) := by
  generalize htext : s.toList = text at h
  obtain ⟨hbefore, hinside, hmembers, hafter⟩ := h
  rename_i before inside after members
  have hread : readJson s.toList = .ok (overlay fields c {}, after) := by
    rw [htext, readJson, token_blank hbefore rfl]
    refine readMembers_object hmembers hnodup ?_ hinside
    -- there is a turn for every character, and every member but the first one has a comma
    have := length_le_length_intercalate members
    simp only [List.length_append, List.length_cons]
    omega
  have hend : skipSpace after = [] := by
    have := skipSpace_blank hafter []
    rwa [List.append_nil] at this
  simp only [ofJson, hread, bind, Except.bind, hend]
  rfl

/-! ### Files -/

theorem validate_eq_ok_iff : c.validate = .ok () ↔ validateName c.fileName = .ok () ∧
    ¬ (c.compressionLevel.toInt < levelRange.1 ∨ levelRange.2 < c.compressionLevel.toInt) := by
  unfold validate
  cases validateName c.fileName with
  | error e => simp [bind, Except.bind]
  | ok u =>
    show (if _ then _ else _) = _ ↔ _
    split <;> simp_all [throw, throwThe, MonadExceptOf.throw, pure, Except.pure]

/-- Settings of a valid configuration, with defaults for the other ones, are valid. -/
theorem validate_overlay (h : c.validate = .ok ()) (fields : List Field) :
    (overlay fields c {}).validate = .ok () := by
  have hdefault : validate {} = .ok () := rfl
  rw [validate_eq_ok_iff] at h hdefault ⊢
  have hname : (overlay fields c {}).fileName = c.fileName ∨
      (overlay fields c {}).fileName = ({} : Config).fileName :=
    ite_eq_or_eq _ _ _
  have hlevel : (overlay fields c {}).compressionLevel = c.compressionLevel ∨
      (overlay fields c {}).compressionLevel = ({} : Config).compressionLevel := ite_eq_or_eq _ _ _
  refine ⟨?_, ?_⟩
  · rcases hname with hname | hname <;> rw [hname]
    · exact h.1
    · exact hdefault.1
  · rcases hlevel with hlevel | hlevel <;> rw [hlevel]
    · exact h.2
    · exact hdefault.2

theorem ofFile_object {s : String} (p : Path) (hvalid : c.validate = .ok ()) (hnodup : fields.Nodup)
    (h : Object c fields s.toList) : ofFile p (Bytes.ofString s) = .ok (overlay fields c {}) := by
  simp only [ofFile, Bytes.toString?_ofString, ofJson_object h hnodup, validate_overlay hvalid]
  rfl

/-- What has been loaded is valid. -/
theorem validate_of_ofFile {p : Path} {content : Bytes} {c : Config} (h : ofFile p content = .ok c) :
    c.validate = .ok () := by
  unfold ofFile at h
  split at h
  · cases h
  · split at h
    · cases h
    · split at h
      · cases h
      · rename_i hvalid
        cases h
        exact hvalid

theorem ofFile_error {p : Path} {content : Bytes} {e : CacheError} (h : ofFile p content = .error e) :
    (content.toString? = none ∧ e = .ioAt "read cache config" p .invalidText) ∨
      ((∃ s, content.toString? = some s) ∧ ∃ fault, e = .config fault) := by
  unfold ofFile at h
  split at h
  · next hs =>
    cases h
    exact .inl ⟨hs, rfl⟩
  · next s hs =>
    refine .inr ⟨⟨s, hs⟩, ?_⟩
    split at h
    · cases h
      exact ⟨_, rfl⟩
    · split at h
      · cases h
        exact ⟨_, rfl⟩
      · cases h

/-! ### The shortest form -/

/-- The value of a setting in its shortest form. -/
def Field.json (f : Field) (c : Config) : List Char :=
  match f with
  | .enabled => truth c.enabled
  | .cacheDir =>
    match c.cacheDir with
    | none => ['n', 'u', 'l', 'l']
    | some dir => (escape dir.display).toList
  | .fileName => (escape c.fileName).toList
  | .modelVersion => numeral c.modelVersion.toNat
  | .saveDelayMs => numeral c.saveDelayMs.toNat
  | .maxSaveDelayMs => numeral c.maxSaveDelayMs.toNat
  | .flushOnShutdown => truth c.flushOnShutdown
  | .compressionLevel => numeral c.compressionLevel.toInt

/-- All settings in their usual order, without blanks. -/
def json (c : Config) : String :=
  String.ofList ('\x7b' :: ([','].intercalate
    (Field.all.map fun f => (escape f.name).toList ++ ':' :: f.json c) ++ ['\x7d']))

/-- A configuration can be written: its directory, if it has one, is a text. -/
def IsWritable (c : Config) : Prop := ∀ dir, c.cacheDir = some dir → ∃ name, dir = .ofString name

theorem IsWritable.value_json {c : Config} (h : c.IsWritable) (f : Field) : f.Value c (f.json c) := by
  cases f with
  | cacheDir =>
    cases hdir : c.cacheDir with
    | none => simp only [Field.Value, Field.json, hdir]
    | some dir =>
      obtain ⟨name, rfl⟩ := h dir hdir
      simp only [Field.Value, Field.json, hdir, Path.display_ofString]
      exact ⟨name, rfl, quoted_escape name⟩
  | fileName => exact quoted_escape c.fileName
  | enabled | modelVersion | saveDelayMs | maxSaveDelayMs | flushOnShutdown | compressionLevel => rfl

/-- The shortest form is one of the ways to write a configuration. -/
theorem IsWritable.object_json {c : Config} (h : c.IsWritable) : Object c Field.all c.json.toList := by
  have hmembers : List.Forall₂ (fun f => Field.Member f c) Field.all
      (Field.all.map fun f => (escape f.name).toList ++ ':' :: f.json c) := by
    rw [List.forall₂_map_right_iff, List.forall₂_same]
    intro f _
    have hmember := Field.Member.mk (f := f) (c := c) blank_nil (quoted_escape f.name) blank_nil blank_nil
      (h.value_json f) blank_nil
    simpa using hmember
  rw [json, String.toList_ofList]
  exact .mk blank_nil blank_nil hmembers blank_nil

/-! ### Loading -/

/-- What loading a file comes to, by what reading it comes to. -/
def ofReading (p : Path) : Except IoError Bytes → Except CacheError Config
  | .ok content => ofFile p content
  | .error e => if e.kind = .notFound then .ok {} else .error (.ioAt "read cache config" p e)

theorem load_eq {m : Type → Type} [Monad m] (d : Disk m) (p : Path) :
    load d p = (do pure (ofReading p (← d.readFile p))) := by
  unfold load
  refine congrArg _ (funext fun reading => ?_)
  cases reading with
  | ok content => rfl
  | error e =>
    simp only [ofReading]
    split <;> rfl

/-- **Configuration files load as written.**  Loading depends on nothing but what reading the file comes to.
If the file holds an object with some of the settings of a valid configuration, in any order, with any
blanks between tokens and any escapes in texts, the result is that configuration with respect to the
settings that are given, and the default with respect to the other ones; with all settings it is the
configuration itself, if its directory is a text and so can be written.  Whatever the file holds, the result
is a valid configuration or an error, which is a file error if the file cannot be read or is no text, and a
fault of the configuration otherwise.  A file that is not there is like an object of no settings. -/
theorem files_load_as_written {m : Type → Type} [Monad m] (d : Disk m) (p : Path) :
    load d p = (do pure (ofReading p (← d.readFile p))) ∧
    (∀ (c : Config) (fields : List Field) (s : String), c.validate = .ok () → fields.Nodup →
      Object c fields s.toList → ofReading p (.ok (Bytes.ofString s)) = .ok (overlay fields c {})) ∧
    (∀ c : Config, c.validate = .ok () → c.IsWritable → ofReading p (.ok (Bytes.ofString c.json)) = .ok c) ∧
    (∀ (reading : Except IoError Bytes) (c : Config), ofReading p reading = .ok c → c.validate = .ok ()) ∧
    (∀ content : Bytes, content.toString? = none →
      ofReading p (.ok content) = .error (.ioAt "read cache config" p .invalidText)) ∧
    (∀ (content : Bytes) (s : String), content.toString? = some s →
      (∃ c, ofReading p (.ok content) = .ok c) ∨
        ∃ fault, ofReading p (.ok content) = .error (.config fault)) ∧
    (∀ cause : IoError, cause.kind ≠ .notFound →
      ofReading p (.error cause) = .error (.ioAt "read cache config" p cause)) ∧
    (∀ cause : IoError, cause.kind = .notFound → ofReading p (.error cause) = .ok {}) := by
  refine ⟨load_eq d p, ?written, ?all, ?valid, ?noText, ?text, ?unreadable, ?missing⟩
  case written => exact fun c fields s hvalid hnodup h => ofFile_object p hvalid hnodup h
  case all =>
    intro c hvalid hwritable
    have hall := ofFile_object p hvalid (by decide) hwritable.object_json
    rwa [overlay_all] at hall
  case valid =>
    intro reading c h
    cases reading with
    | ok content => exact validate_of_ofFile h
    | error e =>
      simp only [ofReading] at h
      split at h
      · cases h
        rfl
      · cases h
  case noText =>
    intro content hcontent
    simp only [ofReading, ofFile, hcontent]
    rfl
  case text =>
    intro content s hs
    cases h : ofReading p (.ok content) with
    | ok c => exact .inl ⟨c, rfl⟩
    | error e =>
      obtain ⟨hnone, -⟩ | ⟨-, fault, rfl⟩ := ofFile_error h
      · simp [hs] at hnone
      · exact .inr ⟨fault, rfl⟩
  case unreadable => exact fun cause hcause => if_neg hcause
  case missing => exact fun cause hcause => if_pos hcause

/-- A file with two settings, blanks and escapes, among them a character of two numbers; then a file with all
settings, one that is no text, an empty one, a directory, and no file at all. -/
theorem files_load_as_written_escaped :
    let p : Path := .ofString "/c.json"
    let text := "\x7b \"save_delay_ms\":25,\n\"file_name\" : \"\\u0061\\uD83d\\uDE00b\" \x7d"
    let tree : FileTree := { entries := [([Bytes.ofString "c.json"], .file (Bytes.ofString text))] }
    load FileTree.disk p tree = (.ok { saveDelayMs := 25, fileName := "a😀b" }, tree) ∧
    ofReading p (.ok (Bytes.ofString (json { compressionLevel := -5 }))) = .ok { compressionLevel := -5 } ∧
    ofReading p (.ok [0xff]) = .error (.ioAt "read cache config" p .invalidText) ∧
    (∃ fault, ofReading p (.ok (Bytes.ofString "")) = .error (.config fault)) ∧
    ofReading p (.error (.os .isDirectory)) = .error (.ioAt "read cache config" p (.os .isDirectory)) ∧
    ofReading p (.error (.os .notFound)) = .ok {} := by
  intro p text tree
  obtain ⟨hload, hwritten, hall, hvalid, hnoText, htext, hunreadable, hmissing⟩ :=
    files_load_as_written FileTree.disk p
  have hread : FileTree.disk.readFile p tree = (.ok (Bytes.ofString text), tree) := by subst p; rfl
  have hletters : List.Forall₂ Letter "a😀b".toList
      [['\\', 'u', '0', '0', '6', '1'], ['\\', 'u', 'D', '8', '3', 'd', '\\', 'u', 'D', 'E', '0', '0'],
        ['b']] := by
    refine .cons (.number (by decide +kernel))
      (.cons ?_ (.cons (.plain (by decide) (by decide) (by decide)) .nil))
    exact .pair (a := ['D', '8', '3', 'd']) (by decide) (by decide +kernel) (by decide +kernel)
  have hobject : Object { saveDelayMs := 25, fileName := "a😀b" } [.saveDelayMs, .fileName] text.toList := by
    have hblank : Blank [' '] := by decide
    have hline : Blank ['\n'] := by decide
    have hdelay : Field.Value .saveDelayMs { saveDelayMs := 25, fileName := "a😀b" } ['2', '5'] := by
      show _ = numeral 25
      decide
    have hfile : Field.Value .fileName { saveDelayMs := 25, fileName := "a😀b" } _ := ⟨_, hletters, rfl⟩
    have h := Object.mk blank_nil hblank (.cons
      (.mk blank_nil (quoted_escape _) blank_nil blank_nil hdelay blank_nil)
      (.cons (.mk hline (quoted_escape _) hblank hblank hfile hblank) .nil)) blank_nil
    exact (congrArg (Object _ _) (by subst text; decide +kernel : _ = text.toList)).mp h
  refine ⟨?_, hall _ (by rfl) (fun dir hdir => by cases hdir), hnoText _ (by decide), ?_,
    hunreadable _ (by decide), hmissing _ rfl⟩
  · rw [hload]
    show (ofReading p (FileTree.disk.readFile p tree).1, tree) = _
    rw [hread, hwritten _ _ _ (by rfl) (by decide) hobject]
    rfl
  · obtain ⟨c, hc⟩ | hfault := htext _ "" (Bytes.toString?_ofString "")
    · cases hc
    · exact hfault

end SnapStore.Config
