import NotebookTidy.Config.Load

/-! What it means for a build to have TOML.

Files are treated alike by both builds unless their extension is `toml` (`fromFile_eq`), and texts
unless they are no JSON config (`fromText_of_json`). So a build with TOML takes every config that one
without takes, and apart from two cases they come to the same (`toml_only_adds`). -/
namespace NotebookTidy.Config
open Files

variable (toml : String → Option Config)

/-- A path to a file in TOML, which can be read: its text. -/
def TomlFile (t : Tree) (given text : String) : Prop :=
  t.pathExists (Path.ofString given) = true ∧ t.readText (Path.ofString given) = .ok text ∧
    (Path.ofString given).hasExtension "toml" = true

/-- A text that is no path, and no JSON config either. -/
def NoJson (t : Tree) (given : String) (e : Json.Error) : Prop :=
  t.pathExists (Path.ofString given) = false ∧ readJson given = .error e

theorem not_json_of_toml {path : Path} (h : path.hasExtension "toml" = true) :
    path.hasExtension "json" = false := by
  rw [Path.hasExtension, beq_iff_eq] at h
  rw [Path.hasExtension, h]
  decide

/-! ### Files -/

theorem fromFile_toml {t : Tree} {path : Path} {text : String} (hread : t.readText path = .ok text)
    (htoml : path.hasExtension "toml" = true) (support : Support) :
    fromFile toml support t path = fromToml toml support text := by
  simp only [fromFile, hread, not_json_of_toml htoml, htoml, Bool.false_eq_true, if_false, if_true]

/-- The extension of a file that is not in TOML, or the fault of one that cannot be read, decides
without regard to the build. -/
theorem fromFile_eq {t : Tree} {path : Path}
    (h : ¬ ∃ text, t.readText path = .ok text ∧ path.hasExtension "toml" = true)
    (support support' : Support) : fromFile toml support t path = fromFile toml support' t path := by
  unfold fromFile
  cases hread : t.readText path with
  | error e => rfl
  | ok text =>
    have htoml : path.hasExtension "toml" = false := by
      rw [← Bool.not_eq_true]
      exact fun htoml => h ⟨text, hread, htoml⟩
    simp only [htoml, Bool.false_eq_true, if_false]

/-! ### Texts -/

theorem fromJson_of_error {given : String} {e : Json.Error} (h : readJson given = .error e) :
    fromJson given = .error (.json e) := by
  rw [fromJson, h]
  rfl

theorem fromText_of_json {given : String} {c : Config} (h : readJson given = .ok c)
    (support : Support) : fromText toml support given = .ok c := by
  have hjson : fromJson given = .ok c := by
    rw [fromJson, h]
    rfl
  simp [fromText, hjson]

theorem fromText_jsonOnly {given : String} {e : Json.Error} (h : readJson given = .error e) :
    fromText toml .jsonOnly given = .error .unsupportedFormat := by
  simp [fromText, fromJson_of_error h]

theorem fromText_jsonAndToml {given : String} {e : Json.Error} (h : readJson given = .error e) :
    fromText toml .jsonAndToml given = (toml given).elim (.error (.json e)) .ok := by
  cases htoml : toml given <;> simp [fromText, fromJson_of_error h, htoml]

theorem fromToml_jsonAndToml (text : String) :
    fromToml toml .jsonAndToml text = (toml text).elim (.error .toml) .ok := by
  cases htoml : toml text <;> simp [fromToml, htoml]

/-! ### Both builds -/

variable {toml} {t : Tree} {given : String}

theorem loadWith_of_tomlFile {text : String} (h : TomlFile t given text) (support : Support) :
    loadWith toml support t given = fromToml toml support text := by
  obtain ⟨hexists, hread, hextension⟩ := h
  rw [loadWith, if_pos hexists, fromFile_toml toml hread hextension]

theorem loadWith_of_noJson {e : Json.Error} (h : NoJson t given e) (support : Support) :
    loadWith toml support t given = fromText toml support given := by
  simp [loadWith, h.1]

/-- Apart from a file in TOML and a text that is no JSON config, both builds come to the same. -/
theorem loadWith_eq (hfile : ¬ ∃ text, TomlFile t given text) (htext : ¬ ∃ e, NoJson t given e) :
    loadWith toml .jsonOnly t given = loadWith toml .jsonAndToml t given := by
  cases hexists : t.pathExists (Path.ofString given) with
  | true =>
    simp only [loadWith, hexists, if_true]
    refine fromFile_eq toml ?_ _ _
    rintro ⟨text, hread, hextension⟩
    exact hfile ⟨text, hexists, hread, hextension⟩
  | false =>
    simp only [loadWith, hexists, Bool.false_eq_true, if_false]
    cases hread : readJson given with
    | ok c => rw [fromText_of_json toml hread, fromText_of_json toml hread]
    | error e => exact absurd ⟨e, hexists, hread⟩ htext

/-- **TOML only adds.** A config that is taken by a build without TOML is taken, as the same, by one
with it. The builds differ at most in two cases. For a file in TOML the one without says that TOML is
not in it, and the other takes what is read of it. For a text that is no path and no JSON config the
one without says that the format is not supported, and the other takes what is read of it as TOML; if
that is nothing, the fault is that of the JSON. -/
theorem toml_only_adds (toml : String → Option Config) (t : Tree) (given : String) :
    (∀ c, loadWith toml .jsonOnly t given = .ok c → loadWith toml .jsonAndToml t given = .ok c) ∧
      (∀ text, TomlFile t given text →
        loadWith toml .jsonOnly t given = .error .tomlNotEnabled ∧
          loadWith toml .jsonAndToml t given = (toml text).elim (.error .toml) .ok) ∧
      (∀ e, NoJson t given e →
        loadWith toml .jsonOnly t given = .error .unsupportedFormat ∧
          loadWith toml .jsonAndToml t given = (toml given).elim (.error (.json e)) .ok) ∧
      ((¬ ∃ text, TomlFile t given text) → (¬ ∃ e, NoJson t given e) →
        loadWith toml .jsonOnly t given = loadWith toml .jsonAndToml t given) := by
  have hfile : ∀ text, TomlFile t given text →
      loadWith toml .jsonOnly t given = .error .tomlNotEnabled := by
    intro text htoml
    rw [loadWith_of_tomlFile htoml]
    rfl
  have htext : ∀ e, NoJson t given e →
      loadWith toml .jsonOnly t given = .error .unsupportedFormat := by
    intro e hjson
    rw [loadWith_of_noJson hjson, fromText_jsonOnly toml hjson.2]
  refine ⟨?_, ?_, ?_, loadWith_eq⟩
  · intro c hc
    rw [← loadWith_eq ?_ ?_]
    · exact hc
    · rintro ⟨text, htoml⟩
      rw [hfile text htoml] at hc
      cases hc
    · rintro ⟨e, hjson⟩
      rw [htext e hjson] at hc
      cases hc
  · intro text htoml
    refine ⟨hfile text htoml, ?_⟩
    rw [loadWith_of_tomlFile htoml, fromToml_jsonAndToml]
  · intro e hjson
    refine ⟨htext e hjson, ?_⟩
    rw [loadWith_of_noJson hjson, fromText_jsonAndToml toml hjson.2]

/-- A file in TOML, and one that is not UTF-8. -/
def someFiles : Tree :=
  ⟨[([Text.encode "c.toml"], .file (Text.encode "mask_magics = false")),
    ([Text.encode "d.toml"], .file [0xff])], []⟩

/-- The builds differ for the first file and for its text, and not for the second file. -/
theorem toml_only_adds_unmasked :
    load .jsonOnly someFiles "c.toml" = .error .tomlNotEnabled ∧
      load .jsonAndToml someFiles "c.toml" = .ok { Config.standard with maskMagics := false } ∧
      load .jsonOnly someFiles "mask_magics = false" = .error .unsupportedFormat ∧
      load .jsonAndToml someFiles "mask_magics = false" =
        .ok { Config.standard with maskMagics := false } ∧
      load .jsonOnly someFiles "d.toml" = load .jsonAndToml someFiles "d.toml" := by
  have htoml : readToml? "mask_magics = false" =
      some { Config.standard with maskMagics := false } := by decide +kernel
  have hfile : TomlFile someFiles "c.toml" "mask_magics = false" :=
    ⟨by decide +kernel, rfl, by decide +kernel⟩
  have htext : ∃ e, NoJson someFiles "mask_magics = false" e := ⟨_, by decide +kernel, rfl⟩
  obtain ⟨e, htext⟩ := htext
  have hcfile := (toml_only_adds readToml? someFiles "c.toml").2.1 _ hfile
  have hctext := (toml_only_adds readToml? someFiles "mask_magics = false").2.2.1 e htext
  have hbroken := (toml_only_adds readToml? someFiles "d.toml").2.2.2
  rw [htoml] at hcfile hctext
  refine ⟨hcfile.1, hcfile.2, hctext.1, hctext.2, hbroken ?_ ?_⟩
  · rintro ⟨text, -, hread, -⟩
    cases hread
  · rintro ⟨e, hnone, -⟩
    cases hnone

end NotebookTidy.Config
