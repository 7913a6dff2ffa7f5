import Mathlib.Data.List.Basic
import NotebookTidy.Cli.Arguments

/-! Arguments for all options.

Switches take effect one after the other (`readFrom_noOverwrite`, `readFrom_config`,
`readFrom_verbose`), and whatever follows a double hyphen is a path (`readFrom_end`). So there are
arguments for any options with a path in them, as long as no path is empty
(`readArguments_arguments`). -/
namespace NotebookTidy.Cli

/-- Arguments that give these options: switches first, then a double hyphen and the paths. -/
def Options.arguments (o : Options) : List String :=
  (if o.overwrite then [] else ["--no-overwrite"]) ++
    (o.config.toList.map ("--config=" ++ ·) ++
      (List.replicate o.verbosity "-v" ++ "--" :: o.paths))

/-- What is read of switches, before any path is taken. -/
def Reading.switches (overwrite : Bool) (config : Option String) (verbosity : Nat)
    (pending : Pending) : Reading :=
  ⟨⟨[], overwrite, config, verbosity⟩, pending, !overwrite⟩

open Reading

variable {overwrite : Bool} {config : Option String} {verbosity : Nat} {args : List String}

/-! ### Switches -/

theorem readFrom_noOverwrite :
    readFrom .start ((if overwrite then [] else ["--no-overwrite"]) ++ args) =
      readFrom (switches overwrite none 0 .nothing) args := by
  cases overwrite <;> rfl

theorem readFrom_config :
    readFrom (switches overwrite none 0 .nothing)
        (config.toList.map ("--config=" ++ ·) ++ args) =
      readFrom (switches overwrite config 0 .nothing) args := by
  obtain _ | value := config
  · rfl
  show readFrom _ (("--config=" ++ value) :: args) = _
  have hlist : ("--config=" ++ value).toList = '-' :: '-' :: ("config=".toList ++ value.toList) :=
    String.toList_append
  have hsplit : splitLong ("config=".toList ++ value.toList) = ("config", some value) := by
    simp [splitLong]
  -- the body of the argument is not empty, or the argument would be the double hyphen
  have hcons : "config=".toList ++ value.toList = 'c' :: ("onfig=".toList ++ value.toList) := rfl
  rw [hcons] at hlist hsplit
  rw [readFrom, hlist]
  simp only [hsplit]
  rfl

theorem readFrom_verbose (n : Nat) :
    readFrom (switches overwrite config verbosity .nothing) (List.replicate n "-v" ++ args) =
      readFrom (switches overwrite config (verbosity + n) .nothing) args := by
  induction n generalizing verbosity with
  | zero => rfl
  | succ n ih =>
    rw [List.replicate_succ, List.cons_append]
    show readFrom (switches overwrite config (verbosity + 1) .nothing) _ = _
    rw [ih, Nat.add_right_comm]
    rfl

/-! ### Paths -/

theorem foldlM_addPath (before paths : List String) :
    paths.foldlM addPath (switches overwrite config verbosity (.paths before)) =
      .ok (switches overwrite config verbosity (.paths (before ++ paths))) := by
  induction paths generalizing before with
  | nil =>
    rw [List.append_nil]
    rfl
  | cons path paths ih =>
    rw [List.foldlM_cons]
    show paths.foldlM addPath (switches overwrite config verbosity (.paths (before ++ [path]))) = _
    rw [ih, List.append_assoc, List.singleton_append]

theorem settle_paths {paths : List String} (hempty : "" ∉ paths) :
    (switches overwrite config verbosity (.paths paths)).settle =
      .ok ⟨⟨paths, overwrite, config, verbosity⟩, .nothing, !overwrite⟩ := by
  simp [settle, switches, hempty]

theorem readFrom_end {paths : List String} (hpaths : paths ≠ []) (hempty : "" ∉ paths) :
    readFrom (switches overwrite config verbosity .nothing) ("--" :: paths) =
      .ok ⟨⟨paths, overwrite, config, verbosity⟩, .nothing, !overwrite⟩ := by
  obtain _ | ⟨path, paths⟩ := paths
  · exact absurd rfl hpaths
  show (path :: paths).foldlM addPath (switches overwrite config verbosity .nothing) >>= settle = _
  rw [List.foldlM_cons]
  show paths.foldlM addPath (switches overwrite config verbosity (.paths [path])) >>= settle = _
  rw [foldlM_addPath]
  show (switches overwrite config verbosity (.paths (path :: paths))).settle = _
  exact settle_paths hempty

theorem readArguments_arguments {o : Options} (hpaths : o.paths ≠ []) (hempty : "" ∉ o.paths) :
    readArguments o.arguments = .ok o := by
  have hread : readFrom .start o.arguments = .ok ⟨o, .nothing, !o.overwrite⟩ := by
    rw [Options.arguments, readFrom_noOverwrite, readFrom_config, readFrom_verbose, Nat.zero_add,
      readFrom_end hpaths hempty]
  unfold readArguments
  rw [hread]
  show (if o.paths.isEmpty = true then _ else _) = _
  rw [if_neg (by simpa using hpaths)]

end NotebookTidy.Cli
