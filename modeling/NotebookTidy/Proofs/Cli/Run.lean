import NotebookTidy.Cli.Run
import NotebookTidy.Proofs.Cli.Arguments
import NotebookTidy.Proofs.Outcome

/-! What a run of the program comes to.

A script and a notebook are told by the extension of their paths, and are cleaned as such; nothing
happens to any other path (`Handled`). Paths are handled in the order they are given in, each on
the files that the ones before it left, whatever came of these (`InOrder`). So the exit code is
zero just if every one is cleaned (`run_cleans_in_order`). -/
namespace NotebookTidy.Cli
open Files

variable {path : Path}

/-- What comes of the job for a path, if it is that of a script or a notebook, and the files that are
left. -/
inductive Handled (c : Cleaner) (overwrite : Bool) (path : Path) (t : Tree) :
    Option Result → Tree → Prop where
  | script (h : path.extension? = some (Text.encode "py")) :
      Handled c overwrite path t (some ((Job.run c ⟨path, .script, overwrite⟩).run t).outcome)
        ((Job.run c ⟨path, .script, overwrite⟩).run t).tree
  | notebook (h : path.extension? = some (Text.encode "ipynb")) :
      Handled c overwrite path t (some ((Job.run c ⟨path, .notebook, overwrite⟩).run t).outcome)
        ((Job.run c ⟨path, .notebook, overwrite⟩).run t).tree
  | unsupported (hscript : path.extension? ≠ some (Text.encode "py"))
      (hnotebook : path.extension? ≠ some (Text.encode "ipynb")) : Handled c overwrite path t none t

/-- Paths are handled one after the other. -/
inductive InOrder (c : Cleaner) (overwrite : Bool) :
    List Path → Tree → List (Option Result) → Tree → Prop where
  | nil {t : Tree} : InOrder c overwrite [] t [] t
  | cons {path : Path} {paths : List Path} {t t' t'' : Tree} {result : Option Result}
      {results : List (Option Result)} (first : Handled c overwrite path t result t')
      (others : InOrder c overwrite paths t' results t'') :
      InOrder c overwrite (path :: paths) t (result :: results) t''

def WentWell (result : Option Result) : Prop := result = some (.ok .cleaned)

/-- Zero if everything went well, and one otherwise. -/
inductive CodeOf (results : List (Option Result)) : Nat → Prop where
  | success (h : ∀ r ∈ results, WentWell r) : CodeOf results 0
  | failure {r : Option Result} (hr : r ∈ results) (h : ¬ WentWell r) : CodeOf results 1

/-! ### One path -/

theorem complaint?_eq_none_iff {result : Result} :
    complaint? path result = none ↔ WentWell (some result) := by
  obtain _ | _ | _ := result <;> simp [complaint?, WentWell]

theorem isSupported_iff :
    isSupported path = true ↔
      path.extension? = some (Text.encode "ipynb") ∨ path.extension? = some (Text.encode "py") := by
  rw [isSupported, Bool.or_eq_true, Path.hasExtension, Path.hasExtension, beq_iff_eq, beq_iff_eq]

/-- The kind of a supported path is told by its extension. -/
theorem handled_jobFor (c : Cleaner) (overwrite : Bool) (t : Tree) (h : isSupported path = true) :
    Handled c overwrite path t (some (((Batch.jobFor overwrite path).run c).run t).outcome)
      (((Batch.jobFor overwrite path).run c).run t).tree := by
  have hdistinct : Text.encode "ipynb" ≠ Text.encode "py" := by decide
  rcases isSupported_iff.mp h with h | h
  · have hjob : Batch.jobFor overwrite path = ⟨path, .notebook, overwrite⟩ := by
      simp [Batch.jobFor, Path.hasExtension, h, hdistinct]
    rw [hjob]
    exact .notebook h
  · have hjob : Batch.jobFor overwrite path = ⟨path, .script, overwrite⟩ := by
      simp [Batch.jobFor, Path.hasExtension, h]
    rw [hjob]
    exact .script h

theorem handled_processPath (c : Cleaner) (overwrite : Bool) (path : Path) (t : Tree) :
    ∃ result well,
      Handled c overwrite path t result ((processPath c overwrite path).run t).tree ∧
        ((processPath c overwrite path).run t).outcome = .ok well ∧
        (well = true ↔ WentWell result) := by
  unfold processPath
  by_cases hsupported : isSupported path = true
  · have hhandled := handled_jobFor c overwrite t hsupported
    rw [if_pos hsupported, Attempt.run_bind_of_ok (Attempt.outcome_caught _ t)]
    cases hcomplaint : complaint? path (((Batch.jobFor overwrite path).run c).run t).outcome with
    | none =>
      refine ⟨_, true, hhandled, rfl, ?_⟩
      exact iff_of_true rfl (complaint?_eq_none_iff.mp hcomplaint)
    | some complaint =>
      refine ⟨_, false, hhandled, rfl, ?_⟩
      refine iff_of_false Bool.false_ne_true fun hwell => ?_
      rw [complaint?_eq_none_iff.mpr hwell] at hcomplaint
      cases hcomplaint
  · rw [if_neg hsupported]
    rw [isSupported_iff, not_or] at hsupported
    exact ⟨none, false, .unsupported hsupported.2 hsupported.1, rfl, by simp [WentWell]⟩

/-! ### All paths -/

/-- What goes wrong with one path is counted, and the others are handled all the same. -/
theorem inOrder_processAll (c : Cleaner) (overwrite : Bool) (paths : List Path) (t : Tree) :
    ∃ results failures,
      InOrder c overwrite paths t results ((processAll c overwrite paths).run t).tree ∧
        ((processAll c overwrite paths).run t).outcome = .ok failures ∧
        (failures = 0 ↔ ∀ r ∈ results, WentWell r) := by
  induction paths generalizing t with
  | nil => exact ⟨[], 0, .nil, rfl, by simp⟩
  | cons path paths ih =>
    obtain ⟨result, well, hfirst, hwell, hresult⟩ := handled_processPath c overwrite path t
    obtain ⟨results, failures, hothers, hfailures, hresults⟩ :=
      ih ((processPath c overwrite path).run t).tree
    rw [processAll, Attempt.run_bind_of_ok hwell, Attempt.run_bind_of_ok hfailures]
    refine ⟨result :: results, _, .cons hfirst hothers, rfl, ?_⟩
    rw [List.forall_mem_cons, ← hresult, ← hresults]
    cases well <;> simp

theorem codeOf_exitCode {results : List (Option Result)} {failures : Nat}
    (h : failures = 0 ↔ ∀ r ∈ results, WentWell r) : CodeOf results (exitCode (.ok failures)) := by
  obtain _ | failures := failures
  · exact .success (h.mp rfl)
  · have hsome : ∃ r ∈ results, ¬ WentWell r := by
      by_contra hnone
      simp only [not_exists, not_and, not_not] at hnone
      cases h.mpr hnone
    obtain ⟨r, hr, hnot⟩ := hsome
    exact .failure hr hnot

/-! ### A run -/

/-- **A run cleans its paths in order.** Whatever paths there are, each is handled on the files that
the ones before it left, and the exit code is zero if every one went well and one otherwise. This is
what a run does with its paths if its config can be loaded; if not, its exit code is one and the files
are as they were. Any options are what some arguments give, if there is a path and none is empty. -/
theorem run_cleans_in_order (runner : Runner) (support : Config.Support) (filter : Option String)
    (t : Tree) :
    (∀ c overwrite paths, ∃ results,
        InOrder c overwrite paths t results ((processAll c overwrite paths).run t).tree ∧
          CodeOf results (exitCode ((processAll c overwrite paths).run t).outcome)) ∧
      (∀ args o, readArguments args = .ok o →
        (∀ f, loadConfig support t o.config = .error f →
          (run runner support filter args t).code = 1 ∧
            (run runner support filter args t).tree = t) ∧
        (∀ c, loadConfig support t o.config = .ok c → ∃ results,
          InOrder (c.cleaner runner) o.overwrite (o.paths.map Path.ofString) t results
              (run runner support filter args t).tree ∧
            CodeOf results (run runner support filter args t).code)) ∧
      ∀ o : Options, o.paths ≠ [] → "" ∉ o.paths → readArguments o.arguments = .ok o := by
  have hall : ∀ c overwrite paths, ∃ results,
      InOrder c overwrite paths t results ((processAll c overwrite paths).run t).tree ∧
        CodeOf results (exitCode ((processAll c overwrite paths).run t).outcome) := by
    intro c overwrite paths
    obtain ⟨results, failures, hpaths, hfailures, hresults⟩ :=
      inOrder_processAll c overwrite paths t
    refine ⟨results, hpaths, ?_⟩
    rw [hfailures]
    exact codeOf_exitCode hresults
  refine ⟨hall, ?_, fun o => readArguments_arguments⟩
  intro args o hargs
  constructor
  · intro f hf
    simp [run, hargs, hf, refused]
  · intro c hc
    obtain ⟨results, hpaths, hcode⟩ := hall (c.cleaner runner) o.overwrite
      (o.paths.map Path.ofString)
    refine ⟨results, ?_⟩
    simp only [run, hargs, hc]
    exact ⟨hpaths, hcode⟩

/-- A script, and what is no notebook. -/
def twoFiles : Tree :=
  ⟨[([Text.encode "a.py"], .file (Text.encode "x")),
    ([Text.encode "b.ipynb"], .file (Text.encode "["))], []⟩

def failingArgs : List String :=
  ["t.txt", "--config", "\x7b\"python\":[]\x7d", "b.ipynb", "a.py"]

/-- A run in which every program ends at once. -/
def silentRun : Output :=
  run (fun _ _ t => (.finished 0 [] [] none, t)) .jsonOnly none failingArgs twoFiles

/-- The last path is cleaned although the first is not supported and the second cannot be read. -/
theorem run_cleans_in_order_failing :
    (∃ results, InOrder ((Config.mk [] Config.standardJulia Config.standardJuliaProbe true).cleaner
          fun _ _ t => (.finished 0 [] [] none, t)) true
        (["t.txt", "b.ipynb", "a.py"].map Path.ofString) twoFiles results silentRun.tree ∧
      CodeOf results silentRun.code) ∧
      silentRun.code = 1 ∧
      silentRun.tree.read (Path.ofString "a.py") = .ok (Text.encode "x\n") := by
  obtain ⟨_, hruns, _⟩ := run_cleans_in_order (fun _ _ t => (.finished 0 [] [] none, t)) .jsonOnly
    none twoFiles
  have hargs : readArguments failingArgs =
      .ok ⟨["t.txt", "b.ipynb", "a.py"], true, some "\x7b\"python\":[]\x7d", 0⟩ := rfl
  refine ⟨(hruns failingArgs _ hargs).2 _ rfl, ?_, ?_⟩
  · decide +kernel
  · rfl

end NotebookTidy.Cli
