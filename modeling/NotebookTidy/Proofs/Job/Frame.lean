import NotebookTidy.Proofs.Files.Sibling
import NotebookTidy.Proofs.Job.Effect

/-! What a job leaves alone.

Among directories and files, and with a cleaner that keeps files, a job that overwrites its file
changes nothing when it fails, and nothing else when it succeeds. A job that does not changes at
most the cleaned copy beside the file, which is another file: nothing when the file cannot be
copied, and when it fails later the copy is left as it was made (`job_keeps_other_files`). -/
namespace NotebookTidy
open Files

namespace Files.Tree

/-- Nothing but what there is at one location has changed. -/
structure SameBut (l : Location) (t t' : Tree) : Prop where
  workDir : t'.workDir = t.workDir
  lookup : ∀ l', l' ≠ l → t'.lookup l' = t.lookup l'

theorem sameBut_put (t : Tree) {l : Location} (hl : l ≠ []) (e : Entry) :
    SameBut l t (t.put l e) :=
  ⟨workDir_put t l e, fun l' hne => by rw [lookup_put t hl, if_neg hne]⟩

end Files.Tree

namespace Job
open Files.Tree

/-- What is kept by a job that overwrites its file. -/
structure KeepsInPlace (job : Job) (t : Tree) (after : Tree) (result : Result) : Prop where
  failed : ∀ e, result = .error e → after = t
  succeeded : ∀ status, result = .ok status →
    ∃ l, t.resolve job.path = .ok l ∧ SameBut l t after

/-- What is kept by a job that leaves its file and cleans a copy. -/
structure KeepsBeside (job : Job) (t : Tree) (after : Tree) (result : Result) : Prop where
  uncopied : ∀ e, t.copy job.path job.path.cleaned = .error e →
    after = t ∧ result = .error (.io e)
  copied : ∀ t', t.copy job.path job.path.cleaned = .ok t' →
    ∃ source target content, t.resolve job.path = .ok source ∧
      t.lookup source = some (.file content) ∧ after.resolve job.path.cleaned = .ok target ∧
      target ≠ source ∧ SameBut target t after ∧ after.read job.path = .ok content ∧
      ∀ e, result = .error e → after.read job.path.cleaned = .ok content

variable {c : Cleaner}

/-- A job that got as far as its text changes nothing, or writes over the file that it read. -/
theorem effect_cases {job : Job} {t t' : Tree} (ht' : t'.Plain) (hstart : job.started t = .ok t') :
    (∃ e, job.effect c t = (t', .error e)) ∨
      ∃ m content status, t'.resolve job.target = .ok m ∧ t'.creatable job.target = .ok m ∧
        t'.Fillable m ∧ job.effect c t = (t'.put m (.file content), .ok status) := by
  rw [effect, hstart]
  dsimp only
  cases hread : t'.readText job.target with
  | error e => exact .inl ⟨_, rfl⟩
  | ok text =>
    dsimp only
    cases ((cleanText c job.kind text).run t').outcome with
    | error e => exact .inl ⟨_, rfl⟩
    | ok done =>
      obtain ⟨status, cleaned⟩ := done
      dsimp only
      cases hwrite : t'.write job.target (Text.encode cleaned) with
      | error e => exact .inl ⟨_, rfl⟩
      | ok written =>
        obtain ⟨content, hcontent, _⟩ := read_of_readText hread
        obtain ⟨l, hl⟩ := resolve_of_read hcontent
        obtain ⟨m, hm, hfill, rfl⟩ := ht'.put_of_write hwrite
        obtain rfl := eq_of_resolve_of_creatable hl hm
        exact .inr ⟨m, _, status, hl, hm, hfill, rfl⟩

theorem keepsInPlace_effect {job : Job} (hplace : job.overwrite = true) {t : Tree}
    (ht : t.Plain) : KeepsInPlace job t (job.effect c t).1 (job.effect c t).2 := by
  have htarget := target_of_overwrite hplace
  rcases effect_cases ht (started_of_overwrite hplace t) with ⟨e, heffect⟩ | ⟨m, content, status, hr, _, hfill, heffect⟩
  · rw [heffect]
    exact ⟨fun _ _ => rfl, fun _ h => by cases h⟩
  · rw [heffect]
    rw [htarget] at hr
    exact ⟨(fun _ h => by cases h), fun _ _ => ⟨m, hr, sameBut_put t hfill.ne_nil _⟩⟩

theorem keepsBeside_effect {job : Job} (hbeside : job.overwrite = false) {t : Tree}
    (ht : t.Plain) : KeepsBeside job t (job.effect c t).1 (job.effect c t).2 := by
  have htarget := target_of_beside hbeside
  have hstarted := started_of_beside hbeside t
  rw [htarget] at hstarted
  constructor
  · intro e he
    rw [effect, hstarted, he]
    exact ⟨rfl, rfl⟩
  · intro t' hcopy
    obtain ⟨source, content, hsource, hfile, hwrite⟩ := write_of_copy hcopy
    obtain ⟨m, hm, hfill, rfl⟩ := ht.put_of_write hwrite
    have hne : m ≠ source := cleaned_elsewhere ht.no_link hsource hfile hm
    obtain ⟨hr, hc⟩ := put_at hm hfill content
    have hcopied := sameBut_put t hfill.ne_nil (.file content)
    have hunder : (t.put m (.file content)).lookup m = some (.file content) := by
      rw [lookup_put t hfill.ne_nil, if_pos rfl]
    have horiginal := resolve_put hfill content hsource
    rcases effect_cases (ht.put hfill.ne_nil content) (hstarted.trans hcopy) with
      ⟨e, heffect⟩ | ⟨m', written, status, _, hc', _, heffect⟩
    · rw [heffect]
      refine ⟨source, m, content, hsource, hfile, hr, hne, hcopied, ?_, fun _ _ => ?_⟩
      · exact read_of_file horiginal (by rw [hcopied.lookup source hne.symm, hfile])
      · exact read_of_file hr hunder
    · rw [htarget, hc] at hc'
      cases hc'
      have hwritten := sameBut_put t hfill.ne_nil (.file written)
      rw [heffect, put_put]
      refine ⟨source, m, content, hsource, hfile, (put_at hm hfill written).1, hne, hwritten, ?_,
        fun _ h => by cases h⟩
      exact read_of_file (resolve_put hfill written hsource)
        (by rw [hwritten.lookup source hne.symm, hfile])

/-- **A job changes at most the file that it cleans**, and nothing that it was to keep. -/
theorem job_keeps_other_files (hc : c.KeepsFiles) (job : Job) {t : Tree} (ht : t.Plain) :
    (job.overwrite = true →
      KeepsInPlace job t ((job.run c).run t).tree ((job.run c).run t).outcome) ∧
    (job.overwrite = false →
      KeepsBeside job t ((job.run c).run t).tree ((job.run c).run t).outcome) := by
  obtain ⟨htree, houtcome⟩ := Prod.mk.inj (leaves_run hc job t)
  rw [htree, houtcome]
  exact ⟨fun hplace => keepsInPlace_effect hplace ht, fun hbeside => keepsBeside_effect hbeside ht⟩

/-- A script that the formatter refuses is left as it was, with a copy that is equal. -/
theorem job_keeps_other_files_refused :
    let t : Tree := ⟨[([Text.encode "a.py"], .file (Text.encode "!"))], []⟩
    let job : Job := ⟨.ofString "a.py", .script, false⟩
    let refuse : String → Except Failure String := fun _ => .error (.outputNotText "drop")
    let after := ((job.run (.ofFunctions refuse .ok false)).run t).tree
    t.Plain ∧ ∃ content, after.read job.path = .ok content ∧
      after.read job.path.cleaned = .ok content := by
  intro t job refuse after
  have hplain : t.Plain := plain_of_entries (by simp [t])
  have hbeside := (job_keeps_other_files (Cleaner.keepsFiles_ofFunctions refuse .ok false)
    job hplain).2 rfl
  have hcopied : (t.copy job.path job.path.cleaned).toOption.isSome = true := by decide +kernel
  have hrefused : ((job.run (.ofFunctions refuse .ok false)).run t).outcome =
      .error (.outputNotText "drop") := by decide +kernel
  cases hcopy : t.copy job.path job.path.cleaned with
  | error e =>
    rw [hcopy] at hcopied
    cases hcopied
  | ok t' =>
    obtain ⟨_, _, content, _, _, _, _, _, horiginal, hcopy⟩ := hbeside.copied t' hcopy
    exact ⟨hplain, content, horiginal, hcopy _ hrefused⟩

end Job
end NotebookTidy
