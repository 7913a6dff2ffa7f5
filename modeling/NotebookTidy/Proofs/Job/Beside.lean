import NotebookTidy.Proofs.Agreement
import NotebookTidy.Proofs.Files.Sibling
import NotebookTidy.Proofs.Job.Effect

/-! Cleaning a file in its place, and beside it.

What a job makes of a file depends on the bytes of the file alone (`cleanBytes`, `effect_of_file`),
and a copy has the bytes of the file. So a job that cleans a copy comes to the same as one that
overwrites the file, and leaves in the copy what the other leaves in the file, whatever the copy
held before; and it leaves the same if it is run again (`beside_as_in_place`). There has to be room
for the copy: a name that is as long as names may be has none (`beside_without_room`). -/
namespace NotebookTidy
open Files Files.Tree

namespace Job
variable {c : Cleaner} {python julia : String → Except Failure String} {available : Bool}
variable {t t' : Tree} {path : Path} {l m : Location} {content : Bytes}

/-- What comes of cleaning the bytes of a file: a status, and the bytes to be written. -/
def cleanBytes (c : Cleaner) (kind : Kind) (t : Tree) (content : Bytes) :
    Except Failure (Status × Bytes) :=
  match Text.decode? content with
  | none => .error (.io .notUtf8)
  | some text =>
    ((cleanText c kind text).run t).outcome.map fun done => (done.1, Text.encode done.2)

theorem cleanBytes_eq (hc : c.Computes python julia available) (hk : c.KeepsFiles) (kind : Kind)
    (t t' : Tree) (content : Bytes) : cleanBytes c kind t content = cleanBytes c kind t' content := by
  rw [cleanBytes, cleanBytes]
  cases Text.decode? content with
  | none => rfl
  | some text =>
    have hsame := (Cleaner.agree_cleanText (R := fun _ _ => True) hc hk kind text t t' trivial).1
    simp only [hsame]

/-- A job that finds a file at its target leaves it as it is, or puts there what comes of it. -/
theorem effect_of_file {job : Job} (hstart : job.started t = .ok t')
    (hr : t'.resolve job.target = .ok m) (hcreatable : t'.creatable job.target = .ok m)
    (hm : t'.lookup m = some (.file content)) :
    job.effect c t = match cleanBytes c job.kind t' content with
      | .error e => (t', .error e)
      | .ok (status, bytes) => (t'.put m (.file bytes), .ok status) := by
  have hread := read_of_file hr hm
  rw [effect, hstart]
  dsimp only
  rw [readText, hread, cleanBytes]
  cases hdecode : Text.decode? content with
  | none => simp only [bind, Except.bind, hdecode]
  | some text =>
    simp only [bind, Except.bind, hdecode]
    cases ((cleanText c job.kind text).run t').outcome with
    | error e => rfl
    | ok done =>
      obtain ⟨status, cleaned⟩ := done
      simp only [write_of_fillable hcreatable (.inr ⟨content, hm⟩), Except.map]

/-- The effect depends on the files only through the file being in its place. -/
theorem effect_congr {job : Job} {started : Tree} (h : job.started t = .ok started)
    (h' : job.started t' = .ok started) : job.effect c t = job.effect c t' := by
  rw [effect, effect, h, h']

/-! ### A copy beside the file -/

/-- A copy is put in its place, where it is found. -/
theorem started_beside (kind : Kind) (hr : t.resolve path = .ok l)
    (hl : t.lookup l = some (.file content)) (hm : t.creatable path.cleaned = .ok m)
    (hfill : t.Fillable m) :
    started ⟨path, kind, false⟩ t = .ok (t.put m (.file content)) := by
  have hcopy : t.copy path path.cleaned = t.write path.cleaned content := by
    simp only [Tree.copy, hr, hl, bind, Except.bind]
  exact hcopy.trans (write_of_fillable hm hfill content)

/-- It does not matter if another copy was put in its place before. -/
theorem started_beside_put (kind : Kind) (hr : t.resolve path = .ok l)
    (hl : t.lookup l = some (.file content)) (hm : t.creatable path.cleaned = .ok m)
    (hfill : t.Fillable m) (hne : m ≠ l) (bytes : Bytes) :
    started ⟨path, kind, false⟩ (t.put m (.file bytes)) = .ok (t.put m (.file content)) := by
  have hthere : (t.put m (.file bytes)).lookup m = some (.file bytes) := by
    rw [lookup_put t hfill.ne_nil, if_pos rfl]
  have hsource : (t.put m (.file bytes)).lookup l = some (.file content) := by
    rw [lookup_put t hfill.ne_nil, if_neg hne.symm, hl]
  rw [started_beside kind (resolve_put hfill bytes hr) hsource (put_at hm hfill bytes).2
    (.inr ⟨bytes, hthere⟩), put_put]

theorem read_put (hm : t.creatable path = .ok m) (hfill : t.Fillable m) (bytes : Bytes) :
    (t.put m (.file bytes)).read path = .ok bytes := by
  refine read_of_file (put_at hm hfill bytes).1 ?_
  rw [lookup_put t hfill.ne_nil, if_pos rfl]

/-- What comes of the file in its place, and of a copy beside it. -/
theorem effects_agree (hc : c.Computes python julia available) (hk : c.KeepsFiles) (kind : Kind)
    (hr : t.resolve path = .ok l) (hl : t.lookup l = some (.file content))
    (hself : t.creatable path = .ok l) (hm : t.creatable path.cleaned = .ok m)
    (hfill : t.Fillable m) : ∃ bytes after, ∃ result : Result,
      effect c ⟨path, kind, false⟩ t = (t.put m (.file bytes), result) ∧
        effect c ⟨path, kind, true⟩ t = (after, result) ∧ after.read path = .ok bytes := by
  have hcopied : (t.put m (.file content)).lookup m = some (.file content) := by
    rw [lookup_put t hfill.ne_nil, if_pos rfl]
  obtain ⟨hr', hm'⟩ := put_at hm hfill content
  have hstart : started ⟨path, kind, true⟩ t = .ok t := rfl
  have hstart' := started_beside kind hr hl hm hfill
  rw [effect_of_file hstart hr hself hl, effect_of_file hstart' hr' hm' hcopied, cleanBytes_eq hc hk kind (t.put m (.file content)) t]
  cases cleanBytes c kind t content with
  | error e => exact ⟨content, t, .error e, rfl, rfl, read_of_file hr hl⟩
  | ok done =>
    refine ⟨done.2, _, .ok done.1, by simp only [put_put], rfl, ?_⟩
    exact read_put hself (.inr ⟨content, hl⟩) done.2

/-- **Cleaning a copy beside a file is cleaning the file**: the outcome is the same, and so are the
bytes; and cleaning the copy again changes nothing. -/
theorem beside_as_in_place (hc : c.Computes python julia available) (hk : c.KeepsFiles)
    (ht : t.Plain) (hnested : t.Nested) (hr : t.resolve path = .ok l)
    (hl : t.lookup l = some (.file content))
    (hfree : ∀ m, t.resolve path.cleaned = .ok m → t.lookup m ≠ some .directory)
    (hshort : path.cleaned.Short) (kind : Kind) :
    let inPlace := ((⟨path, kind, true⟩ : Job).run c).run t
    let beside := ((⟨path, kind, false⟩ : Job).run c).run t
    let again := ((⟨path, kind, false⟩ : Job).run c).run beside.tree
    beside.outcome = inPlace.outcome ∧
      (∃ bytes, inPlace.tree.read path = .ok bytes ∧ beside.tree.read path.cleaned = .ok bytes) ∧
      again.tree = beside.tree ∧ again.outcome = beside.outcome := by
  intro inPlace beside again
  obtain ⟨parent, name, hnames, rfl, hbeside⟩ := names_beside ht.no_link hnested hr hl hshort
  have hself : t.creatable path = .ok (parent ++ [name]) := by
    rw [hnames.creatable, arrival_eq_self ht.no_link]
  have hcopy : t.creatable path.cleaned = .ok (parent ++ [Path.cleanedName name]) := by
    rw [hbeside.creatable, arrival_eq_self ht.no_link]
  have hresolve : ∀ {e}, t.lookup (parent ++ [Path.cleanedName name]) = some e →
      t.resolve path.cleaned = .ok (parent ++ [Path.cleanedName name]) := by
    intro e he
    refine hbeside.resolve_iff.mpr ⟨by rw [he]; nofun, (arrival_eq_self ht.no_link _).symm⟩
  generalize parent ++ [name] = l at hr hl hself
  generalize parent ++ [Path.cleanedName name] = m at hcopy hresolve
  have hne : m ≠ l := cleaned_elsewhere ht.no_link hr hl hcopy
  have hfill : t.Fillable m := by
    cases hthere : t.lookup m with
    | none => exact .inl hthere
    | some e =>
      rcases ht m e hthere with rfl | ⟨old, rfl⟩
      · exact absurd hthere (hfree m (hresolve hthere))
      · exact .inr ⟨old, hthere⟩
  obtain ⟨bytes, after, result, heffect, hplace, hread⟩ :=
    effects_agree hc hk kind hr hl hself hcopy hfill
  have hrun := leaves_run hk ⟨path, kind, false⟩
  have hplace : inPlace.tree = after ∧ inPlace.outcome = result :=
    Prod.mk.inj ((leaves_run hk ⟨path, kind, true⟩ t).trans hplace)
  have hbeside : beside.tree = t.put m (.file bytes) ∧ beside.outcome = result :=
    Prod.mk.inj ((hrun t).trans heffect)
  have hagain : again.tree = t.put m (.file bytes) ∧ again.outcome = result := by
    have hcongr := effect_congr (c := c) (started_beside_put kind hr hl hcopy hfill hne bytes)
      (started_beside kind hr hl hcopy hfill)
    refine Prod.mk.inj ((hrun beside.tree).trans ?_)
    rw [hbeside.1, hcongr, heffect]
  refine ⟨?_, ⟨bytes, ?_, ?_⟩, ?_, ?_⟩
  · rw [hbeside.2, hplace.2]
  · rw [hplace.1, hread]
  · rw [hbeside.1, read_put hcopy hfill]
  · rw [hagain.1, hbeside.1]
  · rw [hagain.2, hbeside.2]

/-- A script, and an old copy of it. -/
def staleCopy : Tree :=
  ⟨[([Text.encode "a.py"], .file (Text.encode "x")),
    ([Text.encode "a.cleaned.py"], .file (Text.encode "stale"))], []⟩

/-- The old copy is replaced with what the script would be, and then stays. -/
theorem beside_as_in_place_stale :
    staleCopy.Plain ∧ staleCopy.Nested ∧ (Path.ofString "a.py").cleaned.Short ∧
      ∃ beside again : Done Status,
        ((⟨.ofString "a.py", .script, false⟩ : Job).run (.ofFunctions .ok .ok false)).run staleCopy =
          beside ∧
        ((⟨.ofString "a.py", .script, false⟩ : Job).run (.ofFunctions .ok .ok false)).run beside.tree =
          again ∧
        beside.outcome = .ok .cleaned ∧
        beside.tree.read (.ofString "a.cleaned.py") = .ok (Text.encode "x\n") ∧
        again.tree = beside.tree := by
  have hplain : staleCopy.Plain := plain_of_entries (by simp [staleCopy])
  have hnested : staleCopy.Nested := nested_of_entries (by decide +kernel)
  have hr : staleCopy.resolve (.ofString "a.py") = .ok [Text.encode "a.py"] := by decide +kernel
  have hl : staleCopy.lookup [Text.encode "a.py"] = some (.file (Text.encode "x")) := by
    decide +kernel
  have hcleaned : (Path.ofString "a.py").cleaned = .ofString "a.cleaned.py" := by decide +kernel
  have hcopy : staleCopy.resolve (.ofString "a.cleaned.py") = .ok [Text.encode "a.cleaned.py"] := by
    decide +kernel
  have hfree : ∀ m, staleCopy.resolve (Path.ofString "a.py").cleaned = .ok m →
      staleCopy.lookup m ≠ some .directory := by
    intro m hm
    rw [hcleaned] at hm
    obtain rfl := Except.ok.inj (hcopy.symm.trans hm)
    decide +kernel
  have hshort : (Path.ofString "a.py").cleaned.Short := ⟨by decide +kernel, by decide +kernel⟩
  obtain ⟨hsame, ⟨bytes, hplace, hbeside⟩, hagain, _⟩ :=
    beside_as_in_place (Cleaner.computes_ofFunctions .ok .ok false)
      (Cleaner.keepsFiles_ofFunctions .ok .ok false) hplain hnested hr hl hfree hshort .script
  have hdone : (((⟨.ofString "a.py", .script, true⟩ : Job).run (.ofFunctions .ok .ok false)).run
        staleCopy).outcome = .ok .cleaned ∧
      (((⟨.ofString "a.py", .script, true⟩ : Job).run (.ofFunctions .ok .ok false)).run
        staleCopy).tree.read (.ofString "a.py") = .ok (Text.encode "x\n") := by
    decide +kernel
  rw [hcleaned] at hbeside
  exact ⟨hplain, hnested, hshort, _, _, rfl, rfl, hsame.trans hdone.1,
    hbeside.trans (hplace.symm.trans hdone.2), hagain⟩

/-- A script whose name is so long that there is none for its cleaned copy. -/
theorem beside_without_room :
    let path : Path := ⟨List.replicate 248 97 ++ Text.encode ".py"⟩
    let t : Tree := ⟨[([path.bytes], .file (Text.encode "x"))], []⟩
    let c : Cleaner := .ofFunctions .ok .ok false
    t.Plain ∧ t.Nested ∧ c.KeepsFiles ∧ t.resolve path = .ok [path.bytes] ∧
      t.resolve path.cleaned = .error .nameTooLong ∧
      (((⟨path, .script, true⟩ : Job).run c).run t).outcome = .ok .cleaned ∧
      (((⟨path, .script, false⟩ : Job).run c).run t).outcome = .error (.io .nameTooLong) := by
  intro path t c
  refine ⟨plain_of_entries (by simp [t]), nested_of_entries (by decide +kernel),
    Cleaner.keepsFiles_ofFunctions .ok .ok false, ?_⟩
  decide +kernel

end Job
end NotebookTidy
