import Mathlib.Data.List.Dedup
import NotebookTidy.Proofs.Batch.Turns

/-! Jobs that stay apart.

Jobs are apart if they have no place in common, neither that of a file nor that of a copy, and if
none of them looks for something where another puts a copy and nothing is so far (`Job.Apart`).
Each then gets as far in its turns as it would on its own, and leaves the same where it writes
(`Separate`). So the order of the turns does not matter: in the end there is for each path the
result that its job has on its own, and the files are those that come of cleaning the paths one
after the other (`order_does_not_matter`). Without the second condition the order does matter, and
so does it if a path is listed in two spellings (`order_matters`). -/
namespace NotebookTidy
open Files Files.Tree

namespace Files.Tree

/-- The same is found at every location, and walks start at the same. -/
structure SameFiles (t t' : Tree) : Prop where
  workDir : t'.workDir = t.workDir
  lookup : ∀ l, t'.lookup l = t.lookup l

end Files.Tree

namespace Job

/-- Where the file of a job is and where it is cleaned, or where these would be. -/
def Footprint (job : Job) (t : Tree) : Set Location := {l | t.At job.path l ∨ t.At job.target l}

/-- Where a job writes if its path is that of a file. -/
def Writes (job : Job) (t : Tree) : Set Location := {l | t.FileAt job.path ∧ l ∈ job.Room t}

/-- Another job does not look for anything where this one puts a copy and nothing is so far. -/
def LeavesWay (job : Job) (t : Tree) (other : Job) : Prop :=
  ∀ l ∈ job.Writes t, t.lookup l = none → ¬ t.Passes other.path l ∧ ¬ t.Passes other.target l

/-- Two jobs that have no place in common and are not in each other's way. Their results are told
apart, too, unless their paths are the same. -/
structure Apart (t : Tree) (job other : Job) : Prop where
  named : job.path.components = other.path.components → job.path = other.path
  places : ∀ l ∈ job.Footprint t, l ∉ other.Footprint t
  leaves : job.LeavesWay t other
  left : other.LeavesWay t job

variable {c : Cleaner} {job other : Job} {M : Set Location} {t a : Tree} {stage : Stage}

theorem Apart.symm (h : Apart t job other) : Apart t other job :=
  ⟨fun he => (h.named he.symm).symm, fun l hl hl' => h.places l hl' hl, h.left, h.leaves⟩

theorem footprint_of_writes {l : Location} (h : l ∈ job.Writes t) : l ∈ job.Footprint t :=
  .inr (.inr h.2.1)

/-! ### A job on its own -/

theorem fileAt_back (h : FilledAt (job.Writes t) t a) (hfile : a.FileAt job.path) :
    t.FileAt job.path := by
  obtain ⟨l, content, hl, hcontent⟩ := hfile
  by_cases hwritten : l ∈ job.Writes t
  · exact hwritten.1
  · exact ⟨l, content, h.resolve_back hl hwritten, (h.elsewhere l hwritten).symm.trans hcontent⟩

/-- What a job copied was a file. -/
theorem fileAt_of_copied (hbeside : job.overwrite = false)
    (hcopied : (job.copy.leaves a).2 = .ok ()) : a.FileAt job.path := by
  rw [leaves_copy, started_of_beside hbeside] at hcopied
  cases hcopy : a.copy job.path job.target with
  | error e =>
    rw [hcopy] at hcopied
    cases hcopied
  | ok after =>
    obtain ⟨l, content, hl, hcontent, _⟩ := write_of_copy hcopy
    exact ⟨l, content, hl, hcontent⟩

/-- What a job read was a file, if it may be written over. -/
theorem fileAt_of_read (hplace : job.overwrite = true) {text : String}
    (hread : a.readText job.target = .ok text) (hroom : (job.Room a).Nonempty) :
    a.FileAt job.path := by
  obtain ⟨l, hcreatable, hfill⟩ := hroom
  rw [target_of_overwrite hplace] at hread hcreatable
  obtain ⟨_, hcontent, _⟩ := read_of_readText hread
  obtain ⟨l', hl⟩ := resolve_of_read hcontent
  obtain rfl := eq_of_resolve_of_creatable hl hcreatable
  obtain ⟨content, hfile⟩ := hfill.file_of_read hl hcontent
  exact ⟨l, content, hl, hfile⟩

/-- A job that copied its file, or read what it is to write over, did so because the file was
there. -/
def Sourced (job : Job) (t a : Tree) : Stage → Prop
  | .placed => job.overwrite = false → t.FileAt job.path
  | .loaded _ => (job.Room a).Nonempty → t.FileAt job.path
  | _ => True

theorem sourced_advance (h : FilledAt (job.Writes t) t a) (hsourced : job.Sourced t a stage) :
    job.Sourced t (job.advance c (a, stage)).1 (job.advance c (a, stage)).2 := by
  cases stage with
  | waiting =>
    refine followedBy_ind (P := fun x => job.Sourced t x.1 x.2) (fun _ hok hbeside => ?_)
      fun _ => trivial
    exact fileAt_back h (fileAt_of_copied hbeside hok)
  | placed =>
    refine followedBy_ind (P := fun x => job.Sourced t x.1 x.2) (fun text hok => ?_)
      fun _ => trivial
    intro hroom
    rw [leaves_load] at hok hroom
    cases hplace : job.overwrite with
    | false => exact hsourced hplace
    | true =>
      cases hread : a.readText job.target with
      | error e =>
        rw [hread] at hok
        cases hok
      | ok text => exact fileAt_back h (fileAt_of_read hplace hread hroom)
  | loaded text =>
    exact followedBy_ind (P := fun x => job.Sourced t x.1 x.2) (fun _ _ => trivial) fun _ => trivial
  | finished result => exact trivial
  | entered result => exact trivial

/-- A job after some turns on its own. -/
structure Underway (c : Cleaner) (job : Job) (t : Tree) (x : Tree × Stage) : Prop where
  turns : ∃ k, (job.advance c)^[k] (t, .waiting) = x
  filled : FilledAt (job.Writes t) t x.1
  sourced : job.Sourced t x.1 x.2

theorem underway_start : Underway c job t (t, .waiting) :=
  ⟨⟨0, rfl⟩, filledAt_refl fun _ hl => hl.2.2, trivial⟩

theorem Underway.puts {x : Tree × Stage} (h : Underway c job t x) :
    job.Puts x.1 x.2 ⊆ job.Writes t := by
  obtain ⟨a, stage⟩ := x
  intro l hl
  have hroom := room_back h.filled (puts_subset job a stage hl)
  cases stage with
  | waiting => exact ⟨fileAt_back h.filled hl.2.1, hroom⟩
  | loaded text => exact ⟨h.sourced ⟨l, hl⟩, hroom⟩
  | _ => exact absurd hl (Set.notMem_empty l)

theorem Underway.advance {x : Tree × Stage} (hk : c.KeepsFiles) (ht : t.Direct)
    (h : Underway c job t x) : Underway c job t (job.advance c x) := by
  obtain ⟨k, hx⟩ := h.turns
  refine ⟨⟨k + 1, by rw [Function.iterate_succ_apply', hx]⟩, ?_, sourced_advance h.filled h.sourced⟩
  exact filledAt_advance hk (h.filled.direct ht) h.puts h.filled

end Job

namespace Batch

/-! ### Jobs that take turns and are apart -/

section
variable {c : Cleaner} {overwrite : Bool} {paths : List Path} {t : Tree}
variable {s s' : Progress paths.length}

variable (c overwrite t) in
/-- What comes of the job for a path on its own. -/
def aloneOn (path : Path) : Result := (((jobFor overwrite path).run c).run t).outcome

variable (overwrite paths t) in
/-- Where the other jobs write. -/
def WrittenByOthers (i : Fin paths.length) : Set Location :=
  {l | ∃ j, j ≠ i ∧ l ∈ (jobsFor overwrite paths j).Writes t}

variable (c overwrite paths t) in
/-- Each job is as far as it would be on its own, and the files are as it would have left them,
except where the others write. -/
structure Separate (s : Progress paths.length) : Prop where
  whole : FilledAt {l | ∃ i, l ∈ (jobsFor overwrite paths i).Writes t} t s.tree
  each : ∀ i, ∃ a, (jobsFor overwrite paths i).Underway c t (a, s.stage i) ∧
    FilledAt (WrittenByOthers overwrite paths t i) a s.tree

variable (c overwrite paths t) in
/-- The results are those of the jobs whose results are entered. -/
structure Collected (s : Progress paths.length) : Prop where
  distinct : (s.results.map (·.1.components)).Nodup
  entered : ∀ path result, (path, result) ∈ s.results ↔ result = aloneOn c overwrite t path ∧
    ∃ i : Fin paths.length, paths.get i = path ∧ ∃ result, s.stage i = .entered result

variable (hapart : ∀ i j, i ≠ j → (jobsFor overwrite paths i).Apart t (jobsFor overwrite paths j))
include hapart

theorem not_written_by_others {i : Fin paths.length} {l : Location}
    (hl : l ∈ (jobsFor overwrite paths i).Footprint t) : l ∉ WrittenByOthers overwrite paths t i := by
  rintro ⟨j, hji, hwritten⟩
  exact (hapart i j hji.symm).places l hl (Job.footprint_of_writes hwritten)

/-- What a job looks at is clear of what the others write. -/
theorem clear_of_apart (i : Fin paths.length) :
    t.Clear (WrittenByOthers overwrite paths t i) (jobsFor overwrite paths i).path ∧
      t.Clear (WrittenByOthers overwrite paths t i) (jobsFor overwrite paths i).target := by
  have hfile : ∀ l ∈ WrittenByOthers overwrite paths t i,
      (t.Passes (jobsFor overwrite paths i).path l ∨
        t.Passes (jobsFor overwrite paths i).target l) →
      ∃ content, t.lookup l = some (.file content) := by
    rintro l ⟨j, hji, hwritten⟩ hpasses
    refine hwritten.2.2.resolve_left fun hnone => ?_
    obtain ⟨hpath, htarget⟩ := (hapart i j hji.symm).left l hwritten hnone
    exact hpasses.elim hpath htarget
  exact ⟨⟨fun l hl => not_written_by_others hapart (.inl hl), fun l hl h => hfile l hl (.inl h)⟩,
    ⟨fun l hl => not_written_by_others hapart (.inr hl), fun l hl h => hfile l hl (.inr h)⟩⟩

omit hapart in
theorem separate_start : Separate c overwrite paths t ⟨t, fun _ => .waiting, []⟩ := by
  refine ⟨filledAt_refl ?_, fun i => ⟨t, Job.underway_start, filledAt_refl ?_⟩⟩
  · rintro l ⟨i, hl⟩
    exact hl.2.2
  · rintro l ⟨j, _, hl⟩
    exact hl.2.2

variable {python julia : String → Except Failure String} {available : Bool}

/-- A turn of one of the jobs. -/
theorem separate_turn (hc : c.Computes python julia available) (hk : c.KeepsFiles) (ht : t.Direct)
    (h : Separate c overwrite paths t s) (i : Fin paths.length) :
    Separate c overwrite paths t (turn c (jobsFor overwrite paths) s i) := by
  obtain ⟨a, hunder, hothers⟩ := h.each i
  have hdisjoint : ∀ l ∈ (jobsFor overwrite paths i).Writes t,
      l ∉ WrittenByOthers overwrite paths t i := fun l hl =>
    not_written_by_others hapart (Job.footprint_of_writes hl)
  obtain ⟨hpath, htarget⟩ := clear_of_apart hapart i
  have hcleans : ∀ kind text, ((Job.cleanText c kind text).run s.tree).outcome =
      ((Job.cleanText c kind text).run a).outcome := fun kind text =>
    (Cleaner.agree_cleanText (R := fun _ _ => True) hc hk kind text _ _ trivial).1
  obtain ⟨hstage, hchange⟩ := Job.sameChange_advance hk (hunder.filled.direct ht) hothers
    (hpath.of_filledAt hunder.filled hdisjoint) (htarget.of_filledAt hunder.filled hdisjoint)
    hcleans (s.stage i)
  refine ⟨hchange.right (fun l hl => ⟨i, hunder.puts hl⟩) h.whole, fun j => ?_⟩
  by_cases hji : j = i
  · subst hji
    refine ⟨((jobsFor overwrite paths j).advance c (a, s.stage j)).1, ?_, ?_⟩
    · rw [stage_turn_self, hstage]
      exact hunder.advance hk ht
    · refine hchange.both (fun l hl => hdisjoint l (hunder.puts hl)) (fun hroot => ?_) hothers
      exact (hunder.puts hroot).2.2.ne_nil rfl
  · obtain ⟨b, hb, hbs⟩ := h.each j
    rw [stage_turn_of_ne hji]
    exact ⟨b, hb, hchange.right (fun l hl => ⟨i, Ne.symm hji, hunder.puts hl⟩) hbs⟩

theorem separate_interleave (hc : c.Computes python julia available) (hk : c.KeepsFiles)
    (ht : t.Direct) (schedule : List (Fin paths.length)) :
    Separate c overwrite paths t (interleave c (jobsFor overwrite paths) t schedule) :=
  interleave_induction separate_start (fun _ i hs => separate_turn hapart hc hk ht hs i) schedule

/-! ### What comes of it -/

omit hapart in
theorem collected_start : Collected c overwrite paths t ⟨t, fun _ => .waiting, []⟩ :=
  ⟨.nil, fun _ _ => iff_of_false nofun nofun⟩

omit hapart in
/-- The paths of which a result is entered, before and after a turn. -/
theorem entered_turn_iff {i : Fin paths.length} {path : Path} :
    (∃ j : Fin paths.length, paths.get j = path ∧
        ∃ r, (turn c (jobsFor overwrite paths) s i).stage j = .entered r) ↔
      (∃ j : Fin paths.length, paths.get j = path ∧ ∃ r, s.stage j = .entered r) ∨
        (paths.get i = path ∧ ∃ r, s.stage i = .finished r) := by
  simp only [stage_turn_entered_iff]
  constructor
  · rintro ⟨j, hj, r, hr | ⟨rfl, hr⟩⟩
    · exact .inl ⟨j, hj, r, hr⟩
    · exact .inr ⟨hj, r, hr⟩
  · rintro (⟨j, hj, r, hr⟩ | ⟨hi, r, hr⟩)
    · exact ⟨j, hj, r, .inl hr⟩
    · exact ⟨i, hi, r, .inr ⟨rfl, hr⟩⟩

/-- A job that is finished has the result that it has on its own. -/
theorem eq_aloneOn (hc : c.Computes python julia available) (hk : c.KeepsFiles) (ht : t.Direct)
    (hs : Separate c overwrite paths t s) {i : Fin paths.length} {result : Result}
    (hfinished : s.stage i = .finished result) : result = aloneOn c overwrite t (paths.get i) := by
  obtain ⟨a, hunder, _⟩ := (separate_turn hapart hc hk ht hs i).each i
  rw [stage_turn_entered_iff.mpr (.inr ⟨rfl, hfinished⟩)] at hunder
  obtain ⟨k, hk⟩ := hunder.turns
  exact (Job.eq_of_entered hk).2

theorem collected_turn (hc : c.Computes python julia available) (hk : c.KeepsFiles) (ht : t.Direct)
    (hs : Separate c overwrite paths t s) (h : Collected c overwrite paths t s)
    (i : Fin paths.length) :
    Collected c overwrite paths t (turn c (jobsFor overwrite paths) s i) := by
  by_cases hfinished : ∃ r, s.stage i = .finished r
  · obtain ⟨r, hr⟩ := hfinished
    have halone := eq_aloneOn hapart hc hk ht hs hr
    -- an entry for the same path would be the same entry
    have hsame : ∀ x ∈ s.results, x.1.components = (paths.get i).components → x = (paths.get i, r) := by
      rintro ⟨path, result⟩ hx hcomponents
      obtain ⟨rfl, j, rfl, _⟩ := (h.entered path result).mp hx
      have hpath : paths.get j = paths.get i := by
        by_cases hji : j = i
        · rw [hji]
        · exact (hapart j i hji).named hcomponents
      rw [hpath, halone]
    have hresults : (turn c (jobsFor overwrite paths) s i).results = record s.results (paths.get i) r := by
      rw [results_turn, hr]
      rfl
    refine ⟨hresults ▸ nodup_record hsame h.distinct, fun path result => ?_⟩
    rw [hresults, mem_record_iff hsame, h.entered, entered_turn_iff, Prod.mk.injEq]
    constructor
    · rintro (⟨hresult, hold⟩ | ⟨rfl, rfl⟩)
      · exact ⟨hresult, .inl hold⟩
      · exact ⟨halone, .inr ⟨rfl, result, hr⟩⟩
    · rintro ⟨rfl, hold | ⟨rfl, _⟩⟩
      · exact .inl ⟨rfl, hold⟩
      · exact .inr ⟨rfl, halone.symm⟩
  · have hresults : (turn c (jobsFor overwrite paths) s i).results = s.results := by
      rw [results_turn]
      cases hstage : s.stage i with
      | finished r => exact absurd ⟨r, hstage⟩ hfinished
      | _ => rfl
    refine ⟨hresults ▸ h.distinct, fun path result => ?_⟩
    rw [hresults, h.entered, entered_turn_iff, or_iff_left fun hi => hfinished hi.2]

/-- In the end the files are where the job that writes there leaves them on its own. -/
theorem Separate.sameFiles (hs : Separate c overwrite paths t s)
    (hs' : Separate c overwrite paths t s') (hdone : s.Complete) (hdone' : s'.Complete) :
    SameFiles s.tree s'.tree := by
  refine ⟨hs'.whole.workDir.trans hs.whole.workDir.symm, fun l => ?_⟩
  by_cases hl : ∃ i, l ∈ (jobsFor overwrite paths i).Writes t
  · obtain ⟨i, hi⟩ := hl
    have hfound : ∀ {s : Progress paths.length}, Separate c overwrite paths t s → s.Complete →
        s.tree.lookup l = (((jobsFor overwrite paths i).run c).run t).tree.lookup l := by
      intro s hs hdone
      obtain ⟨a, hunder, hothers⟩ := hs.each i
      obtain ⟨result, hresult⟩ := hdone i
      rw [hresult] at hunder
      obtain ⟨k, hk⟩ := hunder.turns
      obtain ⟨rfl, _⟩ := Job.eq_of_entered hk
      exact hothers.elsewhere l (not_written_by_others hapart (Job.footprint_of_writes hi))
    rw [hfound hs hdone, hfound hs' hdone']
  · rw [hs.whole.elsewhere l hl, hs'.whole.elsewhere l hl]

omit hapart in
/-- In the end there is one result for each path. -/
theorem Collected.perm (h : Collected c overwrite paths t s) (hdone : s.Complete) :
    s.results.Perm (paths.dedup.map fun path => (path, aloneOn c overwrite t path)) := by
  have hdistinct : (paths.dedup.map fun path => (path, aloneOn c overwrite t path)).Nodup :=
    (List.nodup_dedup paths).map fun _ _ he => (Prod.mk.inj he).1
  refine (List.perm_ext_iff_of_nodup h.distinct.of_map hdistinct).mpr ?_
  rintro ⟨path, result⟩
  rw [h.entered, List.mem_map]
  constructor
  · rintro ⟨rfl, i, rfl, _⟩
    exact ⟨paths[i], List.mem_dedup.mpr (List.getElem_mem _), rfl⟩
  · rintro ⟨path', hpath, he⟩
    obtain ⟨rfl, rfl⟩ := Prod.mk.inj he
    obtain ⟨k, hk, hget⟩ := List.getElem_of_mem (List.mem_dedup.mp hpath)
    exact ⟨rfl, ⟨k, hk⟩, hget, hdone _⟩

theorem collected_interleave (hc : c.Computes python julia available) (hk : c.KeepsFiles)
    (ht : t.Direct) (schedule : List (Fin paths.length)) :
    Collected c overwrite paths t (interleave c (jobsFor overwrite paths) t schedule) := by
  have hboth := interleave_induction
    (P := fun s => Separate c overwrite paths t s ∧ Collected c overwrite paths t s)
    ⟨separate_start, collected_start⟩ (fun s i hs => ⟨separate_turn hapart hc hk ht hs.1 i,
      collected_turn hapart hc hk ht hs.1 hs.2 i⟩) schedule
  exact hboth.2

end

/-- **The order in which jobs take their turns does not matter if they are apart**: the batch comes
to its end, with the result for each path that its job has on its own, and with the files that come
of cleaning the paths one after the other. -/
theorem order_does_not_matter {c : Cleaner} {python julia : String → Except Failure String}
    {available : Bool} (hc : c.Computes python julia available) (hk : c.KeepsFiles) {t : Tree}
    (ht : t.Direct) {overwrite : Bool} {paths : List Path}
    (hapart : paths.Pairwise fun p q => (jobFor overwrite p).Apart t (jobFor overwrite q))
    (schedule : List (Fin paths.length)) :
    let s := interleave c (jobsFor overwrite paths) t schedule
    ((∀ i, 4 ≤ schedule.count i) → s.Complete) ∧
      (s.Complete →
        s.results.Perm (paths.dedup.map fun path =>
          (path, (((jobFor overwrite path).run c).run t).outcome)) ∧
        SameFiles ((cleanAll c overwrite paths).run t).tree s.tree ∧
        ∃ results, ((cleanAll c overwrite paths).run t).outcome = .ok results ∧
          s.results.Perm results) := by
  intro s
  have hpairs : ∀ i j, i ≠ j →
      (jobsFor overwrite paths i).Apart t (jobsFor overwrite paths j) := by
    intro i j hij
    rcases Nat.lt_or_gt_of_ne (Fin.val_ne_of_ne hij) with hlt | hlt
    · exact List.pairwise_iff_getElem.mp hapart i j i.isLt j.isLt hlt
    · exact (List.pairwise_iff_getElem.mp hapart j i j.isLt i.isLt hlt).symm
  refine ⟨complete_of_turns, fun hdone => ?_⟩
  have hdone' : (interleave c (jobsFor overwrite paths) t (inOrder paths.length)).Complete :=
    complete_of_turns count_inOrder
  obtain ⟨htree, houtcome⟩ := Prod.mk.inj (cleanAll_in_order c overwrite paths t)
  have hresults := (collected_interleave hpairs hc hk ht schedule).perm hdone
  have hresults' := (collected_interleave hpairs hc hk ht (inOrder _)).perm hdone'
  rw [htree]
  refine ⟨hresults, ?_, _, houtcome, hresults.trans hresults'.symm⟩
  exact (separate_interleave hpairs hc hk ht _).sameFiles hpairs
    (separate_interleave hpairs hc hk ht _) hdone' hdone

/-- A script and one that is missing take turns, and copies are to be cleaned: the first is cleaned
and the second fails, as they would on their own. -/
theorem order_does_not_matter_pair :
    let a : Path := .ofString "a.py"
    let b : Path := .ofString "b.py"
    let t : Tree := ⟨[([a.bytes], .file (Text.encode "x"))], []⟩
    let c : Cleaner := .ofFunctions .ok .ok false
    let schedule : List (Fin [a, b].length) := List.replicate 4 [⟨0, by decide⟩, ⟨1, by decide⟩] |>.flatten
    c.KeepsFiles ∧ t.Direct ∧
      ([a, b].Pairwise fun p q => (jobFor false p).Apart t (jobFor false q)) ∧
      (interleave c (jobsFor false [a, b]) t schedule).results.Perm
        [(a, .ok .cleaned), (b, .error (.io .notFound))] := by
  intro a b t c schedule
  have hc : c.Computes .ok .ok false := Cleaner.computes_ofFunctions .ok .ok false
  have hkeeps : c.KeepsFiles := Cleaner.keepsFiles_ofFunctions .ok .ok false
  have hdirect : t.Direct := (plain_of_entries (by simp [t])).direct
  have ha : t.creatable a = .ok [a.bytes] ∧ t.creatable a.cleaned = .ok [a.cleaned.bytes] := by
    decide +kernel
  have hb : t.creatable b = .ok [b.bytes] ∧ t.creatable b.cleaned = .ok [b.cleaned.bytes] := by
    decide +kernel
  have hpair : (jobFor false a).Apart t (jobFor false b) := by
    refine ⟨by decide +kernel, ?_, ?_, ?_⟩
    · rintro l hl (hl' | hl')
      · obtain rfl := hl'.eq_of_creatable hb.1
        rcases hl with hl | hl
        · exact absurd (hl.eq_of_creatable ha.1) (by decide +kernel)
        · exact absurd (hl.eq_of_creatable ha.2) (by decide +kernel)
      · obtain rfl := hl'.eq_of_creatable hb.2
        rcases hl with hl | hl
        · exact absurd (hl.eq_of_creatable ha.1) (by decide +kernel)
        · exact absurd (hl.eq_of_creatable ha.2) (by decide +kernel)
    · rintro l ⟨_, hcreatable, _⟩ _
      obtain rfl := Except.ok.inj (hcreatable.symm.trans ha.2)
      have hname : b.pieces = [b.bytes] ∧ b.cleaned.pieces = [b.cleaned.bytes] := by decide +kernel
      exact ⟨fun h => absurd (eq_of_passes hname.1 h) (by decide +kernel),
        fun h => absurd (eq_of_passes hname.2 h) (by decide +kernel)⟩
    · rintro l ⟨⟨source, content, hsource, _⟩, _⟩ _
      have hmissing : t.resolve b = .error .notFound := by decide +kernel
      cases hmissing.symm.trans hsource
  have hapart : [a, b].Pairwise fun p q => (jobFor false p).Apart t (jobFor false q) :=
    List.pairwise_pair.mpr hpair
  obtain ⟨hcomplete, hresults⟩ := order_does_not_matter hc hkeeps hdirect hapart schedule
  have hturns : ∀ i, 4 ≤ schedule.count i := by decide +kernel
  have halone : (((jobFor false a).run c).run t).outcome = .ok .cleaned ∧
      (((jobFor false b).run c).run t).outcome = .error (.io .notFound) := by decide +kernel
  have hdedup : [a, b].dedup = [a, b] := by decide +kernel
  have hlist : ([a, b].dedup.map fun path => (path, (((jobFor false path).run c).run t).outcome)) =
      [(a, .ok .cleaned), (b, .error (.io .notFound))] := by
    rw [hdedup, List.map_cons, List.map_cons, List.map_nil, halone.1, halone.2]
  exact ⟨hkeeps, hdirect, hapart, (hresults (hcomplete hturns)).1.trans (.of_eq hlist)⟩

/-- The order matters if a path leads through the place of a copy, though no place is common: the
copy makes a file of what the path takes for a directory, and the failure is another one. It matters,
too, if a path is listed once more with a slash at its end: there is one result for both. -/
theorem order_matters :
    let c : Cleaner := .ofFunctions .ok .ok false
    let x : Path := .ofString "x"
    let inside : Path := .ofString "x.cleaned/n.py"
    let t : Tree := ⟨[([x.bytes], .file [])], []⟩
    let script : Path := .ofString "x.py"
    let closed : Path := .ofString "x.py/"
    let t' : Tree := ⟨[([script.bytes], .file [])], []⟩
    (c.KeepsFiles ∧ t.Plain ∧
      (∀ l ∈ (jobFor false x).Footprint t, l ∉ (jobFor false inside).Footprint t) ∧
      (((jobFor false inside).run c).run t).outcome = .error (.io .notFound) ∧
      ((cleanAll c false [inside, x]).run t).outcome =
        .ok [(inside, .error (.io .notFound)), (x, (((jobFor false x).run c).run t).outcome)] ∧
      ((cleanAll c false [x, inside]).run t).outcome =
        .ok [(x, (((jobFor false x).run c).run t).outcome), (inside, .error (.io .notADirectory))]) ∧
    (t'.Plain ∧
      (∀ l ∈ (jobFor true script).Footprint t', l ∉ (jobFor true closed).Footprint t') ∧
      (((jobFor true script).run c).run t').outcome = .ok .cleaned ∧
      ((cleanAll c true [script, closed]).run t').outcome =
        .ok [(script, .error (.io .notADirectory))]) := by
  intro c x inside t script closed t'
  have hnowhere : ∀ {job : Job} {t : Tree}, (t.resolve job.path).toOption = none →
      (t.creatable job.path).toOption = none → (t.resolve job.target).toOption = none →
      (t.creatable job.target).toOption = none → ∀ l, l ∉ job.Footprint t := by
    rintro job t hr hc hr' hc' l ((h | h) | (h | h))
    · rw [h] at hr
      cases hr
    · rw [h] at hc
      cases hc
    · rw [h] at hr'
      cases hr'
    · rw [h] at hc'
      cases hc'
  refine ⟨⟨Cleaner.keepsFiles_ofFunctions .ok .ok false, plain_of_entries (by simp [t]),
    fun l _ => hnowhere ?_ ?_ ?_ ?_ l, ?_⟩, plain_of_entries (by simp [t']),
    fun l _ => hnowhere ?_ ?_ ?_ ?_ l, ?_⟩
  all_goals decide +kernel

end Batch
end NotebookTidy
