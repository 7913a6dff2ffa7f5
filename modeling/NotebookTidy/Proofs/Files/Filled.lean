import Mathlib.Data.Set.Basic
import NotebookTidy.Proofs.Files.Tree

/-! Two trees that differ in files alone.

`FilledAt M t t'` says that at some of the locations `M`, at each of which `t` has a file or
nothing, files were put, and that `t'` is what came of it. Directories and links are then the
same in both trees. A walk that succeeds in the first goes the same way in the second
(`FilledAt.walk`), and one that ends elsewhere than at `M` goes the same way back
(`FilledAt.walk_back`). A walk that fails may fail for another reason, or not at all, if it looks
for something where nothing was and a file was put since; a path is clear of `M` if that does not
happen (`Clear`), and then all that can be done with it comes to the same in both trees
(`FilledAt.readText_eq`, `FilledAt.write`, `FilledAt.copy`). -/
namespace NotebookTidy.Files.Tree

/-- Files were put at some of the locations, in place of files or of nothing. -/
structure FilledAt (M : Set Location) (t t' : Tree) : Prop where
  workDir : t'.workDir = t.workDir
  elsewhere : ∀ l, l ∉ M → t'.lookup l = t.lookup l
  fillable : ∀ l ∈ M, t.Fillable l
  there : ∀ l ∈ M, t'.lookup l = t.lookup l ∨ ∃ content, t'.lookup l = some (.file content)

variable {M N : Set Location} {t t' : Tree} {l l' : Location} {p : Path}

theorem filledAt_refl (h : ∀ l ∈ M, t.Fillable l) : FilledAt M t t :=
  ⟨rfl, fun _ _ => rfl, h, fun _ _ => .inl rfl⟩

theorem arrival_of_entry {e : Entry} (h : t.lookup l = some e) : t.arrival l = leadsTo l e := by
  rw [arrival, h]

namespace FilledAt

/-- One more file is put. -/
theorem put (h : FilledAt M t t') (hl : l ∈ M) (content : Bytes) :
    FilledAt M t (t'.put l (.file content)) := by
  have hne : l ≠ [] := (h.fillable l hl).ne_nil
  refine ⟨(workDir_put t' l _).trans h.workDir, fun l' hl' => ?_, h.fillable, fun l' hl' => ?_⟩
  · have hother : l' ≠ l := fun he => hl' (he ▸ hl)
    rw [lookup_put t' hne, if_neg hother]
    exact h.elsewhere l' hl'
  · rw [lookup_put t' hne]
    by_cases hsame : l' = l
    · exact .inr ⟨content, by rw [if_pos hsame]⟩
    · rw [if_neg hsame]
      exact h.there l' hl'

/-- The same file is put in both trees. -/
theorem put_both (h : FilledAt M t t') (hl : l ∉ M) (hne : l ≠ []) (e : Entry) :
    FilledAt M (t.put l e) (t'.put l e) := by
  refine ⟨by rw [workDir_put, workDir_put, h.workDir], fun l' hl' => ?_, fun l' hl' => ?_,
    fun l' hl' => ?_⟩
  · rw [lookup_put t hne, lookup_put t' hne, h.elsewhere l' hl']
  · have hother : l' ≠ l := fun he => hl (he ▸ hl')
    rw [Fillable, lookup_put t hne, if_neg hother]
    exact h.fillable l' hl'
  · have hother : l' ≠ l := fun he => hl (he ▸ hl')
    rw [lookup_put t hne, lookup_put t' hne, if_neg hother, if_neg hother]
    exact h.there l' hl'

/-- Whatever is no file is in both trees or in neither. -/
theorem lookup_iff (h : FilledAt M t t') {e : Entry} (he : ∀ content, e ≠ .file content) :
    t'.lookup l = some e ↔ t.lookup l = some e := by
  by_cases hl : l ∈ M
  · have hnot : t.lookup l ≠ some e := by
      intro hsome
      rcases h.fillable l hl with hnone | ⟨content, hfile⟩
      · rw [hsome] at hnone
        cases hnone
      · rw [hsome] at hfile
        exact he content (Option.some.inj hfile)
    rcases h.there l hl with hsame | ⟨content, hfile⟩
    · rw [hsame]
    · refine ⟨fun hsome => ?_, fun hsome => absurd hsome hnot⟩
      rw [hfile] at hsome
      exact absurd (Option.some.inj hsome).symm (he content)
  · rw [h.elsewhere l hl]

theorem directory_iff (h : FilledAt M t t') :
    t'.lookup l = some .directory ↔ t.lookup l = some .directory := h.lookup_iff nofun

theorem link_iff (h : FilledAt M t t') {target : Location} :
    t'.lookup l = some (.link target) ↔ t.lookup l = some (.link target) := h.lookup_iff nofun

/-- No file goes away. -/
theorem file (h : FilledAt M t t') {content : Bytes} (hl : t.lookup l = some (.file content)) :
    ∃ content, t'.lookup l = some (.file content) := by
  by_cases hm : l ∈ M
  · rcases h.there l hm with hsame | hfile
    · exact ⟨content, hsame.trans hl⟩
    · exact hfile
  · exact ⟨content, (h.elsewhere l hm).trans hl⟩

/-- What a file may be put in place of is what it might have been put in place of before. -/
theorem fillable_back (h : FilledAt M t t') (hl : t'.Fillable l) : t.Fillable l := by
  by_cases hm : l ∈ M
  · exact h.fillable l hm
  · rwa [Fillable, h.elsewhere l hm] at hl

theorem arrival_eq (h : FilledAt M t t') (l : Location) : t'.arrival l = t.arrival l := by
  by_cases hl : l ∈ M
  · have hself : ∀ {s : Tree}, s.Fillable l → s.arrival l = l := by
      rintro s (hnone | ⟨content, hfile⟩)
      · rw [arrival, hnone]
      · rw [arrival, hfile]
        rfl
    rw [hself (h.fillable l hl), hself]
    rcases h.there l hl with hsame | hfile
    · rw [Fillable, hsame]
      exact h.fillable l hl
    · exact .inr hfile
  · rw [arrival, arrival, h.elsewhere l hl]

theorem origin_eq (h : FilledAt M t t') (p : Path) : t'.origin p = t.origin p := by
  rw [origin, origin, h.workDir]

/-! ### Walks that succeed -/

/-- Where there is an entry, there is one still. -/
theorem exists_entry (h : FilledAt M t t') {e : Entry} (hl : t.lookup l = some e) :
    ∃ e', t'.lookup l = some e' := by
  by_cases hm : l ∈ M
  · rcases h.there l hm with hsame | ⟨content, hfile⟩
    · exact ⟨e, hsame.trans hl⟩
    · exact ⟨_, hfile⟩
  · exact ⟨e, (h.elsewhere l hm).trans hl⟩

theorem step (h : FilledAt M t t') {piece : Bytes} (hstep : Step t l piece l') :
    Step t' l piece l' := by
  cases hstep with
  | idle hidle => exact .idle hidle
  | up hbusy hup => exact .up hbusy hup
  | @entry e hbusy hdown hshort hthere =>
    obtain ⟨e', hthere'⟩ := h.exists_entry hthere
    have harrival := h.arrival_eq (l ++ [piece])
    rw [arrival_of_entry hthere, arrival_of_entry hthere'] at harrival
    rw [← harrival]
    exact .entry hbusy hdown hshort hthere'

/-- A step leads where it led, unless it leads to a file that was put. -/
theorem step_back (h : FilledAt M t t') {piece : Bytes} (hstep : Step t' l piece l') :
    Step t l piece l' ∨ l' ∈ M := by
  cases hstep with
  | idle hidle => exact .inl (.idle hidle)
  | up hbusy hup => exact .inl (.up hbusy hup)
  | @entry e hbusy hdown hshort hthere =>
    have harrival := h.arrival_eq (l ++ [piece])
    rw [arrival_of_entry hthere] at harrival
    rw [harrival]
    cases hthere' : t.lookup (l ++ [piece]) with
    | some e' =>
      rw [arrival_of_entry hthere']
      exact .inl (.entry hbusy hdown hshort hthere')
    | none =>
      -- only where a file was put is there an entry now and was none before
      refine .inr (Classical.byContradiction fun hm => ?_)
      rw [arrival, hthere'] at hm
      rw [h.elsewhere _ hm, hthere'] at hthere
      cases hthere

theorem walk (h : FilledAt M t t') {ps : List Bytes} (hwalk : t.walk l ps = .ok l') :
    t'.walk l ps = .ok l' := by
  induction ps generalizing l with
  | nil => exact hwalk
  | cons piece ps ih =>
    obtain ⟨hdir, next, hstep, hrest⟩ := walk_cons_iff.mp hwalk
    exact walk_cons_iff.mpr ⟨h.directory_iff.mpr hdir, next, h.step hstep, ih hrest⟩

theorem not_directory_of_mem (h : FilledAt M t t') (hl : l ∈ M) :
    t'.lookup l ≠ some .directory := fun hdir =>
  (h.fillable l hl).not_directory (h.directory_iff.mp hdir)

theorem walk_back (h : FilledAt M t t') {ps : List Bytes} (hwalk : t'.walk l ps = .ok l')
    (hl' : l' ∉ M) : t.walk l ps = .ok l' := by
  induction ps generalizing l with
  | nil => exact hwalk
  | cons piece ps ih =>
    obtain ⟨hdir, next, hstep, hrest⟩ := walk_cons_iff.mp hwalk
    rcases h.step_back hstep with hback | hnext
    · exact walk_cons_iff.mpr ⟨h.directory_iff.mp hdir, next, hback, ih hrest⟩
    · cases ps with
      | nil =>
        cases hrest
        exact absurd hnext hl'
      | cons _ _ => exact absurd (walk_cons_iff.mp hrest).1 (h.not_directory_of_mem hnext)

theorem resolve (h : FilledAt M t t') (hr : t.resolve p = .ok l) : t'.resolve p = .ok l := by
  obtain ⟨hcheck, hwalk⟩ := walk_of_resolve hr
  rw [Tree.resolve, hcheck, h.origin_eq]
  exact h.walk hwalk

theorem resolve_back (h : FilledAt M t t') (hr : t'.resolve p = .ok l) (hl : l ∉ M) :
    t.resolve p = .ok l := by
  obtain ⟨hcheck, hwalk⟩ := walk_of_resolve hr
  rw [h.origin_eq] at hwalk
  rw [Tree.resolve, hcheck]
  exact h.walk_back hwalk hl

theorem creatable (h : FilledAt M t t') (hc : t.creatable p = .ok l) : t'.creatable p = .ok l := by
  obtain ⟨parent, name, ⟨hcheck, ⟨ini, hpieces, hwalk⟩, hdir, hbusy, hdown, hshort⟩, rfl⟩ :=
    names_of_creatable hc
  have hnames : Names t' p parent name := by
    refine ⟨hcheck, ⟨ini, hpieces, ?_⟩, h.directory_iff.mpr hdir, hbusy, hdown, hshort⟩
    rw [h.origin_eq]
    exact h.walk hwalk
  rw [hnames.creatable, h.arrival_eq]

/-- Where a file can be created it could be created before. -/
theorem creatable_back (h : FilledAt M t t') (hc : t'.creatable p = .ok l) :
    t.creatable p = .ok l := by
  obtain ⟨parent, name, ⟨hcheck, ⟨ini, hpieces, hwalk⟩, hdir, hbusy, hdown, hshort⟩, rfl⟩ :=
    names_of_creatable hc
  have hparent : parent ∉ M := fun hm => h.not_directory_of_mem hm hdir
  rw [h.origin_eq] at hwalk
  have hnames : Names t p parent name :=
    ⟨hcheck, ⟨ini, hpieces, h.walk_back hwalk hparent⟩, h.directory_iff.mp hdir, hbusy, hdown, hshort⟩
  rw [hnames.creatable, h.arrival_eq]

/-- What is read elsewhere is read still. -/
theorem read (h : FilledAt M t t') {content : Bytes} (hread : t.read p = .ok content)
    (hp : ∀ l, t.resolve p = .ok l → l ∉ M) : t'.read p = .ok content := by
  obtain ⟨l, hl⟩ := resolve_of_read hread
  simp only [Tree.read, hl, bind, Except.bind] at hread
  simp only [Tree.read, h.resolve hl, h.elsewhere l (hp l hl), bind, Except.bind]
  exact hread

end FilledAt

/-! ### Paths that are clear -/

/-- A name on the way of some pieces is looked for at a location. -/
def PassesFrom (t : Tree) (l : Location) (ps : List Bytes) (m : Location) : Prop :=
  ∃ ini piece rest parent, ps = ini ++ piece :: rest ∧ t.walk l ini = .ok parent ∧
    t.lookup parent = some .directory ∧ isIdle piece = false ∧ piece ≠ above ∧
    m = parent ++ [piece]

/-- A name on the way of a path, its last piece included, is looked for at a location. -/
def Passes (t : Tree) (p : Path) (m : Location) : Prop := t.PassesFrom (t.origin p) p.pieces m

/-- What is found at a path, or would be created there, is at the location. -/
def At (t : Tree) (p : Path) (l : Location) : Prop :=
  t.resolve p = .ok l ∨ t.creatable p = .ok l

/-- Where a file can be created is the only place of its path. -/
theorem At.eq_of_creatable (h : t.At p l) (hc : t.creatable p = .ok l') : l = l' := by
  rcases h with hr | hc'
  · exact (eq_of_resolve_of_creatable hr hc).symm
  · exact Except.ok.inj (hc'.symm.trans hc)

/-- A path does not lead to the locations, nor past any of them at which nothing is. -/
structure Clear (M : Set Location) (t : Tree) (p : Path) : Prop where
  ends : ∀ l, t.At p l → l ∉ M
  way : ∀ m ∈ M, t.Passes p m → ∃ content, t.lookup m = some (.file content)

/-- A path of one piece passes nothing but what it names. -/
theorem eq_of_passes {m : Location} {piece : Bytes} (hp : p.pieces = [piece]) (h : t.Passes p m) :
    m = t.origin p ++ [piece] := by
  obtain ⟨ini, name, rest, parent, hpieces, hwalk, _, _, _, rfl⟩ := h
  obtain ⟨rfl, hname⟩ : ini = [] ∧ name = piece := by
    rw [hp] at hpieces
    cases ini with
    | nil => exact ⟨rfl, (List.cons.inj hpieces).1.symm⟩
    | cons _ ini => simp at hpieces
  cases hwalk
  rw [hname]

theorem passesFrom_head {piece : Bytes} {ps : List Bytes} (hdir : t.lookup l = some .directory)
    (hbusy : isIdle piece = false) (hdown : piece ≠ above) :
    t.PassesFrom l (piece :: ps) (l ++ [piece]) :=
  ⟨[], piece, ps, l, rfl, rfl, hdir, hbusy, hdown, rfl⟩

theorem PassesFrom.tail {piece : Bytes} {ps : List Bytes} {next m : Location}
    (hdir : t.lookup l = some .directory) (hstep : Step t l piece next)
    (h : t.PassesFrom next ps m) : t.PassesFrom l (piece :: ps) m := by
  obtain ⟨ini, q, rest, parent, rfl, hwalk, hparent, hbusy, hdown, rfl⟩ := h
  exact ⟨piece :: ini, q, rest, parent, rfl, walk_cons_iff.mpr ⟨hdir, next, hstep, hwalk⟩, hparent,
    hbusy, hdown, rfl⟩

theorem PassesFrom.append {ps qs : List Bytes} {m : Location} (h : t.PassesFrom l ps m) :
    t.PassesFrom l (ps ++ qs) m := by
  obtain ⟨ini, q, rest, parent, rfl, hwalk⟩ := h
  exact ⟨ini, q, rest ++ qs, parent, by simp, hwalk⟩

/-- A step is taken, whatever comes of the rest of the walk. -/
theorem walk_of_step {piece : Bytes} {ps : List Bytes} {next : Location}
    (hdir : t.lookup l = some .directory) (hstep : Step t l piece next) :
    t.walk l (piece :: ps) = t.walk next ps := by
  rw [walk]
  cases hstep with
  | idle hidle => simp [hdir, hidle]
  | up hbusy hup =>
    subst hup
    simp [hdir, hbusy]
  | @entry e hbusy hdown hshort hthere =>
    simp only [hdir, ne_eq, not_true_eq_false, if_false, hbusy, Bool.false_eq_true, hdown,
      Nat.not_lt.mpr hshort, hthere]
    cases e <;> rfl

/-- Why no step can be taken. -/
theorem walk_of_no_step {piece : Bytes} {ps : List Bytes} (hdir : t.lookup l = some .directory)
    (hbusy : isIdle piece = false) (hdown : piece ≠ above)
    (hnone : nameLimit < piece.length ∨ t.lookup (l ++ [piece]) = none) :
    t.walk l (piece :: ps) =
      .error (if nameLimit < piece.length then .nameTooLong else .notFound) := by
  rw [walk]
  by_cases hlong : nameLimit < piece.length
  · simp [hdir, hbusy, hdown, hlong]
  · simp [hdir, hbusy, hdown, hlong, hnone.resolve_left hlong]

theorem step_cases (t : Tree) (l : Location) (piece : Bytes) :
    (∃ next, Step t l piece next) ∨ (isIdle piece = false ∧ piece ≠ above ∧
      (nameLimit < piece.length ∨ t.lookup (l ++ [piece]) = none)) := by
  cases hidle : isIdle piece with
  | true => exact .inl ⟨l, .idle hidle⟩
  | false =>
    by_cases hup : piece = above
    · exact .inl ⟨l.dropLast, .up hidle hup⟩
    · by_cases hlong : nameLimit < piece.length
      · exact .inr ⟨rfl, hup, .inl hlong⟩
      · cases hthere : t.lookup (l ++ [piece]) with
        | none => exact .inr ⟨rfl, hup, .inr rfl⟩
        | some e => exact .inl ⟨_, .entry hidle hup (Nat.le_of_not_lt hlong) hthere⟩

/-- What is created over a link is created where that leads to. -/
theorem creatable_arrival (t : Tree) (l : Location) : (match t.lookup l with
    | some (.link target) => (.ok target : Except IoError Location)
    | _ => .ok l) = .ok (t.arrival l) := by
  rw [arrival]
  cases t.lookup l with
  | none => rfl
  | some e => cases e <;> rfl

namespace FilledAt

/-- A walk that looks for nothing where a file was put comes to the same. -/
theorem walk_eq (h : FilledAt M t t') {ps : List Bytes}
    (hway : ∀ m ∈ M, t.PassesFrom l ps m → ∃ content, t.lookup m = some (.file content)) :
    t'.walk l ps = t.walk l ps := by
  induction ps generalizing l with
  | nil => rfl
  | cons piece ps ih =>
    by_cases hdir : t.lookup l = some .directory
    · have hdir' := h.directory_iff.mpr hdir
      rcases step_cases t l piece with ⟨next, hstep⟩ | ⟨hbusy, hdown, hnone⟩
      · rw [walk_of_step hdir hstep, walk_of_step hdir' (h.step hstep)]
        exact ih fun m hm hpasses => hway m hm (hpasses.tail hdir hstep)
      · have hstill : nameLimit < piece.length ∨ t'.lookup (l ++ [piece]) = none := by
          refine hnone.imp_right fun hnone => ?_
          have hm : l ++ [piece] ∉ M := by
            intro hm
            obtain ⟨content, hfile⟩ := hway _ hm (passesFrom_head hdir hbusy hdown)
            rw [hnone] at hfile
            cases hfile
          rw [h.elsewhere _ hm, hnone]
        rw [walk_of_no_step hdir hbusy hdown hnone, walk_of_no_step hdir' hbusy hdown hstill]
    · have hdir' : t'.lookup l ≠ some .directory := fun hd => hdir (h.directory_iff.mp hd)
      rw [Tree.walk, Tree.walk, if_pos hdir, if_pos hdir']

variable (h : FilledAt M t t') (hp : t.Clear M p)
include h hp

theorem resolve_eq : t'.resolve p = t.resolve p := by
  rw [Tree.resolve, Tree.resolve, h.origin_eq]
  simp only [h.walk_eq hp.way]

theorem creatable_eq : t'.creatable p = t.creatable p := by
  have hbody : (p.pieces.reverse.dropWhile (· == [])).reverse.dropLast <+: p.pieces := by
    refine (List.dropLast_prefix _).trans ?_
    rw [← List.reverse_suffix, List.reverse_reverse]
    exact List.dropWhile_suffix _
  have hwalk : t'.walk (t.origin p) (p.pieces.reverse.dropWhile (· == [])).reverse.dropLast =
      t.walk (t.origin p) (p.pieces.reverse.dropWhile (· == [])).reverse.dropLast := by
    obtain ⟨rest, hrest⟩ := hbody
    refine h.walk_eq fun m hm hpasses => hp.way m hm ?_
    rw [Passes, ← hrest]
    exact hpasses.append
  rw [Tree.creatable, Tree.creatable, h.origin_eq]
  simp only [hwalk, ne_eq, h.directory_iff]
  cases checkPath p with
  | error e => rfl
  | ok _ =>
    dsimp only [bind, Except.bind]
    split
    · rfl
    · cases t.walk (t.origin p) (p.pieces.reverse.dropWhile (· == [])).reverse.dropLast with
      | error e => rfl
      | ok parent =>
        dsimp only
        split_ifs
        · rfl
        · rfl
        · exact (creatable_arrival t' _).trans
            ((congrArg Except.ok (h.arrival_eq _)).trans (creatable_arrival t _).symm)
        · rfl

theorem readText_eq : t'.readText p = t.readText p := by
  have hread : t'.read p = t.read p := by
    rw [Tree.read, Tree.read, h.resolve_eq hp]
    cases hr : t.resolve p with
    | error e => rfl
    | ok l => simp only [bind, Except.bind, h.elsewhere l (hp.ends l (.inl hr))]
  rw [Tree.readText, Tree.readText, hread]

end FilledAt

/-- What is put elsewhere keeps a path clear. -/
theorem Clear.of_filledAt (hp : t.Clear M p) (h : FilledAt N t t') (hMN : ∀ l ∈ N, l ∉ M) :
    t'.Clear M p := by
  constructor
  · rintro l (hr | hc)
    · by_cases hl : l ∈ N
      · exact hMN l hl
      · exact hp.ends l (.inl (h.resolve_back hr hl))
    · exact hp.ends l (.inr (h.creatable_back hc))
  · rintro m hm ⟨ini, piece, rest, parent, hpieces, hwalk, hdir, hbusy, hdown, rfl⟩
    have hparent : parent ∉ N := fun hl => h.not_directory_of_mem hl hdir
    rw [h.origin_eq] at hwalk
    obtain ⟨content, hfile⟩ := hp.way _ hm ⟨ini, piece, rest, parent, hpieces,
      h.walk_back hwalk hparent, h.directory_iff.mp hdir, hbusy, hdown, rfl⟩
    exact h.file hfile

/-! ### Writing and copying in both trees -/

/-- Links lead at once to what is no link. -/
def Direct (t : Tree) : Prop :=
  ∀ l target, t.lookup l = some (.link target) → ∀ further, t.lookup target ≠ some (.link further)

theorem Plain.direct (h : t.Plain) : t.Direct := fun l target hl => absurd hl (h.no_link l target)

theorem FilledAt.direct (h : FilledAt M t t') (ht : t.Direct) : t'.Direct := by
  intro l target hl further hfurther
  exact ht l target (h.link_iff.mp hl) further (h.link_iff.mp hfurther)

/-- A file is not created in place of a link. -/
theorem Direct.not_link (ht : t.Direct) (hc : t.creatable p = .ok l) (target : Location) :
    t.lookup l ≠ some (.link target) := by
  obtain ⟨parent, name, _, rfl⟩ := names_of_creatable hc
  cases hthere : t.lookup (parent ++ [name]) with
  | none =>
    rw [arrival, hthere, hthere]
    exact (Option.some_ne_none _).symm
  | some e =>
    rw [arrival_of_entry hthere]
    cases e with
    | link target' => exact ht _ target' hthere target
    | _ =>
      change t.lookup (parent ++ [name]) ≠ _
      rw [hthere]
      intro h
      cases h

/-- There is a file at a path. -/
def FileAt (t : Tree) (p : Path) : Prop :=
  ∃ l content, t.resolve p = .ok l ∧ t.lookup l = some (.file content)

/-- The same change in two trees: none, or a file that is put at one of the locations. -/
inductive SameChange (W : Set Location) (t t' : Tree) : Tree → Tree → Prop where
  | kept : SameChange W t t' t t'
  | put {l : Location} (hl : l ∈ W) (content : Bytes) :
      SameChange W t t' (t.put l (.file content)) (t'.put l (.file content))

namespace SameChange
variable {W : Set Location} {a b a' b' : Tree} (h : SameChange W a b a' b')
include h

/-- What was filled at some of the locations still is, in the first tree. -/
theorem left (hW : W ⊆ M) (ha : FilledAt M t a) : FilledAt M t a' := by
  cases h with
  | kept => exact ha
  | put hl content => exact ha.put (hW hl) content

/-- What was filled at some of the locations still is, in the second tree. -/
theorem right (hW : W ⊆ M) (hb : FilledAt M t b) : FilledAt M t b' := by
  cases h with
  | kept => exact hb
  | put hl content => exact hb.put (hW hl) content

/-- The difference between the trees stays where it was. -/
theorem both (hW : ∀ l ∈ W, l ∉ M) (hne : [] ∉ W) (hab : FilledAt M a b) : FilledAt M a' b' := by
  cases h with
  | kept => exact hab
  | put hl content => exact hab.put_both (hW _ hl) (fun he => hne (he ▸ hl)) _

end SameChange

/-- The same failure in two trees, or the same change. -/
inductive SameOutcome (W : Set Location) (t t' : Tree) :
    Except IoError Tree → Except IoError Tree → Prop where
  | ok {a b : Tree} (h : SameChange W t t' a b) : SameOutcome W t t' (.ok a) (.ok b)
  | error (e : IoError) : SameOutcome W t t' (.error e) (.error e)

namespace FilledAt
variable {W : Set Location} (h : FilledAt M t t')
include h

/-- Writing at a path that is clear comes to the same. -/
theorem write (ht : t.Direct) (hp : t.Clear M p)
    (hW : ∀ l, t.creatable p = .ok l → t.Fillable l → l ∈ W) (content : Bytes) :
    SameOutcome W t t' (t.write p content) (t'.write p content) := by
  rw [Tree.write, Tree.write, h.creatable_eq hp]
  cases hcreatable : t.creatable p with
  | error e => exact .error e
  | ok l =>
    simp only [bind, Except.bind, h.elsewhere l (hp.ends l (.inr hcreatable))]
    have hnot := ht.not_link hcreatable
    have hput := hW l hcreatable
    cases hl : t.lookup l with
    | none => exact .ok (.put (hput (.inl hl)) content)
    | some e =>
      cases e with
      | directory => exact .error _
      | file old => exact .ok (.put (hput (.inr ⟨old, hl⟩)) content)
      | link target => exact absurd hl (hnot target)
      | device d =>
        cases d with
        | full =>
          dsimp only
          split
          · exact .ok .kept
          · exact .error _
        | terminal => exact .error _
        | _ => exact .ok .kept

/-- Copying from a path that is clear to another comes to the same. -/
theorem copy {q : Path} (ht : t.Direct) (hq : t.Clear M q) (hp : t.Clear M p)
    (hW : t.FileAt q → ∀ l, t.creatable p = .ok l → t.Fillable l → l ∈ W) :
    SameOutcome W t t' (t.copy q p) (t'.copy q p) := by
  rw [Tree.copy, Tree.copy, h.resolve_eq hq]
  cases hresolve : t.resolve q with
  | error e => exact .error e
  | ok l =>
    simp only [bind, Except.bind, h.elsewhere l (hq.ends l (.inl hresolve))]
    cases hl : t.lookup l with
    | none => exact .error _
    | some e =>
      cases e with
      | file content => exact h.write ht hp (hW ⟨l, content, hresolve, hl⟩) content
      | _ => exact .error _

end FilledAt
end NotebookTidy.Files.Tree
