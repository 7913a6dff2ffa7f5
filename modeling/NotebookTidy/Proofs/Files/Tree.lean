import Mathlib.Data.List.Basic
import NotebookTidy.Files.Tree
import NotebookTidy.Proofs.Failing

/-! Files before and after one of them is written.

A file that is put at a location is found there, and nothing changes anywhere else
(`lookup_put`). A path that a file can be created at names an entry of a directory
(`Names`), and what is read at such a path is what was written there (`put_at`), also if
the entry is a link. Since the file is put where there was nothing, or a file, every walk goes
where it went before (`walk_put`), and every path leads where it led (`resolve_put`). -/
namespace NotebookTidy.Files.Tree

/-! ### Entries -/

theorem lookup_root (t : Tree) : t.lookup [] = some .directory := by
  rw [lookup, if_pos rfl]

/-- Replacing an entry keeps its location. -/
theorem find?_replace (entries : List (Location × Entry)) (l : Location) (e : Entry)
    (l' : Location) : (entries.map fun x => if x.1 = l then (l, e) else x).find? (·.1 == l') =
      (entries.find? (·.1 == l')).map fun x => if x.1 = l then (l, e) else x := by
  rw [List.find?_map]
  congr 2
  funext x
  by_cases h : x.1 = l <;> simp [h]

theorem location_of_find? {entries : List (Location × Entry)} {l : Location}
    {x : Location × Entry} (h : entries.find? (·.1 == l) = some x) : x.1 = l := by
  simpa using List.find?_some h

/-- An entry is there, or none is. -/
theorem find?_cases (entries : List (Location × Entry)) (l : Location) :
    (entries.any (·.1 == l) = true ∧ ∃ x, entries.find? (·.1 == l) = some x) ∨
      (entries.any (·.1 == l) = false ∧ entries.find? (·.1 == l) = none) := by
  cases hany : entries.any (·.1 == l) with
  | true =>
    rw [List.any_eq_true] at hany
    exact .inl ⟨rfl, Option.isSome_iff_exists.mp (List.find?_isSome.mpr hany)⟩
  | false =>
    refine .inr ⟨rfl, List.find?_eq_none.mpr ?_⟩
    rwa [List.any_eq_false] at hany

theorem lookup_put (t : Tree) {l : Location} (hl : l ≠ []) (e : Entry) (l' : Location) :
    (t.put l e).lookup l' = if l' = l then some e else t.lookup l' := by
  by_cases hroot : l' = []
  · subst hroot
    rw [lookup_root, lookup_root, if_neg hl.symm]
  rw [lookup, lookup, if_neg hroot, if_neg hroot, put]
  rcases find?_cases t.entries l with ⟨hany, x, hx⟩ | ⟨hany, hnone⟩
  · rw [if_pos hany, find?_replace, Option.map_map]
    by_cases hsame : l' = l
    · subst hsame
      simp [hx, location_of_find? hx]
    · rw [if_neg hsame]
      cases hy : t.entries.find? (·.1 == l') with
      | none => rfl
      | some y =>
        have hyl : y.1 ≠ l := fun he => hsame ((location_of_find? hy).symm.trans he)
        simp [hyl]
  · rw [if_neg (by simp [hany]), List.find?_append]
    by_cases hsame : l' = l
    · subst hsame
      simp [hnone]
    · simp [hsame, Ne.symm hsame]

@[simp] theorem workDir_put (t : Tree) (l : Location) (e : Entry) :
    (t.put l e).workDir = t.workDir := by
  rw [put]
  split <;> rfl

/-- The entry that is put last is the one that counts. -/
theorem put_put (t : Tree) (l : Location) (e e' : Entry) : (t.put l e).put l e' = t.put l e' := by
  have hreplace : ∀ x : Location × Entry,
      (if (if x.1 = l then (l, e) else x).1 = l then (l, e') else if x.1 = l then (l, e) else x) =
        if x.1 = l then (l, e') else x := by
    intro x
    by_cases h : x.1 = l <;> simp [h]
  rcases find?_cases t.entries l with ⟨hany, x, hx⟩ | ⟨hany, hnone⟩
  · have hstill : (t.entries.map fun x => if x.1 = l then (l, e) else x).any (·.1 == l) = true :=
      List.any_eq_true.mpr ⟨_, List.mem_map_of_mem (List.mem_of_find?_eq_some hx),
        by simp [location_of_find? hx]⟩
    simp only [put, if_pos hany, if_pos hstill, List.map_map]
    congr 2
    funext x
    exact hreplace x
  · have hkept : ∀ x ∈ t.entries, (if x.1 = l then (l, e') else x) = x := fun x hx =>
      if_neg (by simpa using List.find?_eq_none.mp hnone x hx)
    have hstill : (t.entries ++ [(l, e)]).any (·.1 == l) = true := by simp
    simp only [put, hany, Bool.false_eq_true, if_false, if_pos hstill, List.map_append]
    rw [List.map_congr_left hkept, List.map_id']
    simp

/-- Nothing, or a file: what a file may be put in place of, and no walk goes through. -/
def Fillable (t : Tree) (l : Location) : Prop :=
  t.lookup l = none ∨ ∃ content, t.lookup l = some (.file content)

theorem Fillable.not_directory {t : Tree} {l : Location} (h : t.Fillable l) :
    t.lookup l ≠ some .directory := by
  rcases h with h | ⟨content, h⟩ <;> simp [h]

theorem Fillable.ne_nil {t : Tree} {l : Location} (h : t.Fillable l) : l ≠ [] := by
  rintro rfl
  exact h.not_directory t.lookup_root

/-! ### Walks -/

/-- Where an entry leads: a link to its target, and any other entry to itself. -/
def leadsTo (l : Location) : Entry → Location
  | .link target => target
  | _ => l

/-- A step of a walk: it stays, goes up, or goes where an entry leads. -/
inductive Step (t : Tree) (l : Location) (piece : Bytes) : Location → Prop where
  | idle (idle : isIdle piece = true) : Step t l piece l
  | up (busy : isIdle piece = false) (up : piece = above) : Step t l piece l.dropLast
  | entry {e : Entry} (busy : isIdle piece = false) (down : piece ≠ above)
      (short : piece.length ≤ nameLimit) (there : t.lookup (l ++ [piece]) = some e) :
      Step t l piece (leadsTo (l ++ [piece]) e)

/-- A step goes to one place only. -/
theorem Step.unique {t : Tree} {l a b : Location} {piece : Bytes} (ha : Step t l piece a)
    (hb : Step t l piece b) : a = b := by
  cases ha <;> cases hb <;> simp_all

/-- A walk needs a directory for each of its steps. -/
theorem walk_cons_iff {t : Tree} {l l' : Location} {piece : Bytes} {pieces : List Bytes} :
    t.walk l (piece :: pieces) = .ok l' ↔
      t.lookup l = some .directory ∧ ∃ next, Step t l piece next ∧ t.walk next pieces = .ok l' := by
  have hgoes : ∀ {next}, Step t l piece next → (t.walk next pieces = .ok l' ↔
      ∃ next, Step t l piece next ∧ t.walk next pieces = .ok l') := fun hnext =>
    ⟨fun h => ⟨_, hnext, h⟩, fun ⟨_, hstep, h⟩ => hnext.unique hstep ▸ h⟩
  have hstops : (∀ next, ¬ Step t l piece next) →
      ¬ ∃ next, Step t l piece next ∧ t.walk next pieces = .ok l' :=
    fun hnone ⟨_, hstep, _⟩ => hnone _ hstep
  rw [walk]
  by_cases hdir : t.lookup l = some .directory
  · simp only [hdir, ne_eq, not_true_eq_false, if_false, true_and]
    cases hidle : isIdle piece with
    | true => exact hgoes (.idle hidle)
    | false =>
      by_cases hup : piece = above
      · simpa [hup] using hgoes (.up hidle hup)
      · by_cases hlong : nameLimit < piece.length
        · have hnone := hstops fun next hstep => by
            cases hstep <;> simp_all
            omega
          simpa [hup, hlong] using hnone
        · cases hthere : t.lookup (l ++ [piece]) with
          | none =>
            have hnone := hstops fun next hstep => by cases hstep <;> simp_all
            simpa [hup, hlong] using hnone
          | some e =>
            have hentry := hgoes (.entry hidle hup (Nat.le_of_not_lt hlong) hthere)
            cases e <;> simpa [hup, hlong, leadsTo] using hentry
  · simp [hdir]

theorem walk_append_iff {t : Tree} {l l' : Location} {ps qs : List Bytes} :
    t.walk l (ps ++ qs) = .ok l' ↔ ∃ next, t.walk l ps = .ok next ∧ t.walk next qs = .ok l' := by
  induction ps generalizing l with
  | nil => simp [walk]
  | cons piece ps ih =>
    simp only [List.cons_append, walk_cons_iff, ih]
    constructor
    · rintro ⟨hdir, n, hstep, next, hps, hqs⟩
      exact ⟨next, ⟨hdir, n, hstep, hps⟩, hqs⟩
    · rintro ⟨next, ⟨hdir, n, hstep, hps⟩, hqs⟩
      exact ⟨hdir, n, hstep, next, hps, hqs⟩

/-- A step goes where it went before a file was put. -/
theorem Step.put {t : Tree} {m : Location} (hm : t.Fillable m) (content : Bytes)
    {l l' : Location} {piece : Bytes} (h : Step t l piece l') :
    Step (t.put m (.file content)) l piece l' := by
  cases h with
  | idle hidle => exact .idle hidle
  | up hbusy hup => exact .up hbusy hup
  | @entry e hbusy hdown hshort hthere =>
    have hlookup := lookup_put t hm.ne_nil (.file content) (l ++ [piece])
    by_cases hsame : l ++ [piece] = m
    · have hfile : leadsTo (l ++ [piece]) e = leadsTo (l ++ [piece]) (.file content) := by
        rcases hm with hnone | ⟨old, hold⟩
        · rw [← hsame, hthere] at hnone
          cases hnone
        · rw [← hsame, hthere] at hold
          cases hold
          rfl
      rw [hfile]
      exact .entry hbusy hdown hshort (by rw [hlookup, if_pos hsame])
    · exact .entry hbusy hdown hshort (by rw [hlookup, if_neg hsame, hthere])

/-- A walk goes where it went before a file was put. -/
theorem walk_put {t : Tree} {m : Location} (hm : t.Fillable m) (content : Bytes)
    {l l' : Location} {ps : List Bytes} (h : t.walk l ps = .ok l') :
    (t.put m (.file content)).walk l ps = .ok l' := by
  induction ps generalizing l with
  | nil => exact h
  | cons piece ps ih =>
    obtain ⟨hdir, next, hstep, hwalk⟩ := walk_cons_iff.mp h
    have hl : l ≠ m := fun he => hm.not_directory (he ▸ hdir)
    refine walk_cons_iff.mpr ⟨?_, next, hstep.put hm content, ih hwalk⟩
    rw [lookup_put t hm.ne_nil, if_neg hl, hdir]

theorem walk_of_resolve {t : Tree} {p : Path} {l : Location} (h : t.resolve p = .ok l) :
    checkPath p = .ok () ∧ t.walk (t.origin p) p.pieces = .ok l := by
  obtain ⟨_, hcheck, hwalk⟩ := exists_of_bind_eq_ok h
  exact ⟨hcheck, hwalk⟩

/-- A path leads where it led before a file was put. -/
theorem resolve_put {t : Tree} {m : Location} (hm : t.Fillable m) (content : Bytes) {p : Path}
    {l : Location} (h : t.resolve p = .ok l) :
    (t.put m (.file content)).resolve p = .ok l := by
  obtain ⟨hcheck, hwalk⟩ := walk_of_resolve h
  rw [resolve, hcheck, origin, workDir_put]
  exact walk_put hm content hwalk

/-! ### Paths that name an entry -/

/-- The last piece of a path is a name, and the pieces before it lead to a directory. -/
structure Names (t : Tree) (p : Path) (parent : Location) (name : Bytes) : Prop where
  usable : checkPath p = .ok ()
  leads : ∃ ini, p.pieces = ini ++ [name] ∧ t.walk (t.origin p) ini = .ok parent
  directory : t.lookup parent = some .directory
  busy : isIdle name = false
  down : name ≠ above
  short : name.length ≤ nameLimit

/-- The entry at a location, or the one to be. -/
def arrival (t : Tree) (l : Location) : Location :=
  match t.lookup l with
  | some e => leadsTo l e
  | none => l

/-- A name is what a path ends in, or there are empty pieces at its end. -/
theorem trimmed_cases (p : Path) :
    (∃ ini name, p.pieces = ini ++ [name] ∧ name ≠ [] ∧
      (p.pieces.reverse.dropWhile (· == [])).reverse = ini ++ [name]) ∨
    ((∀ ini name, p.pieces = ini ++ [name] → name = []) ∧
      (p.pieces.reverse.dropWhile (· == [])).reverse.length < p.pieces.length) := by
  rcases List.eq_nil_or_concat p.pieces with hnil | ⟨ini, name, hpieces⟩
  · exact absurd hnil (Text.splitAt_ne_nil slash p.bytes)
  · rw [List.concat_eq_append] at hpieces
    rw [hpieces, List.reverse_concat, List.dropWhile_cons]
    by_cases hname : name = []
    · refine .inr ⟨fun ini' name' h => ?_, ?_⟩
      · rw [← (List.append_singleton_inj.mp h).2, hname]
      · have hle := (List.dropWhile_suffix (· == []) : _ <:+ ini.reverse).length_le
        simp only [hname, beq_self_eq_true, if_true, List.length_reverse, List.length_append,
          List.length_singleton] at hle ⊢
        omega
    · exact .inl ⟨ini, name, rfl, hname, by simp [hname]⟩

/-- Where a path ends in a piece that is not empty, that piece is created. -/
theorem creatable_eq {t : Tree} {p : Path} {ini : List Bytes} {name : Bytes}
    (hcheck : checkPath p = .ok ()) (hpieces : p.pieces = ini ++ [name])
    (hbody : (p.pieces.reverse.dropWhile (· == [])).reverse = ini ++ [name]) :
    t.creatable p = (t.walk (t.origin p) ini).bind fun parent =>
      if t.lookup parent ≠ some .directory then .error .notADirectory
      else if name = here ∨ name = above then .error .isADirectory
      else if nameLimit < name.length then .error .nameTooLong
      else .ok (t.arrival (parent ++ [name])) := by
  rw [creatable, hcheck]
  simp only [bind, Except.bind]
  rw [hbody, hpieces]
  simp only [List.getLast?_concat, List.dropLast_concat, Nat.lt_irrefl, or_false, arrival]
  cases t.walk (t.origin p) ini with
  | error e => rfl
  | ok parent =>
    dsimp only
    cases t.lookup (parent ++ [name]) with
    | none => rfl
    | some e => cases e <;> rfl

theorem names_of_creatable {t : Tree} {p : Path} {m : Location} (h : t.creatable p = .ok m) :
    ∃ parent name, Names t p parent name ∧ m = t.arrival (parent ++ [name]) := by
  obtain ⟨_, hcheck, hbody⟩ := exists_of_bind_eq_ok h
  rcases trimmed_cases p with ⟨ini, name, hpieces, hname, htrimmed⟩ | ⟨_, hshort⟩
  · rw [creatable_eq hcheck hpieces htrimmed] at h
    obtain ⟨parent, hwalk, h⟩ := exists_of_bind_eq_ok h
    split at h
    · cases h
    next hdir =>
    split at h
    · cases h
    next hbusy =>
    obtain ⟨hhere, hdown⟩ := not_or.mp hbusy
    split at h
    · cases h
    next hlong =>
    exact ⟨parent, name, ⟨hcheck, ⟨ini, hpieces, hwalk⟩, by simpa using hdir,
      by simp [isIdle, hname, hhere], hdown, Nat.le_of_not_lt hlong⟩, (Except.ok.inj h).symm⟩
  · dsimp only at hbody
    split at hbody
    · cases hbody
    · obtain ⟨parent, _, hbody⟩ := exists_of_bind_eq_ok hbody
      split at hbody
      · cases hbody
      · rw [if_pos (Or.inr (Or.inr hshort))] at hbody
        cases hbody

theorem Names.creatable {t : Tree} {p : Path} {parent : Location} {name : Bytes}
    (h : Names t p parent name) : t.creatable p = .ok (t.arrival (parent ++ [name])) := by
  obtain ⟨hcheck, ⟨ini, hpieces, hwalk⟩, hdir, hbusy, hdown, hshort⟩ := h
  simp only [isIdle, Bool.or_eq_false_iff, beq_eq_false_iff_ne] at hbusy
  rcases trimmed_cases p with ⟨ini', name', hpieces', hname, hbody⟩ | ⟨hempty, _⟩
  · obtain ⟨rfl, rfl⟩ := List.append_singleton_inj.mp (hpieces'.symm.trans hpieces)
    rw [creatable_eq hcheck hpieces hbody, hwalk]
    simp [Except.bind, hdir, hbusy.2, hdown, Nat.not_lt.mpr hshort]
  · exact absurd (hempty ini name hpieces) hbusy.1

/-- A path that names an entry is resolved to where the entry leads. -/
theorem Names.resolve_iff {t : Tree} {p : Path} {parent : Location} {name : Bytes}
    (h : Names t p parent name) {l : Location} :
    t.resolve p = .ok l ↔
      t.lookup (parent ++ [name]) ≠ none ∧ l = t.arrival (parent ++ [name]) := by
  obtain ⟨hcheck, ⟨ini, hpieces, hwalk⟩, hdir, hbusy, hdown, hshort⟩ := h
  have hresolve : t.resolve p = t.walk (t.origin p) (ini ++ [name]) := by
    rw [resolve, hcheck, ← hpieces]
    rfl
  rw [hresolve, walk_append_iff, arrival]
  constructor
  · rintro ⟨parent', hwalk', hlast⟩
    obtain rfl : parent = parent' := Except.ok.inj (hwalk.symm.trans hwalk')
    obtain ⟨_, next, hstep, hnext⟩ := walk_cons_iff.mp hlast
    obtain rfl : next = l := Except.ok.inj hnext
    cases hstep with
    | idle hidle => simp [hbusy] at hidle
    | up _ hup => exact absurd hup hdown
    | entry _ _ _ hthere => simp [hthere]
  · rintro ⟨hsome, rfl⟩
    obtain ⟨e, hthere⟩ := Option.ne_none_iff_exists'.mp hsome
    refine ⟨parent, hwalk, walk_cons_iff.mpr ⟨hdir, _, .entry hbusy hdown hshort hthere, ?_⟩⟩
    rw [hthere]
    rfl

/-- What is there at a path is what a file would be written over. -/
theorem eq_of_resolve_of_creatable {t : Tree} {p : Path} {l m : Location}
    (hr : t.resolve p = .ok l) (hc : t.creatable p = .ok m) : m = l := by
  obtain ⟨parent, name, hnames, rfl⟩ := names_of_creatable hc
  exact (hnames.resolve_iff.mp hr).2.symm

/-- A file that was put at a path is there, and would be written over. -/
theorem put_at {t : Tree} {p : Path} {m : Location} (hc : t.creatable p = .ok m)
    (hm : t.Fillable m) (content : Bytes) :
    (t.put m (.file content)).resolve p = .ok m ∧
      (t.put m (.file content)).creatable p = .ok m := by
  obtain ⟨parent, name, ⟨hcheck, ⟨ini, hpieces, hwalk⟩, hdir, hbusy, hdown, hshort⟩, harrival⟩ :=
    names_of_creatable hc
  have hparent : parent ≠ m := fun he => hm.not_directory (he ▸ hdir)
  have hnames : Names (t.put m (.file content)) p parent name := by
    refine ⟨hcheck, ⟨ini, hpieces, ?_⟩, ?_, hbusy, hdown, hshort⟩
    · rw [origin, workDir_put]
      exact walk_put hm content hwalk
    · rw [lookup_put t hm.ne_nil, if_neg hparent, hdir]
  have hsame : (t.put m (.file content)).lookup (parent ++ [name]) ≠ none ∧
      (t.put m (.file content)).arrival (parent ++ [name]) = m := by
    rw [arrival, lookup_put t hm.ne_nil]
    by_cases hself : parent ++ [name] = m
    · simp [hself, leadsTo]
    · rw [if_neg hself]
      rw [arrival] at harrival
      cases hthere : t.lookup (parent ++ [name]) with
      | none =>
        rw [hthere] at harrival
        exact absurd harrival.symm hself
      | some e =>
        rw [hthere] at harrival
        simp [harrival]
  refine ⟨hnames.resolve_iff.mpr ⟨hsame.1, hsame.2.symm⟩, ?_⟩
  rw [hnames.creatable, hsame.2]

/-! ### Reading, writing, copying -/

theorem read_of_file {t : Tree} {p : Path} {l : Location} {content : Bytes}
    (hr : t.resolve p = .ok l) (hl : t.lookup l = some (.file content)) :
    t.read p = .ok content := by
  simp only [read, hr, hl, bind, Except.bind]

/-- What is read is the content of a file, unless it is the nothing that a device holds. -/
theorem file_of_read {t : Tree} {p : Path} {content : Bytes} (h : t.read p = .ok content)
    (hne : content ≠ []) : ∃ l, t.resolve p = .ok l ∧ t.lookup l = some (.file content) := by
  obtain ⟨l, hr, h⟩ := exists_of_bind_eq_ok h
  refine ⟨l, hr, ?_⟩
  cases hl : t.lookup l with
  | none =>
    rw [hl] at h
    cases h
  | some e =>
    rw [hl] at h
    cases e with
    | file content' =>
      cases h
      rfl
    | device d => cases d <;> cases h <;> exact absurd rfl hne
    | directory => cases h
    | link target => cases h

/-- What is read where a file may be put is a file. -/
theorem Fillable.file_of_read {t : Tree} {p : Path} {l : Location} {content : Bytes}
    (hl : t.Fillable l) (hr : t.resolve p = .ok l) (hread : t.read p = .ok content) :
    ∃ content, t.lookup l = some (.file content) := by
  refine hl.resolve_left fun hnone => ?_
  simp only [read, hr, hnone, bind, Except.bind] at hread
  cases hread

/-- A text is read from what is there. -/
theorem read_of_readText {t : Tree} {p : Path} {text : String} (h : t.readText p = .ok text) :
    ∃ content, t.read p = .ok content ∧ Text.decode? content = some text := by
  obtain ⟨content, hread, h⟩ := exists_of_bind_eq_ok h
  cases hdecode : Text.decode? content with
  | none =>
    rw [hdecode] at h
    cases h
  | some s =>
    rw [hdecode] at h
    cases h
    exact ⟨content, hread, hdecode⟩

theorem readText_of_read {t : Tree} {p : Path} {content : Bytes} {text : String}
    (hread : t.read p = .ok content) (htext : Text.decode? content = some text) :
    t.readText p = .ok text := by
  simp only [readText, hread, htext, bind, Except.bind]

theorem resolve_of_read {t : Tree} {p : Path} {content : Bytes} (h : t.read p = .ok content) :
    ∃ l, t.resolve p = .ok l := by
  obtain ⟨l, hr, _⟩ := exists_of_bind_eq_ok h
  exact ⟨l, hr⟩

theorem write_of_fillable {t : Tree} {p : Path} {m : Location} (hc : t.creatable p = .ok m)
    (hm : t.Fillable m) (content : Bytes) :
    t.write p content = .ok (t.put m (.file content)) := by
  rcases hm with hnone | ⟨old, hold⟩
  · simp only [write, hc, hnone, bind, Except.bind]
  · simp only [write, hc, hold, bind, Except.bind]

theorem creatable_of_write {t t' : Tree} {p : Path} {content : Bytes}
    (h : t.write p content = .ok t') : ∃ m, t.creatable p = .ok m := by
  obtain ⟨m, hm, _⟩ := exists_of_bind_eq_ok h
  exact ⟨m, hm⟩

/-- What is written in place of what was read is put where that was, and is read there. -/
theorem write_over {t t' : Tree} {p : Path} {content new : Bytes} (hread : t.read p = .ok content)
    (hne : content ≠ []) (hwrite : t.write p new = .ok t') :
    t'.read p = .ok new ∧ t'.write p new = .ok t' := by
  obtain ⟨l, hl, hfile⟩ := file_of_read hread hne
  obtain ⟨m, hm⟩ := creatable_of_write hwrite
  obtain rfl := eq_of_resolve_of_creatable hl hm
  have hfill : t.Fillable m := .inr ⟨content, hfile⟩
  rw [write_of_fillable hm hfill] at hwrite
  cases hwrite
  obtain ⟨hresolve, hcreatable⟩ := put_at hm hfill new
  have hthere : (t.put m (.file new)).lookup m = some (.file new) := by
    rw [lookup_put t hfill.ne_nil, if_pos rfl]
  refine ⟨read_of_file hresolve hthere, ?_⟩
  rw [write_of_fillable hcreatable (.inr ⟨new, hthere⟩), put_put]

/-! ### Trees of directories and files -/

/-- There are directories and files only, and no devices or links. -/
def Plain (t : Tree) : Prop :=
  ∀ l e, t.lookup l = some e → e = .directory ∨ ∃ content, e = .file content

theorem plain_of_entries {t : Tree}
    (h : ∀ x ∈ t.entries, x.2 = .directory ∨ ∃ content, x.2 = .file content) : t.Plain := by
  intro l e hl
  rw [lookup] at hl
  split at hl
  · exact .inl (Option.some.inj hl).symm
  · obtain ⟨x, hx, rfl⟩ := Option.map_eq_some_iff.mp hl
    exact h x (List.mem_of_find?_eq_some hx)

theorem Plain.no_link {t : Tree} (ht : t.Plain) (l target : Location) :
    t.lookup l ≠ some (.link target) := by
  intro h
  rcases ht l _ h with he | ⟨content, he⟩ <;> cases he

/-- A file is put in place of a file, or of nothing. -/
theorem Plain.put_of_write {t t' : Tree} (ht : t.Plain) {p : Path} {content : Bytes}
    (h : t.write p content = .ok t') :
    ∃ m, t.creatable p = .ok m ∧ t.Fillable m ∧ t' = t.put m (.file content) := by
  obtain ⟨m, hc, h⟩ := exists_of_bind_eq_ok h
  cases hm : t.lookup m with
  | none =>
    rw [hm] at h
    exact ⟨m, hc, .inl hm, (Except.ok.inj h).symm⟩
  | some e =>
    rw [hm] at h
    rcases ht m e hm with rfl | ⟨old, rfl⟩
    · cases h
    · exact ⟨m, hc, .inr ⟨old, hm⟩, (Except.ok.inj h).symm⟩

/-- What is copied is a file. -/
theorem write_of_copy {t t' : Tree} {source target : Path} (h : t.copy source target = .ok t') :
    ∃ l content, t.resolve source = .ok l ∧ t.lookup l = some (.file content) ∧
      t.write target content = .ok t' := by
  obtain ⟨l, hr, h⟩ := exists_of_bind_eq_ok h
  cases hl : t.lookup l with
  | none =>
    rw [hl] at h
    cases h
  | some e =>
    rw [hl] at h
    cases e with
    | file content => exact ⟨l, content, hr, hl, h⟩
    | _ => cases h

theorem Plain.put {t : Tree} (ht : t.Plain) {m : Location} (hm : m ≠ []) (content : Bytes) :
    (t.put m (.file content)).Plain := by
  intro l e h
  rw [lookup_put t hm] at h
  split at h
  · exact .inr ⟨content, (Option.some.inj h).symm⟩
  · exact ht l e h

end NotebookTidy.Files.Tree
