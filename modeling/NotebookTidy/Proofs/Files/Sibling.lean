import Mathlib.Data.List.TakeWhile
import NotebookTidy.Proofs.Files.Tree
import NotebookTidy.Proofs.Text.Pieces

/-! The file beside a file that its cleaned copy goes to.

A path that has a file name falls into what comes before the name, the name, and idle pieces
(`fileName?_cases`). The cleaned copy has another name, eight bytes longer
(`length_cleanedName`); so, where there are no links, it is never the file itself
(`cleaned_elsewhere`). It goes into the directory of the file, unless its name or its path is too
long (`names_beside`). -/
namespace NotebookTidy.Files
namespace Path

/-! ### The pieces of a path -/

theorem pieces_ne_nil (p : Path) : p.pieces ≠ [] := Text.splitAt_ne_nil slash p.bytes

theorem slash_not_mem {p : Path} {piece : Bytes} (h : piece ∈ p.pieces) : slash ∉ piece :=
  Text.not_mem_of_mem_splitAt h

theorem pieces_ofPieces {pieces : List Bytes} (hne : pieces ≠ [])
    (h : ∀ piece ∈ pieces, slash ∉ piece) : (ofPieces pieces).pieces = pieces :=
  Text.splitAt_joinWith hne h

theorem parts_append (p : Path) : p.parts.1 ++ p.parts.2 = p.pieces := by
  rw [parts]
  split
  · next h => exact h.symm
  · next first rest h =>
    split
    · exact h.symm
    · exact h.symm

/-- Pieces are those up to the last busy one, and idle ones after them. -/
theorem trimIdle_append (pieces : List Bytes) :
    ∃ idle, (∀ piece ∈ idle, isIdle piece = true) ∧ pieces = trimIdle pieces ++ idle := by
  refine ⟨(pieces.reverse.takeWhile isIdle).reverse, fun piece h => ?_, ?_⟩
  · exact List.mem_takeWhile_imp (List.mem_reverse.mp h)
  · rw [trimIdle, ← List.reverse_append, List.takeWhile_append_dropWhile, List.reverse_reverse]

theorem isIdle_of_getLast?_trimIdle {pieces : List Bytes} {piece : Bytes}
    (h : (trimIdle pieces).getLast? = some piece) : isIdle piece = false := by
  rw [trimIdle, List.getLast?_reverse] at h
  have hnot := List.head?_dropWhile_not isIdle pieces.reverse
  rw [h] at hnot
  simpa using hnot

/-- What says where a path starts is idle. -/
theorem isIdle_of_mem_start {p : Path} {piece : Bytes} (h : piece ∈ p.parts.1) :
    isIdle piece = true := by
  rw [parts] at h
  split at h
  · cases h
  · split at h
    · next hstart =>
      rw [List.mem_singleton.mp h]
      rcases hstart with hhere | ⟨hnil, _⟩ <;> simp [isIdle, *]
    · cases h

/-- The busy pieces of a path end in its file name, if it has one, or go up last, if there are
any. -/
theorem fileName?_cases (p : Path) :
    (∃ before name idle, p.fileName? = some name ∧ p.pieces = before ++ name :: idle ∧
      (∀ piece ∈ idle, isIdle piece = true) ∧ isIdle name = false ∧ name ≠ above) ∨
    (p.fileName? = none ∧ ((∀ piece ∈ p.pieces, isIdle piece = true) ∨
      ∃ before idle, p.pieces = before ++ above :: idle ∧ ∀ piece ∈ idle, isIdle piece = true)) := by
  obtain ⟨idle, hidle, hbody⟩ := trimIdle_append p.parts.2
  cases hlast : (trimIdle p.parts.2).getLast? with
  | none =>
    rw [List.getLast?_eq_none_iff] at hlast
    refine .inr ⟨by rw [fileName?, hlast]; rfl, .inl fun piece hpiece => ?_⟩
    rw [← parts_append, hbody, hlast] at hpiece
    rcases List.mem_append.mp hpiece with h | h
    · exact isIdle_of_mem_start h
    · exact hidle piece h
  | some name =>
    have hbusy := isIdle_of_getLast?_trimIdle hlast
    obtain ⟨before, hbefore⟩ := List.getLast?_eq_some_iff.mp hlast
    have hpieces : p.pieces = (p.parts.1 ++ before) ++ name :: idle := by
      rw [← parts_append, hbody, hbefore]
      simp
    by_cases hup : name = above
    · exact .inr ⟨by simp [fileName?, hlast, hup],
        .inr ⟨p.parts.1 ++ before, idle, by rw [hpieces, hup], hidle⟩⟩
    · exact .inl ⟨_, name, idle, by simp [fileName?, hlast, hup], hpieces, hidle, hbusy, hup⟩

/-- A path, and each of its pieces, is short enough to be used. -/
structure Short (p : Path) : Prop where
  bytes : p.bytes.length < Tree.pathLimit
  pieces : ∀ piece ∈ p.pieces, piece.length ≤ Tree.nameLimit

/-! ### The name of the cleaned copy -/

theorem splitExtension_cases (name : Bytes) :
    splitExtension name = (name, none) ∨
      ∃ stem ext, splitExtension name = (stem, some ext) ∧ name = stem ++ dot :: ext := by
  rw [splitExtension]
  split
  · next ext before more h =>
    dsimp only
    split
    · exact .inl rfl
    · refine .inr ⟨_, ext, rfl, ?_⟩
      have hsplit : Text.splitAt dot name = (before :: more).reverse ++ [ext] := by
        rw [← List.reverse_cons, ← h, List.reverse_reverse]
      rw [← Text.joinWith_concat dot (by simp), ← hsplit, Text.joinWith_splitAt]
  · exact .inl rfl

theorem length_cleanedName (name : Bytes) : (cleanedName name).length = name.length + 8 := by
  have hmarker : marker.length = 7 := by decide +kernel
  rcases splitExtension_cases name with h | ⟨stem, ext, h, rfl⟩
  · simp [cleanedName, h, hmarker]
  · simp [cleanedName, h, hmarker]
    omega

/-- The name of the cleaned copy has no other bytes than the name and what marks it. -/
theorem not_mem_cleanedName {b : UInt8} (hdot : b ≠ dot) (hmarker : b ∉ marker) {name : Bytes}
    (h : b ∉ name) : b ∉ cleanedName name := by
  rcases splitExtension_cases name with hs | ⟨stem, ext, hs, rfl⟩
  · simp [cleanedName, hs, hmarker, hdot, h]
  · simp only [List.mem_append, List.mem_cons, not_or] at h
    simp [cleanedName, hs, hmarker, hdot, h]

theorem slash_not_mem_cleanedName {name : Bytes} (h : slash ∉ name) : slash ∉ cleanedName name :=
  not_mem_cleanedName (by decide) (by decide +kernel) h

theorem trimIdle_subset (pieces : List Bytes) : trimIdle pieces ⊆ pieces := by
  obtain ⟨idle, _, h⟩ := trimIdle_append pieces
  intro piece hpiece
  rw [h]
  exact List.mem_append_left idle hpiece

/-- The cleaned copy of a file that has a name. -/
theorem pieces_cleaned {p : Path} {name : Bytes} (h : p.fileName? = some name)
    (hname : name ∈ p.pieces) : p.cleaned.pieces =
      p.parts.1 ++ trimIdle (trimIdle p.parts.2).dropLast ++ [cleanedName name] := by
  have hcleaned : p.cleaned =
      ofPieces (p.parts.1 ++ trimIdle (trimIdle p.parts.2).dropLast ++ [cleanedName name]) := by
    rw [cleaned, withFileName, h]
    rfl
  rw [hcleaned]
  refine pieces_ofPieces (by simp) fun piece hpiece => ?_
  rw [List.append_assoc, List.mem_append, List.mem_append, List.mem_singleton] at hpiece
  rcases hpiece with hstart | hbody | rfl
  · exact slash_not_mem (parts_append p ▸ List.mem_append_left _ hstart)
  · refine slash_not_mem (parts_append p ▸ List.mem_append_right _ ?_)
    exact trimIdle_subset _ (List.dropLast_subset _ (trimIdle_subset _ hbody))
  · exact slash_not_mem_cleanedName (slash_not_mem hname)

/-- An idle piece that is followed by others says where the path starts. -/
theorem start_of_idle {p : Path} {first : Bytes} {rest : List Bytes} (h : p.pieces = first :: rest)
    (hidle : isIdle first = true) (hrest : rest ≠ []) : p.parts.1 = [first] := by
  have hstart : first = here ∨ (first = [] ∧ rest ≠ []) := by
    simp only [isIdle, Bool.or_eq_true, beq_iff_eq] at hidle
    exact hidle.symm.imp_right fun hnil => ⟨hnil, hrest⟩
  rw [parts, h]
  simp only [if_pos hstart]

/-- A path that has a file name, and its cleaned copy: the pieces before the name are the same
but for idle ones at their end. -/
theorem pieces_beside {p : Path} {name : Bytes} (h : p.fileName? = some name) :
    ∃ lead idle more, p.pieces = lead ++ idle ++ name :: more ∧
      p.cleaned.pieces = lead ++ [cleanedName name] ∧ (∀ piece ∈ idle, isIdle piece = true) ∧
      (∀ piece ∈ more, isIdle piece = true) ∧ isIdle name = false ∧ name ≠ above ∧
      (lead = [] → idle = []) := by
  obtain ⟨more, hmore, hbody⟩ := trimIdle_append p.parts.2
  obtain ⟨idle, hidle, hbefore⟩ := trimIdle_append (trimIdle p.parts.2).dropLast
  obtain ⟨hlast, hdown⟩ : (trimIdle p.parts.2).getLast? = some name ∧ name ≠ above := by
    rw [fileName?] at h
    split at h
    · next piece hpiece =>
      split at h
      · cases h
      · next hdown =>
        cases h
        exact ⟨hpiece, hdown⟩
    · cases h
  have hpieces : p.pieces =
      p.parts.1 ++ trimIdle (trimIdle p.parts.2).dropLast ++ idle ++ name :: more := by
    conv_lhs => rw [← parts_append, hbody, ← List.dropLast_append_getLast? name hlast, hbefore]
    simp
  refine ⟨_, idle, more, hpieces, pieces_cleaned h (by simp [hpieces]), hidle, hmore,
    isIdle_of_getLast?_trimIdle hlast, hdown, fun hlead => ?_⟩
  obtain ⟨hstart, htrimmed⟩ := List.append_eq_nil_iff.mp hlead
  cases idle with
  | nil => rfl
  | cons first idle =>
    rw [hstart, htrimmed] at hpieces
    have hfirst := start_of_idle hpieces (hidle first List.mem_cons_self) (by simp)
    rw [hstart] at hfirst
    cases hfirst

/-- A path starts at the root if its first piece is empty and not the only one. -/
theorem starts_at_root_iff (p : Path) :
    p.bytes.head? = some slash ↔ ∃ rest, rest ≠ [] ∧ p.pieces = [] :: rest := by
  rw [pieces]
  cases p.bytes with
  | nil => simp [Text.splitAt]
  | cons b bytes =>
    by_cases hb : b = slash
    · simp [hb, Text.splitAt, Text.splitAt_ne_nil]
    · obtain ⟨piece, pieces, _, hcons⟩ := Text.splitAt_cons_of_ne hb bytes
      simp [hb, hcons]

/-- The cleaned copy of what is above a directory would be below it. -/
theorem cleaned_of_above {p : Path} {before : List Bytes} (h : p.fileName? = none)
    (hpieces : p.pieces = before ++ [above]) :
    p.cleaned.bytes = p.bytes ++ slash :: cleanedName [] ∧
      p.cleaned.pieces = p.pieces ++ [cleanedName []] := by
  have hlast : p.pieces.getLast? ≠ some [] := by
    rw [hpieces, List.getLast?_concat]
    decide
  have hcleaned : p.cleaned = ofPieces (p.pieces ++ [cleanedName []]) := by
    rw [cleaned, withFileName, h]
    simp only [if_neg hlast]
    rfl
  constructor
  · rw [hcleaned, ofPieces, Text.joinWith_concat slash p.pieces_ne_nil, pieces,
      Text.joinWith_splitAt]
  · rw [hcleaned]
    refine pieces_ofPieces (by simp) fun piece hpiece => ?_
    rcases List.mem_append.mp hpiece with hpiece | hpiece
    · exact slash_not_mem hpiece
    · rw [List.mem_singleton.mp hpiece]
      exact slash_not_mem_cleanedName List.not_mem_nil

end Path

namespace Tree

/-- Idle pieces lead nowhere, and need a directory. -/
theorem walk_idle {t : Tree} {l l' : Location} {pieces : List Bytes}
    (hidle : ∀ piece ∈ pieces, isIdle piece = true) (h : t.walk l pieces = .ok l') :
    l' = l ∧ (pieces ≠ [] → t.lookup l = some .directory) := by
  induction pieces with
  | nil =>
    cases h
    exact ⟨rfl, fun hne => absurd rfl hne⟩
  | cons piece pieces ih =>
    obtain ⟨hpiece, hpieces⟩ := List.forall_mem_cons.mp hidle
    obtain ⟨hdir, next, hstep, hwalk⟩ := walk_cons_iff.mp h
    obtain rfl := hstep.unique (.idle hpiece)
    exact ⟨(ih hpieces hwalk).1, fun _ => hdir⟩

/-- No idle piece comes after a file. -/
theorem nil_of_walk_idle {t : Tree} {l l' : Location} {pieces : List Bytes}
    (hidle : ∀ piece ∈ pieces, isIdle piece = true) (h : t.walk l pieces = .ok l')
    {content : Bytes} (hfile : t.lookup l' = some (.file content)) : pieces = [] ∧ l' = l := by
  obtain ⟨rfl, hdir⟩ := walk_idle hidle h
  refine ⟨?_, rfl⟩
  by_contra hne
  rw [hdir hne] at hfile
  cases hfile

/-! ### A place of its own -/

section
variable {t : Tree} {p : Path} {l m parent : Location} {last content : Bytes}

/-- Without links, every entry is where it is looked up. -/
theorem arrival_eq_self (hlinks : ∀ l target, t.lookup l ≠ some (.link target)) (l : Location) :
    t.arrival l = l := by
  rw [arrival]
  cases h : t.lookup l with
  | none => rfl
  | some e =>
    cases e with
    | link target => exact absurd h (hlinks l target)
    | _ => rfl

/-- The cleaned copy of a file that has a name has a longer one. -/
theorem cleaned_elsewhere_of_name (hlinks : ∀ l target, t.lookup l ≠ some (.link target))
    (hwalk : t.walk (t.origin p) p.pieces = .ok l) (hl : t.lookup l = some (.file content))
    {before idle : List Bytes} {name : Bytes} (hname : p.fileName? = some name)
    (hp : p.pieces = before ++ name :: idle) (hidle : ∀ piece ∈ idle, isIdle piece = true)
    (hbusy : isIdle name = false) (hdown : name ≠ above)
    (hcleaned : Names t p.cleaned parent last) : parent ++ [last] ≠ l := by
  obtain ⟨ini, hpieces, _⟩ := hcleaned.leads
  have hlead := Path.pieces_cleaned hname (by simp [hp])
  obtain ⟨_, rfl⟩ := List.append_singleton_inj.mp (hpieces.symm.trans hlead)
  rw [hp, walk_append_iff] at hwalk
  obtain ⟨dir, _, hrest⟩ := hwalk
  obtain ⟨_, next, hstep, hlast⟩ := walk_cons_iff.mp hrest
  obtain ⟨_, rfl⟩ := nil_of_walk_idle hidle hlast hl
  cases hstep with
  | idle h => simp [hbusy] at h
  | up _ h => exact absurd h hdown
  | @entry e _ _ _ hthere =>
    have hentry := arrival_eq_self hlinks (dir ++ [name])
    rw [arrival, hthere] at hentry
    intro he
    have hsame := (List.append_singleton_inj.mp (he.trans hentry)).2
    have hlength := Path.length_cleanedName name
    rw [hsame] at hlength
    omega

/-- The cleaned copy of what is above a directory would be in a directory, which no file is. -/
theorem not_names_of_above (hwalk : t.walk (t.origin p) p.pieces = .ok l)
    (hl : t.lookup l = some (.file content)) {before idle : List Bytes}
    (hnone : p.fileName? = none) (hp : p.pieces = before ++ above :: idle)
    (hidle : ∀ piece ∈ idle, isIdle piece = true) : ¬ Names t p.cleaned parent last := by
  intro hcleaned
  have hnil : idle = [] := by
    rw [hp, ← List.singleton_append, ← List.append_assoc, walk_append_iff] at hwalk
    obtain ⟨_, _, hlast⟩ := hwalk
    exact (nil_of_walk_idle hidle hlast hl).1
  subst hnil
  obtain ⟨hbytes, hend⟩ := Path.cleaned_of_above hnone hp
  obtain ⟨ini, hpieces, hparent⟩ := hcleaned.leads
  obtain ⟨rfl, _⟩ := List.append_singleton_inj.mp (hpieces.symm.trans hend)
  have horigin : t.origin p.cleaned = t.origin p := by
    have hne : p.bytes ≠ [] := by
      intro he
      rw [Path.pieces, he] at hp
      cases before <;> simp [Text.splitAt, above] at hp
    rw [origin, origin, hbytes, List.head?_append_of_ne_nil _ hne]
  rw [horigin, hwalk] at hparent
  cases hparent
  rw [hcleaned.directory] at hl
  cases hl

/-- Without links, the cleaned copy of a file is another file. -/
theorem cleaned_elsewhere (hlinks : ∀ l target, t.lookup l ≠ some (.link target))
    (hr : t.resolve p = .ok l) (hl : t.lookup l = some (.file content))
    (hc : t.creatable p.cleaned = .ok m) : m ≠ l := by
  obtain ⟨_, hwalk⟩ := walk_of_resolve hr
  obtain ⟨parent, last, hnames, rfl⟩ := names_of_creatable hc
  rw [arrival_eq_self hlinks]
  rcases p.fileName?_cases with ⟨before, name, idle, hname, hp, hidle, hbusy, hdown⟩ |
    ⟨hnone, hall | ⟨before, idle, hp, hidle⟩⟩
  · exact cleaned_elsewhere_of_name hlinks hwalk hl hname hp hidle hbusy hdown hnames
  · exact absurd (nil_of_walk_idle hall hwalk hl).1 p.pieces_ne_nil
  · exact absurd hnames (not_names_of_above hwalk hl hnone hp hidle)

end

/-! ### Room for the cleaned copy -/

/-- Every entry is in a directory. -/
def Nested (t : Tree) : Prop := ∀ l e, t.lookup l = some e → t.lookup l.dropLast = some .directory

theorem nested_of_entries {t : Tree}
    (h : ∀ x ∈ t.entries, t.lookup x.1.dropLast = some .directory) : t.Nested := by
  intro l e hl
  by_cases hroot : l = []
  · rw [hroot]
    exact t.lookup_root
  · rw [lookup, if_neg hroot] at hl
    obtain ⟨x, hx, _⟩ := Option.map_eq_some_iff.mp hl
    rw [← location_of_find? hx]
    exact h x (List.mem_of_find?_eq_some hx)

/-- Where a file is found, it would be written over. -/
theorem creatable_of_file {t : Tree} (hnested : t.Nested) {p : Path} {l : Location}
    {content : Bytes} (hr : t.resolve p = .ok l) (hl : t.lookup l = some (.file content)) :
    t.creatable p = .ok l := by
  obtain ⟨hcheck, hwalk⟩ := walk_of_resolve hr
  rcases List.eq_nil_or_concat p.pieces with hnil | ⟨ini, name, hp⟩
  · exact absurd hnil p.pieces_ne_nil
  · rw [List.concat_eq_append] at hp
    rw [hp, walk_append_iff] at hwalk
    obtain ⟨parent, hini, hrest⟩ := hwalk
    obtain ⟨hdir, next, hstep, hlast⟩ := walk_cons_iff.mp hrest
    obtain rfl : next = l := Except.ok.inj hlast
    -- Nothing but a name leads to a file: what is above a directory is a directory.
    cases hstep with
    | idle _ =>
      rw [hdir] at hl
      cases hl
    | up _ _ =>
      rw [hnested parent _ hdir] at hl
      cases hl
    | entry hbusy hdown hshort hthere =>
      have hnames : Names t p parent name := ⟨hcheck, ⟨ini, hp, hini⟩, hdir, hbusy, hdown, hshort⟩
      rw [hnames.creatable, arrival, hthere]

theorem checkPath_eq_ok_iff {p : Path} : checkPath p = .ok () ↔
    0 ∉ p.bytes ∧ p.bytes.length < pathLimit ∧ p.bytes ≠ [] := by
  rw [checkPath]
  split_ifs with hnul hlong hnil
  · simp [List.contains_iff_mem.mp hnul]
  · simp [Nat.not_lt.mpr hlong]
  · simp [hnil]
  · simp [hnil, Nat.not_le.mp hlong, mt List.contains_iff_mem.mpr hnul]

section
variable {t : Tree} {p : Path} {l : Location} {name content : Bytes}

/-- The cleaned copy starts where the file does. -/
theorem origin_cleaned (hname : p.fileName? = some name) : t.origin p.cleaned = t.origin p := by
  obtain ⟨lead, idle, more, hp, hcleaned, hidle, _, hbusy, _, hlead⟩ := Path.pieces_beside hname
  have hstarts : p.cleaned.bytes.head? = some slash ↔ p.bytes.head? = some slash := by
    rw [Path.starts_at_root_iff, Path.starts_at_root_iff, hp, hcleaned]
    cases lead with
    | nil =>
      rw [hlead rfl]
      have hne : name ≠ [] := by
        rintro rfl
        cases hbusy
      simp [hne]
    | cons first lead => simp
  rw [origin, origin]
  simp only [hstarts]

/-- The cleaned copy of a path that can be used can be used, if it is not too long. -/
theorem checkPath_cleaned (hcheck : checkPath p = .ok ()) (hname : p.fileName? = some name)
    (hshort : p.cleaned.Short) : checkPath p.cleaned = .ok () := by
  obtain ⟨hnul, _, _⟩ := checkPath_eq_ok_iff.mp hcheck
  obtain ⟨lead, idle, more, hp, hcleaned, _⟩ := Path.pieces_beside hname
  have hjoin : ∀ q : Path, Text.joinWith slash q.pieces = q.bytes := fun q =>
    Text.joinWith_splitAt slash q.bytes
  have hpieces : ∀ piece ∈ p.pieces, 0 ∉ piece := fun piece hpiece hmem =>
    hnul (hjoin p ▸ Text.mem_joinWith_of_mem slash hpiece hmem)
  refine checkPath_eq_ok_iff.mpr ⟨fun hmem => ?_, hshort.bytes, fun hnil => ?_⟩
  · rw [← hjoin, hcleaned] at hmem
    rcases Text.mem_joinWith hmem with hslash | ⟨piece, hpiece, hzero⟩
    · exact absurd hslash (by decide)
    · rcases List.mem_append.mp hpiece with hlead | hlast
      · exact hpieces piece (by simp [hp, hlead]) hzero
      · rw [List.mem_singleton.mp hlast] at hzero
        exact Path.not_mem_cleanedName (by decide) (by decide +kernel)
          (hpieces name (by simp [hp])) hzero
  · have hempty : p.cleaned.pieces = [[]] := by rw [Path.pieces, hnil]; rfl
    rw [hcleaned] at hempty
    have hlast := congrArg List.getLast? hempty
    rw [List.getLast?_concat] at hlast
    have hlength := Path.length_cleanedName name
    rw [Option.some.inj hlast] at hlength
    simp at hlength

/-- A file has a name, and its cleaned copy another one in the same directory. -/
theorem names_beside (hlinks : ∀ l target, t.lookup l ≠ some (.link target)) (hnested : t.Nested)
    (hr : t.resolve p = .ok l) (hl : t.lookup l = some (.file content)) (hshort : p.cleaned.Short) :
    ∃ parent name, Names t p parent name ∧ l = parent ++ [name] ∧
      Names t p.cleaned parent (Path.cleanedName name) := by
  obtain ⟨hcheck, hwalk⟩ := walk_of_resolve hr
  rcases p.fileName?_cases with ⟨_, name, _, hname, _⟩ | ⟨_, hall | ⟨before, more, hp, hidle⟩⟩
  · obtain ⟨lead, idle, more, hp, hcleaned, hidle, hmore, hbusy, hdown, _⟩ := Path.pieces_beside hname
    rw [hp, walk_append_iff] at hwalk
    obtain ⟨parent, hbefore, hrest⟩ := hwalk
    obtain ⟨hdir, next, hstep, hlast⟩ := walk_cons_iff.mp hrest
    obtain ⟨rfl, rfl⟩ := nil_of_walk_idle hmore hlast hl
    obtain ⟨dir, hlead, hstay⟩ := walk_append_iff.mp hbefore
    obtain ⟨rfl, _⟩ := walk_idle hidle hstay
    cases hstep with
    | idle h => simp [hbusy] at h
    | up _ h => exact absurd h hdown
    | @entry e _ _ hlength hthere =>
      have hself := arrival_eq_self hlinks (parent ++ [name])
      rw [arrival, hthere] at hself
      refine ⟨parent, name, ⟨hcheck, ⟨_, hp, hbefore⟩, hdir, hbusy, hdown, hlength⟩, hself, ?_⟩
      have hlonger := Path.length_cleanedName name
      refine ⟨checkPath_cleaned hcheck hname hshort, ⟨lead, hcleaned, ?_⟩, hdir, ?_, ?_, ?_⟩
      · rw [origin_cleaned hname]
        exact hlead
      · by_contra hidle
        simp only [isIdle, Bool.not_eq_false, Bool.or_eq_true, beq_iff_eq] at hidle
        rcases hidle with h | h <;> simp [h, here] at hlonger
      · intro h
        simp [h, above] at hlonger
      · exact hshort.pieces _ (by simp [hcleaned])
  · exact absurd (nil_of_walk_idle hall hwalk hl).1 p.pieces_ne_nil
  · -- what is above a directory is a directory
    rw [hp, walk_append_iff] at hwalk
    obtain ⟨dir, _, hrest⟩ := hwalk
    obtain ⟨hdir, next, hstep, hlast⟩ := walk_cons_iff.mp hrest
    obtain ⟨_, rfl⟩ := nil_of_walk_idle hidle hlast hl
    cases hstep with
    | idle h => simp [isIdle, above, here] at h
    | up _ _ =>
      rw [hnested dir _ hdir] at hl
      cases hl
    | entry _ h _ _ => exact absurd rfl h

end

end Tree
end NotebookTidy.Files
