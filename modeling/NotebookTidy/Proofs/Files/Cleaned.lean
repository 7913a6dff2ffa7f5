import NotebookTidy.Proofs.Files.Sibling

/-! Cleaned copies of different files.

Paths are told apart by their components, and the file name of a path is the last of them, if that
is a name (`fileName?_eq_some_iff`). The copy has another name in its place, or one component more
if there is none (`components_cleaned`, `components_cleaned_of_unnamed`).

The extension of a name begins at its last dot (`splitExtension_eq_some_iff`), and the marker holds
no dot. So a copy tells which name it was made of (`cleanedName_injective`): one whose extension is
the marker was made of a name without an extension, since any other has the marker further to the
front. Hence no path is that of its own copy, and no two paths have the same copy
(`cleaned_copies_apart`). -/
namespace NotebookTidy.Files
namespace Path

/-! ### Names -/

theorem splitExtension_eq_some_iff {name stem ext : Bytes} :
    splitExtension name = (stem, some ext) ↔ name = stem ++ dot :: ext ∧ dot ∉ ext ∧ stem ≠ [] := by
  constructor
  · intro h
    rcases splitExtension_cases name with hnone | ⟨stem', ext', hs, hname⟩
    · rw [hnone] at h
      cases h
    · obtain ⟨rfl, hext⟩ := Prod.mk.inj (hs.symm.trans h)
      cases hext
      rw [splitExtension] at hs
      split at hs
      · next last before more hreverse =>
        dsimp only at hs
        split at hs
        · cases hs
        · next hstem =>
          obtain ⟨hjoin, hlast⟩ := Prod.mk.inj hs
          cases hlast
          rw [hjoin] at hstem
          have hmem : ext ∈ Text.splitAt dot name := by
            rw [← List.mem_reverse, hreverse]
            exact List.mem_cons_self
          exact ⟨hname, Text.not_mem_of_mem_splitAt hmem, hstem⟩
      · cases hs
  · rintro ⟨rfl, hext, hstem⟩
    have hreverse : (Text.splitAt dot (stem ++ dot :: ext)).reverse =
        ext :: (Text.splitAt dot stem).reverse := by
      rw [Text.splitAt_concat hext, List.reverse_concat]
    obtain ⟨before, more, hbefore⟩ := List.exists_cons_of_ne_nil
      (List.reverse_ne_nil_iff.mpr (Text.splitAt_ne_nil dot stem))
    have hjoin : Text.joinWith dot (before :: more).reverse = stem := by
      rw [← hbefore, List.reverse_reverse, Text.joinWith_splitAt]
    rw [splitExtension, hreverse, hbefore]
    simp only [hjoin, if_neg hstem]

/-- The marker goes behind a name without an extension, and otherwise before the extension. -/
theorem cleanedName_cases (name : Bytes) :
    (splitExtension name = (name, none) ∧ cleanedName name = name ++ dot :: marker) ∨
      ∃ stem ext, splitExtension name = (stem, some ext) ∧ dot ∉ ext ∧ stem ≠ [] ∧
        name = stem ++ dot :: ext ∧ cleanedName name = (stem ++ dot :: marker) ++ dot :: ext := by
  rcases splitExtension_cases name with h | ⟨stem, ext, h, hname⟩
  · exact .inl ⟨h, by rw [cleanedName, h]⟩
  · obtain ⟨_, hext, hstem⟩ := splitExtension_eq_some_iff.mp h
    exact .inr ⟨stem, ext, h, hext, hstem, hname, by simp [cleanedName, h]⟩

theorem dot_not_mem_marker : dot ∉ marker := by decide +kernel

/-- A name that has no extension is not marked in front of one. -/
theorem marked_ne {name stem ext : Bytes} (h : splitExtension name = (name, none))
    (hext : dot ∉ ext) (hstem : stem ≠ []) :
    name ++ dot :: marker ≠ (stem ++ dot :: marker) ++ dot :: ext := by
  intro he
  obtain ⟨rfl, _⟩ := Text.append_sep_inj dot_not_mem_marker hext he
  rw [splitExtension_eq_some_iff.mpr ⟨rfl, dot_not_mem_marker, hstem⟩] at h
  cases (Prod.mk.inj h).2

theorem cleanedName_injective : Function.Injective cleanedName := by
  intro name name' he
  rcases cleanedName_cases name with ⟨h, hmarked⟩ | ⟨stem, ext, _, hext, hstem, hname, hmarked⟩
  · rcases cleanedName_cases name' with ⟨_, hmarked'⟩ | ⟨stem', ext', _, hext', hstem', _, hmarked'⟩
    · rw [hmarked, hmarked'] at he
      exact List.append_cancel_right he
    · rw [hmarked, hmarked'] at he
      exact absurd he (marked_ne h hext' hstem')
  · rcases cleanedName_cases name' with ⟨h', hmarked'⟩ | ⟨stem', ext', _, hext', _, hname', hmarked'⟩
    · rw [hmarked, hmarked'] at he
      exact absurd he.symm (marked_ne h' hext hstem)
    · rw [hmarked, hmarked'] at he
      obtain ⟨hmarker, rfl⟩ := Text.append_sep_inj hext hext' he
      rw [hname, hname', List.append_cancel_right hmarker]

/-- The extension of a copy's name: that of the name itself, or else the marker. -/
theorem extension_cleanedName {name : Bytes} (hne : name ≠ []) :
    (splitExtension (cleanedName name)).2 = some ((splitExtension name).2.getD marker) := by
  rcases cleanedName_cases name with ⟨h, hmarked⟩ | ⟨stem, ext, h, hext, _, _, hmarked⟩
  · rw [hmarked, h, splitExtension_eq_some_iff.mpr ⟨rfl, dot_not_mem_marker, hne⟩]
    rfl
  · rw [hmarked, h, splitExtension_eq_some_iff.mpr ⟨rfl, hext, by simp⟩]
    rfl

/-! ### Components -/

/-- A piece that counts, as a component. -/
def component (piece : Bytes) : Component := if piece = above then .parent else .name piece

/-- What a path starts with, as a component. -/
def startComponent (piece : Bytes) : Component := if piece = here then .current else .root

/-- The pieces that count. -/
def busy (pieces : List Bytes) : List Bytes := pieces.filter fun piece => !isIdle piece

theorem busy_of_idle {pieces : List Bytes} (h : ∀ piece ∈ pieces, isIdle piece = true) :
    busy pieces = [] := by
  refine List.filter_eq_nil_iff.mpr fun piece hpiece => ?_
  simp [h piece hpiece]

theorem components_eq (p : Path) :
    p.components = p.parts.1.map startComponent ++ (busy p.pieces).map component := by
  have hstart : busy p.parts.1 = [] := busy_of_idle fun piece hpiece => isIdle_of_mem_start hpiece
  have hpieces : busy p.pieces = busy p.parts.2 := by
    rw [← parts_append, busy, List.filter_append]
    show busy p.parts.1 ++ busy p.parts.2 = _
    rw [hstart, List.nil_append]
  rw [hpieces]
  rfl

/-- The last piece that counts is the last component. -/
theorem components_of_last {p : Path} {before idle : List Bytes} {piece : Bytes}
    (h : p.pieces = before ++ piece :: idle) (hidle : ∀ piece ∈ idle, isIdle piece = true)
    (hbusy : isIdle piece = false) :
    p.components = p.parts.1.map startComponent ++ (busy before).map component ++
      [component piece] := by
  have hlast : busy (piece :: idle) = [piece] := by
    rw [busy, List.filter_cons, if_pos (by simp [hbusy])]
    exact congrArg (piece :: ·) (busy_of_idle hidle)
  have hpieces : busy p.pieces = busy before ++ [piece] := by
    rw [h, busy, List.filter_append]
    exact congrArg (busy before ++ ·) hlast
  rw [components_eq, hpieces, List.map_append, List.append_assoc]
  rfl

/-- The file name is the last component. -/
theorem fileName?_eq_some_iff {p : Path} {name : Bytes} :
    p.fileName? = some name ↔ p.components.getLast? = some (.name name) := by
  rcases p.fileName?_cases with ⟨before, last, idle, hname, hp, hidle, hbusy, hdown⟩ |
    ⟨hnone, hall | ⟨before, idle, hp, hidle⟩⟩
  · rw [hname, components_of_last hp hidle hbusy, List.getLast?_concat, component, if_neg hdown]
    simp
  · have hstart : ∀ c ∈ p.components, c ≠ .name name := by
      rw [components_eq, busy_of_idle hall, List.map_nil, List.append_nil]
      intro c hc
      obtain ⟨piece, _, rfl⟩ := List.mem_map.mp hc
      rw [startComponent]
      split <;> nofun
    rw [hnone]
    exact iff_of_false nofun fun h => hstart _ (List.mem_of_getLast? h) rfl
  · rw [hnone, components_of_last hp hidle (by decide), List.getLast?_concat, component, if_pos rfl]
    exact iff_of_false nofun nofun

/-- How a path starts is told by its first piece, and by whether there are others. -/
theorem start_eq {p : Path} {first : Bytes} {rest : List Bytes} (h : p.pieces = first :: rest) :
    p.parts.1 = if first = here ∨ (first = [] ∧ rest ≠ []) then [first] else [] := by
  rw [parts, h]
  dsimp only
  split <;> rfl

theorem start_of_busy {p : Path} {first : Bytes} {rest : List Bytes} (h : p.pieces = first :: rest)
    (hbusy : isIdle first = false) : p.parts.1 = [] := by
  simp only [isIdle, Bool.or_eq_false_iff, beq_eq_false_iff_ne] at hbusy
  rw [start_eq h, if_neg]
  rintro (hhere | ⟨hnil, _⟩)
  · exact hbusy.2 hhere
  · exact hbusy.1 hnil

theorem isIdle_cleanedName (name : Bytes) : isIdle (cleanedName name) = false := by
  have hlength := length_cleanedName name
  simp only [isIdle, Bool.or_eq_false_iff, beq_eq_false_iff_ne]
  constructor <;> intro he <;> rw [he] at hlength <;> simp [here] at hlength

theorem component_cleanedName (name : Bytes) :
    component (cleanedName name) = .name (cleanedName name) := by
  have hlength := length_cleanedName name
  refine if_neg fun he => ?_
  rw [he] at hlength
  simp [above] at hlength

/-- The copy of a file is in the directory of the file. -/
theorem components_cleaned {p : Path} {name : Bytes} (h : p.fileName? = some name) :
    p.cleaned.components = p.components.dropLast ++ [.name (cleanedName name)] := by
  obtain ⟨lead, idle, more, hp, hcleaned, hidle, hmore, hbusy, _, hlead⟩ := pieces_beside h
  have hstart : p.cleaned.parts.1 = p.parts.1 := by
    cases lead with
    | nil =>
      rw [hlead rfl] at hp
      rw [start_of_busy hp hbusy, start_of_busy hcleaned (isIdle_cleanedName name)]
    | cons first lead =>
      rw [start_eq hp, start_eq hcleaned]
      simp
  have hbefore : busy (lead ++ idle) = busy lead := by
    rw [busy, List.filter_append]
    show busy lead ++ busy idle = _
    rw [busy_of_idle hidle, List.append_nil]
  rw [components_of_last hcleaned nofun (isIdle_cleanedName name), component_cleanedName, hstart,
    components_of_last hp hmore hbusy, List.dropLast_concat, hbefore]

/-- The copy of what has no file name would be in it, behind its pieces but for an empty last one. -/
theorem pieces_cleaned_of_unnamed {p : Path} (h : p.fileName? = none) :
    ∃ ini, p.cleaned.pieces = ini ++ [cleanedName []] ∧
      (p.pieces = ini ++ [[]] ∨ (p.pieces = ini ∧ p.pieces.getLast? ≠ some [])) := by
  have hcleaned : ∀ ini, (∀ piece ∈ ini, piece ∈ p.pieces) →
      (ofPieces (ini ++ [cleanedName []])).pieces = ini ++ [cleanedName []] := by
    intro ini hini
    refine pieces_ofPieces (by simp) fun piece hpiece => ?_
    rcases List.mem_append.mp hpiece with hpiece | hpiece
    · exact slash_not_mem (hini piece hpiece)
    · rw [List.mem_singleton.mp hpiece]
      exact slash_not_mem_cleanedName List.not_mem_nil
  rw [cleaned, withFileName, h]
  dsimp only
  split
  · next hlast =>
    exact ⟨_, hcleaned _ fun piece hpiece => List.dropLast_subset _ hpiece,
      .inl (List.dropLast_append_getLast? [] hlast).symm⟩
  · next hlast => exact ⟨_, hcleaned _ fun piece hpiece => hpiece, .inr ⟨rfl, hlast⟩⟩

theorem components_cleaned_of_unnamed {p : Path} (h : p.fileName? = none) :
    p.cleaned.components = p.components ++ [.name (cleanedName [])] := by
  obtain ⟨ini, hcleaned, hp⟩ := pieces_cleaned_of_unnamed h
  have hbusy : busy p.pieces = busy ini := by
    rcases hp with hp | ⟨hp, _⟩
    · rw [hp, busy, List.filter_append]
      exact List.append_nil _
    · rw [hp]
  have hstart : p.cleaned.parts.1 = p.parts.1 := by
    cases ini with
    | nil =>
      -- the empty path has no piece that counts, and does not say where it starts
      rcases hp with hp | ⟨hp, _⟩
      · rw [start_of_busy hcleaned (isIdle_cleanedName []), start_eq hp]
        rfl
      · exact absurd hp p.pieces_ne_nil
    | cons first ini =>
      rw [start_eq hcleaned]
      rcases hp with hp | ⟨hp, hlast⟩
      · rw [start_eq hp]
        simp
      · rw [start_eq hp]
        have hrest : first = [] → ini ≠ [] := by
          rintro rfl rfl
          exact hlast (by rw [hp]; rfl)
        by_cases hnil : first = []
        · simp [hnil, hrest hnil]
        · simp [hnil]
  rw [components_of_last hcleaned nofun (isIdle_cleanedName []), component_cleanedName, hstart,
    components_eq p, hbusy]

/-! ### Copies -/

/-- The components of the directory that a path names something in. The root is in none, and
neither is what the empty path names. -/
def parent? (p : Path) : Option (List Component) :=
  match p.components.getLast? with
  | none | some .root => none
  | some _ => some p.components.dropLast

theorem ne_nil_of_fileName? {p : Path} {name : Bytes} (h : p.fileName? = some name) : name ≠ [] := by
  obtain ⟨_, _, _, _, _, _, _, hbusy, _, _⟩ := pieces_beside h
  rintro rfl
  cases hbusy

theorem components_of_fileName? {p : Path} {name : Bytes} (h : p.fileName? = some name) :
    p.components = p.components.dropLast ++ [.name name] :=
  (List.dropLast_append_getLast? _ (fileName?_eq_some_iff.mp h)).symm

theorem components_cleaned_ne (p : Path) : p.cleaned.components ≠ p.components := by
  intro he
  cases h : p.fileName? with
  | none =>
    rw [components_cleaned_of_unnamed h] at he
    simp at he
  | some name =>
    rw [components_cleaned h, components_of_fileName? h, List.dropLast_concat] at he
    have hname := Component.name.inj (List.append_singleton_inj.mp he).2
    have hlength := length_cleanedName name
    rw [hname] at hlength
    omega

/-- What a copy is called tells whether the path has a file name, and which. -/
theorem components_of_cleaned {p q : Path} (he : p.cleaned.components = q.cleaned.components) :
    p.components = q.components := by
  have hnamed : ∀ {p q : Path} {name : Bytes}, p.fileName? = some name → q.fileName? = none →
      p.cleaned.components ≠ q.cleaned.components := by
    intro p q name hp hq he
    rw [components_cleaned hp, components_cleaned_of_unnamed hq] at he
    have hname := Component.name.inj (List.append_singleton_inj.mp he).2
    exact ne_nil_of_fileName? hp (cleanedName_injective hname)
  cases hp : p.fileName? with
  | none =>
    cases hq : q.fileName? with
    | none =>
      rw [components_cleaned_of_unnamed hp, components_cleaned_of_unnamed hq] at he
      exact List.append_cancel_right he
    | some name => exact absurd he.symm (hnamed hq hp)
  | some name =>
    cases hq : q.fileName? with
    | none => exact absurd he (hnamed hp hq)
    | some name' =>
      rw [components_cleaned hp, components_cleaned hq] at he
      obtain ⟨hparent, hlast⟩ := List.append_singleton_inj.mp he
      have hname := cleanedName_injective (Component.name.inj hlast)
      rw [components_of_fileName? hp, components_of_fileName? hq, hparent, hname]

/-- **No path is that of its copy, and no two paths have the same copy.** The copy of a file is in
the directory of the file, under a name that is eight bytes longer; its extension is the same, and
the marker if there was none. -/
theorem cleaned_copies_apart :
    (∀ p : Path, p.cleaned.components ≠ p.components) ∧
    (∀ (p : Path) (name : Bytes), p.fileName? = some name →
      p.cleaned.parent? = p.parent? ∧
        (∃ copy, p.cleaned.fileName? = some copy ∧ copy.length = name.length + 8) ∧
        p.cleaned.extension? = some (p.extension?.getD (Text.encode "cleaned"))) ∧
    ∀ p q : Path, p.components ≠ q.components → p.cleaned.components ≠ q.cleaned.components := by
  refine ⟨components_cleaned_ne, fun p name h => ?_, fun p q hne he => hne (components_of_cleaned he)⟩
  have hcopy : p.cleaned.fileName? = some (cleanedName name) := by
    rw [fileName?_eq_some_iff, components_cleaned h, List.getLast?_concat]
  refine ⟨?_, ⟨_, hcopy, length_cleanedName name⟩, ?_⟩
  · rw [parent?, parent?, fileName?_eq_some_iff.mp hcopy, fileName?_eq_some_iff.mp h]
    dsimp only
    rw [components_cleaned h, List.dropLast_concat]
  · rw [extension?, hcopy, extension?, h]
    exact extension_cleanedName (ne_nil_of_fileName? h)

/-- A name without an extension, and one whose extension is the marker. -/
theorem cleaned_copies_apart_marked :
    let p : Path := .ofString "./d//n"
    let q : Path := .ofString "./d/n.cleaned/."
    p.fileName? = some (Text.encode "n") ∧ p.components ≠ q.components ∧
      p.cleaned.extension? = some (Text.encode "cleaned") ∧ p.cleaned.parent? = p.parent? ∧
      p.cleaned.components ≠ q.cleaned.components := by
  intro p q
  obtain ⟨_, hnamed, hapart⟩ := cleaned_copies_apart
  have hname : p.fileName? = some (Text.encode "n") := by decide +kernel
  have hne : p.components ≠ q.components := by decide +kernel
  have hext : p.extension? = none := by decide +kernel
  obtain ⟨hparent, _, hcleaned⟩ := hnamed p _ hname
  rw [hext] at hcleaned
  exact ⟨hname, hne, hcleaned, hparent, hapart p q hne⟩

end Path
end NotebookTidy.Files
