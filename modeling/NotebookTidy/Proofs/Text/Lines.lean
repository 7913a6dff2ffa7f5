import Mathlib.Data.List.Basic
import Mathlib.Data.List.DropRight
import Mathlib.Data.List.Induction
import NotebookTidy.Text.Blank
import NotebookTidy.Text.Lines

/-! Lines, one by one.

`InLines` says of some pieces that every one but the last has one newline, at its end, and
the last one none. A text cut after its newlines is in lines (`inLines_cutAfterNewlines`), and
it is in lines in no other way (`cutAfterNewlines_flatten`); there is one line more than there
are newlines (`length_cutAfterNewlines`).

An edit of lines (`LineEdit`) leaves the newlines alone. What it makes of the lines of a text
are lines again (`InLines.map`), as many as before (`lineCount_map`). A change of a text that leaves a newline at its end alone, and
ends in the character that the text ends in, may be made before or after the newlines at the end
are removed (`dropEndWhile_commutes`), and it leaves the text alone just when it leaves what is
before these newlines alone (`fixed_dropEndWhile_iff`). -/
namespace NotebookTidy.Text

/-- Every piece but the last ends in its only newline, and the last holds none. -/
inductive InLines : List (List Char) → Prop where
  | last {piece : List Char} (h : '\n' ∉ piece) : InLines [piece]
  | line {body : List Char} {pieces : List (List Char)} (h : '\n' ∉ body)
      (rest : InLines pieces) : InLines ((body ++ ['\n']) :: pieces)

/-- A character before the first line, unless it is a newline, belongs to that line. -/
theorem InLines.cons_head {c : Char} (hc : c ≠ '\n') {piece : List Char}
    {pieces : List (List Char)} (h : InLines (piece :: pieces)) :
    InLines ((c :: piece) :: pieces) := by
  have hextend : ∀ {body : List Char}, '\n' ∉ body → '\n' ∉ c :: body := by
    intro body hbody hmem
    rcases List.mem_cons.mp hmem with he | hmem
    · exact hc he.symm
    · exact hbody hmem
  cases h with
  | last h => exact .last (hextend h)
  | line h rest => exact .line (hextend h) rest

theorem inLines_cutAfterNewlines (cs : List Char) : InLines (cutAfterNewlines cs) := by
  induction cs with
  | nil => exact .last List.not_mem_nil
  | cons c cs ih =>
    rw [cutAfterNewlines]
    split
    · next h =>
      rw [h]
      exact @InLines.line [] _ List.not_mem_nil ih
    · next h =>
      split
      · next hnil => exact absurd hnil (cutAfterNewlines_ne_nil cs)
      · next hcut =>
        rw [hcut] at ih
        exact ih.cons_head h

theorem cutAfterNewlines_of_not_mem {piece : List Char} (h : '\n' ∉ piece) :
    cutAfterNewlines piece = [piece] := by
  induction piece with
  | nil => rfl
  | cons c cs ih =>
    obtain ⟨hc, hcs⟩ := not_or.mp (List.mem_cons.not.mp h)
    rw [cutAfterNewlines, if_neg fun he => hc he.symm, ih hcs]

theorem cutAfterNewlines_line {body : List Char} (h : '\n' ∉ body) (rest : List Char) :
    cutAfterNewlines (body ++ '\n' :: rest) = (body ++ ['\n']) :: cutAfterNewlines rest := by
  induction body with
  | nil => simp [cutAfterNewlines]
  | cons c cs ih =>
    obtain ⟨hc, hcs⟩ := not_or.mp (List.mem_cons.not.mp h)
    rw [List.cons_append, cutAfterNewlines, if_neg fun he => hc he.symm, ih hcs, List.cons_append]

/-- Pieces that are in lines are what their text is cut into. -/
theorem cutAfterNewlines_flatten {pieces : List (List Char)} (h : InLines pieces) :
    cutAfterNewlines pieces.flatten = pieces := by
  induction h with
  | last h => simpa using cutAfterNewlines_of_not_mem h
  | @line body pieces h _ ih =>
    rw [List.flatten_cons, List.append_assoc, List.singleton_append, cutAfterNewlines_line h, ih]

/-- Pieces are in lines if there are any, and each of them says so by itself. -/
theorem inLines_iff {pieces : List (List Char)} : InLines pieces ↔ pieces ≠ [] ∧
    (∀ piece ∈ pieces.dropLast, ∃ body, '\n' ∉ body ∧ piece = body ++ ['\n']) ∧
      ∀ piece ∈ pieces.getLast?, '\n' ∉ piece := by
  constructor
  · intro h
    induction h with
    | last h => simpa using h
    | @line body pieces h _ ih =>
      obtain ⟨hne, hended, hlast⟩ := ih
      rw [List.dropLast_cons_of_ne_nil hne, List.getLast?_cons_of_ne_nil hne]
      exact ⟨List.cons_ne_nil _ _, List.forall_mem_cons.mpr ⟨⟨body, h, rfl⟩, hended⟩, hlast⟩
  · rintro ⟨hne, hended, hlast⟩
    induction pieces with
    | nil => exact absurd rfl hne
    | cons piece pieces ih =>
      by_cases hrest : pieces = []
      · subst hrest
        exact .last (hlast piece rfl)
      · rw [List.dropLast_cons_of_ne_nil hrest] at hended
        rw [List.getLast?_cons_of_ne_nil hrest] at hlast
        obtain ⟨⟨body, hbody, rfl⟩, hothers⟩ := List.forall_mem_cons.mp hended
        exact .line hbody (ih hrest hothers hlast)

/-- How many lines a text has: one begins at its start, and one after every newline. -/
def lineCount (cs : List Char) : Nat := cs.count '\n' + 1

theorem length_cutAfterNewlines (cs : List Char) : (cutAfterNewlines cs).length = lineCount cs := by
  induction cs with
  | nil => rfl
  | cons c cs ih =>
    rw [lineCount] at ih
    rw [cutAfterNewlines, lineCount]
    by_cases h : c = '\n'
    · rw [if_pos h, List.length_cons, ih, h, List.count_cons_self]
    · rw [if_neg h, List.count_cons_of_ne h]
      split
      · next hnil => exact absurd hnil (cutAfterNewlines_ne_nil cs)
      · next hcut =>
        rw [hcut] at ih
        exact ih

/-- A text that does not end in a newline, and is not empty, has no empty lines. -/
theorem InLines.ne_nil {pieces : List (List Char)} (h : InLines pieces) (hne : pieces.flatten ≠ [])
    (hlast : pieces.flatten.getLast? ≠ some '\n') : ∀ piece ∈ pieces, piece ≠ [] := by
  induction h with
  | @last piece =>
    rw [List.flatten_singleton] at hne
    exact List.forall_mem_singleton.mpr hne
  | @line body pieces _ _ ih =>
    have hrest : pieces.flatten ≠ [] := by
      intro hnil
      rw [List.flatten_cons, hnil, List.append_nil, List.getLast?_concat] at hlast
      exact hlast rfl
    rw [List.flatten_cons, List.getLast?_append_of_ne_nil _ hrest] at hlast
    refine List.forall_mem_cons.mpr ⟨?_, ih hrest hlast⟩
    exact List.append_ne_nil_of_right_ne_nil body (List.cons_ne_nil _ _)

/-! ### Edits of lines -/

/-- A change of a line that concerns what stands before its newline, and puts no newline
there. -/
structure LineEdit (edit : List Char → List Char) : Prop where
  ended : ∀ body, '\n' ∉ body → edit (body ++ ['\n']) = edit body ++ ['\n']
  unbroken : ∀ body, '\n' ∉ body → '\n' ∉ edit body

theorem InLines.map {edit : List Char → List Char} (hedit : LineEdit edit)
    {pieces : List (List Char)} (h : InLines pieces) : InLines (pieces.map edit) := by
  induction h with
  | last h => exact .last (hedit.unbroken _ h)
  | line h _ ih =>
    rw [List.map_cons, hedit.ended _ h]
    exact .line (hedit.unbroken _ h) ih

/-- The lines of an edited text are the edited lines. -/
theorem cutAfterNewlines_map {edit : List Char → List Char} (hedit : LineEdit edit)
    (cs : List Char) : cutAfterNewlines ((cutAfterNewlines cs).map edit).flatten =
      (cutAfterNewlines cs).map edit :=
  cutAfterNewlines_flatten ((inLines_cutAfterNewlines cs).map hedit)

theorem lineCount_map {edit : List Char → List Char} (hedit : LineEdit edit) (cs : List Char) :
    lineCount ((cutAfterNewlines cs).map edit).flatten = lineCount cs := by
  rw [← length_cutAfterNewlines, cutAfterNewlines_map hedit, List.length_map,
    length_cutAfterNewlines]

/-- What an edit makes of every line holds of every line that it made. -/
theorem forall_line_map {edit : List Char → List Char} (hedit : LineEdit edit)
    {P : List Char → Prop} (h : ∀ line, P (edit line)) (cs : List Char) :
    ∀ line ∈ cutAfterNewlines ((cutAfterNewlines cs).map edit).flatten, P line := by
  rw [cutAfterNewlines_map hedit]
  exact List.forall_mem_map.mpr fun line _ => h line

/-- An edit leaves a text alone just when it leaves every line alone. -/
theorem flatten_map_eq_self_iff {edit : List Char → List Char} (hedit : LineEdit edit)
    (cs : List Char) : ((cutAfterNewlines cs).map edit).flatten = cs ↔
      ∀ line ∈ cutAfterNewlines cs, edit line = line := by
  constructor
  · intro h
    have hmap := cutAfterNewlines_map hedit cs
    rw [h] at hmap
    exact List.map_inj_left.mp (hmap.symm.trans (List.map_id _).symm)
  · intro h
    rw [List.map_congr_left h, List.map_id', flatten_cutAfterNewlines]

/-! ### The end of a text -/

theorem dropEndWhile_eq (p : Char → Bool) (cs : List Char) : dropEndWhile p cs = cs.rdropWhile p :=
  rfl

theorem dropEndWhile_concat (p : Char → Bool) (cs : List Char) (c : Char) :
    dropEndWhile p (cs ++ [c]) = if p c then dropEndWhile p cs else cs ++ [c] :=
  List.rdropWhile_concat p cs c

theorem dropEndWhile_of_getLast? {p : Char → Bool} {cs : List Char}
    (h : ∀ c, cs.getLast? = some c → p c = false) : dropEndWhile p cs = cs := by
  rcases List.eq_nil_or_concat cs with rfl | ⟨xs, c, rfl⟩
  · rfl
  · rw [List.concat_eq_append] at h ⊢
    rw [dropEndWhile_concat, h c List.getLast?_concat]
    rfl

theorem dropEndWhile_commutes {change : List Char → List Char}
    (ended : ∀ cs, change (cs ++ ['\n']) = change cs ++ ['\n'])
    (last : ∀ cs, (change cs).getLast? = cs.getLast?) (cs : List Char) :
    dropEndWhile (· == '\n') (change cs) = change (dropEndWhile (· == '\n') cs) := by
  induction cs using List.reverseRecOn with
  | nil =>
    have hnil : change [] = [] := List.getLast?_eq_none_iff.mp (last [])
    rw [hnil]
    exact hnil.symm
  | append_singleton cs c ih =>
    rw [dropEndWhile_concat]
    by_cases hc : c = '\n'
    · subst hc
      rw [ended, dropEndWhile_concat]
      simpa using ih
    · rw [if_neg (by simpa using hc)]
      refine dropEndWhile_of_getLast? fun d hd => ?_
      rw [last, List.getLast?_concat] at hd
      simpa [← Option.some.inj hd] using hc

theorem fixed_dropEndWhile_iff {change : List Char → List Char}
    (ended : ∀ cs, change (cs ++ ['\n']) = change cs ++ ['\n']) (cs : List Char) :
    change (dropEndWhile (· == '\n') cs) = dropEndWhile (· == '\n') cs ↔ change cs = cs := by
  induction cs using List.reverseRecOn with
  | nil => rfl
  | append_singleton cs c ih =>
    rw [dropEndWhile_concat]
    by_cases hc : c = '\n'
    · subst hc
      rw [ended, List.append_cancel_right_eq]
      simpa using ih
    · rw [if_neg (by simpa using hc)]

theorem trimEndNewlines_trimEndNewlines (s : String) :
    trimEndNewlines (trimEndNewlines s) = trimEndNewlines s := by
  rw [trimEndNewlines, trimEndNewlines, String.toList_ofList, dropEndWhile_eq, dropEndWhile_eq,
    List.rdropWhile_idempotent]

theorem trimEndNewlines_eq_empty_iff (s : String) :
    trimEndNewlines s = "" ↔ ∀ c ∈ s.toList, c = '\n' := by
  have hnil : trimEndNewlines s = "" ↔ dropEndWhile (· == '\n') s.toList = [] := by
    rw [trimEndNewlines, ← String.ofList_nil, String.ofList_inj]
  rw [hnil, dropEndWhile_eq, List.rdropWhile_eq_nil_iff]
  simp only [beq_iff_eq]

theorem getLast?_trimEndNewlines (s : String) :
    (trimEndNewlines s).toList.getLast? ≠ some '\n' := by
  intro h
  rw [trimEndNewlines, String.toList_ofList, dropEndWhile_eq] at h
  have hne : s.toList.rdropWhile (· == '\n') ≠ [] := by
    intro hnil
    rw [hnil] at h
    cases h
  rw [List.getLast?_eq_some_getLast hne, Option.some.injEq] at h
  exact List.rdropWhile_last_not (· == '\n') s.toList hne (beq_iff_eq.mpr h)

theorem trimEndNewlines_newline (s : String) :
    trimEndNewlines (s ++ "\n") = trimEndNewlines s := by
  have hlist : (s ++ "\n").toList = s.toList ++ ['\n'] := String.toList_append
  rw [trimEndNewlines, hlist, dropEndWhile_concat, if_pos (beq_self_eq_true '\n')]
  rfl

/-- The newlines at the end of a text are blanks. -/
theorem allBlank_trimEndNewlines (s : String) : allBlank (trimEndNewlines s) = allBlank s := by
  have hend : (s.toList.rtakeWhile (· == '\n')).all isBlank = true := by
    refine List.all_eq_true.mpr fun c hc => ?_
    have hnewline : c = '\n' := by simpa using List.mem_rtakeWhile_imp hc
    rw [hnewline]
    decide
  have hall := congrArg (List.all · isBlank)
    (@List.rdropWhile_append_rtakeWhile _ (· == '\n') s.toList)
  rw [List.all_append, hend, Bool.and_true] at hall
  rw [trimEndNewlines, allBlank, String.toList_ofList, dropEndWhile_eq, hall, allBlank]

end NotebookTidy.Text
