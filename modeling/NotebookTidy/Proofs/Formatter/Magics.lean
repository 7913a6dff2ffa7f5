import NotebookTidy.Formatter.Language
import NotebookTidy.Proofs.Outcome
import NotebookTidy.Proofs.Text.Lines

/-! Hidden magics, line by line.

Hiding and showing magics are edits of single lines (`maskFrom_eq`, `unmaskFrom_eq`), so they
are told by what they do to a line. A line that is hidden and shown again has become what it
becomes when it is only shown (`unmaskLine_maskLine`). For a magic that is the line itself, but a
comment that looks like a hidden magic becomes a magic. The other way round, a line that is shown
and hidden again has become what it becomes when it is only hidden (`maskLine_unmaskLine`), which
is the line itself unless it is a magic.

So formatters that change nothing come to the same with and without magics kept from them just
when no line of the code looks like a hidden magic (`masking_unseen_iff`); a comment that does is
lost (`masking_loses_comment`). -/
namespace NotebookTidy.Formatter
open Files Text

/-- What a magic begins with. -/
def magicMark : List Char := ['%']

/-- What a hidden magic begins with. -/
def hiddenMark : List Char := ['#', '#', '%']

def maskLine (line : List Char) : List Char :=
  if magicMark <+: line then hiddenMark ++ line.drop 1 else line

def unmaskLine (line : List Char) : List Char :=
  if hiddenMark <+: line then magicMark ++ line.drop 3 else line

/-! ### Edits of lines -/

/-- Nothing that goes on with a line. -/
def EndsLine (rest : List Char) : Prop := ∀ c s, rest = c :: s → c = '\n'

theorem endsLine_nil : EndsLine [] := fun _ _ h => by cases h

theorem endsLine_newline (s : List Char) : EndsLine ('\n' :: s) := by
  rintro c s' ⟨⟩
  rfl

/-- What comes after a line makes no difference to what the line begins with. -/
theorem prefix_line_iff {mark : List Char} (hmark : '\n' ∉ mark) (line : List Char)
    {rest : List Char} (hrest : EndsLine rest) : mark <+: line ++ rest ↔ mark <+: line := by
  induction mark generalizing line with
  | nil => simp
  | cons m mark ih =>
    obtain ⟨hm, hmark⟩ := not_or.mp (List.mem_cons.not.mp hmark)
    cases line with
    | nil =>
      have hne : ¬ m :: mark <+: rest := by
        rintro ⟨s, rfl⟩
        exact hm (hrest m (mark ++ s) rfl).symm
      simp [hne]
    | cons c line => simp [ih hmark]

/-- A mark in the place of another. -/
theorem lineEdit_replace {old new : List Char} (hold : '\n' ∉ old) (hnew : '\n' ∉ new) :
    LineEdit fun line => if old <+: line then new ++ line.drop old.length else line := by
  refine ⟨fun body _ => ?_, fun body hbody => ?_⟩
  · have hiff := prefix_line_iff hold body (endsLine_newline [])
    by_cases h : old <+: body
    · rw [if_pos (hiff.mpr h), if_pos h, List.drop_append_of_le_length h.length_le,
        List.append_assoc]
    · rw [if_neg fun he => h (hiff.mp he), if_neg h]
  · split
    · intro hmem
      rcases List.mem_append.mp hmem with hmem | hmem
      · exact hnew hmem
      · exact hbody (List.mem_of_mem_drop hmem)
    · exact hbody

theorem lineEdit_maskLine : LineEdit maskLine :=
  @lineEdit_replace magicMark hiddenMark (by decide) (by decide)

theorem lineEdit_unmaskLine : LineEdit unmaskLine :=
  @lineEdit_replace hiddenMark magicMark (by decide) (by decide)

/-- A text is edited line by line if a line is, whatever comes after it, and a newline begins
another. -/
theorem edited_by_lines {edit : List Char → List Char} {change : Bool → List Char → List Char}
    (hedit : LineEdit edit) (nil : change false [] = [])
    (newline : ∀ s, change false ('\n' :: s) = '\n' :: change true s)
    (line : ∀ body rest, '\n' ∉ body → EndsLine rest →
      change true (body ++ rest) = edit body ++ change false rest) (cs : List Char) :
    change true cs = ((cutAfterNewlines cs).map edit).flatten := by
  have hpieces : ∀ pieces, InLines pieces →
      change true pieces.flatten = (pieces.map edit).flatten := by
    intro pieces h
    induction h with
    | @last piece h => simpa [nil] using line piece [] h endsLine_nil
    | @line body pieces h _ ih =>
      rw [List.flatten_cons, List.map_cons, List.flatten_cons, hedit.ended body h,
        List.append_assoc, List.singleton_append, line body _ h (endsLine_newline _), newline, ih,
        List.append_assoc, List.singleton_append]
  rw [← hpieces _ (inLines_cutAfterNewlines cs), flatten_cutAfterNewlines]

/-! ### Hiding -/

theorem maskFrom_false {body : List Char} (h : '\n' ∉ body) (rest : List Char) :
    maskFrom false (body ++ rest) = body ++ maskFrom false rest := by
  induction body with
  | nil => rfl
  | cons c cs ih =>
    obtain ⟨hc, hcs⟩ := not_or.mp (List.mem_cons.not.mp h)
    have hflag := beq_false_of_ne (Ne.symm hc)
    rw [List.cons_append, maskFrom, Bool.false_and, if_neg (by decide), hflag, ih hcs,
      List.cons_append]

theorem maskFrom_line (body rest : List Char) (h : '\n' ∉ body) (hrest : EndsLine rest) :
    maskFrom true (body ++ rest) = maskLine body ++ maskFrom false rest := by
  cases body with
  | nil =>
    cases rest with
    | nil => rfl
    | cons c s =>
      rw [hrest c s rfl]
      rfl
  | cons c cs =>
    obtain ⟨hc, hcs⟩ := not_or.mp (List.mem_cons.not.mp h)
    have hflag := beq_false_of_ne (Ne.symm hc)
    by_cases hmark : c = '%'
    · simp [maskFrom, maskLine, magicMark, hiddenMark, hmark, maskFrom_false hcs]
    · simp [maskFrom, maskLine, magicMark, hmark, Ne.symm hmark, hflag, maskFrom_false hcs]

/-- Magics are hidden line by line. -/
theorem maskFrom_eq (cs : List Char) :
    maskFrom true cs = ((cutAfterNewlines cs).map maskLine).flatten :=
  edited_by_lines lineEdit_maskLine rfl (fun _ => rfl) maskFrom_line cs

/-! ### Showing -/

/-- Nothing is shown but where a line begins with the mark. -/
theorem unmaskFrom_cons {atStart : Bool} {c : Char} {cs : List Char}
    (h : atStart = true → ¬ hiddenMark <+: c :: cs) :
    unmaskFrom atStart (c :: cs) = c :: unmaskFrom (c == '\n') cs := by
  rw [unmaskFrom]
  rintro s rfl rfl rfl
  exact h rfl (List.prefix_append hiddenMark s)

theorem unmaskFrom_false {body : List Char} (h : '\n' ∉ body) (rest : List Char) :
    unmaskFrom false (body ++ rest) = body ++ unmaskFrom false rest := by
  induction body with
  | nil => rfl
  | cons c cs ih =>
    obtain ⟨hc, hcs⟩ := not_or.mp (List.mem_cons.not.mp h)
    have hflag := beq_false_of_ne (Ne.symm hc)
    rw [List.cons_append, unmaskFrom_cons (by simp), hflag, ih hcs, List.cons_append]

theorem unmaskFrom_line (body rest : List Char) (h : '\n' ∉ body) (hrest : EndsLine rest) :
    unmaskFrom true (body ++ rest) = unmaskLine body ++ unmaskFrom false rest := by
  by_cases hmark : hiddenMark <+: body
  · obtain ⟨tail, rfl⟩ := hmark
    have htail : '\n' ∉ tail := fun hmem => h (List.mem_append_right hiddenMark hmem)
    simp [unmaskLine, hiddenMark, magicMark, unmaskFrom, unmaskFrom_false htail]
  · have hshown := (prefix_line_iff (by decide) body hrest).not.mpr hmark
    rw [unmaskLine, if_neg hmark]
    cases body with
    | nil =>
      cases rest with
      | nil => rfl
      | cons c s =>
        rw [hrest c s rfl]
        rfl
    | cons c cs =>
      obtain ⟨hc, hcs⟩ := not_or.mp (List.mem_cons.not.mp h)
      have hflag := beq_false_of_ne (Ne.symm hc)
      rw [List.cons_append] at hshown ⊢
      rw [unmaskFrom_cons fun _ => hshown, hflag, unmaskFrom_false hcs, List.cons_append]

/-- Magics are shown line by line. -/
theorem unmaskFrom_eq (cs : List Char) :
    unmaskFrom true cs = ((cutAfterNewlines cs).map unmaskLine).flatten :=
  edited_by_lines lineEdit_unmaskLine rfl (fun _ => rfl) unmaskFrom_line cs

/-! ### Hiding and showing -/

theorem unmaskLine_maskLine (line : List Char) : unmaskLine (maskLine line) = unmaskLine line := by
  by_cases hmagic : magicMark <+: line
  · obtain ⟨tail, rfl⟩ := hmagic
    simp [maskLine, unmaskLine, magicMark, hiddenMark]
  · rw [maskLine, if_neg hmagic]

theorem unmaskLine_eq_self_iff (line : List Char) :
    unmaskLine line = line ↔ ¬ hiddenMark <+: line := by
  refine ⟨fun h hmark => ?_, fun h => if_neg h⟩
  obtain ⟨tail, rfl⟩ := hmark
  have hlength := congrArg List.length h
  simp [unmaskLine, magicMark, hiddenMark] at hlength

/-- What becomes of a text that is hidden and shown again. -/
theorem unmaskMagics_maskMagics (code : String) :
    unmaskMagics (maskMagics code) = unmaskMagics code := by
  have hline : unmaskLine ∘ maskLine = unmaskLine := funext unmaskLine_maskLine
  rw [unmaskMagics, maskMagics, String.toList_ofList, unmaskFrom_eq, maskFrom_eq,
    cutAfterNewlines_map lineEdit_maskLine, List.map_map, hline, ← unmaskFrom_eq, ← unmaskMagics]

/-- Showing changes nothing but lines that look like hidden magics. -/
theorem unmaskFrom_eq_self_iff (cs : List Char) :
    unmaskFrom true cs = cs ↔ ∀ line ∈ cutAfterNewlines cs, ¬ hiddenMark <+: line := by
  rw [unmaskFrom_eq, flatten_map_eq_self_iff lineEdit_unmaskLine]
  simp only [unmaskLine_eq_self_iff]

theorem unmaskFrom_ended (atStart : Bool) (cs : List Char) :
    unmaskFrom atStart (cs ++ ['\n']) = unmaskFrom atStart cs ++ ['\n'] := by
  fun_induction unmaskFrom atStart cs with
  | case1 cs ih => simp [unmaskFrom, ih]
  | case2 atStart => cases atStart <;> rfl
  | case3 atStart c cs hne ih =>
    have hmark : atStart = true → ¬ hiddenMark <+: c :: cs := by
      rintro hstart ⟨s, hs⟩
      cases hs
      exact hne s hstart rfl rfl
    have hended : atStart = true → ¬ hiddenMark <+: c :: (cs ++ ['\n']) := fun hstart =>
      (prefix_line_iff (by decide) (c :: cs) (endsLine_newline [])).not.mpr (hmark hstart)
    rw [List.cons_append, unmaskFrom_cons hended, ih, List.cons_append]

theorem getLast?_unmaskFrom (atStart : Bool) (cs : List Char) :
    (unmaskFrom atStart cs).getLast? = cs.getLast? := by
  fun_induction unmaskFrom atStart cs with
  | case1 cs ih => simp [List.getLast?_cons, ih]
  | case2 atStart => rfl
  | case3 atStart c cs hne ih => rw [List.getLast?_cons, ih, List.getLast?_cons]

theorem trimEndNewlines_unmaskMagics (code : String) :
    trimEndNewlines (unmaskMagics code) = unmaskMagics (trimEndNewlines code) := by
  rw [trimEndNewlines, unmaskMagics, String.toList_ofList, unmaskMagics, trimEndNewlines,
    String.toList_ofList,
    dropEndWhile_commutes (unmaskFrom_ended true) (getLast?_unmaskFrom true)]

/-- Showing leaves code without the newlines at its end alone just when no line of the code looks
like a hidden magic. -/
theorem unmaskMagics_trimEndNewlines_eq_self_iff (code : String) :
    unmaskMagics (trimEndNewlines code) = trimEndNewlines code ↔
      ∀ line ∈ cutAfterNewlines code.toList, ¬ hiddenMark <+: line := by
  rw [← unmaskFrom_eq_self_iff, ← fixed_dropEndWhile_iff (unmaskFrom_ended true), unmaskMagics,
    trimEndNewlines, String.toList_ofList, String.ofList_inj]

/-! ### Showing and hiding -/

theorem maskLine_unmaskLine (line : List Char) : maskLine (unmaskLine line) = maskLine line := by
  by_cases hhidden : hiddenMark <+: line
  · obtain ⟨tail, rfl⟩ := hhidden
    simp [maskLine, unmaskLine, magicMark, hiddenMark]
  · rw [unmaskLine, if_neg hhidden]

theorem maskLine_eq_self_iff (line : List Char) : maskLine line = line ↔ ¬ magicMark <+: line := by
  refine ⟨fun h hmark => ?_, fun h => if_neg h⟩
  obtain ⟨tail, rfl⟩ := hmark
  have hlength := congrArg List.length h
  simp only [maskLine, magicMark, hiddenMark, List.prefix_append, if_pos, List.length_append,
    List.length_drop, List.length_cons, List.length_nil] at hlength
  omega

theorem not_magic_maskLine (line : List Char) : ¬ magicMark <+: maskLine line := by
  rw [maskLine]
  split
  · simp [magicMark, hiddenMark]
  · assumption

/-- What becomes of a text that is shown and hidden again. -/
theorem maskMagics_unmaskMagics (code : String) :
    maskMagics (unmaskMagics code) = maskMagics code := by
  have hline : maskLine ∘ unmaskLine = maskLine := funext maskLine_unmaskLine
  rw [maskMagics, unmaskMagics, String.toList_ofList, maskFrom_eq, unmaskFrom_eq,
    cutAfterNewlines_map lineEdit_unmaskLine, List.map_map, hline, ← maskFrom_eq, ← maskMagics]

/-- Code in which no line is a magic. -/
def NoMagic (code : String) : Prop :=
  ∀ line ∈ cutAfterNewlines code.toList, ¬ magicMark <+: line

theorem noMagic_maskMagics (code : String) : NoMagic (maskMagics code) := by
  rw [NoMagic, maskMagics, String.toList_ofList, maskFrom_eq]
  exact forall_line_map lineEdit_maskLine not_magic_maskLine _

/-- Hiding changes nothing but magics. -/
theorem maskFrom_eq_self_iff (cs : List Char) :
    maskFrom true cs = cs ↔ ∀ line ∈ cutAfterNewlines cs, ¬ magicMark <+: line := by
  rw [maskFrom_eq, flatten_map_eq_self_iff lineEdit_maskLine]
  simp only [maskLine_eq_self_iff]

theorem maskMagics_eq_self_iff (code : String) : maskMagics code = code ↔ NoMagic code := by
  rw [NoMagic, ← maskFrom_eq_self_iff, maskMagics, ← String.toList_inj, String.toList_ofList]

theorem maskFrom_ended (atStart : Bool) (cs : List Char) :
    maskFrom atStart (cs ++ ['\n']) = maskFrom atStart cs ++ ['\n'] := by
  induction cs generalizing atStart with
  | nil => cases atStart <;> rfl
  | cons c cs ih =>
    rw [List.cons_append, maskFrom, maskFrom, ih, ih]
    split <;> rfl

theorem getLast?_maskFrom (atStart : Bool) (cs : List Char) :
    (maskFrom atStart cs).getLast? = cs.getLast? := by
  fun_induction maskFrom atStart cs with
  | case1 => rfl
  | case2 atStart c cs hmagic ih =>
    have hmark : c = '%' := by simpa using (Bool.and_eq_true_iff.mp hmagic).2
    simp [List.getLast?_cons, ih, hmark]
  | case3 atStart c cs hmagic ih => rw [List.getLast?_cons, ih, List.getLast?_cons]

theorem trimEndNewlines_maskMagics (code : String) :
    trimEndNewlines (maskMagics code) = maskMagics (trimEndNewlines code) := by
  rw [trimEndNewlines, maskMagics, String.toList_ofList, maskMagics, trimEndNewlines,
    String.toList_ofList, dropEndWhile_commutes (maskFrom_ended true) (getLast?_maskFrom true)]

/-- The newlines at the end of code hide no magic, and are none. -/
theorem noMagic_trimEndNewlines (code : String) :
    NoMagic (trimEndNewlines code) ↔ NoMagic code := by
  rw [NoMagic, NoMagic, ← maskFrom_eq_self_iff, ← maskFrom_eq_self_iff, trimEndNewlines,
    String.toList_ofList, fixed_dropEndWhile_iff (maskFrom_ended true)]

/-! ### Formatters that are kept from magics -/

theorem among_trimmed (φ : Formatter) (t : Tree) (code : String) :
    (trimmed φ).among t code =
      if allBlank code then .ok "" else (φ.among t code).map trimEndNewlines := by
  rw [among, trimmed]
  split
  · rfl
  · rw [Attempt.run_bind_pure, ← among]

theorem among_masked (φ : Formatter) (t : Tree) (code : String) :
    (masked φ).among t code = (φ.among t (maskMagics code)).map unmaskMagics := by
  rw [among, masked, Attempt.run_bind_pure, ← among]

/-- Formatters that change nothing change nothing one after the other. -/
theorem computes_inOrder_ok {steps : List Formatter} (h : ∀ φ ∈ steps, φ.Computes .ok) :
    (inOrder steps).Computes .ok := by
  intro t
  funext code
  induction steps generalizing t with
  | nil => rfl
  | cons φ steps ih =>
    obtain ⟨hφ, hsteps⟩ := List.forall_mem_cons.mp h
    have hfirst : ((φ code).run t).outcome = .ok code := congrFun (hφ t) code
    rw [among, inOrder, Attempt.outcome_bind, hfirst]
    exact ih hsteps _

/-- What a pipeline that magics are kept from makes of code. -/
theorem among_python (steps : List Formatter) (t : Tree) (code : String) :
    (python steps true).among t code = if allBlank code then .ok "" else
      ((inOrder steps).among t (maskMagics code)).map fun formatted =>
        trimEndNewlines (unmaskMagics formatted) := by
  rw [python, if_pos rfl, among_trimmed, among_masked, Attempt.outcome_map_map]

/-- No line of blank code begins with what is not blank. -/
theorem not_marked_of_allBlank {mark : List Char} {c : Char} (hc : c ∈ mark)
    (hmark : isBlank c = false) {code : String} (h : allBlank code = true) :
    ∀ line ∈ cutAfterNewlines code.toList, ¬ mark <+: line := by
  rintro line hline ⟨tail, rfl⟩
  have hmem : c ∈ code.toList := by
    rw [← flatten_cutAfterNewlines code.toList]
    exact List.mem_flatten.mpr ⟨_, hline, List.mem_append_left _ hc⟩
  rw [List.all_eq_true.mp h c hmem] at hmark
  cases hmark

theorem not_hidden_of_allBlank {code : String} (h : allBlank code = true) :
    ∀ line ∈ cutAfterNewlines code.toList, ¬ hiddenMark <+: line :=
  @not_marked_of_allBlank hiddenMark '#' (by decide) (by decide) code h

theorem noMagic_of_allBlank {code : String} (h : allBlank code = true) : NoMagic code :=
  @not_marked_of_allBlank magicMark '%' (by decide) (by decide) code h

/-- **Formatters that change nothing come to the code without the newlines at its end**, and
with magics kept from them to the same just when no line of the code looks like a hidden magic. -/
theorem masking_unseen_iff {steps : List Formatter} (h : ∀ φ ∈ steps, φ.Computes .ok)
    (code : String) (t : Tree) :
    (python steps false).among t code =
        .ok (if allBlank code then "" else trimEndNewlines code) ∧
      (python steps true).among t code =
        .ok (if allBlank code then "" else unmaskMagics (trimEndNewlines code)) ∧
      ((python steps true).among t code = (python steps false).among t code ↔
        ∀ line ∈ cutAfterNewlines code.toList, ¬ hiddenMark <+: line) := by
  have hsteps : ∀ code, (inOrder steps).among t code = .ok code :=
    congrFun (computes_inOrder_ok h t)
  have hplain : (python steps false).among t code =
      .ok (if allBlank code then "" else trimEndNewlines code) := by
    rw [python, among_trimmed]
    split <;> simp [hsteps, Except.map]
  have hmasked : (python steps true).among t code =
      .ok (if allBlank code then "" else unmaskMagics (trimEndNewlines code)) := by
    rw [python, among_trimmed]
    split
    · rfl
    · simp [among_masked, hsteps, Except.map, unmaskMagics_maskMagics,
        trimEndNewlines_unmaskMagics]
  refine ⟨hplain, hmasked, ?_⟩
  rw [hplain, hmasked]
  by_cases hblank : allBlank code = true
  · simpa [hblank] using not_hidden_of_allBlank hblank
  · simp [hblank, unmaskMagics_trimEndNewlines_eq_self_iff]

theorem computes_unchanged : ∀ φ ∈ [ofFunction .ok], φ.Computes .ok := by
  intro φ hφ
  rw [List.mem_singleton.mp hφ]
  exact computes_ofFunction .ok

theorem masking_unseen_magic :
    (∀ φ ∈ [ofFunction .ok], φ.Computes .ok) ∧
      (python [ofFunction .ok] true).among ⟨[], []⟩ "%time\n# x %\n\n" = .ok "%time\n# x %" := by
  obtain ⟨hplain, _, hiff⟩ := masking_unseen_iff computes_unchanged "%time\n# x %\n\n" ⟨[], []⟩
  refine ⟨computes_unchanged, (hiff.mpr (by decide +kernel)).trans (hplain.trans ?_)⟩
  decide +kernel

/-- A comment that looks like a hidden magic becomes a magic. -/
theorem masking_loses_comment :
    (∀ φ ∈ [ofFunction .ok], φ.Computes .ok) ∧
      (python [ofFunction .ok] true).among ⟨[], []⟩ "##%x" = .ok "%x" ∧
      (python [ofFunction .ok] false).among ⟨[], []⟩ "##%x" = .ok "##%x" :=
  ⟨computes_unchanged, by decide +kernel, by decide +kernel⟩

end NotebookTidy.Formatter
