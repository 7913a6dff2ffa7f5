import NotebookTidy.Proofs.Formatter.Magics

/-! Formatting formatted code.

What a pipeline makes of hidden magics holds no magic itself if the pipeline puts none there
(`WellBehaved`). So it can be had again from the formatted code, but for the newlines at its end,
by hiding the magics in that (`maskMagics_of_formatted`), and a pipeline that leaves its own results
alone leaves the formatted code alone (`python_leaves_formatted`). Of blank code there is
nothing left. -/
namespace NotebookTidy.Formatter
open Files Text

/-- What makes of code the same whatever newlines it ends in, leaves alone what it made, puts no
magics into code that has none, and leaves nothing but newlines if it leaves nothing but
blanks. -/
structure WellBehaved (f : String → Except Failure String) : Prop where
  ended : ∀ {code code' : String}, trimEndNewlines code = trimEndNewlines code' → f code = f code'
  settled : ∀ {code formatted : String}, f code = .ok formatted → f formatted = .ok formatted
  plain : ∀ {code formatted : String}, NoMagic code → f code = .ok formatted → NoMagic formatted
  blank : ∀ {code formatted : String}, f code = .ok formatted → allBlank formatted = true →
    ∀ c ∈ formatted.toList, c = '\n'

/-- Hiding the magics in formatted code brings back what the pipeline made. -/
theorem maskMagics_of_formatted {made : String} (h : NoMagic made) :
    maskMagics (trimEndNewlines (unmaskMagics made)) = trimEndNewlines made := by
  rw [trimEndNewlines_unmaskMagics, maskMagics_unmaskMagics, maskMagics_eq_self_iff,
    noMagic_trimEndNewlines]
  exact h

/-- Formatted code that is blank is no code. -/
theorem formatted_eq_empty_of_allBlank {made : String} (hplain : NoMagic made)
    (hblank : allBlank made = true → ∀ c ∈ made.toList, c = '\n')
    (h : allBlank (trimEndNewlines (unmaskMagics made)) = true) :
    trimEndNewlines (unmaskMagics made) = "" := by
  have hmade : trimEndNewlines (unmaskMagics made) = trimEndNewlines made := by
    rw [← maskMagics_of_formatted hplain]
    exact ((maskMagics_eq_self_iff _).mpr (noMagic_of_allBlank h)).symm
  rw [hmade, allBlank_trimEndNewlines] at h
  rw [hmade]
  exact (trimEndNewlines_eq_empty_iff made).mpr (hblank h)

/-- **Formatted code stays as it is** when it is formatted again, if the formatters are well-behaved
and magics are kept from them. -/
theorem python_leaves_formatted {f : String → Except Failure String} {steps : List Formatter}
    (hsteps : (inOrder steps).Computes f) (hf : WellBehaved f) {t : Tree} {code formatted : String}
    (h : (python steps true).among t code = .ok formatted) (t' : Tree) :
    (python steps true).among t' formatted = .ok formatted := by
  rw [among_python, hsteps] at h ⊢
  by_cases hcode : allBlank code = true
  · -- nothing came of blank code, and nothing is blank again
    rw [if_pos hcode] at h
    cases h
    rfl
  · rw [if_neg hcode] at h
    cases hmade : f (maskMagics code) with
    | error e =>
      rw [hmade] at h
      cases h
    | ok made =>
      rw [hmade, Except.map, Except.ok.injEq] at h
      subst h
      have hplain : NoMagic made := hf.plain (noMagic_maskMagics code) hmade
      have hagain : f (maskMagics (trimEndNewlines (unmaskMagics made))) = .ok made := by
        rw [maskMagics_of_formatted hplain, hf.ended (trimEndNewlines_trimEndNewlines made)]
        exact hf.settled hmade
      rw [hagain, Except.map]
      -- blank code is not formatted again, so it has to be the empty text already
      split
      · next hblank =>
        rw [formatted_eq_empty_of_allBlank hplain (hf.blank hmade) hblank]
      · rfl

/-! ### A formatter that ends code with one newline -/

/-- Ends code with a single newline; no code, if it is blank. -/
def endOnce (code : String) : Except Failure String :=
  .ok (if allBlank code then "" else trimEndNewlines code ++ "\n")

theorem noMagic_newline (code : String) : NoMagic (trimEndNewlines code ++ "\n") ↔ NoMagic code := by
  rw [← noMagic_trimEndNewlines, trimEndNewlines_newline, noMagic_trimEndNewlines,
    noMagic_trimEndNewlines]

theorem allBlank_newline (code : String) :
    allBlank (trimEndNewlines code ++ "\n") = allBlank code := by
  rw [← allBlank_trimEndNewlines, trimEndNewlines_newline, allBlank_trimEndNewlines,
    allBlank_trimEndNewlines]

theorem wellBehaved_endOnce : WellBehaved endOnce where
  ended := by
    intro code code' h
    rw [endOnce, endOnce, ← allBlank_trimEndNewlines, h, allBlank_trimEndNewlines]
  settled := by
    rintro code _ ⟨⟩
    split
    · rfl
    · next hcode =>
      rw [endOnce, allBlank_newline, if_neg hcode, trimEndNewlines_newline,
        trimEndNewlines_trimEndNewlines]
  plain := by
    rintro code _ hplain ⟨⟩
    split
    · exact noMagic_of_allBlank rfl
    · exact (noMagic_newline code).mpr hplain
  blank := by
    rintro code _ ⟨⟩ hblank
    by_cases hcode : allBlank code = true
    · rw [if_pos hcode]
      exact fun c hc => absurd hc List.not_mem_nil
    · rw [if_neg hcode, allBlank_newline] at hblank
      exact absurd hblank hcode

theorem computes_inOrder_endOnce : (inOrder [ofFunction endOnce]).Computes endOnce :=
  fun _ => rfl

theorem python_leaves_formatted_magic :
    (python [ofFunction endOnce] true).among ⟨[], []⟩ "%time\nx\n\n" = .ok "%time\nx" ∧
      (python [ofFunction endOnce] true).among ⟨[], []⟩ "%time\nx" = .ok "%time\nx" := by
  have hfirst : (python [ofFunction endOnce] true).among ⟨[], []⟩ "%time\nx\n\n" =
      .ok "%time\nx" := by decide +kernel
  exact ⟨hfirst,
    python_leaves_formatted computes_inOrder_endOnce wellBehaved_endOnce hfirst ⟨[], []⟩⟩

end NotebookTidy.Formatter
