import NotebookTidy.Formatter.Language
import NotebookTidy.Proofs.Outcome

/-! Pipelines of external programs.

A program that ran without a fault wrote text (`Outcome.Writes`). Any other one fails, and of
several faults the first one that counts is reported: that it could not be started, its status,
input that it did not take, and last what it wrote (`Outcome.FailsAs`).

Programs in a pipeline are started in order, each fed what the one before it wrote, for as long as
none fails (`Piped`). `python_ends_iff`: a pipeline for Python code ends in no other way than with the
text of the last program or with the failure of the first one that fails, and only what goes in at
the front and comes out at the end is masked and trimmed. -/
namespace NotebookTidy
open Files Text

/-- A program that was started, took its input, ended well and wrote a text. -/
def Outcome.Writes (outcome : Outcome) (code : String) : Prop :=
  ∃ stderr, outcome = .finished 0 (encode code) stderr none

/-- What a program that wrote no text fails with. -/
inductive Outcome.FailsAs (program : String) : Outcome → Failure → Prop where
  | notStarted {e : IoError} : FailsAs program (.notStarted e) (.notStarted program e)
  | exited {status : Nat} {stdout stderr : Bytes} {inputError : Option IoError} (h : status ≠ 0) :
      FailsAs program (.finished status stdout stderr inputError)
        (.exited program status (trimBlank (decodeLossy stderr)))
  | inputRefused {stdout stderr : Bytes} {e : IoError} :
      FailsAs program (.finished 0 stdout stderr (some e)) (.io e)
  | notText {stdout stderr : Bytes} (h : ∀ code, encode code ≠ stdout) :
      FailsAs program (.finished 0 stdout stderr none) (.outputNotText program)

namespace Formatter

/-! ### One program -/

theorem verdict_of_writes {outcome : Outcome} {code : String} (h : outcome.Writes code)
    (program : String) : verdict program outcome = .ok code := by
  obtain ⟨stderr, rfl⟩ := h
  simp only [verdict, ne_eq, not_true_eq_false, if_false, decode?_encode]

theorem verdict_of_failsAs {program : String} {outcome : Outcome} {failure : Failure}
    (h : outcome.FailsAs program failure) : verdict program outcome = .error failure := by
  cases h with
  | notStarted => rfl
  | exited h => exact if_pos h
  | inputRefused => rfl
  | @notText stdout stderr h =>
    have hnone : decode? stdout = none :=
      Option.eq_none_iff_forall_ne_some.mpr fun code hcode => h code (encode_of_decode? hcode)
    simp only [verdict, ne_eq, not_true_eq_false, if_false, hnone]

/-- A program writes text or fails. -/
theorem writes_or_failsAs (program : String) (outcome : Outcome) :
    (∃ code, outcome.Writes code) ∨ ∃ failure, outcome.FailsAs program failure := by
  cases outcome with
  | notStarted e => exact .inr ⟨_, .notStarted⟩
  | finished status stdout stderr inputError =>
    by_cases hstatus : status = 0
    · subst hstatus
      cases inputError with
      | some e => exact .inr ⟨_, .inputRefused⟩
      | none =>
        by_cases htext : ∃ code, encode code = stdout
        · obtain ⟨code, rfl⟩ := htext
          exact .inl ⟨code, stderr, rfl⟩
        · exact .inr ⟨_, .notText (not_exists.mp htext)⟩
    · exact .inr ⟨_, .exited hstatus⟩

variable {run : Runner}

theorem run_ofCommand {command : Command} {code : String} {t t' : Tree} {outcome : Outcome}
    (h : run command (.pipes (encode code)) t = (outcome, t')) :
    (ofCommand run command code).run t =
      ⟨t', [.formatterStarted command code], verdict command.program outcome⟩ := by
  have hstart : (Attempt.start run command (.pipes (encode code))).run t = ⟨t', [], .ok outcome⟩ := by
    simp only [Attempt.start, h]
  have htell := Attempt.run_tell (.formatterStarted command code) t
  rw [ofCommand, Attempt.run_bind_of_ok (congrArg Done.outcome htell), htell,
    Attempt.run_bind_of_ok (congrArg Done.outcome hstart), hstart, Attempt.run_of]
  rfl

/-! ### One after the other -/

/-- Programs that run one after the other without a fault, each fed what the one before it wrote:
what happens, and the files and the text that are there at the end. -/
inductive Piped (run : Runner) : List Command → Tree → String → List Event → Tree → String → Prop where
  | nil {t : Tree} {code : String} : Piped run [] t code [] t code
  | cons {command : Command} {commands : List Command} {t t₁ t' : Tree}
      {code written last : String} {outcome : Outcome} {events : List Event}
      (started : run command (.pipes (encode code)) t = (outcome, t₁))
      (writes : outcome.Writes written) (rest : Piped run commands t₁ written events t' last) :
      Piped run (command :: commands) t code (.formatterStarted command code :: events) t' last

/-- How programs that are fed one after the other end: all of them wrote text, or there is a first
one that fails, and the ones after it are not started. -/
inductive Ends (run : Runner) (commands : List Command) (t : Tree) (code : String) :
    Done String → Prop where
  | wrote {t' : Tree} {events : List Event} {last : String}
      (all : Piped run commands t code events t' last) :
      Ends run commands t code ⟨t', events, .ok last⟩
  | failed {before after : List Command} {command : Command} {t₁ t' : Tree} {events : List Event}
      {input : String} {outcome : Outcome} {failure : Failure}
      (among : commands = before ++ command :: after)
      (fine : Piped run before t code events t₁ input)
      (started : run command (.pipes (encode input)) t₁ = (outcome, t'))
      (fails : outcome.FailsAs command.program failure) :
      Ends run commands t code
        ⟨t', events ++ [.formatterStarted command input], .error failure⟩

/-- After programs without a fault the others go on with what is there. -/
theorem Piped.run_append {before : List Command} {t t₁ : Tree} {code input : String}
    {events : List Event} (h : Piped run before t code events t₁ input) (after : List Command) :
    (inOrder ((before ++ after).map (ofCommand run)) code).run t =
      ⟨((inOrder (after.map (ofCommand run)) input).run t₁).tree,
        events ++ ((inOrder (after.map (ofCommand run)) input).run t₁).events,
        ((inOrder (after.map (ofCommand run)) input).run t₁).outcome⟩ := by
  induction h with
  | nil => rfl
  | @cons command commands t t₁ t' code written last outcome events started writes _ ih =>
    have hfirst := run_ofCommand started
    rw [verdict_of_writes writes] at hfirst
    rw [List.cons_append, List.map_cons, inOrder,
      Attempt.run_bind_of_ok (congrArg Done.outcome hfirst), hfirst, ih]
    rfl

theorem Ends.run_inOrder {commands : List Command} {t : Tree} {code : String} {done : Done String}
    (h : Ends run commands t code done) :
    (inOrder (commands.map (ofCommand run)) code).run t = done := by
  cases h with
  | wrote all =>
    have hrun := all.run_append []
    rw [List.append_nil] at hrun
    rw [hrun, List.map_nil, inOrder, Attempt.run_pure, List.append_nil]
  | @failed before after command t₁ t' events input outcome failure among fine started fails =>
    have hfails := run_ofCommand started
    rw [verdict_of_failsAs fails] at hfails
    rw [among, fine.run_append, List.map_cons, inOrder,
      Attempt.run_bind_of_error (congrArg Done.outcome hfails), hfails]

theorem exists_ends (run : Runner) (commands : List Command) (t : Tree) (code : String) :
    ∃ done, Ends run commands t code done := by
  induction commands generalizing t code with
  | nil => exact ⟨_, .wrote .nil⟩
  | cons command commands ih =>
    obtain ⟨outcome, t₁, started⟩ : ∃ outcome t₁,
        run command (.pipes (encode code)) t = (outcome, t₁) := ⟨_, _, rfl⟩
    rcases writes_or_failsAs command.program outcome with ⟨written, writes⟩ | ⟨failure, fails⟩
    · obtain ⟨done, hrest⟩ := ih t₁ written
      cases hrest with
      | wrote all => exact ⟨_, .wrote (.cons started writes all)⟩
      | failed among fine later fails =>
        exact ⟨_, .failed (congrArg (command :: ·) among) (.cons started writes fine) later fails⟩
    · exact ⟨_, .failed rfl .nil started fails⟩

theorem run_inOrder_iff (commands : List Command) (t : Tree) (code : String)
    (done : Done String) : (inOrder (commands.map (ofCommand run)) code).run t = done ↔
      Ends run commands t code done := by
  refine ⟨fun h => ?_, Ends.run_inOrder⟩
  obtain ⟨made, hends⟩ := exists_ends run commands t code
  rw [← h, hends.run_inOrder]
  exact hends

/-! ### Python code -/

theorem run_trimmed {φ : Formatter} {code : String} (h : allBlank code = false) (t : Tree) :
    (trimmed φ code).run t =
      ⟨((φ code).run t).tree, ((φ code).run t).events,
        ((φ code).run t).outcome.map trimEndNewlines⟩ := by
  rw [trimmed, h, if_neg Bool.false_ne_true, Attempt.run_bind_pure]

theorem run_masked (φ : Formatter) (code : String) (t : Tree) :
    (masked φ code).run t =
      ⟨((φ (maskMagics code)).run t).tree, ((φ (maskMagics code)).run t).events,
        ((φ (maskMagics code)).run t).outcome.map unmaskMagics⟩ := by
  rw [masked, Attempt.run_bind_pure]

/-- What goes in at the front of a pipeline, and what comes out at its end. -/
theorem run_python (steps : List Formatter) (mask : Bool) {code : String}
    (h : allBlank code = false) (t : Tree) :
    (python steps mask code).run t =
      ⟨((inOrder steps (if mask then maskMagics code else code)).run t).tree,
        ((inOrder steps (if mask then maskMagics code else code)).run t).events,
        ((inOrder steps (if mask then maskMagics code else code)).run t).outcome.map
          fun text => trimEndNewlines (if mask then unmaskMagics text else text)⟩ := by
  rw [python, run_trimmed h]
  cases mask with
  | false => rfl
  | true =>
    rw [if_pos rfl, run_masked, Attempt.outcome_map_map]
    rfl

/-- **A pipeline ends with what its last program wrote, or with its first failure.** The programs
are fed code that is masked if magics are kept from them, and what they made is unmasked then; of
what they made the newlines at the end go away. -/
theorem python_ends_iff (run : Runner) (commands : List Command) (mask : Bool) {code : String}
    (h : allBlank code = false) (t : Tree) (done : Done String) :
    (python (commands.map (ofCommand run)) mask code).run t = done ↔
      ∃ made, Ends run commands t (if mask then maskMagics code else code) made ∧
        done = ⟨made.tree, made.events,
          made.outcome.map fun text => trimEndNewlines (if mask then unmaskMagics text else text)⟩ := by
  rw [run_python _ mask h]
  constructor
  · intro hdone
    exact ⟨_, (run_inOrder_iff commands t _ _).mp rfl, hdone.symm⟩
  · rintro ⟨made, hends, rfl⟩
    rw [hends.run_inOrder]

/-- A program that copies what it is fed, and one that says no and fails in every way in which a
program that was started can. -/
def copyOrFail : Runner
  | ⟨"cat", _⟩, .pipes input, t => (.finished 0 input [] none, t)
  | _, _, t => (.finished 3 [0xff] [0x6e, 0x6f, 0x0a] (some .brokenPipe), t)

theorem python_ends_broken :
    allBlank "%x\n" = false ∧ ∀ t,
      (python ([⟨"cat", []⟩, ⟨"sh", []⟩, ⟨"cat", []⟩].map (ofCommand copyOrFail)) true "%x\n").run t =
        ⟨t, [.formatterStarted ⟨"cat", []⟩ "##%x\n", .formatterStarted ⟨"sh", []⟩ "##%x\n"],
          .error (.exited "sh" 3 "no")⟩ := by
  have hcode : allBlank "%x\n" = false := by decide +kernel
  have hmasked : maskMagics "%x\n" = "##%x\n" := by decide +kernel
  have hdecoded : decodeLossy [0x6e, 0x6f, 0x0a] = "no\n" := by
    simp only [decodeLossy, decodeLossyFrom, decodeLossyFrom.start]
    decide
  have hstderr : trimBlank (decodeLossy [0x6e, 0x6f, 0x0a]) = "no" := by
    rw [hdecoded]
    decide +kernel
  refine ⟨hcode, fun t => (python_ends_iff copyOrFail _ true hcode t _).mpr ?_⟩
  have hcopied : Piped copyOrFail [⟨"cat", []⟩] t "##%x\n"
      [.formatterStarted ⟨"cat", []⟩ "##%x\n"] t "##%x\n" := .cons rfl ⟨[], rfl⟩ .nil
  have hfails : Outcome.FailsAs "sh"
      (.finished 3 [0xff] [0x6e, 0x6f, 0x0a] (some .brokenPipe)) (.exited "sh" 3 "no") := by
    rw [← hstderr]
    exact .exited (by decide)
  rw [if_pos rfl, hmasked]
  exact ⟨_, @Ends.failed copyOrFail _ t _ [⟨"cat", []⟩] [⟨"cat", []⟩] ⟨"sh", []⟩ _ _ _ _ _ _ rfl hcopied
    rfl hfails, rfl⟩

end Formatter
end NotebookTidy
