import Mathlib.Data.List.Forall2
import NotebookTidy.Config.JsonReader
import NotebookTidy.Proofs.Json.Passing

/-! What is read of the parts of a config.

A document says a command, or a config as far as it goes, if it is an object that has each part under
its key, and none of its keys twice; what it has under other keys does not matter, nor in which order
(`MeansCommand`, `Draft.SaidBy`). A reader reads a document as something if it does so with every text of
it (`ReadAs`). A run over members keeps what each part is awaited to be (`Awaits`): what is read
already, or what is said by a member that is still to come. So every text of a document that
says a config is read as that config (`readJson_of_saidBy`). -/
namespace NotebookTidy.Config
open Json

variable {α : Type}

/-! ### What is said -/

/-- What is said under a key, if there is a member with that key. -/
inductive SaidUnder (Means : α → Doc → Prop) (key : String) (ms : List (String × Doc)) :
    Option α → Prop where
  | missing (h : key ∉ ms.map Prod.fst) : SaidUnder Means key ms none
  | given {a : α} {value : Doc} (member : (key, value) ∈ ms) (meant : Means a value) :
      SaidUnder Means key ms (some a)

def MeansString (s : String) (value : Doc) : Prop := value = .string s

def MeansBool (b : Bool) (value : Doc) : Prop := value = .bool b

def MeansList (Means : α → Doc → Prop) (as : List α) (value : Doc) : Prop :=
  ∃ items, value = .array items ∧ List.Forall₂ Means as items

/-- A command needs a program. Without arguments it has none. -/
inductive MeansCommand : Command → Doc → Prop where
  | object {ms : List (String × Doc)} {program : String} {args : Option (List String)}
      (distinct : (ms.map Prod.fst).Nodup) (hprogram : SaidUnder MeansString "program" ms (some program))
      (hargs : SaidUnder (MeansList MeansString) "args" ms args) :
      MeansCommand ⟨program, args.getD []⟩ (.object ms)

structure Draft.SaidBy (d : Draft) (ms : List (String × Doc)) : Prop where
  distinct : (ms.map Prod.fst).Nodup
  python : SaidUnder (MeansList MeansCommand) "python" ms d.python
  julia : SaidUnder MeansCommand "julia" ms d.julia
  juliaProbe : SaidUnder MeansCommand "julia_probe" ms d.juliaProbe
  maskMagics : SaidUnder MeansBool "mask_magics" ms d.maskMagics

/-- What a part comes to in the end: what is known of it already, and then it is not said once more,
or what is said of it. -/
inductive Awaits (Means : α → Doc → Prop) (key : String) (ms : List (String × Doc)) :
    (known final : Option α) → Prop where
  | known {a : α} (h : key ∉ ms.map Prod.fst) : Awaits Means key ms (some a) (some a)
  | unknown {final : Option α} (h : SaidUnder Means key ms final) : Awaits Means key ms none final

namespace Awaits
variable {Means : α → Doc → Prop} {key : String} {m : String × Doc} {ms : List (String × Doc)}
  {known final : Option α}

theorem eq_of_nil (h : Awaits Means key [] known final) : known = final := by
  cases h with
  | known _ => rfl
  | unknown h =>
    cases h with
    | missing _ => rfl
    | given member _ => cases member

/-- A member with another key is passed. -/
theorem cons_of_ne (h : Awaits Means key (m :: ms) known final) (hne : m.1 ≠ key) :
    Awaits Means key ms known final := by
  cases h with
  | known h => exact .known fun hmem => h (List.mem_cons_of_mem _ hmem)
  | unknown h =>
    cases h with
    | missing h => exact .unknown (.missing fun hmem => h (List.mem_cons_of_mem _ hmem))
    | given member meant =>
      obtain rfl | member := List.mem_cons.mp member
      · exact absurd rfl hne
      · exact .unknown (.given member meant)

/-- The member with the key is taken. -/
theorem cons_of_eq (h : Awaits Means key (m :: ms) known final) (hkey : m.1 = key)
    (hdistinct : m.1 ∉ ms.map Prod.fst) :
    known = none ∧ ∃ a, Means a m.2 ∧ Awaits Means key ms (some a) final := by
  obtain ⟨k, v⟩ := m
  subst hkey
  cases h with
  | known h => exact absurd List.mem_cons_self h
  | unknown h =>
    cases h with
    | missing h => exact absurd List.mem_cons_self h
    | @given a value member meant =>
      obtain heq | member := List.mem_cons.mp member
      · obtain rfl : value = v := congrArg Prod.snd heq
        exact ⟨rfl, a, meant, .known hdistinct⟩
      · exact absurd (List.mem_map_of_mem member) hdistinct

end Awaits

/-! ### Strings, truth values and lists -/

/-- Every text of a document is read as this. -/
def ReadAs (read : List Char → Except Fault (α × List Char)) (a : α) (value : Doc) : Prop :=
  ∀ text, value.Writes text → ∀ lead rest, Blank lead →
    read (lead ++ (text ++ rest)) = .ok (a, rest)

theorem readAs_string {s : String} {value : Doc} (h : MeansString s value) :
    ReadAs readString s value := by
  intro text hwrites lead rest hlead
  rw [MeansString] at h
  subst h
  cases hwrites with
  | string hliteral =>
    rw [List.cons_append, List.append_assoc, List.singleton_append, readString,
      skipSpace_blank hlead (by decide)]
    exact stringRest_of_isLiteral hliteral rest

theorem readAs_bool {b : Bool} {value : Doc} (h : MeansBool b value) : ReadAs readBool b value := by
  intro text hwrites lead rest hlead
  rw [MeansBool] at h
  subst h
  cases hwrites with
  | bool b =>
    cases b
    · simp only [boolText, Bool.false_eq_true, if_false, List.cons_append]
      rw [readBool, skipSpace_blank hlead (by decide)]
      rfl
    · simp only [boolText, if_true, List.cons_append]
      rw [readBool, skipSpace_blank hlead (by decide)]
      rfl

theorem itemsOf_listed {readItem : List Char → Except Fault (α × List Char)} {as : List α}
    {items : List Item} (hread : List.Forall₂ (fun a i => ReadAs readItem a i.value) as items)
    (hwritten : ∀ i ∈ items, i.Written) (first : Bool) {tail blank : List Char} (htail : Blank tail)
    (hblank : Blank blank) (rest : List Char) {fuel : Nat} (hfuel : items.length < fuel) :
    itemsOf readItem fuel first
      (tail ++ (listed first (items.map Item.chars) ++ (blank ++ ']' :: rest))) = .ok (as, rest) := by
  induction hread generalizing first tail fuel with
  | nil =>
    obtain _ | fuel := fuel
    · cases hfuel
    rw [List.map_nil, listed, List.nil_append, ← List.append_assoc, itemsOf,
      nextItem_close first (htail.append hblank)]
    simp only [pastClose_blank (htail.append hblank) (show isSpace ']' = false by decide)]
  | @cons a i as items hi _ ih =>
    obtain _ | fuel := fuel
    · cases hfuel
    obtain ⟨⟨hspaced, hvalue⟩, hwritten⟩ := List.forall_mem_cons.mp hwritten
    obtain ⟨c, s, htext, hspace, hclose⟩ := hvalue.begins
    have hitem := hi _ hvalue [] (i.tail ++ (listed false (items.map Item.chars) ++
      (blank ++ ']' :: rest))) blank_nil
    have hfuel : items.length < fuel := by simpa using hfuel
    have hitems := ih hwritten false hspaced.tail hfuel
    rw [htext] at hitem
    simp only [List.nil_append, List.cons_append] at hitem
    simp only [List.map_cons, listed, Item.chars, htext, List.append_assoc, List.cons_append]
    rw [itemsOf, nextItem_listed first htail hspaced.lead hspace hclose]
    simp only [hitem, hitems, ok_bind]

theorem length_le_listed (ps : List (List Char)) : ps.length ≤ (listed true ps).length + 1 := by
  have hlater : ∀ ps : List (List Char), ps.length ≤ (listed false ps).length := by
    intro ps
    induction ps with
    | nil => simp [listed]
    | cons p ps ih =>
      simp [listed]
      omega
  cases ps with
  | nil => simp [listed]
  | cons p ps =>
    have := hlater ps
    simp [listed]
    omega

theorem readAs_list {readItem : List Char → Except Fault (α × List Char)} {Means : α → Doc → Prop}
    (h : ∀ a value, Means a value → ReadAs readItem a value) {as : List α} {value : Doc}
    (hmeans : MeansList Means as value) : ReadAs (readList readItem) as value := by
  intro text hwrites lead rest hlead
  obtain ⟨values, rfl, hvalues⟩ := hmeans
  cases hwrites with
  | @array items blank hspaced hwritten hblank =>
    have hread : List.Forall₂ (fun a i => ReadAs readItem a i.value) as items :=
      (List.forall₂_map_right_iff.mp hvalues).imp fun a (i : Item) => h a i.value
    simp only [arrayText, List.cons_append, List.append_assoc, List.nil_append]
    rw [readList, skipSpace_blank hlead (by decide)]
    have hlength := length_le_listed (items.map Item.chars)
    refine itemsOf_listed hread (fun i hi => ⟨hspaced i hi, hwritten i hi⟩) true blank_nil hblank
      rest ?_
    simp at hlength ⊢
    omega

/-! ### Members -/

section Members
variable {m : Member}

theorem nextKey_member (hm : m.Spaced) (first : Bool) {tail : List Char} (htail : Blank tail)
    (ms : List Member) (s : List Char) :
    nextKey first (tail ++ (listed first ((m :: ms).map Member.chars) ++ s)) =
      .ok (some (m.literal ++ '"' :: (m.after ++ ':' :: (m.item.chars ++
        (listed false (ms.map Member.chars) ++ s))))) := by
  simp only [List.map_cons, listed, Member.chars, List.append_assoc, List.cons_append]
  exact nextKey_listed first htail hm.before _

/-- A part that is not there yet is read. -/
theorem namedPart_of_readAs {read : List Char → Except Fault (α × List Char)} {a : α}
    (hm : m.Written) (h : ReadAs read a m.item.value) (name : String) (s : List Char) :
    namedPart name none read (m.after ++ ':' :: (m.item.chars ++ s)) =
      .ok (some a, m.item.tail ++ s) := by
  have hread := h _ hm.value m.item.lead (m.item.tail ++ s) hm.spaced.item.lead
  rw [namedPart, colon_blank hm.spaced.after]
  simp only [ok_bind, Item.chars, List.append_assoc, hread]

theorem skipPart_of_written (hm : m.Written) {s : List Char} (hs : EndsNumber (m.item.tail ++ s)) :
    skipPart (m.after ++ ':' :: (m.item.chars ++ s)) = .ok (m.item.tail ++ s) := by
  rw [skipPart, colon_blank hm.spaced.after]
  simp only [ok_bind, Item.chars, List.append_assoc]
  refine passed_of_writes hm.value _ _ _ ?_ hm.spaced.item.lead hs
  simp only [fuelFor, List.length_append]
  omega

end Members

/-! ### Commands -/

/-- A member of a command is read, and of those after it is awaited what is left. -/
theorem commandMembers_member {m : Member} {ms : List Member} (hm : m.Written)
    (hnew : m.key ∉ (ms.map Member.said).map Prod.fst) {program : Option String}
    {args : Option (List String)} {p : String} {as : Option (List String)}
    (hprogram : Awaits MeansString "program" (m.said :: ms.map Member.said) program (some p))
    (hargs : Awaits (MeansList MeansString) "args" (m.said :: ms.map Member.said) args as)
    (first : Bool) {tail s : List Char} (htail : Blank tail)
    (hs : EndsNumber (m.item.tail ++ (listed false (ms.map Member.chars) ++ s))) (fuel : Nat) :
    ∃ program' args', Awaits MeansString "program" (ms.map Member.said) program' (some p) ∧
      Awaits (MeansList MeansString) "args" (ms.map Member.said) args' as ∧
      commandMembers (fuel + 1) first program args
          (tail ++ (listed first ((m :: ms).map Member.chars) ++ s)) =
        commandMembers fuel false program' args'
          (m.item.tail ++ (listed false (ms.map Member.chars) ++ s)) := by
  rw [commandMembers.eq_def]
  simp only [nextKey_member hm.spaced first htail, stringRest_of_isLiteral hm.key, ok_bind]
  by_cases isProgram : m.key = "program"
  · obtain ⟨rfl, a, hmeans, hprogram⟩ := hprogram.cons_of_eq isProgram hnew
    refine ⟨some a, args, hprogram, hargs.cons_of_ne (by simp [Member.said, isProgram]), ?_⟩
    simp only [if_pos isProgram, namedPart_of_readAs hm (readAs_string hmeans), ok_bind]
  have hprogram := hprogram.cons_of_ne isProgram
  by_cases isArgs : m.key = "args"
  · obtain ⟨rfl, a, hmeans, hargs⟩ := hargs.cons_of_eq isArgs hnew
    have hread := readAs_list (fun _ _ => readAs_string) hmeans
    refine ⟨program, some a, hprogram, hargs, ?_⟩
    simp only [if_neg isProgram, if_pos isArgs, namedPart_of_readAs hm hread, ok_bind]
  · refine ⟨program, args, hprogram, hargs.cons_of_ne isArgs, ?_⟩
    simp only [if_neg isProgram, if_neg isArgs, skipPart_of_written hm hs, ok_bind]

theorem commandMembers_listed {ms : List Member} (hwritten : ∀ m ∈ ms, m.Written)
    (hdistinct : ((ms.map Member.said).map Prod.fst).Nodup) {program : Option String}
    {args : Option (List String)} {p : String} {as : Option (List String)}
    (hprogram : Awaits MeansString "program" (ms.map Member.said) program (some p))
    (hargs : Awaits (MeansList MeansString) "args" (ms.map Member.said) args as)
    (first : Bool) {tail blank : List Char} (htail : Blank tail) (hblank : Blank blank)
    (rest : List Char) {fuel : Nat} (hfuel : ms.length < fuel) :
    commandMembers fuel first program args
      (tail ++ (listed first (ms.map Member.chars) ++ (blank ++ '\x7d' :: rest))) =
        .ok (⟨p, as.getD []⟩, rest) := by
  induction ms generalizing first tail fuel program args with
  | nil =>
    obtain _ | fuel := fuel
    · cases hfuel
    obtain rfl := hprogram.eq_of_nil
    obtain rfl := hargs.eq_of_nil
    have hend := htail.append hblank
    have hclose := nextKey_close first hend rest
    have hpast := pastClose_blank hend (show isSpace '\x7d' = false by decide) rest
    rw [List.append_assoc] at hclose hpast
    unfold commandMembers
    simp only [List.map_nil, listed, List.nil_append, hclose, hpast]
  | cons m ms ih =>
    obtain _ | fuel := fuel
    · cases hfuel
    obtain ⟨hm, hwritten⟩ := List.forall_mem_cons.mp hwritten
    obtain ⟨hnew, hdistinct⟩ := List.nodup_cons.mp hdistinct
    have hmtail := hm.spaced.item.tail
    have hends := endsNumber_tail hmtail (ms.map Member.chars) hblank (.inr rfl) rest
    obtain ⟨program', args', hprogram, hargs, hmember⟩ :=
      commandMembers_member hm hnew hprogram hargs first htail hends fuel
    rw [hmember]
    exact ih hwritten hdistinct hprogram hargs false hmtail (by simpa using hfuel)

theorem readAs_command {c : Command} {value : Doc} (h : MeansCommand c value) :
    ReadAs readCommand c value := by
  intro text hwrites lead rest hlead
  cases h with
  | object hdistinct hprogram hargs =>
    cases hwrites with
    | @object ms blank hspaced hnamed hwritten hblank =>
      simp only [objectText, List.cons_append, List.append_assoc, List.nil_append]
      rw [readCommand, skipSpace_blank hlead (by decide)]
      have hlength := length_le_listed (ms.map Member.chars)
      refine commandMembers_listed (fun m hm => ⟨hspaced m hm, hnamed m hm, hwritten m hm⟩) hdistinct
        (.unknown hprogram) (.unknown hargs) true blank_nil hblank rest ?_
      simp at hlength ⊢
      omega

/-! ### Configs -/

/-- What every part of a config comes to in the end. -/
structure Draft.Awaited (known final : Draft) (ms : List (String × Doc)) : Prop where
  python : Awaits (MeansList MeansCommand) "python" ms known.python final.python
  julia : Awaits MeansCommand "julia" ms known.julia final.julia
  juliaProbe : Awaits MeansCommand "julia_probe" ms known.juliaProbe final.juliaProbe
  maskMagics : Awaits MeansBool "mask_magics" ms known.maskMagics final.maskMagics

theorem Draft.Awaited.eq_of_nil {known final : Draft} (h : known.Awaited final []) :
    known = final := by
  obtain ⟨hpython, hjulia, hprobe, hmask⟩ := h
  cases known
  cases final
  rw [Draft.mk.injEq]
  exact ⟨hpython.eq_of_nil, hjulia.eq_of_nil, hprobe.eq_of_nil, hmask.eq_of_nil⟩

/-- A member of a config is read, and of those after it is awaited what is left. -/
theorem draftMembers_member {m : Member} {ms : List Member} (hm : m.Written)
    (hnew : m.key ∉ (ms.map Member.said).map Prod.fst) {known final : Draft}
    (h : known.Awaited final (m.said :: ms.map Member.said)) (first : Bool) {tail s : List Char}
    (htail : Blank tail)
    (hs : EndsNumber (m.item.tail ++ (listed false (ms.map Member.chars) ++ s))) (fuel : Nat) :
    ∃ known' : Draft, known'.Awaited final (ms.map Member.said) ∧
      draftMembers (fuel + 1) first known
          (tail ++ (listed first ((m :: ms).map Member.chars) ++ s)) =
        draftMembers fuel false known'
          (m.item.tail ++ (listed false (ms.map Member.chars) ++ s)) := by
  obtain ⟨python, julia, juliaProbe, maskMagics⟩ := known
  obtain ⟨hpython, hjulia, hprobe, hmask⟩ := h
  rw [draftMembers.eq_def]
  simp only [nextKey_member hm.spaced first htail, stringRest_of_isLiteral hm.key, ok_bind]
  by_cases isPython : m.key = "python"
  · obtain ⟨rfl, a, hmeans, hpython⟩ := hpython.cons_of_eq isPython hnew
    have hread := readAs_list (fun _ _ => readAs_command) hmeans
    refine ⟨⟨some a, julia, juliaProbe, maskMagics⟩, ⟨hpython, hjulia.cons_of_ne ?_,
      hprobe.cons_of_ne ?_, hmask.cons_of_ne ?_⟩, ?_⟩
    · simp [Member.said, isPython]
    · simp [Member.said, isPython]
    · simp [Member.said, isPython]
    · simp only [if_pos isPython, namedPart_of_readAs hm hread, ok_bind]
  have hpython := hpython.cons_of_ne isPython
  by_cases isJulia : m.key = "julia"
  · obtain ⟨rfl, a, hmeans, hjulia⟩ := hjulia.cons_of_eq isJulia hnew
    refine ⟨⟨python, some a, juliaProbe, maskMagics⟩, ⟨hpython, hjulia, hprobe.cons_of_ne ?_,
      hmask.cons_of_ne ?_⟩, ?_⟩
    · simp [Member.said, isJulia]
    · simp [Member.said, isJulia]
    · simp only [if_neg isPython, if_pos isJulia, namedPart_of_readAs hm (readAs_command hmeans),
        ok_bind]
  have hjulia := hjulia.cons_of_ne isJulia
  by_cases isProbe : m.key = "julia_probe"
  · obtain ⟨rfl, a, hmeans, hprobe⟩ := hprobe.cons_of_eq isProbe hnew
    refine ⟨⟨python, julia, some a, maskMagics⟩, ⟨hpython, hjulia, hprobe,
      hmask.cons_of_ne ?_⟩, ?_⟩
    · simp [Member.said, isProbe]
    · simp only [if_neg isPython, if_neg isJulia, if_pos isProbe,
        namedPart_of_readAs hm (readAs_command hmeans), ok_bind]
  have hprobe := hprobe.cons_of_ne isProbe
  by_cases isMask : m.key = "mask_magics"
  · obtain ⟨rfl, a, hmeans, hmask⟩ := hmask.cons_of_eq isMask hnew
    refine ⟨⟨python, julia, juliaProbe, some a⟩, ⟨hpython, hjulia, hprobe, hmask⟩, ?_⟩
    simp only [if_neg isPython, if_neg isJulia, if_neg isProbe, if_pos isMask,
      namedPart_of_readAs hm (readAs_bool hmeans), ok_bind]
  · refine ⟨_, ⟨hpython, hjulia, hprobe, hmask.cons_of_ne isMask⟩, ?_⟩
    simp only [if_neg isPython, if_neg isJulia, if_neg isProbe, if_neg isMask,
      skipPart_of_written hm hs, ok_bind]

theorem draftMembers_listed {ms : List Member} (hwritten : ∀ m ∈ ms, m.Written)
    (hdistinct : ((ms.map Member.said).map Prod.fst).Nodup) {known final : Draft}
    (h : known.Awaited final (ms.map Member.said)) (first : Bool) {tail blank : List Char}
    (htail : Blank tail) (hblank : Blank blank) (rest : List Char) {fuel : Nat}
    (hfuel : ms.length < fuel) :
    draftMembers fuel first known
      (tail ++ (listed first (ms.map Member.chars) ++ (blank ++ '\x7d' :: rest))) =
        .ok (final, rest) := by
  induction ms generalizing first tail fuel known with
  | nil =>
    obtain _ | fuel := fuel
    · cases hfuel
    obtain rfl := h.eq_of_nil
    rw [List.map_nil, listed, List.nil_append, ← List.append_assoc, draftMembers,
      nextKey_close first (htail.append hblank)]
    simp only [pastClose_blank (htail.append hblank) (show isSpace '\x7d' = false by decide)]
  | cons m ms ih =>
    obtain _ | fuel := fuel
    · cases hfuel
    obtain ⟨hm, hwritten⟩ := List.forall_mem_cons.mp hwritten
    obtain ⟨hnew, hdistinct⟩ := List.nodup_cons.mp hdistinct
    have hmtail := hm.spaced.item.tail
    have hends := endsNumber_tail hmtail (ms.map Member.chars) hblank (.inr rfl) rest
    obtain ⟨known', hknown, hmember⟩ := draftMembers_member hm hnew h first htail hends fuel
    rw [hmember]
    exact ih hwritten hdistinct hknown false hmtail (by simpa using hfuel)

/-- Every text of a document that says a config is read as that config, with what it does not say
as it is in the standard config. -/
theorem readJson_of_saidBy {d : Draft} {ms : List (String × Doc)} (h : d.SaidBy ms) {text : String}
    (htext : (Doc.object ms).SaidIn text) : readJson text = .ok d.complete := by
  obtain ⟨lead, written, tail, hlead, hwrites, htail, htext⟩ := htext
  have hdraft : readDraft text.toList = .ok (d, tail) := by
    cases hwrites with
    | @object members blank hspaced hnamed hwritten hblank =>
      have hlength := length_le_listed (members.map Member.chars)
      rw [htext]
      simp only [objectText, List.cons_append, List.append_assoc, List.nil_append]
      rw [readDraft, skipSpace_blank hlead (by decide)]
      refine draftMembers_listed (fun m hm => ⟨hspaced m hm, hnamed m hm, hwritten m hm⟩)
        h.distinct ?_ true blank_nil hblank tail ?_
      · exact ⟨.unknown h.python, .unknown h.julia, .unknown h.juliaProbe, .unknown h.maskMagics⟩
      · simp at hlength ⊢
        omega
  simp only [readJson, readJsonText, hdraft, ok_bind, endOfText_blank htail]
  rfl

end NotebookTidy.Config
