import NotebookTidy.Proofs.Cell.Frame

/-! What is counted over many visits.

Cells are visited in turn with one tally, each with a formatter of its own or with none, and a
failure does not end the visits (`Tally.visitEach`). So there is a reply for every cell, and the
replies to the first cells do not depend on those that come after (`Tally.visitEach_append`). Each
reply counts the visits so far, failed ones among them, and those of them that came to nothing
(`Tally.afterAll_eq`); apart from what formatters did to the files, a visit comes to what it would
come to as the first one (`Alone`). Without a formatter a cell is never dropped and keeps its
source, and to visit it again changes nothing (`KeptBare`). All of this holds of every visit among
any others (`Tally.visits_counted_and_alone`).

The cells of a document are visited in the same way, but only up to the first one that fails
(`Tally.visitAll_eq_upToFailure`). -/
namespace NotebookTidy
open Files Json

/-- A cell to visit, and the formatter for it if there is one. -/
structure Request where
  formatter : Option Formatter
  cell : Value

def Request.tidied (request : Request) : Attempt (Option Value) :=
  Cell.tidy request.formatter request.cell

/-- What came of a cell, and the tally after it. -/
structure Reply where
  tally : Tally
  result : Except Failure (Option Value)
deriving DecidableEq

namespace Cell

/-! ### Cells without a formatter -/

/-- What comes of a cell that no formatter is for. -/
def stripped : Value → Except Failure Value
  | .object ms =>
    if "cell_type" ∈ Members.keys ms then .ok (.object (strip ms))
    else .error (.missingField .cellType)
  | _ => .error (.missingField .cellType)

theorem tidy_none (cell : Value) : tidy none cell = .of ((stripped cell).map some) := by
  cases cell with
  | object ms =>
    cases h : Members.get? ms "cell_type" with
    | none =>
      have hkeys : "cell_type" ∉ Members.keys ms := (Members.get?_eq_none_iff ms _).mp h
      simp only [tidy, stripped, get?_strip_cellType, h, if_neg hkeys]
      rfl
    | some cellType =>
      have hkeys : "cell_type" ∈ Members.keys ms := by
        by_contra hnot
        simp [(Members.get?_eq_none_iff ms _).mpr hnot] at h
      simp only [tidy, stripped, get?_strip_cellType, h, if_pos hkeys]
      rfl
  | _ => rfl

theorem stripped_eq_ok_iff {cell new : Value} : stripped cell = .ok new ↔
    ∃ ms : Members, cell = .object ms ∧ "cell_type" ∈ ms.keys ∧ new = .object (strip ms) := by
  cases cell with
  | object ms => by_cases h : "cell_type" ∈ Members.keys ms <;> simp [stripped, h, eq_comm]
  | _ => simp [stripped]

/-- What holds of a cell that was visited without a formatter: it was not dropped, its source is
what it was, and it stays as it is when it is visited so again. -/
structure KeptBare (cell : Value) (result : Except Failure (Option Value)) : Prop where
  notDropped : result ≠ .ok none
  source : ∀ new, result = .ok (some new) → new.member? "source" = cell.member? "source"
  again : ∀ new, result = .ok (some new) → ∀ (tally : Tally) (t : Tree),
    ∃ tally', ((tally.visit none new).run t).outcome = .ok (tally', .ok (some new))

theorem keptBare_tidy (cell : Value) (t : Tree) :
    KeptBare cell ((tidy none cell).run t).outcome := by
  rw [tidy_none, Attempt.outcome_of]
  cases h : stripped cell with
  | error e => exact ⟨by simp [Except.map], by simp [Except.map], by simp [Except.map]⟩
  | ok new =>
    obtain ⟨ms, rfl, htyped, rfl⟩ := stripped_eq_ok_iff.mp h
    have hagain : stripped (.object (strip ms)) = .ok (.object (strip ms)) := by
      refine stripped_eq_ok_iff.mpr ⟨strip ms, rfl, ?_, by rw [strip_strip]⟩
      rw [keys_strip]
      exact List.mem_append_left _ htyped
    refine ⟨by simp [Except.map], ?_, ?_⟩
    · rintro new ⟨⟩
      simp
    · rintro new ⟨⟩ tally t'
      refine ⟨tally.counting (.ok (some (.object (strip ms)))), ?_⟩
      rw [outcome_visit, tidy_none, hagain]
      rfl

end Cell

/-! ### One visit after the other -/

/-- What comes of a cell when it is the first one to be visited. -/
def Afresh (t : Tree) (request : Request) (result : Except Failure (Option Value)) : Prop :=
  ∃ tally, ((Tally.zero.visit request.formatter request.cell).run t).outcome = .ok (tally, result)

/-- What holds of a visit that finds some files: it comes to what it comes to as the first one
among these, and among any files if the formatter computes a function. -/
structure Alone (t : Tree) (request : Request) (result : Except Failure (Option Value)) : Prop where
  here : Afresh t request result
  anywhere : (∀ φ ∈ request.formatter, ∃ f, φ.Computes f) → ∀ t', Afresh t' request result

theorem alone_tidied (request : Request) (t : Tree) :
    Alone t request (request.tidied.run t).outcome := by
  have hafresh : ∀ t, Afresh t request (request.tidied.run t).outcome :=
    fun t => ⟨_, Cell.outcome_visit _ _ _ t⟩
  refine ⟨hafresh t, fun hφ t' => ?_⟩
  have hsame : (request.tidied.run t').outcome = (request.tidied.run t).outcome := by
    cases h : request.formatter with
    | none => simp only [Request.tidied, h, Cell.tidy_none, Attempt.outcome_of]
    | some φ =>
      obtain ⟨f, hf⟩ := hφ φ h
      simp only [Request.tidied, h, Cell.tidy_outcome, hf t', hf t]
  rw [← hsame]
  exact hafresh t'

namespace Tally

/-- Visits cells one after the other, and goes on after those that fail. -/
def visitEach (tally : Tally) : List Request → Attempt (List Reply)
  | [] => pure []
  | request :: requests => do
    let (tally, result) ← tally.visit request.formatter request.cell
    let replies ← tally.visitEach requests
    pure (⟨tally, result⟩ :: replies)

/-- The tally after some replies. -/
def afterAll (tally : Tally) (replies : List Reply) : Tally :=
  replies.foldl (fun tally reply => tally.counting reply.result) tally

theorem afterAll_eq (tally : Tally) (replies : List Reply) : tally.afterAll replies =
    ⟨tally.visited + replies.length,
      tally.dropped + (replies.map Reply.result).count (.ok none)⟩ := by
  induction replies generalizing tally with
  | nil => rfl
  | cons reply replies ih =>
    show (tally.counting reply.result).afterAll replies = _
    rw [ih, counting, List.map_cons, List.count_cons, List.length_cons]
    simp only [beq_iff_eq, mk.injEq]
    omega

/-- The reply to a cell that is visited with a tally, among some files. -/
def reply (tally : Tally) (request : Request) (t : Tree) : Reply :=
  ⟨tally.counting (request.tidied.run t).outcome, (request.tidied.run t).outcome⟩

/-- The tally after a reply is the tally after the replies up to it. -/
theorem afterAll_reply (tally : Tally) (earlier : List Reply) (request : Request) (t : Tree) :
    tally.afterAll (earlier ++ [(tally.afterAll earlier).reply request t]) =
      ((tally.afterAll earlier).reply request t).tally := by
  rw [afterAll, List.foldl_append]
  rfl

theorem run_visitEach_cons (tally : Tally) (request : Request) (requests : List Request)
    (t : Tree) : ∃ events, (tally.visitEach (request :: requests)).run t =
      let rest := ((tally.reply request t).tally.visitEach requests).run (request.tidied.run t).tree
      ⟨rest.tree, events, rest.outcome.map (tally.reply request t :: ·)⟩ := by
  obtain ⟨events, hvisit⟩ := Cell.run_visit tally request.formatter request.cell t
  rw [visitEach, Attempt.run_bind_of_ok (congrArg Done.outcome hvisit), hvisit,
    Attempt.run_bind_pure]
  exact ⟨_, rfl⟩

theorem tree_visitEach_cons (tally : Tally) (request : Request) (requests : List Request)
    (t : Tree) : ((tally.visitEach (request :: requests)).run t).tree =
      (((tally.reply request t).tally.visitEach requests).run (request.tidied.run t).tree).tree := by
  obtain ⟨_, hrun⟩ := run_visitEach_cons tally request requests t
  rw [hrun]

theorem outcome_visitEach_cons (tally : Tally) (request : Request) (requests : List Request)
    (t : Tree) : ((tally.visitEach (request :: requests)).run t).outcome =
      (((tally.reply request t).tally.visitEach requests).run
        (request.tidied.run t).tree).outcome.map (tally.reply request t :: ·) := by
  obtain ⟨_, hrun⟩ := run_visitEach_cons tally request requests t
  rw [hrun]

/-- The first reply is the one to the first cell, and the others are those to the other cells. -/
theorem replies_cons {tally : Tally} {request : Request} {requests : List Request} {t : Tree}
    {replies : List Reply}
    (h : ((tally.visitEach (request :: requests)).run t).outcome = .ok replies) :
    ∃ rest, replies = tally.reply request t :: rest ∧
      (((tally.reply request t).tally.visitEach requests).run
        (request.tidied.run t).tree).outcome = .ok rest := by
  rw [outcome_visitEach_cons] at h
  obtain ⟨rest, hrest, rfl⟩ := exists_of_map_eq_ok h
  exact ⟨rest, rfl, hrest⟩

/-- There is a reply for every cell. -/
theorem exists_replies (tally : Tally) (requests : List Request) (t : Tree) :
    ∃ replies, ((tally.visitEach requests).run t).outcome = .ok replies ∧
      replies.length = requests.length := by
  induction requests generalizing tally t with
  | nil => exact ⟨[], rfl, rfl⟩
  | cons request requests ih =>
    obtain ⟨replies, hreplies, hlength⟩ := ih (tally.reply request t).tally
      (request.tidied.run t).tree
    refine ⟨tally.reply request t :: replies, ?_, ?_⟩
    · rw [outcome_visitEach_cons, hreplies]
      rfl
    · rw [List.length_cons, List.length_cons, hlength]

/-- Cells that come after others are visited with the tally and among the files that these
leave. -/
theorem visitEach_append {tally : Tally} {requests : List Request} {t : Tree} {replies : List Reply}
    (h : ((tally.visitEach requests).run t).outcome = .ok replies) (others : List Request) :
    ((tally.visitEach (requests ++ others)).run t).outcome =
      (((tally.afterAll replies).visitEach others).run
        ((tally.visitEach requests).run t).tree).outcome.map (replies ++ ·) := by
  induction requests generalizing tally t replies with
  | nil =>
    cases h
    show ((tally.visitEach others).run t).outcome = (((tally.visitEach others).run t).outcome.map _)
    cases ((tally.visitEach others).run t).outcome <;> rfl
  | cons request requests ih =>
    obtain ⟨rest, rfl, hrest⟩ := replies_cons h
    rw [List.cons_append, outcome_visitEach_cons, ih hrest, Attempt.outcome_map_map,
      tree_visitEach_cons]
    rfl

/-- The reply to a cell among others, with the tally and among the files that the cells before it
leave. -/
theorem visitEach_at (tally : Tally) (before : List Request) (request : Request)
    (after : List Request) (t : Tree) : ∃ earlier later, earlier.length = before.length ∧
      ((tally.visitEach (before ++ request :: after)).run t).outcome =
        .ok (earlier ++
          (tally.afterAll earlier).reply request ((tally.visitEach before).run t).tree :: later) := by
  obtain ⟨earlier, hearlier, hlength⟩ := exists_replies tally before t
  obtain ⟨replies, hreplies, _⟩ := exists_replies (tally.afterAll earlier) (request :: after)
    ((tally.visitEach before).run t).tree
  obtain ⟨later, rfl, _⟩ := replies_cons hreplies
  refine ⟨earlier, later, hlength, ?_⟩
  rw [visitEach_append hearlier, hreplies]
  rfl

/-- What holds of a visit, given the cells before it and the replies to them: its reply counts them
and itself, and is what it would be without them. -/
structure Accounted (t : Tree) (before : List Request) (earlier : List Reply) (request : Request)
    (reply : Reply) : Prop where
  visited : reply.tally.visited = before.length + 1
  dropped : reply.tally.dropped = ((earlier ++ [reply]).map Reply.result).count (.ok none)
  alone : Alone ((zero.visitEach before).run t).tree request reply.result
  bare : request.formatter = none → Cell.KeptBare request.cell reply.result

/-- **Every visit is counted, and comes to what it would come to alone**, whatever the visits before
it came to. -/
theorem visits_counted_and_alone (requests : List Request) (t : Tree) :
    ∃ replies, ((zero.visitEach requests).run t).outcome = .ok replies ∧
      replies.length = requests.length ∧
      ∀ before request after, requests = before ++ request :: after →
        ∃ earlier reply later, replies = earlier ++ reply :: later ∧
          earlier.length = before.length ∧ Accounted t before earlier request reply := by
  obtain ⟨replies, hreplies, hlength⟩ := exists_replies zero requests t
  refine ⟨replies, hreplies, hlength, ?_⟩
  rintro before request after rfl
  obtain ⟨earlier, later, hbefore, hat⟩ := visitEach_at zero before request after t
  have hsplit := Except.ok.inj (hreplies.symm.trans hat)
  refine ⟨earlier, _, later, hsplit, hbefore, ?_⟩
  -- counting goes by replies, and the tally of this one is what they come to up to it
  have htally :=
    (afterAll_reply zero earlier request ((zero.visitEach before).run t).tree).symm.trans
      (afterAll_eq zero _)
  refine ⟨?_, ?_, alone_tidied request _, fun hbare => ?_⟩
  · rw [htally, ← hbefore]
    simp [zero]
  · rw [htally]
    simp [zero]
  · have hkept := Cell.keptBare_tidy request.cell ((zero.visitEach before).run t).tree
    rw [← hbare] at hkept
    exact hkept

/-- Visits of all kinds: two cells without a type, code that fails, code that comes to nothing, and
the same code without a formatter. -/
def mixedRequests : List Request := [
  ⟨none, .null⟩,
  ⟨some (.ofFunction .ok), .object [("source", .string "x")]⟩,
  ⟨some (.ofFunction fun code => .error (.outputNotText code)),
    .object [("cell_type", .string "code"), ("source", .string "x")]⟩,
  ⟨some (.ofFunction fun _ => .ok ""),
    .object [("cell_type", .string "code"), ("source", .string "x")]⟩,
  ⟨none, .object [("cell_type", .string "code"), ("source", .string "x")]⟩,
  ⟨some (.ofFunction .ok), .object [("cell_type", .string "code"), ("source", .string "x\ny")]⟩]

def mixedReplies : List Reply := [
  ⟨⟨1, 0⟩, .error (.missingField .cellType)⟩,
  ⟨⟨2, 0⟩, .error (.missingField .cellType)⟩,
  ⟨⟨3, 0⟩, .error (.outputNotText "x")⟩,
  ⟨⟨4, 1⟩, .ok none⟩,
  ⟨⟨5, 1⟩, .ok (some (.object [("cell_type", .string "code"), ("source", .string "x"),
    ("execution_count", .null), ("outputs", .array [])]))⟩,
  ⟨⟨6, 1⟩, .ok (some (.object [("cell_type", .string "code"),
    ("source", .array [.string "x\n", .string "y"]), ("execution_count", .null),
    ("outputs", .array [])]))⟩]

theorem visits_counted_and_alone_mixed :
    ((zero.visitEach mixedRequests).run ⟨[], []⟩).outcome = .ok mixedReplies ∧
      ∃ request, mixedRequests = mixedRequests.take 4 ++ request :: mixedRequests.drop 5 ∧
        request.formatter = none ∧
        ∃ earlier reply later, mixedReplies = earlier ++ reply :: later ∧ earlier.length = 4 ∧
          Accounted ⟨[], []⟩ (mixedRequests.take 4) earlier request reply ∧
          Cell.KeptBare request.cell reply.result := by
  have hrun : ((zero.visitEach mixedRequests).run ⟨[], []⟩).outcome = .ok mixedReplies := by
    decide +kernel
  obtain ⟨replies, hreplies, _, hvisits⟩ := visits_counted_and_alone mixedRequests ⟨[], []⟩
  obtain rfl := Except.ok.inj (hreplies.symm.trans hrun)
  obtain ⟨request, hrequest, hbare⟩ : ∃ request,
      mixedRequests = mixedRequests.take 4 ++ request :: mixedRequests.drop 5 ∧
        request.formatter = none := ⟨_, rfl, rfl⟩
  obtain ⟨earlier, reply, later, hsplit, hlength, haccount⟩ := hvisits _ request _ hrequest
  exact ⟨hrun, request, hrequest, hbare, earlier, reply, later, hsplit, hlength, haccount,
    haccount.bare hbare⟩

/-! ### Up to the first failure -/

/-- What is left of cells if the visits end with the first one that fails. -/
def upToFailure (tally : Tally) : List Reply → Except Failure (Tally × List Value)
  | [] => .ok (tally, [])
  | reply :: replies =>
    reply.result.bind fun kept => (upToFailure reply.tally replies).map fun rest =>
      (rest.1, kept.toList ++ rest.2)

/-- **The cells of a document come to what they come to if the visits go on after failures**, up to
the first of these. -/
theorem visitAll_eq_upToFailure (tally : Tally) (φ : Option Formatter) (cells : List Value)
    (t : Tree) : ∃ replies,
      ((tally.visitEach (cells.map (Request.mk φ))).run t).outcome = .ok replies ∧
        ((tally.visitAll φ cells).run t).outcome = upToFailure tally replies := by
  induction cells generalizing tally t with
  | nil => exact ⟨[], rfl, rfl⟩
  | cons cell cells ih =>
    let reply := tally.reply ⟨φ, cell⟩ t
    obtain ⟨rest, hrest, hall⟩ := ih reply.tally ((Request.mk φ cell).tidied.run t).tree
    refine ⟨reply :: rest, ?_, ?_⟩
    · rw [List.map_cons, outcome_visitEach_cons, hrest]
      rfl
    · obtain ⟨_, hvisit⟩ := Cell.run_visit tally φ cell t
      rw [visitAll, Attempt.outcome_bind, hvisit, upToFailure]
      show ((Attempt.of reply.result >>= _).run _).outcome = _
      rw [Attempt.outcome_bind, Attempt.outcome_of]
      cases reply.result with
      | error e => rfl
      | ok kept =>
        simp only [Except.bind, Attempt.run_of, Attempt.run_bind_pure, ← hall]
        rfl

end Tally
end NotebookTidy
