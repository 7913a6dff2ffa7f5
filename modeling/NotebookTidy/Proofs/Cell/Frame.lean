import NotebookTidy.Proofs.Cell.Result

/-! What a cell keeps.

Of a cell that is kept nothing is changed but its execution count, its outputs, the flag that
hides its source and, if it holds code, its source (`SameElsewhere`): every other member has
the value and the place it had, and members that were not there go last, in a fixed order. What
was stripped once has nothing left to be stripped (`strip_strip`). -/
namespace NotebookTidy.Cell
open Json

/-- The members that are set, in the order in which they are. -/
def rewritten (cell : Members) : List String :=
  ["execution_count", "outputs"] ++ if HoldsCode (.object cell) then ["source"] else []

/-- A cell before and after, the same but for the members that are set and the flag that hides
its source. -/
structure SameElsewhere (before after : Members) : Prop where
  keys : after.keys = before.keys ++ (rewritten before).filter (· ∉ before.keys)
  others : ∀ key, key ∉ rewritten before → key ≠ "metadata" → after.get? key = before.get? key
  metadata : Option.Rel (Value.ChangedAt "jupyter" (Value.Without "source_hidden"))
    (before.get? "metadata") (after.get? "metadata")

theorem keys_strip (ms : Members) :
    (strip ms).keys = ms.keys ++ ["execution_count", "outputs"].filter (· ∉ ms.keys) := by
  have hstart : ms.keys = ms.keys ++ ([] : List String).filter (· ∉ ms.keys) := by simp
  have hcount := Members.keys_insert_added hstart (List.not_mem_nil (a := "execution_count")) .null
  rw [strip, unhide, Members.keys_modify]
  exact Members.keys_insert_added hcount (by decide) (.array [])

theorem get?_strip_metadata (ms : Members) :
    Option.Rel (Value.ChangedAt "jupyter" (Value.Without "source_hidden"))
      (ms.get? "metadata") ((strip ms).get? "metadata") := by
  rw [strip, unhide, Members.get?_modify, if_pos rfl,
    Members.get?_insert_of_ne _ (by decide), Members.get?_insert_of_ne _ (by decide)]
  exact Value.rel_map (Value.changedAt_modify (Value.without_erase "source_hidden") "jupyter") _

theorem sameElsewhere_strip {ms : Members} (h : ¬ HoldsCode (.object ms)) :
    SameElsewhere ms (strip ms) := by
  have hrewritten : rewritten ms = ["execution_count", "outputs"] := by simp [rewritten, h]
  refine ⟨?_, fun key hkey hm => ?_, get?_strip_metadata ms⟩
  · rw [hrewritten]
    exact keys_strip ms
  · rw [hrewritten, List.mem_cons, List.mem_singleton, not_or] at hkey
    exact get?_strip_of_ne ms hkey.1 hkey.2 hm

theorem sameElsewhere_setSource {ms : Members} (h : HoldsCode (.object ms))
    (lines : List String) : SameElsewhere ms (setSource (strip ms) lines) := by
  have hrewritten : rewritten ms = ["execution_count", "outputs"] ++ ["source"] := by
    simp [rewritten, h]
  refine ⟨?_, fun key hkey hm => ?_, ?_⟩
  · rw [hrewritten]
    exact Members.keys_insert_added (keys_strip ms) (by decide) _
  · rw [hrewritten, List.mem_append, not_or, List.mem_cons, List.mem_singleton, not_or,
      List.mem_singleton] at hkey
    rw [setSource, Members.get?_insert_of_ne _ hkey.2]
    exact get?_strip_of_ne ms hkey.1.1 hkey.1.2 hm
  · rw [setSource, Members.get?_insert_of_ne _ (by decide)]
    exact get?_strip_metadata ms

/-- A kept cell is an object as before, with nothing else changed. -/
theorem sameElsewhere_of_kept {f : String → Except Failure String} {cell new : Value}
    (h : Kept f cell new) :
    ∃ before after, cell = .object before ∧ new = .object after ∧ SameElsewhere before after := by
  cases h with
  | @other ms cellType typed hne =>
    have hnot : ¬ HoldsCode (.object ms) := by
      rw [HoldsCode, Value.member?_object, typed]
      exact fun he => hne (Option.some.inj he)
    exact ⟨ms, _, rfl, rfl, sameElsewhere_strip hnot⟩
  | @code ms text lines typed formatted split =>
    exact ⟨ms, _, rfl, rfl, sameElsewhere_setSource typed lines⟩

/-! ### Nothing left to strip -/

theorem unhide_unhide (ms : Members) : unhide (unhide ms) = unhide ms := by
  refine Members.modify_modify (Value.mapMembers_mapMembers fun metadata => ?_) ms _
  exact Members.modify_modify (Value.mapMembers_mapMembers fun jupyter =>
    Members.erase_erase jupyter _) metadata _

theorem unhide_strip (ms : Members) : unhide (strip ms) = strip ms := unhide_unhide _

theorem strip_strip (ms : Members) : strip (strip ms) = strip ms := by
  conv_lhs => rw [strip]
  rw [Members.insert_of_get? (get?_strip_executionCount ms),
    Members.insert_of_get? (get?_strip_outputs ms), unhide_strip]

end NotebookTidy.Cell
