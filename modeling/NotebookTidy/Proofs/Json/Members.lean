import Mathlib.Data.List.Basic
import NotebookTidy.Json.Value

/-! The members of an object, seen through their keys and what is found under them.

Every edit is told by two facts: what `get?` finds afterwards (`get?_insert`,
`get?_erase`, `get?_modify`), and what the keys are afterwards, in order (`keys_insert`,
`keys_erase`, `keys_modify`). An edit concerns its own key and no other, and a key that is
there keeps its place. The facts hold of all lists of members; members with distinct keys
are what a reader makes, and entered in order they are themselves again
(`ofPairs_of_nodup`). -/
namespace NotebookTidy.Json
namespace Members

@[simp] theorem keys_nil : keys [] = [] := rfl

@[simp] theorem keys_cons (m : String × Value) (ms : Members) :
    keys (m :: ms) = m.1 :: keys ms := rfl

@[simp] theorem get?_nil (key : String) : get? [] key = none := rfl

theorem get?_cons (m : String × Value) (ms : Members) (key : String) :
    get? (m :: ms) key = if m.1 = key then some m.2 else get? ms key := by
  by_cases h : m.1 = key
  · simp [get?, h]
  · simp [get?, h]

theorem get?_eq_none_iff (ms : Members) (key : String) : get? ms key = none ↔ key ∉ ms.keys := by
  induction ms with
  | nil => simp
  | cons m ms ih =>
    rw [get?_cons]
    by_cases h : m.1 = key
    · simp [h]
    · have h' : key ≠ m.1 := fun he => h he.symm
      simp [h, h', ih]

/-! ### Setting a member -/

theorem get?_insert (ms : Members) (k key : String) (v : Value) :
    get? (insert ms k v) key = if k = key then some v else get? ms key := by
  induction ms with
  | nil => simp [insert, get?_cons]
  | cons m ms ih =>
    rw [insert]
    by_cases hm : m.1 = k
    · rw [if_pos hm, get?_cons, get?_cons, hm]
      split <;> rfl
    · rw [if_neg hm, get?_cons, get?_cons, ih]
      by_cases hk : m.1 = key
      · have hne : k ≠ key := fun he => hm (hk.trans he.symm)
        simp [hk, hne]
      · simp [hk]

@[simp] theorem get?_insert_self (ms : Members) (k : String) (v : Value) :
    get? (insert ms k v) k = some v := by
  rw [get?_insert, if_pos rfl]

theorem get?_insert_of_ne (ms : Members) {k key : String} (h : key ≠ k) (v : Value) :
    get? (insert ms k v) key = get? ms key := by
  rw [get?_insert, if_neg fun he => h he.symm]

/-- A key that is there stays in its place, and a new one goes last. -/
theorem keys_insert (ms : Members) (k : String) (v : Value) :
    (insert ms k v).keys = if k ∈ ms.keys then ms.keys else ms.keys ++ [k] := by
  induction ms with
  | nil => simp [insert]
  | cons m ms ih =>
    rw [insert]
    by_cases hm : m.1 = k
    · simp [hm]
    · have hm' : k ≠ m.1 := fun he => hm he.symm
      rw [if_neg hm, keys_cons, keys_cons, ih]
      by_cases hmem : k ∈ keys ms <;> simp [hm', hmem]

/-- One more key after those that were not there before. -/
theorem keys_insert_added {ms : Members} {ks added : List String}
    (h : ms.keys = ks ++ added.filter (· ∉ ks)) {k : String} (hk : k ∉ added) (v : Value) :
    (insert ms k v).keys = ks ++ (added ++ [k]).filter (· ∉ ks) := by
  rw [keys_insert, h]
  by_cases hmem : k ∈ ks <;> simp [hmem, hk]

/-- Nothing happens when the value is there already. -/
theorem insert_of_get? {ms : Members} {k : String} {v : Value} (h : get? ms k = some v) :
    insert ms k v = ms := by
  induction ms with
  | nil => cases h
  | cons m ms ih =>
    rw [get?_cons] at h
    rw [insert]
    by_cases hm : m.1 = k
    · rw [if_pos hm] at h ⊢
      rw [← Option.some.inj h]
    · rw [if_neg hm] at h ⊢
      rw [ih h]

/-! ### Erasing a member -/

theorem get?_erase (ms : Members) (k key : String) :
    get? (erase ms k) key = if k = key then none else get? ms key := by
  induction ms with
  | nil => simp [erase]
  | cons m ms ih =>
    by_cases hm : m.1 = k
    · have herase : erase (m :: ms) k = erase ms k := by simp [erase, hm]
      rw [herase, ih, get?_cons, hm]
      split <;> rfl
    · have herase : erase (m :: ms) k = m :: erase ms k := by simp [erase, hm]
      rw [herase, get?_cons, get?_cons, ih]
      by_cases hk : m.1 = key
      · have hne : k ≠ key := fun he => hm (hk.trans he.symm)
        simp [hk, hne]
      · simp [hk]

theorem keys_erase (ms : Members) (k : String) : (erase ms k).keys = ms.keys.filter (· ≠ k) := by
  simp only [erase, keys, List.filter_map]
  congr 1
  apply List.filter_congr
  intro m _
  by_cases hm : m.1 = k <;> simp [hm]

theorem erase_erase (ms : Members) (k : String) : erase (erase ms k) k = erase ms k := by
  rw [erase, erase, List.filter_filter]
  simp

/-! ### Changing a member -/

theorem get?_modify (ms : Members) (k key : String) (f : Value → Value) :
    get? (modify ms k f) key = if k = key then (get? ms key).map f else get? ms key := by
  induction ms with
  | nil => simp [modify]
  | cons m ms ih =>
    by_cases hm : m.1 = k
    · have hmodify : modify (m :: ms) k f = (m.1, f m.2) :: modify ms k f := by simp [modify, hm]
      rw [hmodify, get?_cons, get?_cons, ih, hm]
      by_cases hk : k = key <;> simp [hk]
    · have hmodify : modify (m :: ms) k f = m :: modify ms k f := by simp [modify, hm]
      rw [hmodify, get?_cons, get?_cons, ih]
      by_cases hk : m.1 = key
      · have hne : k ≠ key := fun he => hm (hk.trans he.symm)
        simp [hk, hne]
      · simp [hk]

@[simp] theorem keys_modify (ms : Members) (k : String) (f : Value → Value) :
    (modify ms k f).keys = ms.keys := by
  simp only [modify, keys, List.map_map]
  apply List.map_congr_left
  intro m _
  by_cases hm : m.1 = k <;> simp [hm]

theorem modify_modify {f : Value → Value} (hf : ∀ v, f (f v) = f v) (ms : Members) (k : String) :
    modify (modify ms k f) k f = modify ms k f := by
  rw [modify, modify, List.map_map]
  apply List.map_congr_left
  intro m _
  by_cases hm : m.1 = k <;> simp [hm, hf]

/-- Setting a member and changing another one may be done in either order. -/
theorem modify_insert_of_ne (ms : Members) {k key : String} (h : key ≠ k) (v : Value)
    (f : Value → Value) : modify (insert ms key v) k f = insert (modify ms k f) key v := by
  induction ms with
  | nil => simp [insert, modify, h]
  | cons m ms ih =>
    have hmodify : ∀ (m : String × Value) (ms : Members), modify (m :: ms) k f =
        (m.1, if m.1 = k then f m.2 else m.2) :: modify ms k f := by
      intro m ms
      rw [modify, List.map_cons]
      split <;> rfl
    rw [insert, hmodify, insert]
    by_cases hm : m.1 = key
    · rw [if_pos hm, if_pos hm, hmodify]
      simp [hm, h]
    · rw [if_neg hm, if_neg hm, hmodify, ih]

/-! ### Members in the order they are entered -/

theorem insert_of_not_mem (ms : Members) {k : String} (h : k ∉ ms.keys) (v : Value) :
    insert ms k v = ms ++ [(k, v)] := by
  induction ms with
  | nil => rfl
  | cons m ms ih =>
    rw [keys_cons, List.mem_cons, not_or] at h
    rw [insert, if_neg fun he => h.1 he.symm, ih h.2, List.cons_append]

/-- Members with distinct keys, entered one after the other, are themselves again. -/
theorem ofPairs_of_nodup (ms : Members) (h : ms.keys.Nodup) : ofPairs ms = ms := by
  suffices ∀ entered : Members, (entered.keys ++ ms.keys).Nodup →
      ms.foldl (fun acc m => insert acc m.1 m.2) entered = entered ++ ms from this [] h
  intro entered hentered
  induction ms generalizing entered with
  | nil => simp
  | cons m ms ih =>
    have hfresh : m.1 ∉ entered.keys := by
      intro hmem
      exact (List.nodup_append.mp hentered).2.2 _ hmem _ (by simp) rfl
    have hnext : ((entered ++ [m]).keys ++ keys ms).Nodup := by
      simpa [keys] using hentered
    rw [List.foldl_cons, insert_of_not_mem entered hfresh, ih (List.nodup_cons.mp h).2 _ hnext,
      List.append_assoc, List.singleton_append]

end Members

/-! ### Members of a value -/

namespace Value

@[simp] theorem member?_object (key : String) (ms : Members) :
    (Value.object ms).member? key = ms.get? key := rfl

/-- Only an object has members. -/
theorem member?_eq_some_iff {key : String} {v w : Value} :
    v.member? key = some w ↔ ∃ ms : Members, v = .object ms ∧ ms.get? key = some w := by
  cases v <;> simp [member?]

/-- An object without one of its members, or any other value as it is. The other members keep
their values and their places. -/
inductive Without (key : String) : Value → Value → Prop where
  | object {before after : Members} (keys : after.keys = before.keys.filter (· ≠ key))
      (others : ∀ k, k ≠ key → after.get? k = before.get? k) :
      Without key (.object before) (.object after)
  | other {v : Value} (h : ∀ ms, v ≠ .object ms) : Without key v v

/-- An object with one of its members changed, if it is there, or any other value as it is. The
other members keep their values, and all members their places. -/
inductive ChangedAt (key : String) (R : Value → Value → Prop) : Value → Value → Prop where
  | object {before after : Members} (keys : after.keys = before.keys)
      (others : ∀ k, k ≠ key → after.get? k = before.get? k)
      (changed : Option.Rel R (before.get? key) (after.get? key)) :
      ChangedAt key R (.object before) (.object after)
  | other {v : Value} (h : ∀ ms, v ≠ .object ms) : ChangedAt key R v v

theorem rel_map {R : Value → Value → Prop} {f : Value → Value} (h : ∀ v, R v (f v))
    (o : Option Value) : Option.Rel R o (o.map f) := by
  cases o with
  | none => exact .none
  | some v => exact .some (h v)

theorem exists_of_rel_some {R : Value → Value → Prop} {o : Option Value} {w : Value}
    (h : Option.Rel R o (some w)) : ∃ v, R v w := by
  cases o with
  | none => cases h
  | some v =>
    cases h with
    | some h => exact ⟨v, h⟩

theorem mapMembers_mapMembers {f : Members → Members} (hf : ∀ ms, f (f ms) = f ms) (v : Value) :
    (v.mapMembers f).mapMembers f = v.mapMembers f := by
  cases v with
  | object ms => exact congrArg Value.object (hf ms)
  | _ => rfl

theorem without_erase (key : String) (v : Value) :
    Without key v (v.mapMembers (·.erase key)) := by
  cases v with
  | object ms =>
    refine .object (Members.keys_erase ms key) fun k hk => ?_
    rw [Members.get?_erase, if_neg fun h => hk h.symm]
  | _ => exact .other fun ms h => by cases h

theorem changedAt_modify {R : Value → Value → Prop} {f : Value → Value} (h : ∀ v, R v (f v))
    (key : String) (v : Value) : ChangedAt key R v (v.mapMembers (·.modify key f)) := by
  cases v with
  | object ms =>
    refine .object (Members.keys_modify ms key f) (fun k hk => ?_) ?_
    · rw [Members.get?_modify, if_neg fun h => hk h.symm]
    · rw [Members.get?_modify, if_pos rfl]
      exact rel_map h _
  | _ => exact .other fun ms h => by cases h

end Value
end NotebookTidy.Json
