import NotebookTidy.Json.Value

/-! The parts of a value, and how deep they are nested.

Arrays and objects hold values in lists, so what holds of every value is shown from what
holds of the items and of the members (`Value.induct`), and what is asked of a value all
through is asked of its `parts`. -/
namespace NotebookTidy.Json
namespace Value

@[elab_as_elim]
theorem induct {motive : Value → Prop} (null : motive .null) (bool : ∀ b, motive (.bool b))
    (number : ∀ n, motive (.number n)) (string : ∀ s, motive (.string s))
    (array : ∀ items, (∀ v ∈ items, motive v) → motive (.array items))
    (object : ∀ ms, (∀ m ∈ ms, motive m.2) → motive (.object ms)) : ∀ v, motive v
  | .null => null
  | .bool b => bool b
  | .number n => number n
  | .string s => string s
  | .array items => array items fun v _ => induct null bool number string array object v
  | .object ms => object ms fun m _ => induct null bool number string array object m.2
termination_by v => sizeOf v
decreasing_by
  · next h =>
    have := List.sizeOf_lt_of_mem h
    simp only [Value.array.sizeOf_spec]
    omega
  · next h =>
    have hmem := List.sizeOf_lt_of_mem h
    obtain ⟨k, w⟩ := m
    simp only [Prod.mk.sizeOf_spec] at hmem
    simp only [Value.object.sizeOf_spec]
    omega

/-! ### Parts -/

mutual
/-- A value with the values inside it, however deep. -/
def parts : Value → List Value
  | .array items => .array items :: partsOfItems items
  | .object ms => .object ms :: partsOfMembers ms
  | v => [v]

def partsOfItems : List Value → List Value
  | [] => []
  | v :: vs => parts v ++ partsOfItems vs

def partsOfMembers : List (String × Value) → List Value
  | [] => []
  | (_, v) :: ms => parts v ++ partsOfMembers ms
end

theorem partsOfItems_eq (items : List Value) : partsOfItems items = items.flatMap parts := by
  induction items with
  | nil => rfl
  | cons v vs ih => rw [partsOfItems, ih, List.flatMap_cons]

theorem partsOfMembers_eq (ms : List (String × Value)) :
    partsOfMembers ms = ms.flatMap fun m => parts m.2 := by
  induction ms with
  | nil => rfl
  | cons m ms ih => rw [partsOfMembers, ih, List.flatMap_cons]

theorem mem_parts_self (v : Value) : v ∈ v.parts := by
  cases v <;> simp [parts]

theorem mem_parts_array_iff {items : List Value} {w : Value} :
    w ∈ (array items).parts ↔ w = .array items ∨ ∃ v ∈ items, w ∈ v.parts := by
  rw [parts, partsOfItems_eq, List.mem_cons, List.mem_flatMap]

theorem mem_parts_object_iff {ms : List (String × Value)} {w : Value} :
    w ∈ (object ms).parts ↔ w = .object ms ∨ ∃ m ∈ ms, w ∈ m.2.parts := by
  rw [parts, partsOfMembers_eq, List.mem_cons, List.mem_flatMap]

theorem mem_parts_array {items : List Value} {v w : Value} (hv : v ∈ items) (hw : w ∈ v.parts) :
    w ∈ (array items).parts :=
  mem_parts_array_iff.mpr (.inr ⟨v, hv, hw⟩)

theorem mem_parts_object {ms : List (String × Value)} {m : String × Value} {w : Value}
    (hm : m ∈ ms) (hw : w ∈ m.2.parts) : w ∈ (object ms).parts :=
  mem_parts_object_iff.mpr (.inr ⟨m, hm, hw⟩)

/-! ### Depth -/

mutual
/-- How many arrays and objects are open around the innermost part, at most. -/
def depth : Value → Nat
  | .array items => depthOfItems items + 1
  | .object ms => depthOfMembers ms + 1
  | _ => 0

def depthOfItems : List Value → Nat
  | [] => 0
  | v :: vs => max (depth v) (depthOfItems vs)

def depthOfMembers : List (String × Value) → Nat
  | [] => 0
  | (_, v) :: ms => max (depth v) (depthOfMembers ms)
end

theorem depth_lt_array {items : List Value} {v : Value} (h : v ∈ items) :
    v.depth < (array items).depth := by
  rw [depth]
  induction items with
  | nil => cases h
  | cons w ws ih =>
    rw [depthOfItems]
    obtain rfl | h := List.mem_cons.mp h
    · omega
    · have := ih h
      omega

theorem depth_lt_object {ms : List (String × Value)} {m : String × Value} (h : m ∈ ms) :
    m.2.depth < (object ms).depth := by
  rw [depth]
  induction ms with
  | nil => cases h
  | cons m' ms ih =>
    rw [depthOfMembers]
    obtain rfl | h := List.mem_cons.mp h
    · omega
    · have := ih h
      omega

end Value
end NotebookTidy.Json
