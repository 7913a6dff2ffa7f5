import NotebookTidy.Notebook
import NotebookTidy.Proofs.Decimal.Nearest
import NotebookTidy.Proofs.Failing
import NotebookTidy.Proofs.Json.Members
import NotebookTidy.Proofs.Json.Parts

/-! What a reader makes.

A value fits a depth (`Value.Fits`) if it is nested no deeper, no object in it has a key twice,
and its numbers are as asked. Edits of members by values that fit keep an object fitting. What
a reader makes fits the depth that it may go to, and a number in it is an integer of 64 bits,
signed if it is negative, or a finite double (`fits_of_parse`). -/
namespace NotebookTidy.Json

/-! ### Values that fit -/

/-- Nested at most so deep, with distinct keys and numbers as asked. -/
structure Value.Fits (P : Number → Prop) (depth : Nat) (v : Value) : Prop where
  distinct : ∀ ms, .object ms ∈ v.parts → (Members.keys ms).Nodup
  numbers : ∀ n, .number n ∈ v.parts → P n
  nesting : v.depth ≤ depth

/-- Distinct keys, and values that fit. -/
structure Members.Fits (P : Number → Prop) (depth : Nat) (ms : Members) : Prop where
  distinct : ms.keys.Nodup
  values : ∀ m ∈ ms, m.2.Fits P depth

variable {P : Number → Prop} {depth : Nat}

namespace Value

theorem fits_null : Fits P depth .null := ⟨by simp [parts], by simp [parts], Nat.zero_le _⟩

theorem fits_bool (b : Bool) : Fits P depth (.bool b) :=
  ⟨by simp [parts], by simp [parts], Nat.zero_le _⟩

theorem fits_string (s : String) : Fits P depth (.string s) :=
  ⟨by simp [parts], by simp [parts], Nat.zero_le _⟩

theorem fits_number {n : Number} (h : P n) : Fits P depth (.number n) :=
  ⟨by simp [parts], by simpa [parts] using h, Nat.zero_le _⟩

theorem depthOfItems_le_iff {items : List Value} :
    depthOfItems items ≤ depth ↔ ∀ v ∈ items, v.depth ≤ depth := by
  induction items with
  | nil => simp [depthOfItems]
  | cons v vs ih => rw [depthOfItems, Nat.max_le, ih, List.forall_mem_cons]

theorem depthOfMembers_le_iff {ms : List (String × Value)} :
    depthOfMembers ms ≤ depth ↔ ∀ m ∈ ms, m.2.depth ≤ depth := by
  induction ms with
  | nil => simp [depthOfMembers]
  | cons m ms ih =>
    obtain ⟨k, v⟩ := m
    rw [depthOfMembers, Nat.max_le, ih, List.forall_mem_cons]

theorem fits_array_iff {items : List Value} :
    Fits P (depth + 1) (.array items) ↔ ∀ v ∈ items, v.Fits P depth := by
  constructor
  · intro h v hv
    refine ⟨fun ms hms => h.distinct ms (mem_parts_array hv hms),
      fun n hn => h.numbers n (mem_parts_array hv hn), ?_⟩
    have hdepth := h.nesting
    rw [Value.depth] at hdepth
    exact depthOfItems_le_iff.mp (Nat.le_of_succ_le_succ hdepth) v hv
  · intro h
    refine ⟨fun ms hms => ?_, fun n hn => ?_, ?_⟩
    · rcases mem_parts_array_iff.mp hms with hself | ⟨v, hv, hms⟩
      · cases hself
      · exact (h v hv).distinct ms hms
    · rcases mem_parts_array_iff.mp hn with hself | ⟨v, hv, hn⟩
      · cases hself
      · exact (h v hv).numbers n hn
    · rw [Value.depth]
      exact Nat.succ_le_succ (depthOfItems_le_iff.mpr fun v hv => (h v hv).nesting)

theorem fits_object_iff {ms : Members} :
    Fits P (depth + 1) (.object ms) ↔ ms.Fits P depth := by
  constructor
  · intro h
    refine ⟨h.distinct ms (mem_parts_self _), fun m hm => ?_⟩
    refine ⟨fun ms hms => h.distinct ms (mem_parts_object hm hms),
      fun n hn => h.numbers n (mem_parts_object hm hn), ?_⟩
    have hdepth := h.nesting
    rw [Value.depth] at hdepth
    exact depthOfMembers_le_iff.mp (Nat.le_of_succ_le_succ hdepth) m hm
  · intro h
    refine ⟨fun ms' hms => ?_, fun n hn => ?_, ?_⟩
    · rcases mem_parts_object_iff.mp hms with hself | ⟨m, hm, hms⟩
      · cases hself
        exact h.distinct
      · exact (h.values m hm).distinct ms' hms
    · rcases mem_parts_object_iff.mp hn with hself | ⟨m, hm, hn⟩
      · cases hself
      · exact (h.values m hm).numbers n hn
    · rw [Value.depth]
      exact Nat.succ_le_succ (depthOfMembers_le_iff.mpr fun m hm => (h.values m hm).nesting)

theorem Fits.object_depth {ms : Members} (h : Fits P depth (.object ms)) :
    ∃ inner, depth = inner + 1 := by
  have := h.nesting
  rw [Value.depth] at this
  exact Nat.exists_eq_succ_of_ne_zero (by omega)

theorem Fits.mono {Q : Number → Prop} {v : Value} (h : v.Fits P depth)
    (hpq : ∀ n, .number n ∈ v.parts → P n → Q n) : v.Fits Q depth :=
  ⟨h.distinct, fun n hn => hpq n hn (h.numbers n hn), h.nesting⟩

end Value

/-! ### Edits of members that fit -/

namespace Members
variable {ms : Members}

theorem mem_or_of_mem_insert {k : String} {v : Value} {m : String × Value}
    (h : m ∈ insert ms k v) : m ∈ ms ∨ m.2 = v := by
  induction ms with
  | nil =>
    rw [insert, List.mem_singleton] at h
    exact .inr (h ▸ rfl)
  | cons m' ms ih =>
    rw [insert] at h
    split at h <;> rcases List.mem_cons.mp h with rfl | h
    · exact .inr rfl
    · exact .inl (List.mem_cons_of_mem _ h)
    · exact .inl List.mem_cons_self
    · exact (ih h).imp_left (List.mem_cons_of_mem _)

theorem Fits.insert (h : ms.Fits P depth) (k : String) {v : Value} (hv : v.Fits P depth) :
    (ms.insert k v).Fits P depth := by
  refine ⟨?_, fun m hm => ?_⟩
  · rw [keys_insert]
    split
    · exact h.distinct
    · next hk => exact List.nodup_append.mpr ⟨h.distinct, (by simp),
        fun a ha b hb he => hk (List.mem_singleton.mp hb ▸ he ▸ ha)⟩
  · rcases mem_or_of_mem_insert hm with hm | hm
    · exact h.values m hm
    · exact hm ▸ hv

theorem Fits.erase (h : ms.Fits P depth) (k : String) : (ms.erase k).Fits P depth := by
  refine ⟨?_, fun m hm => h.values m (List.mem_of_mem_filter hm)⟩
  rw [keys_erase]
  exact h.distinct.filter _

theorem Fits.modify (h : ms.Fits P depth) (k : String) {f : Value → Value}
    (hf : ∀ v : Value, v.Fits P depth → (f v).Fits P depth) : (ms.modify k f).Fits P depth := by
  refine ⟨?_, fun m hm => ?_⟩
  · rw [keys_modify]
    exact h.distinct
  · obtain ⟨m', hm', rfl⟩ := List.mem_map.mp hm
    split
    · exact hf _ (h.values m' hm')
    · exact h.values m' hm'

theorem fits_nil : Fits P depth [] := ⟨List.nodup_nil, fun _ h => absurd h List.not_mem_nil⟩

/-- However often a key is read, it is in the object once. -/
theorem fits_ofPairs {pairs : List (String × Value)} (h : ∀ m ∈ pairs, m.2.Fits P depth) :
    (ofPairs pairs).Fits P depth := by
  suffices ∀ entered : Members, entered.Fits P depth →
      Fits P depth (pairs.foldl (fun ms m => Members.insert ms m.1 m.2) entered) from this [] fits_nil
  induction pairs with
  | nil => exact fun _ hentered => hentered
  | cons m pairs ih =>
    intro entered hentered
    obtain ⟨hm, hpairs⟩ := List.forall_mem_cons.mp h
    exact ih hpairs _ (hentered.insert m.1 hm)

end Members

theorem Value.Fits.mapMembers {v : Value} (h : v.Fits P depth) {f : Members → Members}
    (hf : ∀ (inner : Nat) (ms : Members), ms.Fits P inner → (f ms).Fits P inner) :
    (v.mapMembers f).Fits P depth := by
  cases v with
  | object ms =>
    obtain ⟨inner, rfl⟩ := h.object_depth
    exact fits_object_iff.mpr (hf inner ms (fits_object_iff.mp h))
  | _ => exact h

/-! ### Numbers that are read -/

/-- An integer of 64 bits, or a double. -/
inductive Number.Scanned : Number → Prop where
  | int {i : Int} (low : -2 ^ 63 ≤ i) (high : i < 2 ^ 64) : Scanned (.int i)
  | float {x : Decimal.Double} (finite : x.magnitude.Finite) : Scanned (.float x)

section
open Number Decimal
variable {negative : Bool} {significand : Nat} {exponent : Int} {s rest : List Char} {n : Number}

theorem one_le_powerOfTen? {k : Nat} {power : Magnitude} (h : powerOfTen? k = some power) :
    1 ≤ power.value := by
  have hrounds := Magnitude.roundsTo_nearest_one (tenTo k)
  rw [powerOfTen?] at h
  rw [h] at hrounds
  exact hrounds.one_le_value (by exact_mod_cast Nat.one_le_pow k 10 (by decide))

theorem finite_mul {x y m : Magnitude} (h : x.mul y = some m) : m.Finite :=
  Magnitude.RoundsTo.finite (h ▸ Magnitude.roundsTo_mul x y)

theorem finite_div {x y m : Magnitude} (hy : 1 ≤ y.value) (h : x.div y = some m) : m.Finite :=
  Magnitude.RoundsTo.finite (h ▸ Magnitude.roundsTo_div x (zero_lt_one.trans_le hy))

theorem finite_scaleByPower {x m : Magnitude} (hx : x.Finite) {steps : Nat}
    (h : scaleByPower x steps exponent = some m) : m.Finite := by
  induction steps generalizing x exponent with
  | zero =>
    rw [scaleByPower] at h
    split at h
    · obtain ⟨power, hpower, h⟩ := Option.bind_eq_some_iff.mp h
      split at h
      · exact finite_mul h
      · exact finite_div (one_le_powerOfTen? hpower) h
    · split at h
      · exact Option.some.inj h ▸ hx
      · split at h <;> cases h
  | succ steps ih =>
    rw [scaleByPower] at h
    split at h
    · obtain ⟨power, hpower, h⟩ := Option.bind_eq_some_iff.mp h
      split at h
      · exact finite_mul h
      · exact finite_div (one_le_powerOfTen? hpower) h
    · split at h
      · exact Option.some.inj h ▸ hx
      · split at h
        · cases h
        · obtain ⟨power, hpower, h⟩ := Option.bind_eq_some_iff.mp h
          obtain ⟨y, hy, h⟩ := Option.bind_eq_some_iff.mp h
          exact ih (finite_div (one_le_powerOfTen? hpower) hy) h

theorem finite_scaledDouble? {m : Magnitude} (h : scaledDouble? significand exponent = some m) :
    m.Finite := by
  obtain ⟨x, hx, h⟩ := Option.bind_eq_some_iff.mp h
  exact finite_scaleByPower (Magnitude.finite_nearest Nat.one_pos hx) h

/-- Stated of the function and not of its values: there the kernel would evaluate the scaling. -/
theorem finishDouble_eq : finishDouble = fun negative significand exponent s =>
    match scaledDouble? significand exponent with
    | some m => .ok (.float ⟨negative, m⟩, s)
    | none => .error (.here .numberOutOfRange s) := by
  delta finishDouble
  rfl

theorem scanned_finishDouble (h : finishDouble negative significand exponent s = .ok (n, rest)) :
    n.Scanned := by
  rw [finishDouble_eq] at h
  cases hd : scaledDouble? significand exponent with
  | none => simp only [hd, reduceCtorEq] at h
  | some m =>
    simp only [hd, Except.ok.injEq, Prod.mk.injEq] at h
    exact h.1 ▸ .float (finite_scaledDouble? hd)

theorem scanned_exponentPart (h : exponentPart negative significand exponent s = .ok (n, rest)) :
    n.Scanned := by
  unfold exponentPart at h
  split at h
  split at h
  · cases h
  · split at h
    · dsimp only at h
      split at h
      · split at h
        · cases h
        · cases h
          exact .float Magnitude.finite_zero
      · exact scanned_finishDouble h
    · cases h

theorem scanned_doubleEnd (h : doubleEnd negative significand exponent s = .ok (n, rest)) :
    n.Scanned := by
  rw [doubleEnd.eq_def] at h
  split at h
  · exact scanned_exponentPart h
  · exact scanned_exponentPart h
  · exact scanned_finishDouble h

theorem scanned_fractionPart (h : fractionPart negative significand exponent s = .ok (n, rest)) :
    n.Scanned := by
  simp only [fractionPart] at h
  split at h
  · exact scanned_doubleEnd h
  · split at h
    · split at h <;> cases h
    · exact scanned_doubleEnd h

theorem scanned_finishInteger (h : significand ≤ maxSignificand) :
    (finishInteger negative significand).Scanned := by
  have hmax : maxSignificand = 2 ^ 64 - 1 := by decide
  have hmin : twoTo 63 = 2 ^ 63 := by decide
  rw [finishInteger]
  split
  · split
    · exact .int (by omega) (by omega)
    · refine .float ?_
      cases hn : Magnitude.nearest significand 1 with
      | none => exact Magnitude.finite_zero
      | some m => exact Magnitude.finite_nearest Nat.one_pos hn
  · exact .int (by omega) (by omega)

theorem scanned_afterInteger (hfits : significand ≤ maxSignificand)
    (h : afterInteger negative significand s = .ok (n, rest)) : n.Scanned := by
  rw [afterInteger.eq_def] at h
  split at h
  · exact scanned_fractionPart h
  · exact scanned_exponentPart h
  · exact scanned_exponentPart h
  · cases h
    exact scanned_finishInteger hfits

theorem scanned_afterLongInteger
    (h : afterLongInteger negative significand exponent s = .ok (n, rest)) : n.Scanned := by
  rw [afterLongInteger.eq_def] at h
  split at h
  · exact scanned_fractionPart h
  · exact scanned_doubleEnd h

/-- Digits are gathered as long as they fit. -/
theorem gather_le {limit : Nat} (h : significand ≤ limit) (count : Nat) (s : List Char) :
    (gather limit significand count s).1 ≤ limit := by
  induction s generalizing significand count with
  | nil => exact h
  | cons c s ih =>
    rw [gather]
    split
    · split
      · next hfits => exact ih hfits _
      · exact h
    · exact h

theorem scanned_numberRest (h : numberRest negative s = .ok (n, rest)) : n.Scanned := by
  rw [numberRest.eq_def] at h
  split at h
  · cases h
  · next c s =>
    split at h
    · split at h
      · cases h
      · exact scanned_afterInteger (Nat.zero_le _) h
    · split at h
      · dsimp only at h
        split at h
        · exact scanned_afterLongInteger h
        · exact scanned_afterInteger (gather_le (Nat.zero_le _) 0 (c :: s)) h
      · cases h

end

/-! ### Values that are read -/

/-- What the reader made a value of. -/
inductive ReadFrom (fuel : Nat) : Nat → Value → Prop where
  | null (depth : Nat) : ReadFrom fuel depth .null
  | bool (depth : Nat) (b : Bool) : ReadFrom fuel depth (.bool b)
  | string (depth : Nat) (s : String) : ReadFrom fuel depth (.string s)
  | number (depth : Nat) {negative : Bool} {s rest : List Char} {n : Number}
      (h : numberRest negative s = .ok (n, rest)) : ReadFrom fuel depth (.number n)
  | array {depth : Nat} {s rest : List Char} {items : List Value}
      (h : readItems fuel depth true s = .ok (items, rest)) :
      ReadFrom fuel (depth + 1) (.array items)
  | object {depth : Nat} {s rest : List Char} {pairs : List (String × Value)}
      (h : readPairs fuel depth true s = .ok (pairs, rest)) :
      ReadFrom fuel (depth + 1) (.object (Members.ofPairs pairs))

theorem readFrom_of_readValue {fuel : Nat} {s rest : List Char} {v : Value}
    (h : readValue (fuel + 1) depth s = .ok (v, rest)) : ReadFrom fuel depth v := by
  rw [readValue] at h
  split at h
  · cases h
  split at h
  · obtain ⟨_, _, h⟩ := exists_of_bind_eq_ok h
    cases h
    exact .null _
  split at h
  · obtain ⟨_, _, h⟩ := exists_of_bind_eq_ok h
    cases h
    exact .bool _ _
  split at h
  · obtain ⟨_, _, h⟩ := exists_of_bind_eq_ok h
    cases h
    exact .bool _ _
  split at h
  · obtain ⟨⟨n, s⟩, hn, h⟩ := exists_of_bind_eq_ok h
    cases h
    exact .number _ hn
  split at h
  · obtain ⟨⟨n, s⟩, hn, h⟩ := exists_of_bind_eq_ok h
    cases h
    exact .number _ hn
  split at h
  · obtain ⟨⟨t, s⟩, _, h⟩ := exists_of_bind_eq_ok h
    cases h
    exact .string _ _
  split at h
  · cases depth with
    | zero => cases h
    | succ depth =>
      obtain ⟨⟨items, s⟩, hitems, h⟩ := exists_of_bind_eq_ok h
      cases h
      exact .array hitems
  split at h
  · cases depth with
    | zero => cases h
    | succ depth =>
      obtain ⟨⟨pairs, s⟩, hpairs, h⟩ := exists_of_bind_eq_ok h
      cases h
      exact .object hpairs
  · cases h

theorem readItems_cases {fuel : Nat} {first : Bool} {s rest : List Char} {items : List Value}
    (h : readItems (fuel + 1) depth first s = .ok (items, rest)) :
    items = [] ∨ ∃ s v s' vs rest', items = v :: vs ∧ readValue fuel depth s = .ok (v, s') ∧
      readItems fuel depth false s' = .ok (vs, rest') := by
  rw [readItems] at h
  split at h
  · cases h
  · cases h
    exact .inl rfl
  · obtain ⟨⟨v, s'⟩, hv, h⟩ := exists_of_bind_eq_ok h
    obtain ⟨⟨vs, rest'⟩, hvs, h⟩ := exists_of_bind_eq_ok h
    cases h
    exact .inr ⟨_, v, s', vs, _, rfl, hv, hvs⟩

theorem readPairs_cases {fuel : Nat} {first : Bool} {s rest : List Char}
    {pairs : List (String × Value)}
    (h : readPairs (fuel + 1) depth first s = .ok (pairs, rest)) :
    pairs = [] ∨ ∃ s k v s' ms rest', pairs = (k, v) :: ms ∧
      readValue fuel depth s = .ok (v, s') ∧ readPairs fuel depth false s' = .ok (ms, rest') := by
  rw [readPairs] at h
  split at h
  · cases h
  · cases h
    exact .inl rfl
  · obtain ⟨⟨k, _⟩, _, h⟩ := exists_of_bind_eq_ok h
    obtain ⟨s, _, h⟩ := exists_of_bind_eq_ok h
    obtain ⟨⟨v, s'⟩, hv, h⟩ := exists_of_bind_eq_ok h
    obtain ⟨⟨ms, rest'⟩, hms, h⟩ := exists_of_bind_eq_ok h
    cases h
    exact .inr ⟨s, k, v, s', ms, _, rfl, hv, hms⟩

/-- What is read with some calls fits the depth that may still be opened. -/
structure ReadsFitting (fuel : Nat) : Prop where
  value : ∀ {depth s v rest}, readValue fuel depth s = .ok (v, rest) →
    v.Fits Number.Scanned depth
  items : ∀ {depth first s items rest}, readItems fuel depth first s = .ok (items, rest) →
    ∀ v ∈ items, v.Fits Number.Scanned depth
  pairs : ∀ {depth first s pairs rest}, readPairs fuel depth first s = .ok (pairs, rest) →
    ∀ m ∈ pairs, m.2.Fits Number.Scanned depth

theorem readsFitting (fuel : Nat) : ReadsFitting fuel := by
  induction fuel with
  | zero =>
    refine ⟨fun h => ?_, fun h => ?_, fun h => ?_⟩
    · cases h
    · cases h
    · cases h
  | succ fuel ih =>
    refine ⟨fun h => ?_, fun h => ?_, fun h => ?_⟩
    · cases readFrom_of_readValue h with
      | null => exact Value.fits_null
      | bool _ b => exact Value.fits_bool b
      | string _ s => exact Value.fits_string s
      | number _ hn => exact Value.fits_number (scanned_numberRest hn)
      | array hitems => exact Value.fits_array_iff.mpr (ih.items hitems)
      | object hpairs => exact Value.fits_object_iff.mpr (Members.fits_ofPairs (ih.pairs hpairs))
    · rcases readItems_cases h with rfl | ⟨_, v, _, vs, _, rfl, hv, hvs⟩
      · exact fun _ hv => absurd hv List.not_mem_nil
      · exact List.forall_mem_cons.mpr ⟨ih.value hv, ih.items hvs⟩
    · rcases readPairs_cases h with rfl | ⟨_, k, v, _, ms, _, rfl, hv, hms⟩
      · exact fun _ hm => absurd hm List.not_mem_nil
      · exact List.forall_mem_cons.mpr ⟨ih.value hv, ih.pairs hms⟩

theorem fits_of_readText {text : List Char} {v : Value} (h : readText text = .ok v) :
    v.Fits Number.Scanned maxDepth := by
  obtain ⟨⟨w, s⟩, hread, h⟩ := exists_of_bind_eq_ok h
  obtain ⟨_, _, h⟩ := exists_of_bind_eq_ok h
  cases h
  exact (readsFitting _).value hread

end NotebookTidy.Json

namespace NotebookTidy.Notebook
open Json

theorem fits_of_parse {text : String} {v : Value} (h : parse text = .ok v) :
    v.Fits Number.Scanned maxDepth := by
  rw [parse, Json.read] at h
  cases hread : readText text.toList with
  | error e =>
    rw [hread] at h
    cases h
  | ok w =>
    rw [hread] at h
    cases h
    exact fits_of_readText hread

end NotebookTidy.Notebook
