import NotebookTidy.Notebook
import NotebookTidy.Proofs.Failing
import NotebookTidy.Proofs.Json.Integers
import NotebookTidy.Proofs.Json.Layout
import NotebookTidy.Proofs.Json.Members
import NotebookTidy.Proofs.Json.Parts
import NotebookTidy.Proofs.Json.Strings
import NotebookTidy.Proofs.Json.Writer

/-! Reading undoes writing.

A value reads as another one (`Value.ReadsAs`), or as none, if that is what comes of its text at
any level, before anything that ends a number, with as many calls as the text is long; it reads
back (`Value.ReadsBack`) if it reads as itself. There is one lemma for each kind of value. Those
for arrays and objects rest on a run over their items and members (`readItems_listed`,
`readPairs_listed`): each is the first or stands after a comma, on a line of its own, and blanks
may stand before the closing bracket. So a value reads as the one with each of its numbers as
that is read (`Value.reread`), and as none if one of them is refused (`readsAs_reread`).

`parse_written`: what is written of a value is read as that value, if it is plain
(`Value.Plain`): no object has a key twice, numbers are integers of 64 bits, and it is nested
at most 127 deep. The writer goes by bytes and levels; what it comes to is the plain layout in ASCII
(`Notebook.written_eq`), and of this the lemmas speak. -/
namespace NotebookTidy.Json

/-! ### Blanks -/

/-- Nothing but blanks. -/
def Blank (s : List Char) : Prop := ∀ c ∈ s, isSpace c = true

theorem blank_nil : Blank [] := fun _ h => by cases h

theorem Blank.append {s s' : List Char} (h : Blank s) (h' : Blank s') : Blank (s ++ s') :=
  fun c hc => (List.mem_append.mp hc).elim (h c) (h' c)

theorem blank_lineBreak (level : Nat) : Blank (lineBreak level) := by
  intro c hc
  obtain rfl | hc := List.mem_cons.mp hc
  · decide
  · rw [List.eq_of_mem_replicate hc]
    decide

theorem skipSpace_blank {blank : List Char} (h : Blank blank) {c : Char}
    (hc : isSpace c = false) (s : List Char) : skipSpace (blank ++ c :: s) = c :: s := by
  rw [skipSpace, List.dropWhile_append_of_pos h, List.dropWhile_cons_of_neg (by simp [hc])]

theorem skipSpace_cons {c : Char} (hc : isSpace c = false) (s : List Char) :
    skipSpace (c :: s) = c :: s :=
  skipSpace_blank blank_nil hc s

theorem pastClose_blank {blank : List Char} (h : Blank blank) {c : Char}
    (hc : isSpace c = false) (s : List Char) : pastClose (blank ++ c :: s) = s := by
  rw [pastClose, skipSpace_blank h hc]
  rfl

/-! ### What ends a number -/

/-- A comma comes after an item or a member, or what comes after the last of them. -/
theorem endsNumber_listed (ps : List (List Char)) {rest : List Char} (h : EndsNumber rest) :
    EndsNumber (listed false ps ++ rest) := by
  cases ps with
  | nil => exact h
  | cons p ps => exact endsNumber_cons (by decide) (by decide) _

theorem endsNumber_blank {blank : List Char} (h : Blank blank) {rest : List Char}
    (hrest : EndsNumber rest) : EndsNumber (blank ++ rest) := by
  cases blank with
  | nil => exact hrest
  | cons c s =>
    have hc : isSpace c = true := h c List.mem_cons_self
    simp only [isSpace, Bool.or_eq_true, beq_iff_eq] at hc
    obtain ((rfl | rfl) | rfl) | rfl := hc <;> exact endsNumber_cons (by decide) (by decide) _

/-! ### What comes of reading again -/

mutual
/-- A value with each of its numbers as it is read again; none if one of them is refused. -/
def Value.reread (again : Number → Option Number) : Value → Option Value
  | .number n => (again n).map .number
  | .array items => (rereadItems again items).map .array
  | .object ms => (rereadMembers again ms).map .object
  | v => some v

def rereadItems (again : Number → Option Number) : List Value → Option (List Value)
  | [] => some []
  | v :: vs => do
    let w ← v.reread again
    let ws ← rereadItems again vs
    some (w :: ws)

def rereadMembers (again : Number → Option Number) :
    List (String × Value) → Option (List (String × Value))
  | [] => some []
  | (k, v) :: ms => do
    let w ← v.reread again
    let ms ← rereadMembers again ms
    some ((k, w) :: ms)
end

/-- The text of a value, at any level and before anything that ends a number, is read as another
value, or refused. It begins with neither a blank nor a closing bracket. -/
structure Value.ReadsAs (esc : Char → List Char) (v : Value) (again : Option Value) : Prop where
  begins : ∀ level, ∃ c s, indented esc level v = c :: s ∧ isSpace c = false ∧ c ≠ ']'
  read : ∀ level fuel depth rest, v.depth ≤ depth → (indented esc level v).length ≤ fuel + 1 →
    EndsNumber rest → (readValue (fuel + 1) depth (indented esc level v ++ rest)).toOption =
      again.map (·, rest)

def Value.ReadsBack (esc : Char → List Char) (v : Value) : Prop := v.ReadsAs esc (some v)

variable {esc : Char → List Char}

/-- As many calls as the text is long are enough, since no text is empty. -/
theorem Value.ReadsAs.readValue_eq {v : Value} {again : Option Value} (h : v.ReadsAs esc again)
    (level fuel depth : Nat) (rest : List Char) (hdepth : v.depth ≤ depth)
    (hfuel : (indented esc level v).length ≤ fuel) (hrest : EndsNumber rest) :
    (readValue fuel depth (indented esc level v ++ rest)).toOption = again.map (·, rest) := by
  cases fuel with
  | zero =>
    obtain ⟨c, s, htext, _⟩ := h.begins level
    rw [htext] at hfuel
    cases hfuel
  | succ fuel => exact h.read level fuel depth rest hdepth hfuel hrest

theorem readsBack_null : Value.ReadsBack esc .null where
  begins _ := ⟨'n', _, rfl, by decide, by decide⟩
  read _ _ _ _ _ _ _ := rfl

theorem readsBack_bool (b : Bool) : Value.ReadsBack esc (.bool b) where
  begins level := by
    cases b
    · exact ⟨'f', _, rfl, by decide, by decide⟩
    · exact ⟨'t', _, rfl, by decide, by decide⟩
  read _ _ _ _ _ _ _ := by cases b <;> rfl

theorem readsBack_string (hesc : Unescapes esc) (s : String) :
    Value.ReadsBack esc (.string s) where
  begins _ := ⟨'"', _, rfl, by decide, by decide⟩
  read level fuel depth rest _ _ _ := by
    have htext : indented esc level (.string s) ++ rest =
        '"' :: (s.toList.flatMap esc ++ '"' :: rest) := by simp [indented, quoted]
    refine toOption_eq_some_iff.mpr ?_
    rw [htext, readValue, skipSpace_cons (by decide)]
    simp [isDigit, digit?, stringRest_quoted hesc, bind, Except.bind]

/-- Digits are none of the other characters that a value begins with. -/
theorem ne_of_isDigit {c d : Char} (hc : isDigit c = true) (hd : isDigit d = false) : c ≠ d := by
  rintro rfl
  rw [hc] at hd
  cases hd

theorem isSpace_of_isDigit {c : Char} (hc : isDigit c = true) : isSpace c = false := by
  have hne : ∀ d, isDigit d = false → c ≠ d := fun d => ne_of_isDigit hc
  simp [isSpace, hne ' ' (by decide), hne '\n' (by decide), hne '\t' (by decide),
    hne '\r' (by decide)]

theorem readValue_minus (fuel depth : Nat) (s : List Char) :
    readValue (fuel + 1) depth ('-' :: s) =
      numberRest true s >>= fun r => .ok (.number r.1, r.2) := by
  rw [readValue, skipSpace_cons (by decide)]
  rfl

theorem readValue_digit {c : Char} (hdigit : isDigit c = true) (fuel depth : Nat) (s : List Char) :
    readValue (fuel + 1) depth (c :: s) =
      numberRest false (c :: s) >>= fun r => .ok (.number r.1, r.2) := by
  have hn := ne_of_isDigit hdigit (show isDigit 'n' = false by decide)
  have ht := ne_of_isDigit hdigit (show isDigit 't' = false by decide)
  have hf := ne_of_isDigit hdigit (show isDigit 'f' = false by decide)
  have hminus := ne_of_isDigit hdigit (show isDigit '-' = false by decide)
  rw [readValue, skipSpace_cons (isSpace_of_isDigit hdigit)]
  simp only [if_neg hn, if_neg ht, if_neg hf, if_neg hminus, if_pos hdigit]

theorem readsAs_number {n : Number} {again : Option Number} (h : n.ReadsAs again) :
    Value.ReadsAs esc (.number n) (again.map .number) where
  begins level := by
    rw [indented]
    obtain ⟨htext, _⟩ | ⟨htext, hdigit, _⟩ := h
    · exact ⟨'-', _, htext, by decide, by decide⟩
    · exact ⟨_, _, htext, isSpace_of_isDigit hdigit, ne_of_isDigit hdigit (by decide)⟩
  read level fuel depth rest _ _ hrest := by
    rw [indented]
    obtain ⟨htext, hread⟩ | ⟨htext, hdigit, hread⟩ := h
    · rw [htext, List.cons_append, readValue_minus, toOption_bind, hread rest hrest]
      cases again <;> rfl
    · have hread := hread rest hrest
      rw [List.cons_append] at hread
      rw [htext, List.cons_append, readValue_digit hdigit, toOption_bind, hread]
      cases again <;> rfl

/-! ### Arrays -/

theorem nextItem_close (first : Bool) {blank : List Char} (h : Blank blank) (rest : List Char) :
    nextItem first (blank ++ ']' :: rest) = .ok none := by
  rw [nextItem, skipSpace_blank h (by decide)]
  rfl

/-- Blanks may stand before the comma and after it. -/
theorem nextItem_listed (first : Bool) {tail lead : List Char} (htail : Blank tail)
    (hlead : Blank lead) {c : Char} (hspace : isSpace c = false) (hclose : c ≠ ']')
    (s : List Char) :
    nextItem first (tail ++ ((if first then [] else [',']) ++ (lead ++ c :: s))) =
      .ok (some (c :: s)) := by
  cases first with
  | true =>
    rw [if_pos rfl, List.nil_append, ← List.append_assoc, nextItem,
      skipSpace_blank (htail.append hlead) hspace]
    simp only [if_neg hclose, if_true]
  | false =>
    rw [if_neg (by decide), List.singleton_append, nextItem, skipSpace_blank htail (by decide)]
    simp [skipSpace_blank hlead hspace, hclose]

theorem readValue_bracket (fuel depth : Nat) (s : List Char) :
    readValue (fuel + 1) (depth + 1) ('[' :: s) =
      readItems fuel depth true s >>= fun r => .ok (.array r.1, r.2) := by
  rw [readValue, skipSpace_cons (by decide)]
  rfl

/-- The items of an array and its closing bracket are read one by one. -/
theorem readItems_listed {again : Number → Option Number} {vs : List Value}
    (h : ∀ v ∈ vs, v.ReadsAs esc (v.reread again)) (first : Bool)
    (level fuel depth : Nat) {blank : List Char} (hblank : Blank blank) (rest : List Char)
    (hdepth : ∀ v ∈ vs, v.depth ≤ depth)
    (hfuel : (listed first (indentedItems esc level vs) ++ blank).length < fuel) :
    (readItems fuel depth first
      (listed first (indentedItems esc level vs) ++ (blank ++ ']' :: rest))).toOption =
        (rereadItems again vs).map (·, rest) := by
  induction vs generalizing first fuel with
  | nil =>
    obtain _ | fuel := fuel
    · cases hfuel
    rw [indentedItems, listed, List.nil_append, readItems, nextItem_close first hblank]
    simp only [pastClose_blank hblank (show isSpace ']' = false by decide)]
    rfl
  | cons v vs ih =>
    obtain _ | fuel := fuel
    · cases hfuel
    simp only [indentedItems, listed, lineBreak, List.append_assoc, List.cons_append,
      List.length_append, List.length_cons] at hfuel
    have hv := h v List.mem_cons_self
    obtain ⟨c, s, htext, hspace, hclose⟩ := hv.begins level
    have hend : EndsNumber (blank ++ ']' :: rest) :=
      endsNumber_blank hblank (endsNumber_cons (by decide) (by decide) rest)
    have hitem := hv.readValue_eq level fuel depth _
      (hdepth v List.mem_cons_self) (by omega)
      (endsNumber_listed (indentedItems esc level vs) hend)
    -- every item but the first comes after a comma
    have hitems := ih (fun w hw => h w (List.mem_cons_of_mem v hw)) false fuel
      (fun w hw => hdepth w (List.mem_cons_of_mem v hw)) (by rw [List.length_append]; omega)
    rw [htext] at hitem
    simp only [indentedItems, listed, htext, List.append_assoc, List.cons_append] at hitem ⊢
    rw [readItems, ← List.nil_append (_ ++ _),
      nextItem_listed first blank_nil (blank_lineBreak level) hspace hclose]
    simp only [toOption_bind, hitem, rereadItems]
    cases v.reread again with
    | none => rfl
    | some w =>
      simp only [Option.map_some, Option.bind_some, hitems, bind]
      cases rereadItems again vs <;> rfl

theorem blank_closingBreak {α : Type} (level : Nat) (members : List α) :
    Blank (closingBreak level members) := by
  cases members with
  | nil => exact blank_nil
  | cons => exact blank_lineBreak level

theorem readsAs_array {again : Number → Option Number} {items : List Value}
    (h : ∀ v ∈ items, v.ReadsAs esc (v.reread again)) :
    Value.ReadsAs esc (.array items) (Value.reread again (.array items)) where
  begins level := ⟨'[', _, indented_array esc level items, by decide, by decide⟩
  read level fuel depth rest hdepth hfuel _ := by
    obtain _ | depth := depth
    · cases hdepth
    have hitems : ∀ v ∈ items, v.depth ≤ depth := by
      intro v hv
      have := Value.depth_lt_array hv
      omega
    rw [indented_array] at hfuel ⊢
    simp only [List.length_cons, List.length_append, List.length_nil] at hfuel
    have hread := readItems_listed h true (level + 1) fuel depth
      (blank_closingBreak level items) rest hitems
      (by rw [List.length_append]; omega)
    simp only [List.cons_append, List.append_assoc, List.nil_append]
    rw [readValue_bracket, toOption_bind, hread, Value.reread]
    cases rereadItems again items <;> rfl

/-! ### Objects -/

theorem nextKey_close (first : Bool) {blank : List Char} (h : Blank blank) (rest : List Char) :
    nextKey first (blank ++ '\x7d' :: rest) = .ok none := by
  rw [nextKey, skipSpace_blank h (by decide)]
  rfl

theorem nextKey_listed (first : Bool) {tail lead : List Char} (htail : Blank tail)
    (hlead : Blank lead) (s : List Char) :
    nextKey first (tail ++ ((if first then [] else [',']) ++ (lead ++ '"' :: s))) =
      .ok (some s) := by
  have hquote : isSpace '"' = false := by decide
  cases first with
  | true =>
    rw [if_pos rfl, List.nil_append, ← List.append_assoc, nextKey,
      skipSpace_blank (htail.append hlead) hquote]
    simp
  | false =>
    rw [if_neg (by decide), List.singleton_append, nextKey, skipSpace_blank htail (by decide)]
    simp [skipSpace_blank hlead hquote]

theorem colon_cons (s : List Char) : colon (':' :: s) = .ok s := by
  rw [colon, skipSpace_cons (by decide)]
  rfl

/-- A blank before a value makes no difference. -/
theorem readValue_space (fuel depth : Nat) (s : List Char) :
    (readValue fuel depth (' ' :: s)).toOption = (readValue fuel depth s).toOption := by
  have hskip : skipSpace (' ' :: s) = skipSpace s := rfl
  cases fuel with
  | zero => rfl
  | succ fuel => rw [readValue, readValue, hskip]

theorem readValue_brace (fuel depth : Nat) (s : List Char) :
    readValue (fuel + 1) (depth + 1) ('{' :: s) =
      readPairs fuel depth true s >>= fun r => .ok (.object (Members.ofPairs r.1), r.2) := by
  rw [readValue, skipSpace_cons (by decide)]
  rfl

/-- The members of an object and its closing brace are read one by one. -/
theorem readPairs_listed (hesc : Unescapes esc) {again : Number → Option Number}
    {ms : List (String × Value)} (h : ∀ m ∈ ms, m.2.ReadsAs esc (m.2.reread again)) (first : Bool)
    (level fuel depth : Nat) {blank : List Char} (hblank : Blank blank) (rest : List Char)
    (hdepth : ∀ m ∈ ms, m.2.depth ≤ depth)
    (hfuel : (listed first (indentedMembers esc level ms) ++ blank).length < fuel) :
    (readPairs fuel depth first
      (listed first (indentedMembers esc level ms) ++ (blank ++ '\x7d' :: rest))).toOption =
        (rereadMembers again ms).map (·, rest) := by
  induction ms generalizing first fuel with
  | nil =>
    obtain _ | fuel := fuel
    · cases hfuel
    rw [indentedMembers, listed, List.nil_append, readPairs, nextKey_close first hblank]
    simp only [pastClose_blank hblank (show isSpace '\x7d' = false by decide)]
    rfl
  | cons m ms ih =>
    obtain ⟨k, v⟩ := m
    obtain _ | fuel := fuel
    · cases hfuel
    simp only [indentedMembers, listed, lineBreak, List.append_assoc, List.cons_append,
      List.length_append, List.length_cons] at hfuel
    have hv : v.ReadsAs esc (v.reread again) := h (k, v) List.mem_cons_self
    have hend : EndsNumber (blank ++ '\x7d' :: rest) :=
      endsNumber_blank hblank (endsNumber_cons (by decide) (by decide) rest)
    have hvalue := hv.readValue_eq level fuel depth _
      (hdepth (k, v) List.mem_cons_self) (by omega)
      (endsNumber_listed (indentedMembers esc level ms) hend)
    have hmembers := ih (fun m hm => h m (List.mem_cons_of_mem (k, v) hm)) false fuel
      (fun m hm => hdepth m (List.mem_cons_of_mem (k, v) hm)) (by rw [List.length_append]; omega)
    rw [← readValue_space] at hvalue
    simp only [indentedMembers, listed, quoted, List.append_assoc, List.cons_append,
      List.nil_append] at hvalue ⊢
    rw [readPairs, ← List.nil_append (_ ++ _),
      nextKey_listed first blank_nil (blank_lineBreak level)]
    simp only [stringRest_quoted hesc, colon_cons, ok_bind, toOption_bind, hvalue, rereadMembers]
    cases v.reread again with
    | none => rfl
    | some w =>
      simp only [Option.map_some, Option.bind_some, hmembers, bind]
      cases rereadMembers again ms <;> rfl

/-- Reading again keeps the keys. -/
theorem keys_of_rereadMembers {again : Number → Option Number} {ms ms' : List (String × Value)}
    (h : rereadMembers again ms = some ms') : Members.keys ms' = Members.keys ms := by
  induction ms generalizing ms' with
  | nil =>
    cases h
    rfl
  | cons m ms ih =>
    obtain ⟨k, v⟩ := m
    simp only [rereadMembers, bind, Option.bind_eq_some_iff] at h
    obtain ⟨w, _, rest, hrest, h⟩ := h
    cases h
    rw [Members.keys_cons, Members.keys_cons, ih hrest]

theorem readsAs_object (hesc : Unescapes esc) {again : Number → Option Number}
    {ms : List (String × Value)} (hkeys : (Members.keys ms).Nodup)
    (h : ∀ m ∈ ms, m.2.ReadsAs esc (m.2.reread again)) :
    Value.ReadsAs esc (.object ms) (Value.reread again (.object ms)) where
  begins level := ⟨'{', _, indented_object esc level ms, by decide, by decide⟩
  read level fuel depth rest hdepth hfuel _ := by
    obtain _ | depth := depth
    · cases hdepth
    have hmembers : ∀ m ∈ ms, m.2.depth ≤ depth := by
      intro m hm
      have := Value.depth_lt_object hm
      omega
    rw [indented_object] at hfuel ⊢
    simp only [List.length_cons, List.length_append, List.length_nil] at hfuel
    have hread := readPairs_listed hesc h true (level + 1) fuel depth
      (blank_closingBreak level ms) rest hmembers
      (by rw [List.length_append]; omega)
    simp only [List.cons_append, List.append_assoc, List.nil_append]
    rw [readValue_brace, toOption_bind, hread, Value.reread]
    cases hagain : rereadMembers again ms with
    | none => rfl
    | some ms' =>
      have hdistinct : (Members.keys ms').Nodup := keys_of_rereadMembers hagain ▸ hkeys
      simp only [Option.map_some, Option.bind_some, Except.toOption,
        Members.ofPairs_of_nodup ms' hdistinct]

/-! ### The whole text -/

/-- A value in which no object has a key twice, every number is an integer of 64 bits, with a
sign or without, and arrays and objects are nested no deeper than a reader goes. -/
structure Value.Plain (v : Value) : Prop where
  distinct : ∀ ms, .object ms ∈ v.parts → (Members.keys ms).Nodup
  integers : ∀ n, .number n ∈ v.parts → ∃ i : Int, n = .int i ∧ -2 ^ 63 ≤ i ∧ i < 2 ^ 64
  nesting : v.depth ≤ 127

/-- A value reads as the one with each of its numbers as that is read. -/
theorem readsAs_reread (hesc : Unescapes esc) {again : Number → Option Number} {v : Value}
    (hdistinct : ∀ ms, .object ms ∈ v.parts → (Members.keys ms).Nodup)
    (hnumbers : ∀ n, .number n ∈ v.parts → n.ReadsAs (again n)) :
    v.ReadsAs esc (v.reread again) := by
  induction v using Value.induct with
  | null => exact readsBack_null
  | bool b => exact readsBack_bool b
  | number n => exact readsAs_number (hnumbers n (Value.mem_parts_self _))
  | string s => exact readsBack_string hesc s
  | array items ih =>
    refine readsAs_array fun v hv => ih v hv ?_ ?_
    · exact fun ms hms => hdistinct ms (Value.mem_parts_array hv hms)
    · exact fun n hn => hnumbers n (Value.mem_parts_array hv hn)
  | object ms ih =>
    refine readsAs_object hesc (hdistinct ms (Value.mem_parts_self _)) fun m hm => ih m hm ?_ ?_
    · exact fun ms hms => hdistinct ms (Value.mem_parts_object hm hms)
    · exact fun n hn => hnumbers n (Value.mem_parts_object hm hn)

theorem reread_some (v : Value) : v.reread some = some v := by
  induction v using Value.induct with
  | array items ih =>
    have hitems : rereadItems some items = some items := by
      induction items with
      | nil => rfl
      | cons v vs ihs =>
        obtain ⟨hv, hvs⟩ := List.forall_mem_cons.mp ih
        simp [rereadItems, hv, ihs hvs]
    rw [Value.reread, hitems]
    rfl
  | object ms ih =>
    have hmembers : rereadMembers some ms = some ms := by
      induction ms with
      | nil => rfl
      | cons m ms ihs =>
        obtain ⟨hm, hms⟩ := List.forall_mem_cons.mp ih
        simp [rereadMembers, hm, ihs hms]
    rw [Value.reread, hmembers]
    rfl
  | _ => rfl

theorem readsBack_of_parts (hesc : Unescapes esc) {v : Value}
    (hdistinct : ∀ ms, .object ms ∈ v.parts → (Members.keys ms).Nodup)
    (hnumbers : ∀ n, .number n ∈ v.parts → n.ReadsBack) : v.ReadsBack esc := by
  have hreads := readsAs_reread hesc hdistinct hnumbers
  rwa [reread_some] at hreads

theorem endOfText_blank {blank : List Char} (hblank : Blank blank) : endOfText blank = .ok () := by
  have hskip : skipSpace blank = [] := by
    rw [skipSpace, ← List.append_nil blank, List.dropWhile_append_of_pos hblank]
    rfl
  simp only [endOfText, hskip]

/-- Blanks may follow the text of a value. -/
theorem readText_of_readsAs {v : Value} {again : Option Value} (h : v.ReadsAs esc again)
    (hdepth : v.depth ≤ maxDepth) {blank : List Char} (hblank : Blank blank) :
    (readText (indented esc 0 v ++ blank)).toOption = again := by
  have hrest : EndsNumber blank := by simpa using endsNumber_blank hblank endsNumber_nil
  have hread := h.readValue_eq 0 (fuelFor (indented esc 0 v ++ blank)) maxDepth blank hdepth
    (by rw [fuelFor, List.length_append]; omega) hrest
  rw [readText, toOption_bind, hread]
  cases again with
  | none => rfl
  | some w =>
    simp only [Option.map_some, Option.bind_some, endOfText_blank hblank]
    rfl

theorem readText_of_readsBack {v : Value} (h : v.ReadsBack esc) (hdepth : v.depth ≤ maxDepth)
    {blank : List Char} (hblank : Blank blank) :
    readText (indented esc 0 v ++ blank) = .ok v :=
  toOption_eq_some_iff.mp (readText_of_readsAs h hdepth hblank)

end NotebookTidy.Json

namespace NotebookTidy.Notebook
open Json

theorem parse_of_readsBack {v : Value} (h : v.ReadsBack escapeAscii) (hdepth : v.depth ≤ maxDepth) :
    parse (render v) = .ok v := by
  have hnewline : Blank ['\n'] := blank_lineBreak 0
  rw [parse, Json.read, render, String.toList_ofList, readText_of_readsBack h hdepth hnewline]
  rfl

theorem parse_of_plain {v : Value} (h : v.Plain) : parse (render v) = .ok v := by
  refine parse_of_readsBack (readsBack_of_parts unescapes_escapeAscii h.distinct fun n hn => ?_)
    h.nesting
  obtain ⟨i, rfl, hl, hu⟩ := h.integers n hn
  exact readsBack_int hl hu

/-- **What is written of a notebook is read as the value that it was written from**, order of keys
and all, whatever its strings hold. -/
theorem parse_written {v : Value} (h : v.Plain) :
    ∃ text, written v = .ok text ∧ parse text = .ok v :=
  ⟨render v, written_eq v, parse_of_plain h⟩

/-- The bounds of the integers, text that has to be escaped in every way, and empty lists. -/
def awkwardNotebook : Value :=
  .object [
    ("\"\\\n\x00\x1f\x7f", .array [.number (.int (2 ^ 64 - 1)), .number (.int (-2 ^ 63)),
      .array [], .object [], .bool true]),
    ("é😀", .object [("/", .string "\x08\x0c\r\t 😀"), ("", .null)])]

theorem parse_written_awkward : awkwardNotebook.Plain ∧
    ∃ text, written awkwardNotebook = .ok text ∧ parse text = .ok awkwardNotebook := by
  have hplain : awkwardNotebook.Plain := by
    refine ⟨?_, ?_, by decide⟩
    · intro ms hms
      simp [awkwardNotebook, Value.parts, Value.partsOfItems, Value.partsOfMembers] at hms
      obtain rfl | rfl | rfl := hms <;> decide
    · intro n hn
      simp [awkwardNotebook, Value.parts, Value.partsOfItems, Value.partsOfMembers] at hn
      obtain rfl | rfl := hn
      · exact ⟨2 ^ 64 - 1, rfl, by decide, by decide⟩
      · exact ⟨-2 ^ 63, rfl, by decide, by decide⟩
  exact ⟨hplain, parse_written hplain⟩

end NotebookTidy.Notebook
