import NotebookTidy.Proofs.Json.Doubles
import NotebookTidy.Proofs.Json.RoundTrip

/-! Documents with the text of what is read of it.

The text of a value tells where each of its numbers ends, so two values that are alike but for
their numbers have one text only if their numbers have (`separates`); and then they do
(`reread_of_sameTexts`). So the text of a document and that of what is read of it are the same just
when the two texts of each of its numbers are (`render_reread_iff`). Integers are read as they are;
a double is steady if what is read of its text has the same text (`Steady`). Not every double is:
the reader rounds the digits, and then what comes of scaling them. -/
namespace NotebookTidy.Json

/-! ### Where a number ends -/

/-- What numbers are written with. -/
def InNumber (c : Char) : Prop := isDigit c = true ∨ c ∈ ['.', 'e', 'E', '+', '-']

theorem EndsNumber.not_inNumber {c : Char} {s : List Char} (h : EndsNumber (c :: s)) :
    ¬ InNumber c := by
  obtain ⟨hdigit, hother⟩ := h c s rfl
  rintro (hc | hc)
  · rw [hdigit] at hc
    cases hc
  · exact hother hc

theorem append_inj_of_endsNumber {text text' rest rest' : List Char}
    (htext : ∀ c ∈ text, InNumber c) (htext' : ∀ c ∈ text', InNumber c) (hrest : EndsNumber rest)
    (hrest' : EndsNumber rest') (h : text ++ rest = text' ++ rest') :
    text = text' ∧ rest = rest' := by
  induction text generalizing text' with
  | nil =>
    cases text' with
    | nil => exact ⟨rfl, h⟩
    | cons c cs =>
      rw [List.nil_append, List.cons_append] at h
      exact absurd (htext' c List.mem_cons_self) (h ▸ hrest).not_inNumber
  | cons c cs ih =>
    obtain ⟨hc, hcs⟩ := List.forall_mem_cons.mp htext
    cases text' with
    | nil =>
      rw [List.nil_append, List.cons_append] at h
      exact absurd hc (h.symm ▸ hrest').not_inNumber
    | cons d ds =>
      obtain ⟨rfl, htail⟩ := List.cons.inj h
      obtain ⟨rfl, hrests⟩ := ih hcs (List.forall_mem_cons.mp htext').2 htail
      exact ⟨rfl, hrests⟩

theorem inNumber_of_isDigit {c : Char} (h : c.isDigit = true) : InNumber c := by
  refine .inl ?_
  rw [isDigit, digit?_of_isDigit h]
  rfl

theorem inNumber_digitsOf (n : Nat) : ∀ c ∈ digitsOf n, InNumber c :=
  fun _ h => inNumber_of_isDigit (isDigit_of_mem_digitsOf h)

theorem inNumber_zeros (k : Nat) : ∀ c ∈ List.replicate k '0', InNumber c :=
  fun _ h => inNumber_of_isDigit (isDigit_of_mem_zeros h)

theorem inNumber_positional {ds : List Char} (hds : ∀ c ∈ ds, InNumber c) (x : Int) :
    ∀ c ∈ positional ds x, InNumber c := by
  have hpadded : ∀ k, ∀ c ∈ ds ++ List.replicate k '0', InNumber c := fun k =>
    List.forall_mem_append.mpr ⟨hds, inNumber_zeros k⟩
  rw [positional]
  split
  · refine List.forall_mem_cons.mpr ⟨.inl (by decide), List.forall_mem_cons.mpr ⟨.inr (by decide), ?_⟩⟩
    exact List.forall_mem_append.mpr ⟨inNumber_zeros _, hds⟩
  · refine List.forall_mem_append.mpr ⟨fun c hc => hpadded _ c (List.mem_of_mem_take hc),
      List.forall_mem_cons.mpr ⟨.inr (by decide), ?_⟩⟩
    split
    · exact List.forall_mem_singleton.mpr (.inl (by decide))
    · exact fun c hc => hpadded _ c (List.mem_of_mem_drop hc)

theorem inNumber_withExponent {ds : List Char} (hds : ∀ c ∈ ds, InNumber c) (x : Int) :
    ∀ c ∈ withExponent ds x, InNumber c := by
  have hsign : InNumber (if x < 0 then '-' else '+') := by split <;> exact .inr (by decide)
  have htail : ∀ c ∈ exponentText x, InNumber c :=
    List.forall_mem_cons.mpr ⟨.inr (by decide),
      List.forall_mem_cons.mpr ⟨hsign, inNumber_digitsOf _⟩⟩
  match ds, hds with
  | [], _ => exact htail
  | [d], hds => exact List.forall_mem_append.mpr ⟨hds, htail⟩
  | d :: e :: rest, hds =>
    obtain ⟨hd, hrest⟩ := List.forall_mem_cons.mp hds
    exact List.forall_mem_append.mpr ⟨List.forall_mem_cons.mpr
      ⟨hd, List.forall_mem_cons.mpr ⟨.inr (by decide), hrest⟩⟩, htail⟩

theorem inNumber_doubleText (x : Decimal.Double) : ∀ c ∈ doubleText x, InNumber c := by
  have hds : ∀ s, ∀ c ∈ significantDigits s, InNumber c := by
    intro s c hc
    obtain ⟨k, hk⟩ := significantDigits_append s
    exact inNumber_digitsOf _ c (hk ▸ List.mem_append_left _ hc)
  have hunsigned : ∀ c ∈ unsignedText x.magnitude, InNumber c := by
    rw [unsignedText]
    split
    · intro c hc
      simp only [List.mem_cons, List.not_mem_nil, or_false] at hc
      rcases hc with rfl | rfl | rfl
      · exact .inl (by decide)
      · exact .inr (by decide)
      · exact .inl (by decide)
    · rw [magnitudeText]
      split
      · exact inNumber_positional (hds _) _
      · exact inNumber_withExponent (hds _) _
  rw [doubleText_eq]
  split
  · exact List.forall_mem_cons.mpr ⟨.inr (by decide), hunsigned⟩
  · exact hunsigned

theorem inNumber_text (n : Number) : ∀ c ∈ n.text, InNumber c := by
  cases n with
  | int i =>
    rw [Number.text, intDigits]
    split
    · exact List.forall_mem_cons.mpr ⟨.inr (by decide), inNumber_digitsOf _⟩
    · exact inNumber_digitsOf _
  | float x => exact inNumber_doubleText x

/-! ### Values with the same text -/

/-- Every number in a value has the text that it has when it is read again. -/
def SameTexts (again : Number → Option Number) (v : Value) : Prop :=
  ∀ n, .number n ∈ v.parts → ∃ n', again n = some n' ∧ n'.text = n.text

variable {again : Number → Option Number} {esc : Char → List Char}

theorem sameTexts_array {items : List Value} :
    SameTexts again (.array items) ↔ ∀ v ∈ items, SameTexts again v := by
  constructor
  · exact fun h v hv n hn => h n (Value.mem_parts_array hv hn)
  · intro h n hn
    rcases Value.mem_parts_array_iff.mp hn with hself | ⟨v, hv, hn⟩
    · cases hself
    · exact h v hv n hn

theorem sameTexts_object {ms : List (String × Value)} :
    SameTexts again (.object ms) ↔ ∀ m ∈ ms, SameTexts again m.2 := by
  constructor
  · exact fun h m hm n hn => h n (Value.mem_parts_object hm hn)
  · intro h n hn
    rcases Value.mem_parts_object_iff.mp hn with hself | ⟨m, hm, hn⟩
    · cases hself
    · exact h m hm n hn

/-- If a value and what is read of it have the same text, up to where numbers end, then so have
their numbers. -/
def Separates (again : Number → Option Number) (esc : Char → List Char) (v : Value) : Prop :=
  ∀ w, v.reread again = some w → ∀ level rest rest', EndsNumber rest → EndsNumber rest' →
    indented esc level v ++ rest = indented esc level w ++ rest' → SameTexts again v ∧ rest = rest'

theorem separates_items {vs ws : List Value} (h : ∀ v ∈ vs, Separates again esc v)
    (hws : rereadItems again vs = some ws) (first : Bool) (level : Nat) {rest rest' : List Char}
    (hrest : EndsNumber rest) (hrest' : EndsNumber rest')
    (htext : listed first (indentedItems esc level vs) ++ rest =
      listed first (indentedItems esc level ws) ++ rest') :
    (∀ v ∈ vs, SameTexts again v) ∧ rest = rest' := by
  induction vs generalizing first ws with
  | nil =>
    cases hws
    exact ⟨fun _ hv => absurd hv List.not_mem_nil, htext⟩
  | cons v vs ih =>
    obtain ⟨hv, hvs⟩ := List.forall_mem_cons.mp h
    simp only [rereadItems, bind, Option.bind_eq_some_iff] at hws
    obtain ⟨w, hw, ws', hws', hws⟩ := hws
    cases hws
    simp only [indentedItems, listed, List.append_assoc, List.append_cancel_left_eq] at htext
    obtain ⟨hsame, hlater⟩ := hv w hw level _ _ (endsNumber_listed _ hrest)
      (endsNumber_listed _ hrest') htext
    obtain ⟨hsames, hend⟩ := ih hvs hws' false hlater
    exact ⟨List.forall_mem_cons.mpr ⟨hsame, hsames⟩, hend⟩

theorem separates_members {ms ns : List (String × Value)}
    (h : ∀ m ∈ ms, Separates again esc m.2) (hns : rereadMembers again ms = some ns)
    (first : Bool) (level : Nat) {rest rest' : List Char} (hrest : EndsNumber rest)
    (hrest' : EndsNumber rest') (htext : listed first (indentedMembers esc level ms) ++ rest =
      listed first (indentedMembers esc level ns) ++ rest') :
    (∀ m ∈ ms, SameTexts again m.2) ∧ rest = rest' := by
  induction ms generalizing first ns with
  | nil =>
    cases hns
    exact ⟨fun _ hm => absurd hm List.not_mem_nil, htext⟩
  | cons m ms ih =>
    obtain ⟨k, v⟩ := m
    obtain ⟨hv, hms⟩ := List.forall_mem_cons.mp h
    simp only [rereadMembers, bind, Option.bind_eq_some_iff] at hns
    obtain ⟨w, hw, ns', hns', hns⟩ := hns
    cases hns
    simp only [indentedMembers, listed, List.append_assoc, List.append_cancel_left_eq,
      List.cons_append, List.cons.injEq, true_and] at htext
    obtain ⟨hsame, hlater⟩ := hv w hw level _ _ (endsNumber_listed _ hrest)
      (endsNumber_listed _ hrest') htext
    obtain ⟨hsames, hend⟩ := ih hms hns' false hlater
    exact ⟨List.forall_mem_cons.mpr ⟨hsame, hsames⟩, hend⟩

theorem closingBreak_of_reread {items ws : List Value} (h : rereadItems again items = some ws)
    (level : Nat) : closingBreak level ws = closingBreak level items := by
  cases items with
  | nil =>
    cases h
    rfl
  | cons v vs =>
    simp only [rereadItems, bind, Option.bind_eq_some_iff] at h
    obtain ⟨w, _, ws', _, h⟩ := h
    cases h
    rfl

theorem closingBreak_of_rereadMembers {ms ns : List (String × Value)}
    (h : rereadMembers again ms = some ns) (level : Nat) :
    closingBreak level ns = closingBreak level ms := by
  cases ms with
  | nil =>
    cases h
    rfl
  | cons m ms =>
    simp only [rereadMembers, bind, Option.bind_eq_some_iff] at h
    obtain ⟨w, _, ns', _, h⟩ := h
    cases h
    rfl

theorem sameTexts_of_no_number {v : Value} (h : ∀ n, .number n ∉ v.parts) : SameTexts again v :=
  fun n hn => absurd hn (h n)

theorem separates (v : Value) : Separates again esc v := by
  induction v using Value.induct with
  | null =>
    rintro _ ⟨⟩ level rest rest' _ _ htext
    exact ⟨sameTexts_of_no_number (by simp [Value.parts]), List.append_cancel_left htext⟩
  | bool b =>
    rintro _ ⟨⟩ level rest rest' _ _ htext
    exact ⟨sameTexts_of_no_number (by simp [Value.parts]), List.append_cancel_left htext⟩
  | string s =>
    rintro _ ⟨⟩ level rest rest' _ _ htext
    exact ⟨sameTexts_of_no_number (by simp [Value.parts]), List.append_cancel_left htext⟩
  | number n =>
    intro w hw level rest rest' hrest hrest' htext
    obtain ⟨n', hn', rfl⟩ := Option.map_eq_some_iff.mp hw
    rw [indented, indented] at htext
    obtain ⟨hsame, hend⟩ :=
      append_inj_of_endsNumber (inNumber_text n) (inNumber_text n') hrest hrest' htext
    refine ⟨fun m hm => ?_, hend⟩
    obtain rfl : m = n := by simpa [Value.parts] using hm
    exact ⟨n', hn', hsame.symm⟩
  | array items ih =>
    intro w hw level rest rest' hrest hrest' htext
    obtain ⟨ws, hws, rfl⟩ := Option.map_eq_some_iff.mp hw
    have hends : ∀ tail, EndsNumber (closingBreak level items ++ ']' :: tail) := fun tail =>
      endsNumber_blank (blank_closingBreak level items)
        (endsNumber_cons (by decide) (by decide) tail)
    rw [indented_array, indented_array, closingBreak_of_reread hws] at htext
    simp only [List.cons_append, List.append_assoc, List.nil_append, List.cons.injEq,
      true_and] at htext
    obtain ⟨hsame, hend⟩ := separates_items ih hws true (level + 1) (hends _) (hends _) htext
    exact ⟨sameTexts_array.mpr hsame, (List.cons.inj (List.append_cancel_left hend)).2⟩
  | object ms ih =>
    intro w hw level rest rest' hrest hrest' htext
    obtain ⟨ns, hns, rfl⟩ := Option.map_eq_some_iff.mp hw
    have hends : ∀ tail, EndsNumber (closingBreak level ms ++ '\x7d' :: tail) := fun tail =>
      endsNumber_blank (blank_closingBreak level ms)
        (endsNumber_cons (by decide) (by decide) tail)
    rw [indented_object, indented_object, closingBreak_of_rereadMembers hns] at htext
    simp only [List.cons_append, List.append_assoc, List.nil_append, List.cons.injEq,
      true_and] at htext
    obtain ⟨hsame, hend⟩ := separates_members ih hns true (level + 1) (hends _) (hends _) htext
    exact ⟨sameTexts_object.mpr hsame, (List.cons.inj (List.append_cancel_left hend)).2⟩

/-! ### Values whose text is read as one with the same text -/

theorem rereadItems_of_same {vs : List Value} (h : ∀ v ∈ vs, ∃ w, v.reread again = some w ∧
      ∀ level, indented esc level w = indented esc level v) :
    ∃ ws, rereadItems again vs = some ws ∧
      ∀ level, indentedItems esc level ws = indentedItems esc level vs := by
  induction vs with
  | nil => exact ⟨[], rfl, fun _ => rfl⟩
  | cons v vs ih =>
    obtain ⟨⟨w, hw, hwtext⟩, hvs⟩ := List.forall_mem_cons.mp h
    obtain ⟨ws, hws, hwstext⟩ := ih hvs
    refine ⟨w :: ws, by simp [rereadItems, hw, hws], fun level => ?_⟩
    rw [indentedItems, indentedItems, hwtext, hwstext]

theorem rereadMembers_of_same {ms : List (String × Value)}
    (h : ∀ m ∈ ms, ∃ w, m.2.reread again = some w ∧
      ∀ level, indented esc level w = indented esc level m.2) :
    ∃ ns, rereadMembers again ms = some ns ∧
      ∀ level, indentedMembers esc level ns = indentedMembers esc level ms := by
  induction ms with
  | nil => exact ⟨[], rfl, fun _ => rfl⟩
  | cons m ms ih =>
    obtain ⟨k, v⟩ := m
    obtain ⟨⟨w, hw, hwtext⟩, hms⟩ := List.forall_mem_cons.mp h
    obtain ⟨ns, hns, hnstext⟩ := ih hms
    refine ⟨(k, w) :: ns, by simp [rereadMembers, hw, hns], fun level => ?_⟩
    rw [indentedMembers, indentedMembers, hwtext, hnstext]

theorem reread_of_sameTexts {v : Value} (h : SameTexts again v) :
    ∃ w, v.reread again = some w ∧ ∀ level, indented esc level w = indented esc level v := by
  induction v using Value.induct with
  | null => exact ⟨.null, rfl, fun _ => rfl⟩
  | bool b => exact ⟨.bool b, rfl, fun _ => rfl⟩
  | string s => exact ⟨.string s, rfl, fun _ => rfl⟩
  | number n =>
    obtain ⟨n', hn', htext⟩ := h n (Value.mem_parts_self _)
    exact ⟨.number n', by rw [Value.reread, hn', Option.map_some], fun level => by
      rw [indented, indented, htext]⟩
  | array items ih =>
    have hitems := sameTexts_array.mp h
    obtain ⟨ws, hws, htext⟩ := rereadItems_of_same fun v hv => ih v hv (hitems v hv)
    refine ⟨.array ws, by rw [Value.reread, hws, Option.map_some], fun level => ?_⟩
    rw [indented_array, indented_array, closingBreak_of_reread hws, htext]
  | object ms ih =>
    have hmembers := sameTexts_object.mp h
    obtain ⟨ns, hns, htext⟩ := rereadMembers_of_same fun m hm => ih m hm (hmembers m hm)
    refine ⟨.object ns, by rw [Value.reread, hns, Option.map_some], fun level => ?_⟩
    rw [indented_object, indented_object, closingBreak_of_rereadMembers hns, htext]

/-- What is read of the text of a double has the same text. -/
def Steady (x : Decimal.Double) : Prop := ∃ y, again? x = some y ∧ doubleText y = doubleText x

instance (x : Decimal.Double) : Decidable (Steady x) :=
  match h : again? x with
  | none => .isFalse fun ⟨y, hy, _⟩ => by simp [h] at hy
  | some y => decidable_of_iff (doubleText y = doubleText x) (by simp [Steady, h])

-- with the zero after the point, the digits are one too many for a double
example : ¬ Steady ⟨false, ⟨7500000000000004, 0⟩⟩ := by decide +kernel

theorem sameTexts_iff {v : Value} :
    SameTexts Number.again? v ↔ ∀ x, .number (.float x) ∈ v.parts → Steady x := by
  constructor
  · intro h x hx
    obtain ⟨n', hn', htext⟩ := h _ hx
    obtain ⟨y, hy, rfl⟩ := Option.map_eq_some_iff.mp hn'
    exact ⟨y, hy, htext⟩
  · intro h n hn
    cases n with
    | int i => exact ⟨.int i, rfl, rfl⟩
    | float x =>
      obtain ⟨y, hy, htext⟩ := h x hn
      exact ⟨.float y, by rw [Number.again?, hy, Option.map_some], htext⟩

end NotebookTidy.Json

namespace NotebookTidy.Notebook
open Json

/-- The text of a document that was read is read as the document with each of its numbers as
that is read. -/
theorem parse_render_iff {v w : Value} (h : v.Fits Number.Scanned maxDepth) :
    parse (render v) = .ok w ↔ v.reread Number.again? = some w := by
  have hnewline : Blank ['\n'] := blank_lineBreak 0
  have hreads := readsAs_reread unescapes_escapeAscii h.distinct fun n hn =>
    readsAs_of_scanned (h.numbers n hn)
  have hread := readText_of_readsAs hreads h.nesting hnewline
  rw [← hread, toOption_eq_some_iff, parse, Json.read, render, String.toList_ofList]
  cases readText (indented escapeAscii 0 v ++ ['\n']) <;> simp [Except.mapError]

/-- What is read of the text of a document has this text, too, just when this is so of each of its
numbers. -/
theorem render_reread_iff {v w : Value} (hw : v.reread Number.again? = some w) :
    render w = render v ↔ SameTexts Number.again? v := by
  rw [render, render, String.ofList_inj]
  constructor
  · intro htext
    have hends : EndsNumber ['\n'] := endsNumber_cons (by decide) (by decide) []
    exact (separates v w hw 0 _ _ hends hends htext.symm).1
  · intro hsame
    obtain ⟨w', hw', htext⟩ := reread_of_sameTexts hsame
    obtain rfl : w = w' := Option.some.inj (hw.symm.trans hw')
    rw [htext]

end NotebookTidy.Notebook
