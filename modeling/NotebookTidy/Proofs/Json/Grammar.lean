import NotebookTidy.Proofs.Json.RoundTrip

/-! The texts of JSON.

A document (`Doc`) is what a text says as far as JSON goes: the characters of its strings and the
members of its objects in the order they stand in, whereas numbers are left as they are written.
`Doc.Writes` is the grammar: which texts say a document, with blanks around every piece, and each
character of a string escaped in any way. A text is made of one value more at a time, so that what
holds of all texts is shown by induction on how they are written.

Strings are read as what they say (`stringRest_of_isLiteral`). The compact text of a value is one of
its texts (`writes_compact`). -/
namespace NotebookTidy.Json

/-! ### Numbers -/

def Digits (ds : List Char) : Prop := ds ≠ [] ∧ ∀ c ∈ ds, isDigit c = true

/-- The digits before the point: no zero stands in front of others. -/
inductive IsWhole : List Char → Prop where
  | zero : IsWhole ['0']
  | digits {d : Char} {ds : List Char} (first : isDigit d = true) (nonzero : d ≠ '0')
      (others : ∀ c ∈ ds, isDigit c = true) : IsWhole (d :: ds)

inductive IsFraction : List Char → Prop where
  | none : IsFraction []
  | digits {ds : List Char} (h : Digits ds) : IsFraction ('.' :: ds)

inductive IsExponent : List Char → Prop where
  | none : IsExponent []
  | digits {e : Char} {sign ds : List Char} (he : e = 'e' ∨ e = 'E')
      (hsign : sign = [] ∨ sign = ['+'] ∨ sign = ['-']) (h : Digits ds) :
      IsExponent (e :: (sign ++ ds))

inductive IsUnsigned : List Char → Prop where
  | mk {whole fraction exponent : List Char} (hwhole : IsWhole whole)
      (hfraction : IsFraction fraction) (hexponent : IsExponent exponent) :
      IsUnsigned (whole ++ (fraction ++ exponent))

inductive IsNumber : List Char → Prop where
  | unsigned {text : List Char} (h : IsUnsigned text) : IsNumber text
  | negative {text : List Char} (h : IsUnsigned text) : IsNumber ('-' :: text)

/-! ### Strings -/

/-- The characters of a string, and what stands for them between its quotes. -/
inductive IsLiteral : List Char → List Char → Prop where
  | nil : IsLiteral [] []
  | plain {c : Char} {cs text : List Char} (hquote : c ≠ '"') (hbackslash : c ≠ '\\')
      (hcontrol : ¬ c.toNat < 0x20) (h : IsLiteral cs text) : IsLiteral (c :: cs) (c :: text)
  | letter {letter c : Char} {cs text : List Char} (hletter : letterEscape? letter = some c)
      (h : IsLiteral cs text) : IsLiteral (c :: cs) ('\\' :: letter :: text)
  | unit {digits : List Char} {n : Nat} {cs text : List Char} (hdigits : hexNumber? digits = some n)
      (hn : ¬ (0xd800 ≤ n ∧ n ≤ 0xdfff)) (h : IsLiteral cs text) :
      IsLiteral (Char.ofNat n :: cs) ('\\' :: 'u' :: (digits ++ text))
  /-- The two halves of a character beyond U+FFFF. -/
  | pair {digits digits' : List Char} {high low : Nat} {cs text : List Char}
      (hdigits : hexNumber? digits = some high) (hdigits' : hexNumber? digits' = some low)
      (hhigh : 0xd800 ≤ high ∧ high ≤ 0xdbff) (hlow : 0xdc00 ≤ low ∧ low ≤ 0xdfff)
      (h : IsLiteral cs text) :
      IsLiteral (Char.ofNat ((high - 0xd800) * 1024 + (low - 0xdc00) + 0x10000) :: cs)
        ('\\' :: 'u' :: (digits ++ '\\' :: 'u' :: (digits' ++ text)))

theorem stringBody_of_isLiteral {cs text : List Char} (h : IsLiteral cs text)
    (read rest : List Char) :
    stringBody read 0 (text ++ '"' :: rest) = .ok (cs.reverse ++ read, rest) := by
  induction h generalizing read with
  | nil => simp [stringBody]
  | plain hquote hbackslash hcontrol _ ih =>
    rw [List.reverse_cons, List.append_assoc]
    exact (stringBody_plain hquote hbackslash hcontrol read _).trans (ih _)
  | letter hletter _ ih =>
    rw [List.reverse_cons, List.append_assoc]
    exact (stringBody_letter hletter read _).trans (ih _)
  | unit hdigits hn _ ih =>
    have hunit := stringBody_unit hdigits hn read
    simp only [List.cons_append] at hunit
    rw [List.reverse_cons, List.append_assoc, List.cons_append, List.cons_append,
      List.append_assoc, hunit, ih]
    rfl
  | pair hdigits hdigits' hhigh hlow _ ih =>
    have hpair := stringBody_pair hdigits hdigits' hhigh hlow read
    simp only [List.cons_append, List.append_assoc] at hpair
    simp only [List.reverse_cons, List.append_assoc, List.cons_append, hpair, ih, List.nil_append]

theorem stringRest_of_isLiteral {s : String} {text : List Char} (h : IsLiteral s.toList text)
    (rest : List Char) : stringRest (text ++ '"' :: rest) = .ok (s, rest) := by
  rw [stringRest, stringBody_of_isLiteral h]
  simp [bind, Except.bind]

/-- Characters are written as themselves, or as the escapes that they need. -/
theorem isLiteral_escape (cs : List Char) : IsLiteral cs (cs.flatMap escape) := by
  induction cs with
  | nil => exact .nil
  | cons c cs ih =>
    rw [List.flatMap_cons, escape]
    iterate 7
      split
      · next h =>
        subst h
        exact .letter (by decide) ih
    split
    · next hcontrol =>
      have hunit := IsLiteral.unit (hexNumber?_unitDigits (by omega : c.toNat < 65536)) (by omega) ih
      rwa [Char.ofNat_toNat] at hunit
    · next hquote hbackslash _ _ _ _ _ hcontrol => exact .plain hquote hbackslash hcontrol ih

/-! ### Documents -/

/-- What a JSON text says. Numbers are left as they are written, and nothing is said of keys that
are there twice. -/
inductive Doc where
  | null
  | bool (b : Bool)
  | number (text : List Char)
  | string (s : String)
  | array (items : List Doc)
  | object (members : List (String × Doc))

/-- An item of an array as it is written, between blanks. -/
structure Item where
  value : Doc
  lead : List Char
  text : List Char
  tail : List Char

/-- A member of an object as it is written: blanks, the key between quotes, blanks, and its value. -/
structure Member where
  key : String
  before : List Char
  literal : List Char
  after : List Char
  item : Item

namespace Item

def chars (i : Item) : List Char := i.lead ++ (i.text ++ i.tail)

structure Spaced (i : Item) : Prop where
  lead : Blank i.lead
  tail : Blank i.tail

end Item

namespace Member

def chars (m : Member) : List Char :=
  m.before ++ ('"' :: (m.literal ++ ('"' :: (m.after ++ (':' :: m.item.chars)))))

/-- The key and the value. -/
def said (m : Member) : String × Doc := (m.key, m.item.value)

structure Spaced (m : Member) : Prop where
  before : Blank m.before
  after : Blank m.after
  item : m.item.Spaced

end Member

def arrayText (items : List Item) (blank : List Char) : List Char :=
  '[' :: (listed true (items.map Item.chars) ++ (blank ++ [']']))

def objectText (ms : List Member) (blank : List Char) : List Char :=
  '{' :: (listed true (ms.map Member.chars) ++ (blank ++ ['\x7d']))

/-- The texts that say a document, without the blanks around them. -/
inductive Doc.Writes : Doc → List Char → Prop where
  | null : Writes .null nullText
  | bool (b : Bool) : Writes (.bool b) (boolText b)
  | number {text : List Char} (h : IsNumber text) : Writes (.number text) text
  | string {s : String} {text : List Char} (h : IsLiteral s.toList text) :
      Writes (.string s) ('"' :: (text ++ ['"']))
  | array {items : List Item} {blank : List Char} (spaced : ∀ i ∈ items, i.Spaced)
      (written : ∀ i ∈ items, Writes i.value i.text) (hblank : Blank blank) :
      Writes (.array (items.map Item.value)) (arrayText items blank)
  | object {ms : List Member} {blank : List Char} (spaced : ∀ m ∈ ms, m.Spaced)
      (named : ∀ m ∈ ms, IsLiteral m.key.toList m.literal)
      (written : ∀ m ∈ ms, Writes m.item.value m.item.text) (hblank : Blank blank) :
      Writes (.object (ms.map Member.said)) (objectText ms blank)

structure Item.Written (i : Item) : Prop where
  spaced : i.Spaced
  value : i.value.Writes i.text

structure Member.Written (m : Member) : Prop where
  spaced : m.Spaced
  key : IsLiteral m.key.toList m.literal
  value : m.item.value.Writes m.item.text

theorem writes_array {items : List Item} {blank : List Char} (h : ∀ i ∈ items, i.Written)
    (hblank : Blank blank) : (Doc.array (items.map Item.value)).Writes (arrayText items blank) :=
  .array (fun i hi => (h i hi).spaced) (fun i hi => (h i hi).value) hblank

theorem writes_object {ms : List Member} {blank : List Char} (h : ∀ m ∈ ms, m.Written)
    (hblank : Blank blank) : (Doc.object (ms.map Member.said)).Writes (objectText ms blank) :=
  .object (fun m hm => (h m hm).spaced) (fun m hm => (h m hm).key) (fun m hm => (h m hm).value) hblank

/-- A text that says a document, with blanks around it. -/
def Doc.SaidIn (doc : Doc) (text : String) : Prop :=
  ∃ lead written tail, Blank lead ∧ doc.Writes written ∧ Blank tail ∧
    text.toList = lead ++ (written ++ tail)

/-! ### The compact text of a value -/

mutual
/-- What the text of a value says. -/
def Value.doc : Value → Doc
  | .null => .null
  | .bool b => .bool b
  | .number n => .number n.text
  | .string s => .string s
  | .array items => .array (docsOfItems items)
  | .object ms => .object (docsOfMembers ms)

def docsOfItems : List Value → List Doc
  | [] => []
  | v :: vs => v.doc :: docsOfItems vs

def docsOfMembers : List (String × Value) → List (String × Doc)
  | [] => []
  | (k, v) :: ms => (k, v.doc) :: docsOfMembers ms
end

/-- An item without blanks. -/
def compactItem (v : Value) : Item := ⟨v.doc, [], compact escape v, []⟩

def compactMember (m : String × Value) : Member :=
  ⟨m.1, [], m.1.toList.flatMap escape, [], compactItem m.2⟩

theorem compactItem_spaced (v : Value) : (compactItem v).Spaced := ⟨blank_nil, blank_nil⟩

theorem compactMember_spaced (m : String × Value) : (compactMember m).Spaced :=
  ⟨blank_nil, blank_nil, compactItem_spaced m.2⟩

theorem docsOfItems_eq (vs : List Value) :
    docsOfItems vs = (vs.map compactItem).map Item.value := by
  induction vs with
  | nil => rfl
  | cons v vs ih =>
    rw [docsOfItems, ih]
    rfl

theorem docsOfItems_eq_map (vs : List Value) : docsOfItems vs = vs.map Value.doc := by
  rw [docsOfItems_eq, List.map_map]
  rfl

theorem docsOfMembers_eq (ms : List (String × Value)) :
    docsOfMembers ms = (ms.map compactMember).map Member.said := by
  induction ms with
  | nil => rfl
  | cons m ms ih =>
    rw [docsOfMembers, ih]
    rfl

theorem compactItems_eq (vs : List Value) :
    compactItems escape vs = (vs.map compactItem).map Item.chars := by
  induction vs with
  | nil => rfl
  | cons v vs ih => simp [compactItems, ih, Item.chars, compactItem]

theorem compactMembers_eq (ms : List (String × Value)) :
    compactMembers escape ms = (ms.map compactMember).map Member.chars := by
  induction ms with
  | nil => rfl
  | cons m ms ih =>
    simp [compactMembers, ih, Member.chars, Item.chars, compactMember, compactItem, quoted]

theorem compact_array (vs : List Value) :
    compact escape (.array vs) = arrayText (vs.map compactItem) [] := by
  rw [compact, separated_eq, compactItems_eq]
  rfl

theorem compact_object (ms : List (String × Value)) :
    compact escape (.object ms) = objectText (ms.map compactMember) [] := by
  rw [compact, separated_eq, compactMembers_eq]
  rfl

theorem writes_compact {v : Value} (hnumbers : ∀ n, .number n ∈ v.parts → IsNumber n.text) :
    v.doc.Writes (compact escape v) := by
  induction v using Value.induct with
  | null => exact .null
  | bool b => exact .bool b
  | number n => exact .number (hnumbers n (Value.mem_parts_self _))
  | string s => exact .string (isLiteral_escape s.toList)
  | array vs ih =>
    rw [Value.doc, docsOfItems_eq, compact_array]
    refine writes_array (List.forall_mem_map.mpr fun v hv => ?_) blank_nil
    exact ⟨compactItem_spaced v, ih v hv fun n hn => hnumbers n (Value.mem_parts_array hv hn)⟩
  | object ms ih =>
    rw [Value.doc, docsOfMembers_eq, compact_object]
    refine writes_object (List.forall_mem_map.mpr fun m hm => ?_) blank_nil
    exact ⟨compactMember_spaced m, isLiteral_escape m.1.toList,
      ih m hm fun n hn => hnumbers n (Value.mem_parts_object hm hn)⟩

theorem saidIn_compact {v : Value} (hnumbers : ∀ n, .number n ∈ v.parts → IsNumber n.text) :
    v.doc.SaidIn (String.ofList (compact escape v)) := by
  refine ⟨[], compact escape v, [], blank_nil, writes_compact hnumbers, blank_nil, ?_⟩
  rw [String.toList_ofList, List.append_nil, List.nil_append]

end NotebookTidy.Json
