import Mathlib.Logic.Relation
import NotebookTidy.Proofs.Config.Parts
import NotebookTidy.Proofs.Config.Support

/-! Configs that are given as texts.

What an object says of a config does not change when its members change places, when members with
other keys come or go, or when the same happens inside a command (`ConfigChange`). One change leaves
what is said as it is (`Draft.SaidBy.change`), and so do any number of them (`Draft.SaidBy.changes`).
With what every text of an object is read as (`readJson_of_saidBy`), configs merge with the
standard one part by part (`text_fills_in`), and a config is what its own text gives
(`text_loads_back`). -/
namespace NotebookTidy.Config
open Json Files

/-! ### Changes of no account -/

/-- A change of an object of which only some keys are known. Values may be changed inside. -/
inductive Change (known : List String) (Inside : Doc → Doc → Prop) :
    (before after : List (String × Doc)) → Prop where
  | order {ms ms' : List (String × Doc)} (h : ms.Perm ms') : Change known Inside ms ms'
  | added {key : String} {value : Doc} {ms : List (String × Doc)} (unknown : key ∉ known)
      (new : key ∉ ms.map Prod.fst) : Change known Inside ms ((key, value) :: ms)
  | removed {key : String} {value : Doc} {ms : List (String × Doc)} (unknown : key ∉ known) :
      Change known Inside ((key, value) :: ms) ms
  | inside {key : String} {value value' : Doc} {ms : List (String × Doc)}
      (h : Inside value value') : Change known Inside ((key, value) :: ms) ((key, value') :: ms)

/-- A change of a command, or of one in a list. -/
inductive CommandChange : (before after : Doc) → Prop where
  | object {ms ms' : List (String × Doc)}
      (h : Change ["program", "args"] (fun _ _ => False) ms ms') :
      CommandChange (.object ms) (.object ms')
  | item {front back : List Doc} {value value' : Doc} (h : CommandChange value value') :
      CommandChange (.array (front ++ value :: back)) (.array (front ++ value' :: back))

def ConfigChange : (before after : List (String × Doc)) → Prop :=
  Change ["python", "julia", "julia_probe", "mask_magics"] CommandChange

section Change
variable {α : Type} {known : List String} {Inside : Doc → Doc → Prop} {ms ms' : List (String × Doc)}

theorem Change.distinct (h : Change known Inside ms ms') (hms : (ms.map Prod.fst).Nodup) :
    (ms'.map Prod.fst).Nodup := by
  cases h with
  | order h => exact (h.map Prod.fst).nodup_iff.mp hms
  | added unknown new => exact List.nodup_cons.mpr ⟨new, hms⟩
  | removed unknown => exact (List.nodup_cons.mp hms).2
  | inside h => exact hms

/-- What is said under a known key is said after the change. -/
theorem SaidUnder.change {Means : α → Doc → Prop} {key : String} {a : Option α}
    (hsaid : SaidUnder Means key ms a) (h : Change known Inside ms ms') (hknown : key ∈ known)
    (hinside : ∀ a value value', Means a value → Inside value value' → Means a value') :
    SaidUnder Means key ms' a := by
  cases h with
  | order h =>
    cases hsaid with
    | missing hmissing => exact .missing fun hmem => hmissing ((h.map Prod.fst).mem_iff.mpr hmem)
    | given member meant => exact .given (h.mem_iff.mp member) meant
  | @added key' value ms unknown new =>
    cases hsaid with
    | missing hmissing =>
      refine .missing fun hmem => ?_
      obtain rfl | hmem := List.mem_cons.mp hmem
      · exact unknown hknown
      · exact hmissing hmem
    | given member meant => exact .given (List.mem_cons_of_mem _ member) meant
  | @removed key' value ms unknown =>
    cases hsaid with
    | missing hmissing => exact .missing fun hmem => hmissing (List.mem_cons_of_mem _ hmem)
    | given member meant =>
      obtain heq | member := List.mem_cons.mp member
      · obtain rfl : key = key' := congrArg Prod.fst heq
        exact absurd hknown unknown
      · exact .given member meant
  | @inside key' value value' ms h =>
    cases hsaid with
    | missing hmissing => exact .missing hmissing
    | given member meant =>
      obtain heq | member := List.mem_cons.mp member
      · cases heq
        exact .given List.mem_cons_self (hinside _ _ _ meant h)
      · exact .given (List.mem_cons_of_mem _ member) meant

end Change

theorem MeansCommand.change {c : Command} {value value' : Doc} (hmeans : MeansCommand c value)
    (h : CommandChange value value') : MeansCommand c value' := by
  cases hmeans with
  | object hdistinct hprogram hargs =>
    cases h with
    | object h =>
      refine .object (h.distinct hdistinct) ?_ ?_
      · exact hprogram.change h (by decide) fun _ _ _ _ => False.elim
      · exact hargs.change h (by decide) fun _ _ _ _ => False.elim

/-- Lists stay related when one item is put in place of another. -/
theorem forall₂_replace {α β : Type} {R : α → β → Prop} {as : List α} {front back : List β}
    {b b' : β} (h : List.Forall₂ R as (front ++ b :: back)) (hb : ∀ a, R a b → R a b') :
    List.Forall₂ R as (front ++ b' :: back) := by
  induction front generalizing as with
  | nil =>
    cases h with
    | cons ha h => exact .cons (hb _ ha) h
  | cons f front ih =>
    cases h with
    | cons ha h => exact .cons ha (ih h)

theorem meansCommands_change {cs : List Command} {value value' : Doc}
    (hmeans : MeansList MeansCommand cs value) (h : CommandChange value value') :
    MeansList MeansCommand cs value' := by
  obtain ⟨values, rfl, hvalues⟩ := hmeans
  cases h with
  | item h => exact ⟨_, rfl, forall₂_replace hvalues fun c hc => hc.change h⟩

theorem meansBool_change {b : Bool} {value value' : Doc} (hmeans : MeansBool b value)
    (h : CommandChange value value') : MeansBool b value' := by
  rw [MeansBool] at hmeans
  subst hmeans
  cases h

theorem Draft.SaidBy.change {d : Draft} {ms ms' : List (String × Doc)} (hd : d.SaidBy ms)
    (h : ConfigChange ms ms') : d.SaidBy ms' where
  distinct := Change.distinct h hd.distinct
  python := hd.python.change h (by decide) fun _ _ _ => meansCommands_change
  julia := hd.julia.change h (by decide) fun _ _ _ => MeansCommand.change
  juliaProbe := hd.juliaProbe.change h (by decide) fun _ _ _ => MeansCommand.change
  maskMagics := hd.maskMagics.change h (by decide) fun _ _ _ => meansBool_change

theorem Draft.SaidBy.changes {d : Draft} {ms ms' : List (String × Doc)} (hd : d.SaidBy ms)
    (h : Relation.ReflTransGen ConfigChange ms ms') : d.SaidBy ms' := by
  induction h with
  | refl => exact hd
  | tail _ hstep ih => exact ih.change hstep

/-! ### Loading -/

section Loading
variable (toml : String → Option Config) (support : Support) (t : Tree)

theorem loadWith_of_saidBy {d : Draft} {ms : List (String × Doc)} {given : String}
    (hms : d.SaidBy ms) (hgiven : (Doc.object ms).SaidIn given)
    (hnone : t.pathExists (Path.ofString given) = false) :
    loadWith toml support t given = .ok d.complete := by
  rw [loadWith, if_neg (by simp [hnone])]
  exact fromText_of_json toml (readJson_of_saidBy hms hgiven) support

/-- **Configs merge with the standard one part by part.** Of every text that is no path and says
some parts of a config, under distinct keys, in any order, and with anything under other keys, the
config is made that has these parts, and all others as they are in the standard config. Every text of
what is left after any number of changes of no account gives the same config. -/
theorem text_fills_in {d : Draft} {ms : List (String × Doc)} {given : String} (hms : d.SaidBy ms)
    (hgiven : (Doc.object ms).SaidIn given) (hnone : t.pathExists (Path.ofString given) = false) :
    loadWith toml support t given =
        .ok ⟨d.python.getD standard.python, d.julia.getD standard.julia,
          d.juliaProbe.getD standard.juliaProbe, d.maskMagics.getD standard.maskMagics⟩ ∧
      ∀ ms' given', Relation.ReflTransGen ConfigChange ms ms' → (Doc.object ms').SaidIn given' →
        t.pathExists (Path.ofString given') = false →
        loadWith toml support t given' = loadWith toml support t given := by
  have hload := loadWith_of_saidBy toml support t hms hgiven hnone
  refine ⟨hload, fun ms' given' hchanges hgiven' hnone' => ?_⟩
  rw [hload]
  exact loadWith_of_saidBy toml support t (hms.changes hchanges) hgiven' hnone'

end Loading

/-- A formatter for Julia without arguments, no masking, and a member that is not known. -/
def sparse : Value :=
  .object [("x", .array [.null]), ("julia", .object [("program", .string "jl")]),
    ("mask_magics", .bool false)]

/-- The same in another order. The unknown member is gone, and the command has one. -/
def rearranged : Value :=
  .object [("mask_magics", .bool false),
    ("julia", .object [("why", .string "\n"), ("program", .string "jl")])]

theorem text_fills_in_sparse :
    load .jsonOnly ⟨[], []⟩ (String.ofList (compact escape sparse)) =
        .ok ⟨standardPython, ⟨"jl", []⟩, standardJuliaProbe, false⟩ ∧
      load .jsonOnly ⟨[], []⟩ (String.ofList (compact escape rearranged)) =
        load .jsonOnly ⟨[], []⟩ (String.ofList (compact escape sparse)) := by
  have hprogram : SaidUnder MeansString "program" [("program", .string "jl")] (some "jl") :=
    .given List.mem_cons_self rfl
  have hjulia : MeansCommand ⟨"jl", []⟩ (.object [("program", .string "jl")]) :=
    .object (by decide) hprogram (.missing (by decide))
  have hsaid : Draft.SaidBy ⟨none, some ⟨"jl", []⟩, none, some false⟩
      [("x", .array [.null]), ("julia", .object [("program", .string "jl")]),
        ("mask_magics", .bool false)] :=
    { distinct := by decide
      python := .missing (by decide)
      julia := .given (by simp) hjulia
      juliaProbe := .missing (by decide)
      maskMagics := .given (by simp) rfl }
  have hchanges : Relation.ReflTransGen ConfigChange
      [("x", .array [.null]), ("julia", .object [("program", .string "jl")]),
        ("mask_magics", .bool false)]
      [("mask_magics", .bool false),
        ("julia", .object [("why", .string "\n"), ("program", .string "jl")])] := by
    refine .tail (.tail (.single (.removed (by decide))) (.inside ?_)) (.order (.swap _ _ _))
    exact .object (.added (by decide) (by decide))
  have hsparse : sparse.doc.SaidIn (String.ofList (compact escape sparse)) :=
    saidIn_compact (by simp [sparse, Value.parts, Value.partsOfMembers, Value.partsOfItems])
  have hrearranged : rearranged.doc.SaidIn (String.ofList (compact escape rearranged)) :=
    saidIn_compact (by simp [rearranged, Value.parts, Value.partsOfMembers])
  obtain ⟨hload, hsame⟩ := text_fills_in readToml? .jsonOnly ⟨[], []⟩ hsaid hsparse
    (by decide +kernel)
  exact ⟨hload, hsame _ _ hchanges hrearranged (by decide +kernel)⟩

/-! ### The text of a config -/

theorem meansList_map {α : Type} {Means : α → Doc → Prop} {f : α → Value}
    (h : ∀ a, Means a (f a).doc) (as : List α) :
    MeansList Means as (Value.array (as.map f)).doc := by
  refine ⟨_, rfl, ?_⟩
  rw [docsOfItems_eq_map, List.map_map]
  exact List.forall₂_map_right_iff.mpr (List.forall₂_same.mpr fun a _ => h a)

theorem meansString_doc (s : String) : MeansString s (Value.string s).doc := rfl

theorem meansCommand_toJson (c : Command) : MeansCommand c c.toJson.doc := by
  have hprogram : SaidUnder MeansString "program" (docsOfMembers
      [("program", .string c.program), ("args", .array (c.args.map .string))]) (some c.program) :=
    .given List.mem_cons_self rfl
  have hargs : SaidUnder (MeansList MeansString) "args" (docsOfMembers
      [("program", .string c.program), ("args", .array (c.args.map .string))]) (some c.args) :=
    .given (List.mem_cons_of_mem _ List.mem_cons_self) (meansList_map meansString_doc c.args)
  exact .object (by simp [docsOfMembers]) hprogram hargs

/-- Every part of a config is in its text. -/
theorem saidBy_toJson (c : Config) :
    Draft.SaidBy ⟨some c.python, some c.julia, some c.juliaProbe, some c.maskMagics⟩
      (docsOfMembers
        [("python", .array (c.python.map Command.toJson)), ("julia", c.julia.toJson),
          ("julia_probe", c.juliaProbe.toJson), ("mask_magics", .bool c.maskMagics)]) where
  distinct := by simp [docsOfMembers]
  python := .given (by simp [docsOfMembers]) (meansList_map meansCommand_toJson c.python)
  julia := .given (by simp [docsOfMembers]) (meansCommand_toJson c.julia)
  juliaProbe := .given (by simp [docsOfMembers]) (meansCommand_toJson c.juliaProbe)
  maskMagics := .given (by simp [docsOfMembers, Value.doc]) rfl

theorem number_notMem_command (n : Number) (c : Command) : .number n ∉ c.toJson.parts := by
  have hstring : ∀ s, .number n ∉ (Value.string s).parts := fun s => by simp [Value.parts]
  simp [Command.toJson, Value.mem_parts_object_iff, Value.mem_parts_array_iff, hstring]

theorem number_notMem_config (n : Number) (c : Config) : .number n ∉ c.toJson.parts := by
  have hbool : .number n ∉ (Value.bool c.maskMagics).parts := by simp [Value.parts]
  simp [Config.toJson, Value.mem_parts_object_iff, Value.mem_parts_array_iff,
    number_notMem_command, hbool]

theorem saidIn_text (c : Config) : c.toJson.doc.SaidIn c.text :=
  saidIn_compact fun n hn => absurd hn (number_notMem_config n c)

/-- **A config is what its own text gives**, whatever characters its programs and arguments have, if
there is nothing at the path of that text. -/
theorem text_loads_back (toml : String → Option Config) (support : Support) (t : Tree) (c : Config)
    (hnone : t.pathExists (Path.ofString c.text) = false) :
    loadWith toml support t c.text = .ok c :=
  loadWith_of_saidBy toml support t (saidBy_toJson c) (saidIn_text c) hnone

/-- Two steps, one of them with a quote, a backslash, a line break, and characters below U+0020 and
beyond U+FFFF in its arguments. -/
def awkward : Config :=
  ⟨[⟨"a\"b", ["c\\d", "\n\x00", "é😀", ""]⟩, ⟨"", []⟩], ⟨"j", []⟩, ⟨"p", ["'"]⟩, false⟩

theorem text_loads_back_awkward :
    load .jsonOnly ⟨[], []⟩ awkward.text = .ok awkward ∧
      load .jsonAndToml ⟨[], []⟩ awkward.text = .ok awkward := by
  have hnone : Tree.pathExists ⟨[], []⟩ (Path.ofString awkward.text) = false := by decide +kernel
  exact ⟨text_loads_back _ _ _ _ hnone, text_loads_back _ _ _ _ hnone⟩

end NotebookTidy.Config
