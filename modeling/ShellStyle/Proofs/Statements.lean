import ShellStyle.Proofs.Encoded
import ShellStyle.Proofs.Keys

/-! The statements of a document, and the one list of texts that it may consist of. A header and a dotted key
leave a table under their first name, and later statements keep it one, so such a list is written by a single
statement with a single name. -/
namespace ShellStyle.Toml

def Value.isLeaf : Value → Bool
  | .array _ | .tables _ | .table .. => false
  | _ => true

def Value.isBranch : Value → Bool
  | .tables _ | .table .. => true
  | _ => false

def Draft.Simple : Draft → Prop
  | .scalar (some value) => value.isLeaf = true
  | _ => True

theorem Scalar.scalarLeaf {cs : List Char} {value : Value} (h : scalar? cs = some value) :
    value.isLeaf = true := by
  unfold scalar? at h
  split at h
  · cases h
    rfl
  split at h
  · cases h
    rfl
  split at h
  · cases h
    rfl
  split at h
  · cases h
    rfl
  · obtain ⟨literal, _, rfl⟩ := Option.map_eq_some_iff.mp h
    rfl

theorem Draft.settleCases {draft : Draft} {value : Value} (settled : draft.settle = .ok value) :
    draft = .scalar (some value) ∨
    (∃ items values, draft = .array items ∧ settleAll items = .ok values ∧ value = .array values) ∨
    ∃ entries fields, draft = .table entries ∧ value = .table .inline fields := by
  cases draft with
  | scalar found =>
    cases found with
    | none => cases settled
    | some found =>
      cases settled
      exact .inl rfl
  | array items =>
    rw [settle] at settled
    obtain ⟨values, read, same⟩ := bindOk.mp settled
    exact .inr (.inl ⟨items, values, rfl, read, (Except.ok.inj same).symm⟩)
  | table entries =>
    rw [settle] at settled
    obtain ⟨fields, _, same⟩ := bindOk.mp settled
    exact .inr (.inr ⟨entries, fields, rfl, (Except.ok.inj same).symm⟩)

theorem Draft.settleArray {draft : Draft} {values : List (Placed Value)} (simple : draft.Simple)
    (settled : draft.settle = .ok (.array values)) :
    ∃ items, draft = .array items ∧ settleAll items = .ok values := by
  rcases settleCases settled with rfl | ⟨items, found, rfl, read, same⟩ | ⟨entries, fields, rfl, same⟩
  · cases simple
  · cases same
    exact ⟨items, rfl, read⟩
  · cases same

theorem Draft.settleTables {draft : Draft} {items : List (Placed Fields)} (simple : draft.Simple)
    (settled : draft.settle = .ok (.tables items)) : False := by
  rcases settleCases settled with rfl | ⟨_, _, _, _, same⟩ | ⟨_, _, _, same⟩
  · cases simple
  · cases same
  · cases same

theorem Draft.settleString {draft : Draft} {text : String} (settled : draft.settle = .ok (.string text)) :
    draft = .scalar (some (.string text)) := by
  rcases settleCases settled with rfl | ⟨_, _, _, _, same⟩ | ⟨_, _, _, same⟩
  · rfl
  · cases same
  · cases same

theorem settleStrings {items : List (Placed Draft)} {values : List (Placed Value)} {texts : List String}
    (settled : settleAll items = .ok values) :
    values.map (·.value) = texts.map .string ↔
      items.map (·.value) = texts.map fun text => .scalar (some (.string text)) := by
  induction items generalizing values texts with
  | nil =>
    rw [settleAll] at settled
    cases settled
    cases texts <;> simp
  | cons item rest ih =>
    obtain ⟨left, draft⟩ := item
    rw [settleAll] at settled
    obtain ⟨value, first, settled⟩ := bindOk.mp settled
    obtain ⟨others, later, same⟩ := bindOk.mp settled
    cases same
    cases texts with
    | nil => simp
    | cons text more =>
      simp only [List.map_cons, List.cons.injEq, ih later]
      refine and_congr_left fun _ => ⟨?_, ?_⟩
      · rintro rfl
        exact Draft.settleString first
      · rintro rfl
        rw [Draft.settle] at first
        exact (Except.ok.inj first).symm

namespace Document

theorem leafSimple {cs rest : List Char} {draft : Draft} (h : leaf cs = some (draft, rest)) :
    draft.Simple := by
  have string : ∀ read : Option String × List Char, (asString read).1.Simple := by
    intro read
    obtain ⟨text, _⟩ := read
    cases text <;> simp [asString, Draft.Simple, Value.isLeaf]
  unfold leaf at h
  split at h
  · cases h
    exact string _
  · cases h
    exact string _
  · cases h
    exact string _
  · cases h
    exact string _
  · unfold wordScalar at h
    split at h
    · cases h; trivial
    · cases h; trivial
    · cases h; trivial
    · cases h; trivial
    · split at h
      · cases h
      · cases h
        cases read : Scalar.scalar? (word _).1 with
        | none => simp [Draft.Simple]
        | some value => exact Scalar.scalarLeaf read

theorem valueSimple {depth : Nat} {cs rest : List Char} {draft : Draft}
    (h : value depth cs = some (draft, rest)) : draft.Simple := by
  cases depth with
  | zero => exact leafSimple h
  | succ depth =>
    unfold value at h
    split at h
    · simp only [Option.bind_eq_bind, Option.bind_eq_some_iff] at h
      obtain ⟨⟨read, after⟩, _, same⟩ := h
      cases same
      trivial
    · simp only [Option.bind_eq_bind, Option.bind_eq_some_iff] at h
      obtain ⟨⟨read, after⟩, _, same⟩ := h
      cases same
      trivial
    · exact leafSimple h

theorem statementSimple {cs rest : List Char} {entry : Entry} (h : statement cs = some (.entry entry, rest)) :
    entry.2.value.Simple := by
  unfold statement at h
  split at h
  · simp only [header, Option.bind_eq_bind, Option.bind_eq_some_iff] at h
    obtain ⟨_, _, same⟩ := h
    cases same
  · simp only [header, Option.bind_eq_bind, Option.bind_eq_some_iff] at h
    obtain ⟨_, _, same⟩ := h
    cases same
  · simp only [Option.bind_eq_bind, Option.bind_eq_some_iff] at h
    obtain ⟨⟨read, after⟩, pair, same⟩ := h
    cases same
    simp only [keyValue, Option.bind_eq_bind, Option.bind_eq_some_iff] at pair
    obtain ⟨behind, _, pair⟩ := pair
    split at pair
    · simp only [Option.bind_eq_some_iff] at pair
      obtain ⟨start, _, ⟨draft, left⟩, held, same⟩ := pair
      cases same
      exact valueSimple held
    · cases pair

theorem statementsSimple {fuel : Nat} {cs : List Char} {found : List Statement}
    (h : statements fuel cs = some found) : ∀ entry, .entry entry ∈ found → entry.2.value.Simple := by
  induction fuel generalizing cs found with
  | zero =>
    cases cs with
    | nil =>
      cases h
      simp
    | cons c rest => cases h
  | succ fuel ih =>
    cases cs with
    | nil =>
      cases h
      simp
    | cons c rest =>
      simp only [statements] at h
      split at h
      · simp only [Option.bind_eq_bind, Option.bind_eq_some_iff] at h
        obtain ⟨⟨first, after⟩, read, line, _, others, later, same⟩ := h
        cases same
        intro entry member
        rcases List.mem_cons.mp member with rfl | inside
        · exact statementSimple read
        · exact ih later entry inside
      · simp only [Option.bind_eq_bind, Option.bind_eq_some_iff] at h
        obtain ⟨line, _, later⟩ := h
        exact ih later

end Document

namespace Fields

/- What a header or a dotted key does to the top level: a table stands under its first name, and the other
names are left alone. -/
structure Branches (name : String) (before after : Fields) : Prop where
  taken : ∃ value, find? name after = some value ∧ value.isBranch = true ∧ value ≠ .tables []
  others : ∀ other, other ≠ name → find? other after = find? other before

def Branching (fields : Fields) : Prop := ∃ name value, find? name fields = some value ∧ value.isBranch = true

def Filled (fields : Fields) : Prop := ∀ name, find? name fields ≠ some (.tables [])

variable {name other : String} {fields before after : Fields}

theorem findReplaceOther (value : Value) (apart : other ≠ name) :
    find? other (replace name value fields) = find? other fields := by
  induction fields with
  | nil => rfl
  | cons field rest ih =>
    rw [replace]
    split
    · rename_i same
      simp [find?, same, Ne.symm apart]
    · simp only [find?, ih]

theorem findEraseOther (apart : other ≠ name) : find? other (erase name fields) = find? other fields := by
  induction fields with
  | nil => rfl
  | cons field rest ih =>
    rw [erase] at ih ⊢
    by_cases same : field.key.name = name
    · simp [find?, same, Ne.symm apart, ih]
    · simp [find?, same, ih]

theorem branchesAppend {key : Key} {left : Nat} {value : Value} (branch : value.isBranch = true)
    (filled : value ≠ .tables []) (fresh : find? key.name fields = none) :
    Branches key.name fields (fields ++ [⟨key, left, value⟩]) := by
  refine ⟨⟨value, by simp [findAppend, fresh, find?], branch, filled⟩, fun other apart => ?_⟩
  simp [findAppend, find?, Ne.symm apart]

theorem branchesReplace {value : Value} (branch : value.isBranch = true) (filled : value ≠ .tables [])
    (there : (find? name fields).isSome) : Branches name fields (replace name value fields) :=
  ⟨⟨value, findReplace there, branch, filled⟩, fun _ apart => findReplaceOther value apart⟩

theorem withinBranches {byDots : Bool} {change : Origin → Fields → Except Flaw Fields} {key : Key}
    {path : List Key} {origin : Origin} {made : Fields}
    (h : within byDots change (key :: path) origin fields = .ok made) : Branches key.name fields made := by
  rw [within] at h
  split at h
  · rename_i fresh
    obtain ⟨inner, _, last⟩ := bindOk.mp h
    cases last
    exact branchesAppend rfl (by simp) fresh
  · rename_i found
    split at h
    · cases h
    · obtain ⟨inner, _, last⟩ := bindOk.mp h
      cases last
      exact branchesReplace rfl (by simp) (by simp [found])
  · rename_i found
    split at h
    · cases h
    · obtain ⟨inner, _, last⟩ := bindOk.mp h
      cases last
      exact branchesReplace rfl (by simp) (by simp [found])
  · cases h

theorem filledAppend {field : Field Value} (filled : Filled fields) (value : field.value ≠ .tables []) :
    Filled (fields ++ [field]) := by
  intro other
  rw [findAppend]
  cases found : find? other fields with
  | none => simp [find?, value]
  | some before => simpa [found] using filled other

theorem Branches.branching (branches : Branches name before after) : Branching after := by
  obtain ⟨value, found, branch, _⟩ := branches.taken
  exact ⟨name, value, found, branch⟩

theorem Branches.filled (branches : Branches name before after) (filled : Filled before) : Filled after := by
  intro other
  by_cases same : other = name
  · obtain ⟨value, found, _, tables⟩ := branches.taken
    rw [same, found]
    exact fun empty => tables (Option.some.inj empty)
  · rw [branches.others other same]
    exact filled other

end Fields

def Entry.Gives (entry : Entry) (field : Field Value) : Prop :=
  ∃ part, entry.1 = [part] ∧ part.key? = some field.key ∧ entry.2.left = field.left ∧
    entry.2.value.settle = .ok field.value

theorem keyOfNamed {parts : List Part} {path : List Key} {key : Key} (h : keyOf parts = .ok (path, key)) :
    parts.mapM Part.key? = some (path ++ [key]) := by
  unfold keyOf at h
  cases named : parts.mapM Part.key? with
  | none => simp [named] at h
  | some keys =>
    rw [named] at h
    dsimp only at h
    split at h
    · cases h
    · split at h
      · cases h
      · rename_i last found
        obtain ⟨rfl, rfl⟩ := Prod.mk.inj (Except.ok.inj h)
        rw [List.dropLast_append_getLast? _ found]

theorem keyOfFlat {parts : List Part} {key : Key} (h : keyOf parts = .ok ([], key)) :
    ∃ part, parts = [part] ∧ part.key? = some key := by
  have named := keyOfNamed h
  have size : parts.length = 1 := (mapMKeyLength named).symm
  obtain ⟨part, rfl⟩ := List.length_eq_one_iff.mp size
  refine ⟨part, rfl, ?_⟩
  cases known : part.key? <;> simp_all

theorem addAllCons {entry : Entry} {rest : List Entry} {fields made : Fields}
    (h : addAll (entry :: rest) fields = .ok made) :
    (∃ field, entry.Gives field ∧ addAll rest (fields ++ [field]) = .ok made) ∨
    ∃ name next, Fields.Branches name fields next ∧ addAll rest next = .ok made := by
  obtain ⟨parts, left, draft⟩ := entry
  rw [addAll] at h
  obtain ⟨⟨path, key⟩, named, checked⟩ := bindOk.mp h
  obtain ⟨value, settled, placed⟩ := bindOk.mp checked
  obtain ⟨next, added, later⟩ := bindOk.mp placed
  cases path with
  | nil =>
    obtain ⟨part, rfl, known⟩ := keyOfFlat named
    rw [Fields.addNil] at added
    split at added
    · cases added
    · cases added
      exact .inl ⟨⟨key, left, value⟩, ⟨part, rfl, known, rfl, settled⟩, later⟩
  | cons first others => exact .inr ⟨first.name, next, Fields.withinBranches added, later⟩

theorem branchingAppend {fields : Fields} (more : Fields) (branching : fields.Branching) :
    Fields.Branching (fields ++ more) := by
  obtain ⟨name, value, found, branch⟩ := branching
  exact ⟨name, value, by simp [Fields.findAppend, found], branch⟩

theorem addAllBranching {entries : List Entry} {fields made : Fields} (branching : fields.Branching)
    (h : addAll entries fields = .ok made) : made.Branching := by
  induction entries generalizing fields with
  | nil =>
    rw [addAll] at h
    cases h
    exact branching
  | cons entry rest ih =>
    rcases addAllCons h with ⟨field, _, h⟩ | ⟨name, next, branches, h⟩
    · exact ih (branchingAppend [field] branching) h
    · exact ih branches.branching h

theorem addAllGives {entries : List Entry} {fields made : Fields} (h : addAll entries fields = .ok made)
    (flat : ¬ made.Branching) : ∃ added, made = fields ++ added ∧ List.Forall₂ Entry.Gives entries added := by
  induction entries generalizing fields with
  | nil =>
    rw [addAll] at h
    cases h
    exact ⟨[], by simp, .nil⟩
  | cons entry rest ih =>
    rcases addAllCons h with ⟨field, given, h⟩ | ⟨name, next, branches, h⟩
    · obtain ⟨more, rfl, gives⟩ := ih h
      exact ⟨field :: more, by simp, .cons given gives⟩
    · exact absurd (addAllBranching branches.branching h) flat

theorem addAllFilled {entries : List Entry} {fields made : Fields}
    (simple : ∀ entry ∈ entries, entry.2.value.Simple) (filled : fields.Filled)
    (h : addAll entries fields = .ok made) : made.Filled := by
  induction entries generalizing fields with
  | nil =>
    rw [addAll] at h
    cases h
    exact filled
  | cons entry rest ih =>
    obtain ⟨first, later⟩ := List.forall_mem_cons.mp simple
    rcases addAllCons h with ⟨field, ⟨_, _, _, _, settled⟩, h⟩ | ⟨name, next, branches, h⟩
    · refine ih later (Fields.filledAppend filled fun empty => ?_) h
      exact Draft.settleTables first (settled.trans (congrArg Except.ok empty))
    · exact ih later (branches.filled filled) h

namespace Document

theorem arrayBranches {root made inner : Fields} {left : Nat} {path : List Key} {key : Key}
    (h : attachToArray root left path key inner = .ok made) : ∃ name, Fields.Branches name root made := by
  cases path with
  | cons first rest => exact ⟨first.name, Fields.withinBranches h⟩
  | nil =>
    rw [attachToArray, Fields.within] at h
    split at h
    · rename_i fresh
      cases h
      exact ⟨key.name, Fields.branchesAppend rfl (by simp) fresh⟩
    · rename_i found
      cases h
      exact ⟨key.name, Fields.branchesReplace rfl (by simp) (by simp [found])⟩
    · cases h

theorem tableBranches {root made : Fields} {left : Nat} {path : List Key} {key : Key}
    {entries : List Entry} (h : attachTable root left path key entries = .ok made) :
    ∃ name, Fields.Branches name root made := by
  cases path with
  | cons first rest => exact ⟨first.name, Fields.withinBranches h⟩
  | nil =>
    rw [attachTable, Fields.within] at h
    split at h
    · rename_i fresh
      obtain ⟨inner, _, last⟩ := bindOk.mp h
      cases last
      exact ⟨key.name, Fields.branchesAppend rfl (by simp) fresh⟩
    · obtain ⟨inner, _, last⟩ := bindOk.mp h
      cases last
      have gone := Fields.eraseFind key.name root
      have branches : Fields.Branches key.name (root.erase key.name)
          (root.erase key.name ++ [⟨key, left, .table .headed inner⟩]) :=
        Fields.branchesAppend rfl (by simp) gone
      obtain ⟨taken, others⟩ := branches
      exact ⟨key.name, taken, fun other apart => (others other apart).trans (Fields.findEraseOther apart)⟩
    · cases h

theorem attachBranches {root made : Fields} {step : Header × List Entry} (h : attach root step = .ok made) :
    ∃ name, Fields.Branches name root made := by
  obtain ⟨header, entries⟩ := step
  rw [attach] at h
  obtain ⟨⟨path, key⟩, _, h⟩ := bindOk.mp h
  dsimp only at h
  split at h
  · obtain ⟨inner, _, h⟩ := bindOk.mp h
    exact arrayBranches h
  · exact tableBranches h

theorem attachAll {steps : List (Header × List Entry)} {root made : Fields}
    (h : steps.foldlM attach root = .ok made) :
    (root.Filled → made.Filled) ∧ (root.Branching ∨ steps ≠ [] → made.Branching) := by
  induction steps generalizing root with
  | nil =>
    cases h
    exact ⟨id, fun branching => branching.resolve_right fun some => some rfl⟩
  | cons step rest ih =>
    rw [List.foldlM_cons] at h
    obtain ⟨next, attached, h⟩ := bindOk.mp h
    obtain ⟨name, branches⟩ := attachBranches attached
    exact ⟨fun filled => (ih h).1 (branches.filled filled), fun _ => (ih h).2 (.inl branches.branching)⟩

theorem sectionsEntries {found : List Statement} (headless : (sections found).2 = []) :
    found = (sections found).1.map .entry := by
  induction found with
  | nil => rfl
  | cons statement rest ih =>
    cases statement with
    | entry entry => rw [sections, List.map_cons, ← ih headless]
    | header header => cases headless

theorem sectionsMember (found : List Statement) :
    ∀ entry ∈ (sections found).1, .entry entry ∈ found := by
  induction found with
  | nil => simp [sections]
  | cons statement rest ih =>
    cases statement with
    | entry entry =>
      intro other member
      rcases List.mem_cons.mp member with rfl | inside
      · exact List.mem_cons_self
      · exact List.mem_cons_of_mem _ (ih other inside)
    | header header => simp [sections]

def found (text : String) : Option (List Statement) :=
  statements ((dropByteOrderMark text.toList).length + 1) (dropByteOrderMark text.toList)

theorem readOk {text : String} {document : Fields} :
    read text = .ok document ↔ ∃ list, found text = some list ∧ build list = .ok document := by
  rw [read, found]
  cases statements ((dropByteOrderMark text.toList).length + 1) (dropByteOrderMark text.toList) <;> simp

theorem buildGives {list : List Statement} {document : Fields} (h : build list = .ok document)
    (flat : ¬ document.Branching) :
    ∃ entries, list = entries.map .entry ∧ List.Forall₂ Entry.Gives entries document := by
  rw [build] at h
  obtain ⟨root, first, h⟩ := bindOk.mp h
  have headless : (sections list).2 = [] := Decidable.not_not.mp fun some =>
    flat ((attachAll h).2 (.inr some))
  rw [headless] at h
  cases h
  obtain ⟨added, rfl, gives⟩ := addAllGives first flat
  exact ⟨_, sectionsEntries headless, gives⟩

theorem readFilled {text : String} {document : Fields} (h : read text = .ok document) : document.Filled := by
  obtain ⟨list, read, built⟩ := readOk.mp h
  rw [build] at built
  obtain ⟨root, first, built⟩ := bindOk.mp built
  have simple : ∀ entry ∈ (sections list).1, entry.2.value.Simple := fun entry member =>
    statementsSimple read entry (sectionsMember list entry member)
  have bare : Fields.Filled [] := by simp [Fields.Filled, Fields.find?]
  exact (attachAll built).1 (addAllFilled simple bare first)

end Document

theorem settleTexts {items : List (Placed Draft)} {texts : List String}
    (strings : items.map (·.value) = texts.map fun text => .scalar (some (.string text))) :
    ∃ values, settleAll items = .ok values := by
  induction items generalizing texts with
  | nil => exact ⟨[], rfl⟩
  | cons item rest ih =>
    cases texts with
    | nil => cases strings
    | cons text more =>
      obtain ⟨left, draft⟩ := item
      simp only [List.map_cons, List.cons.injEq] at strings
      obtain ⟨values, settled⟩ := ih strings.2
      refine ⟨⟨left, .string text⟩ :: values, ?_⟩
      rw [settleAll, strings.1, Draft.settle, settled]
      rfl

/- The folders of a document: it has no key, or `folders` alone with an array of texts. -/
inductive Fields.Lists : Fields → Option (List String) → Prop where
  | silent : Lists [] none
  | listed {field : Field Value} {items : List (Placed Value)} {texts : List String}
      (key : field.key.name = "folders") (array : field.value = .array items)
      (strings : items.map (·.value) = texts.map .string) : Lists [field] (some texts)

inductive Statement.Lists : List Statement → Option (List String) → Prop where
  | silent : Lists [] none
  | listed {part : Part} {left : Nat} {items : List (Placed Draft)} {texts : List String}
      (key : part.name = some "folders")
      (strings : items.map (·.value) = texts.map fun text => .scalar (some (.string text))) :
      Lists [.entry ([part], ⟨left, .array items⟩)] (some texts)

theorem Fields.listsFlat {document : Fields} {folders : Option (List String)} (lists : document.Lists folders) :
    ¬ document.Branching := by
  rintro ⟨name, value, found, branch⟩
  cases lists with
  | silent => cases found
  | listed key array strings =>
    simp only [find?, Option.ite_none_right_eq_some] at found
    rw [← Option.some.inj found.2, array] at branch
    cases branch

namespace Document

theorem buildLists {list : List Statement} {folders : Option (List String)}
    (lists : Statement.Lists list folders) :
    ∃ document, build list = .ok document ∧ document.Lists folders := by
  cases lists with
  | silent => exact ⟨[], rfl, .silent⟩
  | @listed part left items texts key strings =>
    obtain ⟨values, settled⟩ := settleTexts strings
    have named : keyOf [part] = .ok ([], ⟨"folders", part.left⟩) := by
      rw [keyOfSingle, Part.key?, key]
      rfl
    have same := (settleStrings settled).mpr strings
    refine ⟨[⟨⟨"folders", part.left⟩, left, .array values⟩], ?_, .listed rfl rfl same⟩
    simp only [build, sections, addAll, named, Draft.settle, settled]
    rfl

theorem foundLists {list : List Statement} {document : Fields} {folders : Option (List String)}
    (simple : ∀ entry, .entry entry ∈ list → entry.2.value.Simple) (built : build list = .ok document)
    (lists : document.Lists folders) : Statement.Lists list folders := by
  obtain ⟨entries, rfl, gives⟩ := buildGives built (Fields.listsFlat lists)
  cases lists with
  | silent =>
    cases gives
    exact .silent
  | listed key array strings =>
    cases gives with
    | cons first rest =>
      cases rest
      rename_i entry
      obtain ⟨parts, left, draft⟩ := entry
      obtain ⟨part, rfl, known, _, settled⟩ := first
      rw [array] at settled
      obtain ⟨items, rfl, read⟩ := Draft.settleArray (simple _ List.mem_cons_self) settled
      obtain ⟨name, named, same⟩ := Option.map_eq_some_iff.mp known
      refine .listed ?_ ((settleStrings read).mp strings)
      rw [named, ← key, ← same]

theorem readLists {text : String} {folders : Option (List String)} :
    (∃ document, read text = .ok document ∧ document.Lists folders) ↔
      ∃ list, found text = some list ∧ Statement.Lists list folders := by
  constructor
  · rintro ⟨document, read, lists⟩
    obtain ⟨list, given, built⟩ := readOk.mp read
    exact ⟨list, given, foundLists (statementsSimple given) built lists⟩
  · rintro ⟨list, given, lists⟩
    obtain ⟨document, built, holds⟩ := buildLists lists
    exact ⟨document, readOk.mpr ⟨list, given, built⟩, holds⟩

end Document

end ShellStyle.Toml

namespace ShellStyle.Settings
open Toml

theorem parseLists {text : String} {folders : Option (List String)} : parse text = .ok folders ↔
    ∃ document, Document.read text = .ok document ∧ document.Lists folders := by
  rw [parseFound]
  constructor
  · rintro (⟨empty, rfl⟩ | ⟨field, names, single, key, list, rfl⟩)
    · exact ⟨[], empty, .silent⟩
    · refine ⟨[field], single, ?_⟩
      have filled := Document.readFilled single "folders"
      cases value : field.value with
      | array items => exact .listed key value (by rwa [value] at list)
      | tables items =>
        rw [value] at list
        simp [Fields.find?, key, value, list.1] at filled
      | _ => rw [value] at list; cases list
  · rintro ⟨document, read, lists⟩
    cases lists with
    | silent => exact .inl ⟨read, rfl⟩
    | listed key array strings => exact .inr ⟨_, _, read, key, by rw [array]; exact strings, rfl⟩

theorem parseWritten {text : String} {folders : Option (List String)} : parse text = .ok folders ↔
    ∃ list, Document.found text = some list ∧ Statement.Lists list folders :=
  parseLists.trans Document.readLists

end ShellStyle.Settings
