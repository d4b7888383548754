import ShellStyle.Settings

/-! The keys of a settings file. A document that was read has every key once at its top level, so the folders
are taken from a document with no key at all or from the one key of a document that has a single one. -/
namespace ShellStyle.Toml

theorem bindOk {ε α β : Type} {first : Except ε α} {next : α → Except ε β} {b : β} :
    (first >>= next) = .ok b ↔ ∃ a, first = .ok a ∧ next a = .ok b := by
  cases first with
  | error e => simp [bind, Except.bind]
  | ok a => simp [bind, Except.bind]

theorem mapOk {ε α β : Type} {first : Except ε α} {f : α → β} {b : β} :
    first.map f = .ok b ↔ ∃ a, first = .ok a ∧ f a = b := by
  cases first <;> simp [Except.map]

namespace Fields

def names (fields : Fields) : List String := fields.map (·.key.name)

def Distinct (fields : Fields) : Prop := fields.names.Nodup

theorem findNone {name : String} {fields : Fields} : find? name fields = none ↔ name ∉ fields.names := by
  induction fields with
  | nil => simp [find?, names]
  | cons field rest ih =>
    by_cases same : field.key.name = name
    · simp [find?, names, same]
    · simp [find?, names, same, Ne.symm same, ih]

theorem replaceNames (name : String) (value : Value) (fields : Fields) :
    (replace name value fields).names = fields.names := by
  induction fields with
  | nil => rfl
  | cons field rest ih =>
    simp only [replace, names] at ih ⊢
    split
    · rfl
    · rw [List.map_cons, ih, List.map_cons]

theorem snocDistinct {field : Field Value} {fields : Fields} (distinct : fields.Distinct)
    (fresh : find? field.key.name fields = none) : Distinct (fields ++ [field]) := by
  rw [findNone] at fresh
  rw [Distinct, names, List.map_append, List.nodup_append]
  refine ⟨distinct, by simp, ?_⟩
  rintro name inside _ last rfl
  rw [List.map_singleton, List.mem_singleton] at last
  exact fresh (last ▸ inside)

theorem eraseDistinct {name : String} {fields : Fields} (distinct : fields.Distinct) :
    (fields.erase name).Distinct :=
  distinct.sublist (List.filter_sublist.map _)

theorem eraseFind (name : String) (fields : Fields) : find? name (fields.erase name) = none := by
  rw [findNone, names, erase]
  simp

theorem withinDistinct {byDots : Bool} {change : Origin → Fields → Except Flaw Fields}
    (changes : ∀ origin fields made, Distinct fields → change origin fields = .ok made → Distinct made)
    {path : List Key} {origin : Origin} {fields made : Fields} (distinct : fields.Distinct)
    (h : within byDots change path origin fields = .ok made) : made.Distinct := by
  cases path with
  | nil => exact changes origin fields made distinct h
  | cons key path =>
    rw [within] at h
    split at h
    · rename_i fresh
      obtain ⟨inner, _, last⟩ := bindOk.mp h
      cases last
      exact snocDistinct distinct fresh
    · split at h
      · cases h
      · obtain ⟨inner, _, last⟩ := bindOk.mp h
        cases last
        rw [Distinct, replaceNames]
        exact distinct
    · split at h
      · cases h
      · obtain ⟨inner, _, last⟩ := bindOk.mp h
        cases last
        rw [Distinct, replaceNames]
        exact distinct
    · cases h

theorem addDistinct {path : List Key} {field : Field Value} {fields made : Fields}
    (distinct : fields.Distinct) (h : fields.add path field = .ok made) : made.Distinct := by
  refine withinDistinct ?_ distinct h
  intro origin inner added before done
  split at done
  · cases done
  · split at done
    · cases done
    · rename_i taken
      cases done
      exact snocDistinct before (by simpa using taken)

end Fields

theorem addAllDistinct {entries : List Entry} {fields made : Fields} (distinct : fields.Distinct)
    (h : addAll entries fields = .ok made) : made.Distinct := by
  induction entries generalizing fields with
  | nil =>
    rw [addAll] at h
    cases h
    exact distinct
  | cons entry rest ih =>
    obtain ⟨parts, left, draft⟩ := entry
    rw [addAll] at h
    obtain ⟨⟨path, key⟩, _, h⟩ := bindOk.mp h
    obtain ⟨value, _, h⟩ := bindOk.mp h
    obtain ⟨more, added, h⟩ := bindOk.mp h
    exact ih (Fields.addDistinct distinct added) h

namespace Document

theorem arrayDistinct {root made inner : Fields} {left : Nat} {path : List Key} {key : Key}
    (distinct : root.Distinct) (h : attachToArray root left path key inner = .ok made) :
    made.Distinct := by
  refine Fields.withinDistinct ?_ distinct h
  intro origin fields added before done
  split at done
  · rename_i fresh
    cases done
    exact Fields.snocDistinct before fresh
  · cases done
    rw [Fields.Distinct, Fields.replaceNames]
    exact before
  · cases done

theorem tableDistinct {root made : Fields} {left : Nat} {path : List Key} {key : Key}
    {entries : List Entry} (distinct : root.Distinct)
    (h : attachTable root left path key entries = .ok made) : made.Distinct := by
  refine Fields.withinDistinct ?_ distinct h
  intro origin fields added before done
  split at done
  · rename_i fresh
    obtain ⟨inner, _, done⟩ := bindOk.mp done
    cases done
    exact Fields.snocDistinct before fresh
  · obtain ⟨inner, _, done⟩ := bindOk.mp done
    cases done
    exact Fields.snocDistinct (Fields.eraseDistinct before) (Fields.eraseFind _ _)
  · cases done

theorem attachDistinct {root made : Fields} {step : Header × List Entry} (distinct : root.Distinct)
    (h : attach root step = .ok made) : made.Distinct := by
  obtain ⟨header, entries⟩ := step
  rw [attach] at h
  obtain ⟨⟨path, key⟩, _, h⟩ := bindOk.mp h
  dsimp only at h
  split at h
  · obtain ⟨inner, _, h⟩ := bindOk.mp h
    exact arrayDistinct distinct h
  · exact tableDistinct distinct h

theorem attachAllDistinct {steps : List (Header × List Entry)} {root made : Fields}
    (distinct : root.Distinct) (h : steps.foldlM attach root = .ok made) : made.Distinct := by
  induction steps generalizing root with
  | nil =>
    cases h
    exact distinct
  | cons step rest ih =>
    rw [List.foldlM_cons] at h
    obtain ⟨next, attached, h⟩ := bindOk.mp h
    exact ih (attachDistinct distinct attached) h

theorem readDistinct {text : String} {document : Fields} (h : read text = .ok document) :
    document.Distinct := by
  simp only [read] at h
  split at h
  · cases h
  · rw [build] at h
    obtain ⟨root, first, h⟩ := bindOk.mp h
    have bare : Fields.Distinct [] := List.nodup_nil
    exact attachAllDistinct (addAllDistinct bare first) h

end Document

def Value.Lists (texts : List String) : Value → Prop
  | .array items => items.map (·.value) = texts.map .string
  | .tables items => items = [] ∧ texts = []
  | _ => False

end ShellStyle.Toml

namespace ShellStyle.Settings
open Toml

theorem textsListed {items : List (Placed Value)} {names : List String} :
    texts items = .ok names ↔ items.map (·.value) = names.map .string := by
  induction items generalizing names with
  | nil => cases names <;> simp [texts]
  | cons item rest ih =>
    obtain ⟨left, value⟩ := item
    cases value with
    | string text =>
      rw [texts, mapOk]
      simp only [ih]
      refine ⟨?_, ?_⟩
      · intro holds
        obtain ⟨more, listed, rfl⟩ := holds
        simp [listed]
      · intro listed
        cases names with
        | nil => simp at listed
        | cons name more =>
          simp only [List.map_cons, List.cons.injEq, Value.string.injEq] at listed
          exact ⟨more, listed.2, by rw [listed.1]⟩
    | _ => cases names <;> simp [texts]

theorem folderListListed {left : Nat} {value : Value} {names : List String} :
    folderList left value = .ok names ↔ value.Lists names := by
  cases value with
  | array items => exact textsListed
  | tables items => cases items <;> simp [folderList, Value.Lists, eq_comm]
  | _ => simp [folderList, Value.Lists]

theorem inOrderKeys {fields : Fields} {found : Option (List String)} (h : inOrder fields = .ok found) :
    ∀ name ∈ fields.names, name = "folders" := by
  induction fields generalizing found with
  | nil => simp [Fields.names]
  | cons field rest ih =>
    rw [inOrder] at h
    split at h
    · cases h
    · rename_i key
      split at h
      · cases h
      · obtain ⟨later, others, _⟩ := mapOk.mp h
        exact List.forall_mem_cons.mpr ⟨Decidable.not_not.mp key, ih others⟩

theorem inOrderSingle {field : Toml.Field Value} {found : Option (List String)} :
    inOrder [field] = .ok found ↔ field.key.name = "folders" ∧
      ∃ names, field.value.Lists names ∧ found = some names := by
  rw [inOrder]
  by_cases key : field.key.name = "folders"
  · rw [if_neg (not_not_intro key)]
    simp only [← @folderListListed field.left, key, true_and]
    cases folderList field.left field.value with
    | error mismatch => simp
    | ok names => simp [inOrder, Except.map, eq_comm]
  · simp [key]

theorem inOrderFound {fields : Fields} {found : Option (List String)} (distinct : fields.Distinct) :
    inOrder fields = .ok found ↔ (fields = [] ∧ found = none) ∨ ∃ field names,
      fields = [field] ∧ field.key.name = "folders" ∧ field.value.Lists names ∧ found = some names := by
  rcases fields with _ | ⟨field, _ | ⟨second, more⟩⟩
  · cases found <;> simp [inOrder]
  · rw [inOrderSingle]
    simp
  · refine ⟨fun h => ?_, fun holds => by simp at holds⟩
    have keys := inOrderKeys h
    have first := keys field.key.name (by simp [Fields.names])
    have next := keys second.key.name (by simp [Fields.names])
    have apart : field.key.name ≠ second.key.name := by
      simp only [Fields.Distinct, Fields.names, List.map_cons, List.nodup_cons, List.mem_cons, not_or]
        at distinct
      exact distinct.1.1
    exact absurd (first.trans next.symm) apart

theorem foldersFound {document : Fields} {found : Option (List String)} (distinct : document.Distinct) :
    folders? document = .ok found ↔ (document = [] ∧ found = none) ∨ ∃ field names,
      document = [field] ∧ field.key.name = "folders" ∧ field.value.Lists names ∧
        found = some names := by
  have order : (document.mergeSort keyBefore).Perm document := List.mergeSort_perm _ _
  have sorted : Fields.Distinct (document.mergeSort keyBefore) :=
    (order.map fun field : Toml.Field Value => field.key.name).nodup_iff.mpr distinct
  have alone : ∀ field, document.mergeSort keyBefore = [field] ↔ document = [field] := by
    intro field
    refine ⟨fun single => ?_, fun single => ?_⟩
    · exact List.perm_singleton.mp (single ▸ order).symm
    · exact List.perm_singleton.mp (order.trans (.of_eq single))
  have none : document.mergeSort keyBefore = [] ↔ document = [] := by
    rw [← List.length_eq_zero_iff, order.length_eq, List.length_eq_zero_iff]
  rw [folders?, inOrderFound sorted, none]
  simp only [alone]

theorem parseFound {text : String} {found : Option (List String)} : parse text = .ok found ↔
    (Document.read text = .ok [] ∧ found = none) ∨ ∃ field names,
      Document.read text = .ok [field] ∧ field.key.name = "folders" ∧ field.value.Lists names ∧
        found = some names := by
  rw [parse]
  cases read : Document.read text with
  | error flaw => simp
  | ok document =>
    have shape := @foldersFound document found (Document.readDistinct read)
    simp only [Except.ok.injEq]
    rw [← shape]
    cases folders? document <;> simp

end ShellStyle.Settings
