import ShellStyle.Toml.Quoted
import ShellStyle.Toml.Scalar

/-! What the structure of a TOML text gives before its leaves are judged: keys with parts that may have no
name, values with scalars that may have none. `settle` and `addAll` go through a draft in the order of the
text and stop at the first flaw. -/
namespace ShellStyle.Toml

def deepest : Nat := 80

structure Part where
  left : Nat
  name : Option String
  deriving DecidableEq, Repr

def Part.key? (part : Part) : Option Key := part.name.map (⟨·, part.left⟩)

def keyOf (parts : List Part) : Except Flaw (List Key × Key) :=
  match parts.mapM Part.key? with
  | none => .error .malformed
  | some keys =>
    if deepest < keys.length then .error .tooDeep
    else match keys.getLast? with
      | none => .error .malformed
      | some key => .ok (keys.dropLast, key)

inductive Draft where
  | scalar (value : Option Value)
  | array (items : List (Placed Draft))
  | table (entries : List (List Part × Placed Draft))

abbrev Entry := List Part × Placed Draft

mutual

def Draft.settle : Draft → Except Flaw Value
  | .scalar none => .error .malformed
  | .scalar (some value) => .ok value
  | .array items => do
    let values ← settleAll items
    .ok (.array values)
  | .table entries => do
    let fields ← addAll entries []
    .ok (.table .inline fields)

def settleAll : List (Placed Draft) → Except Flaw (List (Placed Value))
  | [] => .ok []
  | ⟨left, draft⟩ :: rest => do
    let value ← draft.settle
    let others ← settleAll rest
    .ok (⟨left, value⟩ :: others)

def addAll : List (List Part × Placed Draft) → Fields → Except Flaw Fields
  | [], fields => .ok fields
  | (parts, ⟨left, draft⟩) :: rest, fields => do
    let (path, key) ← keyOf parts
    let value ← draft.settle
    let fields ← fields.add path ⟨key, left, value⟩
    addAll rest fields

end

theorem keyOfSingle (part : Part) :
    keyOf [part] = (match part.key? with | none => .error .malformed | some key => .ok ([], key)) := by
  cases h : part.key? <;> simp [keyOf, h, deepest]

theorem mapMKeyLength {parts : List Part} {keys : List Key}
    (h : parts.mapM Part.key? = some keys) : keys.length = parts.length := by
  induction parts generalizing keys with
  | nil => simp_all
  | cons part rest ih =>
    simp only [List.mapM_cons, Option.bind_eq_bind, Option.bind_eq_some_iff] at h
    obtain ⟨key, _, others, hrest, hkeys⟩ := h
    cases Option.some.inj hkeys
    simp [ih hrest]

end ShellStyle.Toml
