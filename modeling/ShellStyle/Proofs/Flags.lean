import ShellStyle.Arguments

/-! The two flags of the command line. The parser only ever turns a flag on, and nothing else there looks
at it, so what parses without a flag parses to the same options with it. -/
namespace ShellStyle.Arguments

inductive Flag where
  | json | verbose
  deriving DecidableEq, Repr

namespace Flag

def argument : Flag → String
  | json => "--json"
  | verbose => "--verbose"

def isOn : Flag → Arguments → Bool
  | json, a => a.json
  | verbose, a => a.verbose

def raise : Flag → Arguments → Arguments
  | json, a => { a with json := true }
  | verbose, a => { a with verbose := true }

theorem raiseRoot (flag : Flag) (a : Arguments) : (flag.raise a).rootDir = a.rootDir := by
  cases flag <;> rfl

theorem raiseFolders (flag : Flag) (a : Arguments) : (flag.raise a).folders = a.folders := by
  cases flag <;> rfl

/- A step that gives the same options with the flag on, if it leaves the flag off without it. -/
def Spared (flag : Flag) (step : Arguments → Except Stop Arguments) : Prop :=
  ∀ a b, step a = .ok b → flag.isOn b = false →
    flag.isOn a = false ∧ step (flag.raise a) = .ok (flag.raise b)

theorem sparedDone (flag : Flag) : flag.Spared .ok := by
  intro a b done off
  cases done
  exact ⟨off, rfl⟩

theorem sparedStop (flag : Flag) (stop : Stop) : flag.Spared fun _ => .error stop := by
  intro a b done
  cases done

theorem sparedBind {flag : Flag} {first second : Arguments → Except Stop Arguments}
    (one : flag.Spared first) (two : flag.Spared second) :
    flag.Spared fun a => first a >>= second := by
  intro a c done off
  cases early : first a with
  | error stop =>
    simp only [early] at done
    cases done
  | ok b =>
    simp only [early] at done
    obtain ⟨between, last⟩ := two b c done off
    obtain ⟨before, start⟩ := one a b early between
    simp only [start]
    exact ⟨before, last⟩

theorem sparedGive (flag : Flag) (option : Named) (value : String) :
    flag.Spared fun a => a.give option value := by
  intro a b done off
  cases option with
  | folder =>
    cases done
    cases flag <;> exact ⟨off, rfl⟩
  | rootDir =>
    simp only [give] at done
    split at done
    · cases done
    · rename_i fresh
      split at done
      · cases done
      · rename_i filled
        cases done
        cases flag <;> exact ⟨off, by simp [give, raise, fresh, filled]⟩

theorem sparedSettle (flag : Flag) (waiting : Waiting) : flag.Spared fun a => a.settle waiting := by
  rcases waiting with _ | ⟨option, _ | value⟩
  · exact sparedDone flag
  · exact sparedStop flag _
  · exact sparedGive flag option value

theorem sparedTurnOn (flag : Flag) (switch : Switch) : flag.Spared fun a => a.turnOn switch := by
  intro a b done off
  cases switch with
  | help => cases done
  | version => cases done
  | json =>
    simp only [turnOn] at done
    split at done
    · cases done
    · rename_i fresh
      cases done
      cases flag with
      | json => cases off
      | verbose => exact ⟨off, by simp [turnOn, raise, fresh]⟩
  | verbose =>
    simp only [turnOn] at done
    split at done
    · cases done
    · rename_i fresh
      cases done
      cases flag with
      | json => exact ⟨off, by simp [turnOn, raise, fresh]⟩
      | verbose => cases off

theorem sparedCluster (flag : Flag) (letters : List Char) (waiting : Waiting) :
    flag.Spared fun a => cluster a waiting letters := by
  induction letters generalizing waiting with
  | nil => exact sparedDone flag
  | cons c rest ih =>
    simp only [cluster]
    cases shortSwitch c with
    | none => exact sparedStop flag _
    | some switch =>
      exact sparedBind (sparedSettle flag waiting) (sparedBind (sparedTurnOn flag switch) (ih none))

theorem sparedParse (flag : Flag) (words : List String) (waiting : Waiting) :
    flag.Spared fun a => parseFrom a waiting words := by
  induction words generalizing waiting with
  | nil => exact sparedSettle flag waiting
  | cons argument rest ih =>
    simp only [parseFrom]
    cases word argument with
    | endOfOptions =>
      cases rest with
      | nil => exact sparedSettle flag waiting
      | cons next more => exact sparedStop flag _
    | unknown shown => exact sparedStop flag _
    | option option value =>
      cases value with
      | none => exact sparedBind (sparedSettle flag waiting) (ih _)
      | some value =>
        exact sparedBind (sparedSettle flag waiting) (sparedBind (sparedGive flag option value) (ih _))
    | switch switch value =>
      cases value with
      | none =>
        exact sparedBind (sparedSettle flag waiting) (sparedBind (sparedTurnOn flag switch) (ih _))
      | some value => exact sparedStop flag _
    | cluster letters => exact sparedBind (sparedCluster flag letters waiting) (ih _)
    | bare =>
      rcases waiting with _ | ⟨option, _ | value⟩
      · exact sparedStop flag _
      · exact ih _
      · exact sparedStop flag _

theorem parseRaised {flag : Flag} {words : List String} {a : Arguments} (parsed : parse words = .ok a)
    (off : flag.isOn a = false) : parse (flag.argument :: words) = .ok (flag.raise a) := by
  have later := (sparedParse flag words none blank a parsed off).2
  cases flag with
  | json =>
    have read : word "--json" = .switch .json none := by decide +kernel
    simp only [parse, parseFrom, argument, read]
    exact later
  | verbose =>
    have read : word "--verbose" = .switch .verbose none := by decide +kernel
    simp only [parse, parseFrom, argument, read]
    exact later

end Flag

end ShellStyle.Arguments
