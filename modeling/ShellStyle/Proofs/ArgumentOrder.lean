import ShellStyle.Proofs.Flags

/-! Command lines that say the same. Every option is one piece of a command line, and the pieces may stand in
any order, as long as the folders keep theirs. An option may still wait for its value to be settled when its
piece is over, so what has been read so far is told by the options that would result if the line ended there. -/
namespace ShellStyle.Arguments

def Named.long : Named → String
  | rootDir => "--root-dir"
  | folder => "--folder"

def Flag.switch : Flag → Switch
  | json => .json
  | verbose => .verbose

inductive Piece where
  | valued (option : Named) (value : String) (attached : Bool)
  | flagged (flag : Flag)
  | shortVerbose
  deriving DecidableEq, Repr

namespace Piece

def words : Piece → List String
  | valued option value true => [option.long ++ "=" ++ value]
  | valued option value false => [option.long, value]
  | flagged flag => [flag.argument]
  | shortVerbose => ["-v"]

def valueOf (option : Named) : Piece → Option String
  | valued other value _ => if other = option then some value else none
  | _ => none

def raises (flag : Flag) : Piece → Bool
  | valued .. => false
  | flagged other => other = flag
  | shortVerbose => flag = .verbose

def Allowed : Piece → Prop
  | valued _ value false => value.toList.head? ≠ some '-'
  | _ => True

def into : Piece → Arguments → Arguments
  | valued .rootDir value _, a => { a with rootDir := some (Path.ofString value) }
  | valued .folder value _, a => { a with folders := a.folders ++ [value] }
  | flagged flag, a => flag.raise a
  | shortVerbose, a => Flag.verbose.raise a

def Fits : Piece → Arguments → Prop
  | valued .rootDir value _, a => a.rootDir = none ∧ value ≠ ""
  | valued .folder _ _, _ => True
  | flagged flag, a => flag.isOn a = false
  | shortVerbose, a => Flag.verbose.isOn a = false

end Piece

/- Pieces in some order that say these options and nothing else: the root once if there is one, the folders in
their order, and each flag once if it is set. -/
structure Spelt (pieces : List Piece) (a : Arguments) : Prop where
  root : (pieces.filterMap (Piece.valueOf .rootDir)).map Path.ofString = a.rootDir.toList
  folders : pieces.filterMap (Piece.valueOf .folder) = a.folders
  flags : ∀ flag : Flag, pieces.countP (Piece.raises flag) = (flag.isOn a).toNat
  allowed : ∀ piece ∈ pieces, piece.Allowed

structure Completed (a : Arguments) (pieces : List Piece) (b : Arguments) : Prop where
  root : a.rootDir.toList ++ (pieces.filterMap (Piece.valueOf .rootDir)).map Path.ofString =
    b.rootDir.toList
  folders : a.folders ++ pieces.filterMap (Piece.valueOf .folder) = b.folders
  flags : ∀ flag : Flag, (flag.isOn a).toNat + pieces.countP (Piece.raises flag) = (flag.isOn b).toNat
  allowed : ∀ piece ∈ pieces, piece.Allowed

variable {a b c : Arguments} {piece : Piece} {pieces : List Piece} {waiting : Waiting}

theorem wordAttached (option : Named) (value : String) :
    word (option.long ++ "=" ++ value) = .option option (some value) := by
  cases option <;> simp [Named.long, word, longWord]

theorem wordLong (option : Named) : word option.long = .option option none := by
  cases option <;> decide +kernel

theorem wordFlag (flag : Flag) : word flag.argument = .switch flag.switch none := by
  cases flag <;> decide +kernel

theorem wordBare {value : String} (allowed : value.toList.head? ≠ some '-') : word value = .bare := by
  unfold word
  split <;> simp_all

theorem flagTurned {flag : Flag} (off : flag.isOn b = false) : b.turnOn flag.switch = .ok (flag.raise b) := by
  cases flag with
  | json =>
    have fresh : b.json = false := off
    simp [Flag.switch, turnOn, fresh, Flag.raise]
  | verbose =>
    have fresh : b.verbose = false := off
    simp [Flag.switch, turnOn, fresh, Flag.raise]

theorem valueGiven {option : Named} {value : String} {attached : Bool}
    (fits : (Piece.valued option value attached).Fits b) :
    b.give option value = .ok ((Piece.valued option value attached).into b) := by
  cases option with
  | folder => rfl
  | rootDir => simp [give, fits.1, fits.2, Piece.into]

theorem pieceRead (settled : a.settle waiting = .ok b) (fits : piece.Fits b) (allowed : piece.Allowed) :
    ∃ a' waiting', a'.settle waiting' = .ok (piece.into b) ∧
      ∀ rest, parseFrom a waiting (piece.words ++ rest) = parseFrom a' waiting' rest := by
  cases piece with
  | valued option value attached =>
    have given := valueGiven fits
    cases attached with
    | true =>
      refine ⟨_, none, rfl, fun rest => ?_⟩
      simp only [Piece.words, List.singleton_append, parseFrom, wordAttached, settled]
      show (do let a ← b.give option value; parseFrom a none rest) = _
      rw [given]
      rfl
    | false =>
      refine ⟨b, some (option, some value), given, fun rest => ?_⟩
      simp only [Piece.words, List.cons_append, List.nil_append, parseFrom, wordLong, settled]
      show parseFrom b (some (option, none)) (value :: rest) = _
      simp only [parseFrom, wordBare allowed]
  | flagged flag =>
    refine ⟨_, none, rfl, fun rest => ?_⟩
    simp only [Piece.words, List.singleton_append, parseFrom, wordFlag, settled]
    show (do let a ← b.turnOn flag.switch; parseFrom a none rest) = _
    rw [flagTurned fits]
    rfl
  | shortVerbose =>
    have letters : word "-v" = .cluster ['v'] := by decide +kernel
    have turned : b.turnOn .verbose = .ok (Flag.verbose.raise b) := flagTurned fits
    refine ⟨_, none, rfl, fun rest => ?_⟩
    simp only [Piece.words, List.singleton_append, parseFrom, letters, cluster, shortSwitch, settled]
    show (do let a ← (do let a ← b.turnOn .verbose; Except.ok a); parseFrom a none rest) = _
    rw [turned]
    rfl

theorem completedFits (completed : Completed a (piece :: pieces) b)
    (filled : b.rootDir ≠ some (Path.ofString "")) : piece.Fits a := by
  obtain ⟨root, _, flags, _⟩ := completed
  have fresh : ∀ flag : Flag, piece.raises flag = true → flag.isOn a = false := by
    intro flag raised
    have count := flags flag
    rw [List.countP_cons_of_pos raised] at count
    have most := Bool.toNat_le (flag.isOn b)
    exact Bool.eq_false_iff.mpr fun on => by simp [on] at count; omega
  cases piece with
  | valued option value attached =>
    cases option with
    | folder => trivial
    | rootDir =>
      simp only [List.filterMap_cons, Piece.valueOf] at root
      cases before : a.rootDir with
      | none =>
        cases after : b.rootDir with
        | none => simp [before, after] at root
        | some dir =>
          simp [before, after] at root
          exact ⟨before, fun empty => filled (by rw [after, ← root.1, empty])⟩
      | some dir =>
        cases after : b.rootDir <;> simp [before, after] at root
  | flagged flag => exact fresh flag (by simp [Piece.raises])
  | shortVerbose => exact fresh .verbose (by simp [Piece.raises])

theorem rootInto (fits : piece.Fits a) :
    (piece.into a).rootDir.toList =
      a.rootDir.toList ++ (piece.valueOf .rootDir).toList.map Path.ofString := by
  cases piece with
  | valued option value attached =>
    cases option with
    | rootDir => simp [Piece.into, Piece.valueOf, fits.1]
    | folder => simp [Piece.into, Piece.valueOf]
  | flagged flag => simp [Piece.into, Piece.valueOf, Flag.raiseRoot]
  | shortVerbose => simp [Piece.into, Piece.valueOf, Flag.raiseRoot]

theorem foldersInto (piece : Piece) (a : Arguments) :
    (piece.into a).folders = a.folders ++ (piece.valueOf .folder).toList := by
  cases piece with
  | valued option value attached => cases option <;> simp [Piece.into, Piece.valueOf]
  | flagged flag => simp [Piece.into, Piece.valueOf, Flag.raiseFolders]
  | shortVerbose => simp [Piece.into, Piece.valueOf, Flag.raiseFolders]

theorem raisedOn (flag other : Flag) (off : flag.isOn a = false) :
    (other.isOn (flag.raise a)).toNat = (other.isOn a).toNat + if flag = other then 1 else 0 := by
  cases flag <;> cases other <;> simp_all [Flag.isOn, Flag.raise]

theorem flagsInto (fits : piece.Fits a) (flag : Flag) : (flag.isOn (piece.into a)).toNat =
    (flag.isOn a).toNat + if piece.raises flag = true then 1 else 0 := by
  cases piece with
  | valued option value attached => cases option <;> cases flag <;> rfl
  | flagged other =>
    simp only [Piece.into, Piece.raises, decide_eq_true_eq]
    exact raisedOn other flag fits
  | shortVerbose =>
    simp only [Piece.into, Piece.raises, decide_eq_true_eq, @eq_comm _ flag]
    exact raisedOn .verbose flag fits

theorem completedNext (completed : Completed a (piece :: pieces) b) (fits : piece.Fits a) :
    Completed (piece.into a) pieces b := by
  have split : ∀ option, (piece :: pieces).filterMap (Piece.valueOf option) =
      (piece.valueOf option).toList ++ pieces.filterMap (Piece.valueOf option) := by
    intro option
    cases found : piece.valueOf option <;> simp [found]
  refine ⟨?_, ?_, fun flag => ?_, (List.forall_mem_cons.mp completed.allowed).2⟩
  · rw [rootInto fits, List.append_assoc, ← List.map_append, ← split]
    exact completed.root
  · rw [foldersInto, List.append_assoc, ← split]
    exact completed.folders
  · have count := completed.flags flag
    rw [List.countP_cons] at count
    rw [flagsInto fits]
    omega

theorem completedNil (completed : Completed a [] b) : a = b := by
  obtain ⟨root, folders, flags, _⟩ := completed
  have same : ∀ {x y : Bool}, x.toNat = y.toNat → x = y := by decide
  have json : a.json = b.json := same (flags .json)
  have verbose : a.verbose = b.verbose := same (flags .verbose)
  have dir : a.rootDir = b.rootDir := by
    cases one : a.rootDir <;> cases two : b.rootDir <;> simp_all
  have names : a.folders = b.folders := by simpa using folders
  cases a
  cases b
  simp_all

theorem piecesRead (settled : a.settle waiting = .ok b) (completed : Completed b pieces c)
    (filled : c.rootDir ≠ some (Path.ofString "")) :
    parseFrom a waiting (pieces.flatMap Piece.words) = .ok c := by
  induction pieces generalizing a b waiting with
  | nil =>
    cases completedNil completed
    exact settled
  | cons piece rest ih =>
    have fits := completedFits completed filled
    obtain ⟨a', waiting', left, read⟩ := pieceRead settled fits (completed.allowed piece List.mem_cons_self)
    rw [List.flatMap_cons, read]
    exact ih left (completedNext completed fits)

theorem speltCompleted {pieces : List Piece} (spelt : Spelt pieces c) : Completed blank pieces c := by
  refine ⟨spelt.root, spelt.folders, fun flag => ?_, spelt.allowed⟩
  have off : flag.isOn blank = false := by cases flag <;> rfl
  rw [off, ← spelt.flags flag]
  exact Nat.zero_add _

def piecesOf (root : Option String) (a : Arguments) : List Piece :=
  root.toList.map (.valued .rootDir · true) ++ (a.folders.map (.valued .folder · true) ++
    ([Flag.json, Flag.verbose].filter (·.isOn a)).map .flagged)

theorem valuesOf (option other : Named) (values : List String) :
    (values.map (Piece.valued other · true)).filterMap (Piece.valueOf option) =
      if other = option then values else [] := by
  split <;> rename_i same <;> simp [List.filterMap_map, Function.comp_def, Piece.valueOf, same]

theorem piecesSpelt {root : Option String} (named : a.rootDir = root.map Path.ofString) :
    Spelt (piecesOf root a) a := by
  have bare : ∀ (option : Named) (flags : List Flag),
      (flags.map Piece.flagged).filterMap (Piece.valueOf option) = [] := by
    simp [List.filterMap_map, Function.comp_def, Piece.valueOf]
  have quiet : ∀ (flag : Flag) (option : Named) (values : List String),
      (values.map (Piece.valued option · true)).countP (Piece.raises flag) = 0 := by
    simp [List.countP_map, Function.comp_def, Piece.raises]
  refine ⟨?_, ?_, fun flag => ?_, fun piece member => ?_⟩
  · simp only [piecesOf, List.filterMap_append, valuesOf, bare]
    cases root <;> simp [named]
  · simp only [piecesOf, List.filterMap_append, valuesOf, bare]
    simp
  · simp only [piecesOf, List.countP_append, quiet]
    cases json : a.json <;> cases verbose : a.verbose <;> cases flag <;>
      simp [Flag.isOn, json, verbose, Piece.raises]
  · simp only [piecesOf, List.mem_append, List.mem_map] at member
    rcases member with ⟨value, _, rfl⟩ | ⟨value, _, rfl⟩ | ⟨flag, _, rfl⟩ <;> trivial

/- Only a root that is a text can be spelt, since a command line is made of texts. -/
theorem anyOrder (a : Arguments) (filled : a.rootDir ≠ some (Path.ofString "")) :
    (∀ root : Option String, a.rootDir = root.map Path.ofString → ∃ pieces, Spelt pieces a) ∧
    ∀ pieces, Spelt pieces a → parse (pieces.flatMap Piece.words) = .ok a :=
  ⟨fun _ named => ⟨_, piecesSpelt named⟩, fun _ spelt => piecesRead rfl (speltCompleted spelt) filled⟩

theorem mixedLineRead :
    parse ["-v", "--folder", "", "--root-dir=/", "--folder=-x", "--json", "--folder=a=b c"] =
      .ok ⟨some (Path.ofString "/"), ["", "-x", "a=b c"], true, true⟩ := by
  have spelt : Spelt [.shortVerbose, .valued .folder "" false, .valued .rootDir "/" true,
      .valued .folder "-x" true, .flagged .json, .valued .folder "a=b c" true]
      ⟨some (Path.ofString "/"), ["", "-x", "a=b c"], true, true⟩ := by
    refine ⟨by decide, by decide, fun flag => by cases flag <;> decide, ?_⟩
    simp [Piece.Allowed]
  exact (anyOrder _ (by decide)).2 _ spelt

end ShellStyle.Arguments
