import ShellStyle.Disk

/-! A file tree held in memory. A `Location` lists the names from the root down, and `resolve` follows a
path from a location through directories, dots and links to the location it names. A `Site` is a tree
together with the directory a process stands in; it answers the questions of a `Disk`. -/
namespace ShellStyle

abbrev Location := List Name

inductive Node where
  | file (bytes : List UInt8)
  | directory
  | link (target : Path)
  | special
  deriving DecidableEq, Repr

structure Tree where
  entries : List (Location × Node)
  deriving DecidableEq, Repr

namespace Tree

def node? (t : Tree) (place : Location) : Option Node :=
  if place = [] then some .directory else t.entries.lookup place

def names (t : Tree) (place : Location) : List Name :=
  t.entries.filterMap fun e => if e.1.dropLast = place then e.1.getLast? else none

def put (t : Tree) (place : Location) (node : Node) : Tree :=
  if (t.entries.lookup place).isSome then
    ⟨t.entries.map fun e => if e.1 = place then (place, node) else e⟩
  else ⟨t.entries ++ [(place, node)]⟩

def parents (place : Location) : List Location :=
  (List.range (place.length - 1)).map fun n => place.take (n + 1)

def insert (t : Tree) (place : Location) (node : Node) : Tree :=
  ((parents place).foldl (fun t p => if (t.node? p).isSome then t else t.put p .directory) t).put
    place node

def erase (t : Tree) (place : Location) : Tree :=
  ⟨t.entries.filter fun e => !place.isPrefixOf e.1⟩

def longestName : Nat := 255

def longestPath : Nat := 4095

def mostLinks : Nat := 40

/- Every step needs a directory under its feet, a blank or dotted one too. `follow` takes over at a
link, whose target is walked before the rest. The last name may be missing if it is to be made. -/
def walkWith (t : Tree) (made : Bool) (follow : Location → List Name → Except Cause Location) :
    Location → List Name → Except Cause Location
  | here, [] => .ok here
  | here, s :: rest =>
    if t.node? here ≠ some .directory then .error .notDirectory
    else if Path.isBlank s then walkWith t made follow here rest
    else if s = [Path.dot, Path.dot] then walkWith t made follow here.dropLast rest
    else if s.length > longestName then .error .nameTooLong
    else match t.node? (here ++ [s]) with
      | none => if made ∧ rest = [] then .ok (here ++ [s]) else .error .notFound
      | some (.link target) =>
        follow (if target.isAbsolute then [] else here) (target.segments ++ rest)
      | some _ => walkWith t made follow (here ++ [s]) rest

def walk (t : Tree) (made : Bool) : Nat → Location → List Name → Except Cause Location
  | 0 => walkWith t made fun _ _ => .error .tooManyLinks
  | links + 1 => walkWith t made (walk t made links)

def landing (t : Tree) (names : List Name) : Location :=
  names.foldl (fun here s =>
    match t.walk true mostLinks here [s] with
    | .ok there => there
    | .error _ => here ++ [s]) []

end Tree

inductive Spot where
  | place (place : Location)
  | removed
  deriving DecidableEq, Repr

structure Site where
  tree : Tree
  here : Location
  lost : Nat
  deriving DecidableEq, Repr

namespace Site

/- A removed directory is empty, and `..` still leads out of it. -/
def walkOut (t : Tree) : Nat → Location → List Name → Except Cause Spot
  | 0, here, names => (t.walk false Tree.mostLinks here names).map .place
  | _ + 1, _, [] => .ok .removed
  | lost + 1, here, s :: rest =>
    if Path.isBlank s then walkOut t (lost + 1) here rest
    else if s = [Path.dot, Path.dot] then walkOut t lost here.dropLast rest
    else .error .notFound

def resolve (site : Site) (p : Path) : Except Cause Spot :=
  if p.bytes.contains 0 then .error .nulInPath
  else if p.bytes = [] then .error .notFound
  else if p.bytes.length > Tree.longestPath then .error .nameTooLong
  else if p.isAbsolute then walkOut site.tree 0 [] p.segments
  else walkOut site.tree site.lost site.here p.segments

def nodeAt (site : Site) (p : Path) : Except Cause Node :=
  match site.resolve p with
  | .error cause => .error cause
  | .ok .removed => .ok .directory
  | .ok (.place place) =>
    match site.tree.node? place with
    | none => .error .notFound
    | some node => .ok node

def namesAt (site : Site) : Spot → List Name
  | .removed => []
  | .place place => site.tree.names place

def pathTo (place : Location) : Path := ⟨Path.slash :: Path.unsplit place⟩

def disk (site : Site) : Disk where
  current := if site.lost = 0 then .ok (pathTo site.here) else .error .notFound
  kind p := match site.nodeAt p with
    | .error cause => .error cause
    | .ok (.file _) => .ok .file
    | .ok .directory => .ok .directory
    | .ok _ => .ok .special
  bytes p := match site.nodeAt p with
    | .error cause => .error cause
    | .ok (.file bytes) => .ok bytes
    | .ok .directory => .error .isDirectory
    | .ok _ => .ok []
  entries p := match site.nodeAt p with
    | .error cause => .error cause
    | .ok .directory => (site.resolve p).map fun spot => (site.namesAt spot).map .name
    | .ok _ => .error .notDirectory

def entryPlace (site : Site) (names : List Name) : Location :=
  site.tree.landing names.dropLast ++ names.getLast?.toList

def insert (site : Site) (names : List Name) (node : Node) : Site :=
  let place := match node with
    | .file _ | .directory => site.tree.landing names
    | _ => site.entryPlace names
  { site with tree := site.tree.insert place node }

/- A directory made anew under the name of a removed one is another directory. -/
def erase (site : Site) (names : List Name) : Site :=
  let place := site.entryPlace names
  { tree := site.tree.erase place
    here := site.here
    lost :=
      if place.isPrefixOf site.here then max site.lost (site.here.length - place.length + 1)
      else site.lost }

end Site

end ShellStyle
