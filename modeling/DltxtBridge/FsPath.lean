import DltxtBridge.Strings

/-! The part of `std::filesystem::path` the bridge uses, on POSIX: a path is its root
directory and its elements, where a trailing separator gives an empty last element. -/

namespace DltxtBridge

structure FsPath where
  rootDirectory : Bool := false
  elements : List Bytes := []
deriving DecidableEq

namespace FsPath

def dot : Bytes := [46]

def dotDot : Bytes := [46, 46]

def pieces (text : Bytes) : List Bytes := text.splitOn 47

def ofBytes (text : Bytes) : FsPath where
  rootDirectory := text.head? = some 47
  elements :=
    let names := (pieces text).filter (· ≠ [])
    if names ≠ [] ∧ text.getLast? = some 47 then names ++ [[]] else names

def empty (p : FsPath) : Bool := !p.rootDirectory && p.elements.isEmpty

/-- What iterating over the path gives. -/
def components (p : FsPath) : List Bytes := (if p.rootDirectory then [[47]] else []) ++ p.elements

def filename (p : FsPath) : Bytes := p.elements.getLast?.getD []

def genericString (p : FsPath) : Bytes :=
  (if p.rootDirectory then [47] else []) ++ List.intercalate [47] p.elements

def parentPath (p : FsPath) : FsPath := { p with elements := p.elements.dropLast }

/-- The last period of a name starts its extension, unless it starts the name. -/
def extension (p : FsPath) : Bytes :=
  let name := p.filename
  if name = dot ∨ name = dotDot then []
  else
    let reversed := name.reverse.takeWhile (· ≠ 46)
    if reversed.length + 1 < name.length then 46 :: reversed.reverse else []

/-- `operator/=`. -/
def append (p q : FsPath) : FsPath :=
  if q.rootDirectory then q
  else
    let stem := if p.filename = [] then p.elements.dropLast else p.elements
    if q.elements = [] then { p with elements := if p.filename = [] then p.elements else p.elements ++ [[]] }
    else { p with elements := stem ++ q.elements }

/-- One name of a path under normalisation; `names` holds the result so far, reversed. -/
def normalStep (rootDirectory : Bool) (names : List Bytes) (name : Bytes) : List Bytes :=
  if name = [] ∨ name = dot then names
  else if name = dotDot then
    match names with
    | [] => if rootDirectory then [] else [dotDot]
    | last :: rest => if last = dotDot then dotDot :: names else rest
  else name :: names

def lexicallyNormal (p : FsPath) : FsPath :=
  if p.empty then p
  else
    let names := (p.elements.foldl (normalStep p.rootDirectory) []).reverse
    let directory := p.filename = [] ∨ p.filename = dot ∨ p.filename = dotDot
    if names = [] then { p with elements := if p.rootDirectory then [] else [dot] }
    else if directory ∧ names.getLast? ≠ some dotDot then { p with elements := names ++ [[]] }
    else { p with elements := names }

def mismatch : List Bytes → List Bytes → List Bytes × List Bytes
  | a :: as, b :: bs => if a = b then mismatch as bs else (a :: as, b :: bs)
  | as, bs => (as, bs)

def lexicallyRelative (p base : FsPath) : FsPath :=
  if p.rootDirectory ≠ base.rootDirectory then {}
  else
    let (rest, baseRest) := mismatch p.components base.components
    let down := baseRest.countP fun name => name ≠ [] ∧ name ≠ dot ∧ name ≠ dotDot
    let up := baseRest.countP fun name => name = dotDot
    if rest = [] ∧ baseRest = [] then { elements := [dot] }
    else if down < up then {}
    else if down = up ∧ (rest = [] ∨ rest.head? = some []) then { elements := [dot] }
    else (List.replicate (down - up) dotDot ++ rest).foldl
      (fun q name => q.append { elements := if name = [] then [] else [name] }) {}

end FsPath

end DltxtBridge
