import Handoff.Blob.Key
/-!
# Paths

File paths as text, taken apart at their slashes.  Two paths are the same when their
parts are, so repeated slashes and inner dots make no difference.
-/

namespace Handoff

structure Path where
  text : String
  deriving DecidableEq

inductive PathPart where
  | root
  | current
  | parent
  | name (text : String)
  deriving DecidableEq, Repr

namespace Path

def pieces (path : Path) : List String :=
  BlobKey.segmentsOf path.text

/-- A piece that is no part of the path: empty, or an inner dot. -/
def isIdle (piece : String) : Bool :=
  piece == "" || piece == "."

def partOf (piece : String) : Option PathPart :=
  if isIdle piece then none
  else if piece = ".." then some .parent
  else some (.name piece)

def isAbsolute (path : Path) : Bool :=
  path.text.toList.head? == some '/'

def parts (path : Path) : List PathPart :=
  if path.isAbsolute then .root :: path.pieces.filterMap partOf
  else
    match path.pieces with
    | "." :: rest => .current :: rest.filterMap partOf
    | pieces => pieces.filterMap partOf

def same (a b : Path) : Bool :=
  a.parts == b.parts

def join (path : Path) (piece : String) : Path :=
  if (Path.mk piece).isAbsolute || path.text == "" then ⟨piece⟩
  else if path.text.toList.getLast? == some '/' then ⟨path.text ++ piece⟩
  else ⟨path.text ++ "/" ++ piece⟩

def trimIdle (pieces : List String) : List String :=
  (pieces.reverse.dropWhile isIdle).reverse

/-- The path without its last part; the root and the empty path have no parent. -/
def parent? (path : Path) : Option Path :=
  if path.text = "" then none
  else
    match path.pieces with
    | [] => none
    | first :: rest =>
        match (trimIdle rest).reverse with
        | [] => if first = "" then none else some ⟨""⟩
        | _ :: before =>
            let kept := trimIdle before.reverse
            if first = "" ∧ kept = [] then some ⟨"/"⟩
            else some ⟨"/".intercalate (first :: kept)⟩

/-- The path and at most `count` of those above it, the nearest first. -/
def climb : Nat → Path → List Path
  | 0, _ => []
  | count + 1, path =>
      path :: match path.parent? with
        | some above => climb count above
        | none => []

def ancestors (path : Path) : List Path :=
  path.climb (path.pieces.length + 1)

end Path

end Handoff
