import Handoff.Files
import Handoff.Sha256
/-!
# The source watch

Notices that one of the files a program was started from has changed.  Contents are told
apart by their digests, and a file that cannot be read counts as a content of its own.
-/

namespace Handoff

/-- What is kept of a file: the digest of its content, or `none` when it cannot be read. -/
abbrev Fingerprint := Option Sha256.Words

structure SourceWatch where
  baseline : List (Path × Fingerprint)

namespace SourceWatch

def empty : SourceWatch := ⟨[]⟩

def fingerprint (path : Path) : Program Files Fingerprint := do
  match ← Files.read path with
  | .ok content => return some (Sha256.digest content)
  | .error _ => return none

/-- The paths that none before them is the same as; `seen` went before all of them. -/
def distinctAfter (seen : List Path) : List Path → List Path
  | [] => []
  | path :: rest =>
      if seen.any path.same then distinctAfter seen rest
      else path :: distinctAfter (path :: seen) rest

def distinct (paths : List Path) : List Path :=
  distinctAfter [] paths

def fingerprints : List Path → Program Files (List (Path × Fingerprint))
  | [] => return []
  | path :: rest => do
      let found ← fingerprint path
      return (path, found) :: (← fingerprints rest)

def capture (paths : List Path) : Program Files SourceWatch := do
  return ⟨← fingerprints (distinct paths)⟩

def paths (watch : SourceWatch) : List Path :=
  watch.baseline.map Prod.fst

def firstChanged : List (Path × Fingerprint) → Program Files (Option Path)
  | [] => return none
  | (path, before) :: rest => do
      let now ← fingerprint path
      if now = before then firstChanged rest else return some path

def changed (watch : SourceWatch) : Program Files (Option Path) :=
  firstChanged watch.baseline

def reloadWanted (watch : SourceWatch) : Program Files Bool := do
  return (← watch.changed).isSome

end SourceWatch

end Handoff
