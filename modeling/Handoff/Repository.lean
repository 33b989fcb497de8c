import Handoff.Files
/-!
# The enclosing repository

Where the program works unless it is told: the git checkout around a directory, and
the store and plan in it.
-/

namespace Handoff.Repository

def storeDirectory : String := ".handoff/store"
def planName : String := "handoff-plan.json"

def firstCheckout : List Path → Program Files (Option Path)
  | [] => return none
  | directory :: above => do
      if ← Files.isThere (directory.join ".git") then return some directory
      firstCheckout above

def findRoot (start : Path) : Program Files (Option Path) :=
  firstCheckout start.ancestors

def defaultRoot (cwd : Path) : Program Files Path := do
  return (← findRoot cwd).getD cwd

def storeOf (repo : Path) : Path := repo.join storeDirectory

def planOf (repo : Path) : Path := repo.join planName

end Handoff.Repository
