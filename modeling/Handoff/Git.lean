import Handoff.Path
import Handoff.Round.Fault
import Handoff.Run.ExitStatus
import Handoff.Text.Utf8
/-!
# The git checkout

Brings a local checkout to an offered revision by running git.  Local modifications
are never touched.
-/

namespace Handoff

structure GitOutput where
  status : ExitStatus
  stdout : ByteArray
  stderr : ByteArray
  deriving DecidableEq

/-- The interface of the git program: an argument list for each run. -/
def Git : Interface where
  Request := List String
  Answer _ := Except OsFault GitOutput

abbrev GitM (α : Type) := ExceptT VcsFault (Program Git) α

structure GitClient where
  repo : Path
  branch : String

namespace GitClient

def invoke (client : GitClient) (arguments : List String) : GitM GitOutput :=
  ExceptT.mk do
    match ← Program.request (I := Git) ("-C" :: client.repo.text :: arguments) with
    | .ok output => return .ok output
    | .error fault => return .error (.os fault)

def streamText (stream : ByteArray) : String :=
  Text.trim (Text.decodeLossy stream)

/-- Runs git in the checkout; an exit other than success is a fault. -/
def demand (client : GitClient) (arguments : List String) : GitM GitOutput := do
  let output ← client.invoke arguments
  if output.status.success then return output
  throw (.git (" ".intercalate arguments) output.status.text (streamText output.stderr))

def ensureClean (client : GitClient) : GitM Unit := do
  let difference ← client.demand ["diff", "HEAD"]
  unless difference.stdout.isEmpty do
    throw (.dirty client.repo.text)

def head (client : GitClient) : GitM WorkUnitId := do
  let output ← client.demand ["rev-parse", "HEAD"]
  match WorkUnitId.ofText (Text.decodeLossy output.stdout) with
  | .ok id => return id
  | .error fault => throw (.invalidHead fault)

/-- Brings the branch up to date and checks out `id`.  `none` when that revision cannot
be checked out, else the revision now checked out. -/
def syncTo (client : GitClient) (id : WorkUnitId) : GitM (Option WorkUnitId) := do
  client.ensureClean
  let _ ← client.demand ["checkout", client.branch]
  let _ ← client.demand ["pull"]
  let checkout ← client.invoke ["checkout", id.text]
  if checkout.status.success then some <$> client.head else return none

end GitClient

end Handoff
