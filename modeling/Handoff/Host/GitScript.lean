import Handoff.Git
import Handoff.Host.Launch
import Handoff.Host.Basic
/-!
# A scripted git

A git program on a host whose answers are laid down beforehand, one for each time it
is called.
-/

namespace Handoff

structure GitReply where
  stdout : ByteArray
  stderr : ByteArray
  /-- The files that it writes, under the home directory. -/
  writes : List (String × ByteArray)
  status : ExitStatus

structure GitScript where
  installed : Bool
  /-- The directory that written files are named from. -/
  home : Location
  replies : List GitReply
  /-- The argument lists that it was called with. -/
  calls : List (List String)

namespace GitScript

/-- What git does when nothing is laid down: it succeeds without a word. -/
def silent : GitReply where
  stdout := ByteArray.empty
  stderr := ByteArray.empty
  writes := []
  status := .exited 0

def accepts (arguments : List String) (host : Host) : Bool :=
  Launch.fit (("git" :: arguments ++ Launch.settingTexts host.env).map String.utf8ByteSize)

def invoke (arguments : List String) (script : GitScript) (host : Host) :
    Except OsFault GitOutput × GitScript × Host :=
  if arguments.any fun argument => argument.toList.contains '\x00' then
    (.error .nulInArgument, script, host)
  else if !script.installed then (.error .notFound, script, host)
  else if !accepts arguments host then (.error .argumentsTooLong, script, host)
  else
    let reply := script.replies.head?.getD silent
    let host := reply.writes.foldl
      (fun host (path, content) => host.putFile script.home ⟨path⟩ content) host
    (.ok { status := reply.status, stdout := reply.stdout, stderr := reply.stderr },
      { script with replies := script.replies.tail, calls := script.calls ++ [arguments] },
      host)

def run {α : Type} (program : Program Git α) (script : GitScript) (host : Host) :
    α × GitScript × Host :=
  let answer (arguments : List String) :
      StateM (GitScript × Host) (Except OsFault GitOutput) := fun (script, host) =>
    invoke arguments script host
  Program.run (I := Git) (m := StateM (GitScript × Host)) answer program (script, host)

end GitScript

end Handoff
