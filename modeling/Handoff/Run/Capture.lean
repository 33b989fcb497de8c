/-!
# Captured output

How much of a captured stream is kept for a failed command.
-/

namespace Handoff.Capture

def defaultLimit : Nat := 33554432

def truncationLine (count : Nat) : ByteArray :=
  ("[" ++ toString count ++ " bytes truncated]\n").toUTF8

/-- The bytes of a stream from the place `start` on, at most `count` of them. -/
def window (start count : Nat) (content : ByteArray) : ByteArray :=
  content.extract start (start + count)

/-- The whole stream if it fits in `limit` bytes, else its last `limit` bytes after a
line that tells how many were left out. -/
def keep (limit : Nat) (content : ByteArray) : ByteArray :=
  if content.size ≤ limit then content
  else
    let left := content.size - limit
    truncationLine left ++ window left limit content

end Handoff.Capture
