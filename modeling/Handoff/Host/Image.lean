import Handoff.Host.Process
/-!
# A fresh host

The files that are there before anyone has worked on a host.
-/

namespace Handoff

namespace FileTree

def locationOf (path : String) : Location :=
  ((path.splitOn "/").filter (· != "")).map FileName.named

def programNames : List String :=
  Tool.shells ++ Tool.installed.map Prod.fst

def directories : List String :=
  ["/tmp", "/usr/bin", "/dev", "/proc/self/fd", "/etc", "/root", "/var/tmp"]

def devices : List (String × DeviceName) :=
  [("/dev/null", .null), ("/dev/zero", .zero), ("/dev/full", .full), ("/dev/random", .zero),
    ("/dev/urandom", .zero), ("/dev/tty", .terminal)] ++
    (List.range 10).map fun number => ("/proc/self/fd/" ++ toString number, .descriptor number)

def links : List (String × String) :=
  [("/bin", "usr/bin"), ("/dev/fd", "/proc/self/fd"), ("/dev/stdin", "/proc/self/fd/0"),
    ("/dev/stdout", "/proc/self/fd/1"), ("/dev/stderr", "/proc/self/fd/2")]

def fresh : FileTree :=
  let tree : FileTree := { entries := [], nextId := 1 }
  let tree := directories.foldl (fun tree path => tree.place (locationOf path) .directory) tree
  let tree := devices.foldl
    (fun tree (path, name) => tree.place (locationOf path) (.device name)) tree
  let tree := links.foldl
    (fun tree (path, target) => tree.place (locationOf path) (.link target)) tree
  programNames.foldl
    (fun tree name => tree.place (locationOf "/usr/bin" ++ [.named name]) (.tool name)) tree

end FileTree

namespace Host

def firstProcess : Nat := 1000

/-- A fresh host, seen by a process that works in the directory `home`. -/
def fresh (home : String) : Host :=
  let cwd := FileTree.locationOf home
  { kernel :=
      { files := FileTree.fresh.place cwd .directory, clock := 0, streams := [], pipes := []
        nameless := [], tasks := [Task.outer firstProcess cwd], nextProcess := firstProcess + 1
        nextStream := 1 }
    cwd
    process := firstProcess
    serial := 0
    tag := "XXXXXX"
    env := StringMap.ofList [("PATH", "/usr/local/bin:/usr/bin:/bin"), ("HOME", "/root")]
    executable := some ⟨"/usr/local/bin/ho_runner"⟩ }

end Host

end Handoff
