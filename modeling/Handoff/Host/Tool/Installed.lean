import Handoff.Host.Shell.Invocation
import Handoff.Host.Tool.Comparing
import Handoff.Host.Tool.Copying
import Handoff.Host.Tool.Date
import Handoff.Host.Tool.Dump
import Handoff.Host.Tool.Edit
import Handoff.Host.Tool.Find
import Handoff.Host.Tool.Lines
import Handoff.Host.Tool.Search
import Handoff.Host.Tool.Stream
import Handoff.Host.Tool.Words
/-!
# The installed programs

The programs that stand in the directory for programs, and how each of them is run.
-/

namespace Handoff

namespace Tool

def installed : List (String × Tool) :=
  [("[", testInBrackets), ("base64", rewriteInSextets), ("basename", baseNames),
    ("cat", concatenate), ("chmod", changeModes), ("cmp", compareFiles), ("comm", commonLines),
    ("cp", copy), ("cut", cut), ("date", showDate), ("dd", copyBlocks),
    ("diff", showDifferences), ("dirname", directoryNames), ("echo", echoWords),
    ("egrep", search), ("env", withSettings), ("expand", expandTabs), ("expr", calculate),
    ("false", failAlways), ("fgrep", search), ("find", Find.program), ("fold", foldLines),
    ("grep", search), ("head", head), ("id", showUser), ("kill", sendSignals), ("ln", link),
    ("ls", listFiles), ("mkdir", makeDirectories), ("mktemp", temporaryFile), ("mv", move),
    ("nice", runNicely), ("nl", numberLines), ("nohup", ignoreHangUp), ("od", dump),
    ("paste", paste), ("printenv", showSettings), ("printf", printFormatted),
    ("pwd", workDirectory), ("readlink", readLinks), ("realpath", realPaths),
    ("rev", reverseLines), ("rm", remove), ("rmdir", removeDirectories), ("sed", Edit.program),
    ("seq", sequence), ("setsid", runApart), ("sleep", pause), ("sort", sortLines),
    ("stat", describeFiles), ("stdbuf", runBuffered), ("sync", succeed), ("tac", backwards),
    ("tail", tail), ("tee", tee), ("test", test), ("timeout", limitTime), ("touch", touch),
    ("tr", transliterate), ("true", succeed), ("truncate", truncateFiles), ("tty", showTerminal),
    ("uname", showSystem), ("uniq", unique), ("unlink", unlinkOne), ("wc", count),
    ("which", whichFiles), ("whoami", showUserName), ("xargs", runForWords), ("yes", yes)]

def shells : List String := ["sh", "dash"]

def unknownCode : Nat := 127

/-- Runs a program of the system; `depth` bounds how many programs run each other. -/
def launcher : Nat → Launcher
  | 0, _, _ => return exited unknownCode
  | depth + 1, image, env =>
      if shells.contains image.tool then Shell.program (launcher depth) image env
      else
        match installed.lookup image.tool with
        | some tool =>
            tool { name := image.argv.head?.getD image.tool, arguments := image.argv.tail, env,
                   launch := launcher depth }
        | none => return exited unknownCode

def launchDepth : Nat := 1000000000

end Tool

end Handoff
