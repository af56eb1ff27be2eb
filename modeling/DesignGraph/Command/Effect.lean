import DesignGraph.Command.Run
import DesignGraph.Storage.Tree

/-! # What a run does to the files

A run on a tree of files looks at no others, and of all files it changes the one that its outcome hands
over to be written. -/

namespace DesignGraph.Command

open Storage (Tree)

/-- The files after an outcome. -/
def Outcome.after (outcome : Outcome) (t : Tree) : Tree :=
  match outcome.saved? with
  | some (path, text) => t.write path (Text.encodeUtf8 text)
  | none => t

/-- A run on files: its outcome, and the files after it. -/
def runIn (lib : Settings.Library) (t : Tree) (environment : List (String × String)) (words : List String) :
    Outcome × Tree :=
  let outcome := run lib t.look environment words
  (outcome, outcome.after t)

end DesignGraph.Command
