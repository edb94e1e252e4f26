import Concordance.Command.Options
import Concordance.Settings.File
import Concordance.Workspace.Root

/-!
# Starting a server

What a server is started with: the options, the environment and the settings file put together.

## Main definitions

* `Start`: what a server is started with
* `Start.ofOptions`: the same from the options
-/

namespace Concordance.Command

/-- What a server is started with. -/
structure Start where
  root : Path
  settings : Settings
  transport : String
  watch : Bool

/-- What a server is started with in a directory of a file tree. The root is settled before the
settings are read. -/
def Start.ofOptions (tree : Entry) (directory : Path) (environment : Table String String)
    (o : Options) (homes : String → String := id) : Except Failure Start := do
  let root ← resolveRoot tree directory o.workspaceRoot environment homes
  let file := directory.append (o.config.getD (.ofText Settings.fileName))
  let settings ← Settings.ofTree tree file
  pure { root, settings, transport := o.transport, watch := o.watch.getD settings.watch }

end Concordance.Command
