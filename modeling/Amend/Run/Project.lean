import Amend.Catalog.Document
import Amend.FileTree.Machine
import Amend.Run.Config

/-!
# Projects on a machine

A project is a directory. Its settings are in its configuration file, and its rules in the
built-in catalog or in one of its own. A file that does not hold what it should is a fault of the
configuration and never passed over.
-/

set_option autoImplicit false

namespace Amend

/-- The configuration file of a project. -/
def configPath (root : Path) : Path :=
  root ++ configFile

namespace Machine

/-- The settings on file for a project; nothing if it has no configuration file. -/
def config? (m : Machine) (root : Path) : Except ConfigFault (Option Config) :=
  let path := configPath root
  if m.pathExists path then
    match m.tree.readText m.cwd path with
    | .error e => .error (.unreadableConfig path e)
    | .ok text =>
      match Config.ofText? text with
      | .error e => .error (.malformedConfig path e)
      | .ok config => .ok (some config)
  else .ok none

/-- The settings of a project: those on file, or the defaults. -/
def config (m : Machine) (root : Path) : Except ConfigFault Config :=
  (m.config? root).map fun config => config.getD {}

/-- The tree with the settings on file for a project. -/
def saveConfig (m : Machine) (root : Path) (config : Config) : Except FileError FileTree :=
  m.tree.write m.cwd (configPath root) config.toText.toUTF8

/-- The nearest directory with a configuration file, from `start` upwards. -/
def projectAbove? (m : Machine) (start : Path) : Option Path :=
  start.ancestors.find? fun dir => m.isFile (configPath dir)

/-- The project to work on: the one that is named, else the nearest one from the working directory
upwards, else the working directory itself. -/
def projectRoot (m : Machine) (base : Option Path) : Path :=
  base.getD ((m.projectAbove? m.cwdPath).getD m.cwdPath)

/-- The catalog of a source. -/
def catalog (m : Machine) : CatalogSource → Except ConfigFault Catalog
  | .builtIn => Catalog.builtIn
  | .file path =>
    match m.tree.readText m.cwd path with
    | .error e => .error (.unreadableCatalog path e)
    | .ok text => Catalog.ofYaml? text

end Machine

end Amend
