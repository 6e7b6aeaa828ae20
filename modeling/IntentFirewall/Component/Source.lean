import IntentFirewall.Component.Manifest
import IntentFirewall.Storage.FileTree

/-!
# Where components come from

The components of a package are read from the manifest of the installed package, or else from that
of its archive. If neither can be read, the error names both reasons.

* `ComponentSource`: a way to find the components of a package.
* `ComponentSource.onDisk`: installed packages below a directory, and archives anywhere.
-/

namespace IntentFirewall

/-- Why the components of a package cannot be found. -/
inductive ComponentError
  /-- Neither the installed package nor an archive yields them. -/
  | unresolved (package reason : String)
  /-- A manifest cannot be read. -/
  | manifest (cause : ManifestError)
  /-- The text is no package name. -/
  | badName (name : String)
  /-- A file cannot be read. -/
  | file (cause : FileError)
  deriving DecidableEq, Repr

/-- The wording of a component error. -/
def ComponentError.message : ComponentError → String
  | .unresolved package reason =>
    s!"Could not resolve components for package {package}: {reason}"
  | .manifest cause => s!"Invalid manifest: {cause.message}"
  | .badName name => s!"Invalid manifest: invalid package name: {name}"
  | .file cause => s!"IO error: {cause.message}"

/-- A way to find the components of a package, given a storage with states in `σ`. -/
abbrev ComponentSource (σ : Type) := PackageIdentity → σ → Except ComponentError PackageComponents

namespace ComponentSource

/-- The name of the manifest in a package. -/
def manifestFile : String := "AndroidManifest.xml"

/-- The components in the manifest at a path. -/
def readManifestAt (path : String) (t : FileTree) : Except ComponentError PackageComponents :=
  match t.readText path with
  | .error e => .error (.file e)
  | .ok text => (readManifest text).mapError .manifest

/-- The path of the manifest of an installed package. A text that is no package name has none. -/
def installedPath? (root packageName : String) : Option String :=
  if isPackageName packageName then
    some (Path.join (Path.join root packageName) manifestFile)
  else none

/-- Whether a package is installed. -/
def isInstalled (root packageName : String) (t : FileTree) : Bool :=
  match installedPath? root packageName with
  | none => false
  | some path =>
    match t.resolve path with
    | .ok place => (t.bytes? place).isSome
    | .error _ => false

/-- The components of an installed package. -/
def installed (root packageName : String) (t : FileTree) :
    Except ComponentError PackageComponents :=
  match installedPath? root packageName with
  | none => .error (.badName packageName)
  | some path => readManifestAt path t

/-- The components of an archive, which is a manifest or a directory that holds one. -/
def archived (archive : String) (t : FileTree) : Except ComponentError PackageComponents :=
  readManifestAt (if t.isDirectory archive then Path.join archive manifestFile else archive) t

/-- The components of the installed package, or the reason why there are none. -/
def fromInstalled (root packageName : String) (t : FileTree) :
    Except String PackageComponents :=
  if isInstalled root packageName t then
    (installed root packageName t).mapError fun e => s!"installed package: {e.message}"
  else .error "package is not installed"

/-- The components of the archive, or the reason why there are none. -/
def fromArchive (archive : Option String) (t : FileTree) : Except String PackageComponents :=
  match archive with
  | none => .error "no archive path"
  | some path => (archived path t).mapError fun e => s!"archive {path}: {e.message}"

/-- Installed packages below the directory `root`, and archives as a second choice. -/
def onDisk (root : String) : ComponentSource FileTree := fun package t =>
  match fromInstalled root package.packageName t with
  | .ok components => .ok components
  | .error notInstalled =>
    match fromArchive package.archivePath t with
    | .ok components => .ok components
    | .error noArchive =>
      .error (.unresolved package.packageName
        (Text.joinWith "; " [notInstalled, noArchive]))

end ComponentSource
end IntentFirewall
