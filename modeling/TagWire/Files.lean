import TagWire.Text.Utf8

/-!
# Files

Files as catalogs and commands see them: under a path there is a byte string, or there is a fault,
worded as an operating system words it. `Files` is what reads and writes them, in a monad of its
own, so that the same command runs on a disk and on files in memory.
-/

namespace TagWire

/-- Why a file cannot be read or written. -/
inductive FileFault where
  | notFound
  | isDirectory
  /-- The bytes are no UTF-8 text. -/
  | notText
  /-- Any other fault, in the words of the system. -/
  | other (message : String)
deriving DecidableEq, Repr

/-- The wording of a fault. -/
def FileFault.message : FileFault → String
  | notFound => "No such file or directory (os error 2)"
  | isDirectory => "Is a directory (os error 21)"
  | notText => "stream did not contain valid UTF-8"
  | other message => message

/-- Access to files. -/
structure Files (m : Type → Type) where
  read : String → m (Except FileFault (List UInt8))
  write : String → List UInt8 → m (Except FileFault Unit)

/-- The text of a file. -/
def Files.readText {m : Type → Type} [Monad m] (files : Files m) (path : String) :
    m (Except FileFault String) := do
  match ← files.read path with
  | .error fault => return .error fault
  | .ok bytes =>
    match Text.Utf8.toString? bytes with
    | .ok text => return .ok text
    | .error _ => return .error .notText

end TagWire
