import Mathlib.Data.List.Infix
import Syntra.Files.Offer

/-!
# The URIs of the own mount

The file-clipboard plugin publishes URIs of its mount (`plugins/fuse/src/main.rs`), and the daemon
takes a list of such URIs for its own (`service/clipboard_sync.rs`).
-/

namespace Syntra.ClipboardSync

open ByteFormat Files List

/-- `str::contains`. -/
def contains (text pattern : List Char) : Bool := text.tails.any pattern.isPrefixOf

def marked (line : List Char) : Bool :=
  contains line "syntra/clipboard/".toList || contains line "lan%2Dmouse/clipboard/".toList

/-- The names on the way to a path, each `..` taking back the one before it. -/
def resolve (components : List Component) : List Bytes :=
  components.foldl (fun names component =>
    match component with
    | .curDir => names
    | .parentDir => names.dropLast
    | .normal name => names ++ [name]) []

/-- Among the parts between the slashes of a URI as it is written, one ends in `syntra` or
`lan%2Dmouse`, the next is `clipboard`, and there is another one. -/
def Carries (line : List Char) : Prop :=
  ∃ before name rest, line.splitOn '/' = before ++ name :: "clipboard".toList :: rest ∧
    rest ≠ [] ∧ ("syntra".toList <:+ name ∨ "lan%2Dmouse".toList <:+ name)

end Syntra.ClipboardSync
