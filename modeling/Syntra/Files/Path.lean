import Syntra.ByteFormat.Reader

/-!
# Paths

`std::path` on a Unix target: a path is the sequence of components that `Path::components` yields.
-/

namespace Syntra.Files

open ByteFormat

/-- A part of a path. -/
inductive Component where
  | curDir
  | parentDir
  | normal (name : Bytes)
  deriving DecidableEq, Repr

/-- A path by its components; the root directory is the `absolute` flag. -/
structure PathBuf where
  absolute : Bool
  components : List Component
  deriving DecidableEq, Repr

namespace PathBuf

/-- `PathBuf::default()`. -/
def empty : PathBuf := ⟨false, []⟩

def componentOf (part : Bytes) : Option Component :=
  if part = [] ∨ part = [0x2e] then none
  else if part = [0x2e, 0x2e] then some .parentDir
  else some (.normal part)

/-- `PathBuf::from`: empty parts and inner dots disappear, a leading dot stays. -/
def ofBytes (text : Bytes) : PathBuf :=
  let parts := text.splitOn 0x2f
  let absolute := parts.length > 1 ∧ parts.head? = some []
  let leading := if parts.head? = some [0x2e] then [Component.curDir] else []
  ⟨absolute, leading ++ parts.filterMap componentOf⟩

/-- A part of a path that names an entry of a directory and nothing else. -/
structure IsName (part : Bytes) : Prop where
  nonempty : part ≠ []
  notDot : part ≠ utf8 "."
  notDots : part ≠ utf8 ".."
  unslashed : 0x2f ∉ part

theorem IsName.ofBytes {part : Bytes} (name : IsName part) :
    ofBytes part = ⟨false, [.normal part]⟩ := by
  have whole : part.splitOn 0x2f = [part] := by
    apply List.splitOnP_eq_singleton
    intro _ member
    apply beq_eq_false_iff_ne.mpr
    rintro rfl
    exact name.unslashed member
  have dot : part ≠ [0x2e] := name.notDot
  have dots : part ≠ [0x2e, 0x2e] := name.notDots
  unfold PathBuf.ofBytes
  rw [whole]
  simp [componentOf, dot, dots, name.nonempty]

/-- `Path::new` of a `str`. -/
def ofText (text : String) : PathBuf := ofBytes (utf8 text)

def isAbsolute (path : PathBuf) : Bool := path.absolute

def join (path other : PathBuf) : PathBuf :=
  if other.absolute then
    other
  else if path = empty then
    other
  else
    ⟨path.absolute, path.components ++ other.components.filter (· ≠ .curDir)⟩

def parent (path : PathBuf) : Option PathBuf :=
  if path.components = [] then none else some ⟨path.absolute, path.components.dropLast⟩

def fileName (path : PathBuf) : Option Bytes :=
  match path.components.getLast? with
  | some (.normal name) => some name
  | _ => none

def stripPrefix (path base : PathBuf) : Option (List Component) :=
  if path.absolute = base.absolute ∧ base.components.isPrefixOf path.components then
    some (path.components.drop base.components.length)
  else
    none

def startsWith (path base : PathBuf) : Bool :=
  path.absolute = base.absolute && base.components.isPrefixOf path.components

/-- `PathBuf::push` of one component. -/
def push (path : PathBuf) (component : Component) : PathBuf :=
  ⟨path.absolute, path.components ++ [component]⟩

end PathBuf

end Syntra.Files
