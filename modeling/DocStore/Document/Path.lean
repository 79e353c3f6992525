import DocStore.Text.Utf8

/-!
# Paths of media files

A `Path` is a byte sequence in which slashes separate segments. `absolute?` puts the segments of a
path behind its root, or behind the working directory if the path is relative. It leaves out empty
and `.` segments; `..` segments stay, because what they mean depends on links. `Path.same` compares
paths segment by segment.
-/

namespace DocStore

structure Path where
  bytes : List UInt8
  deriving DecidableEq

namespace Path

def slash : UInt8 := 47

def dot : UInt8 := 46

def ofText (s : String) : Path := ⟨Utf8.encode s⟩

/-- The path as text; bytes that are not UTF-8 are replaced. -/
def toText (p : Path) : String := Utf8.lossy p.bytes

/-- The pieces between slashes, empty ones among them. -/
def pieces : List UInt8 → List (List UInt8)
  | [] => [[]]
  | b :: rest =>
    if b = slash then [] :: pieces rest
    else
      match pieces rest with
      | [] => [[b]]
      | piece :: others => (b :: piece) :: others

/-- The segments that name something: neither empty nor `.`. -/
def segments (p : Path) : List (List UInt8) :=
  (pieces p.bytes).filter fun s => !s.isEmpty && s != [dot]

def isAbsolute (p : Path) : Bool := p.bytes.head? == some slash

/-- The path is `.` or starts with `./`. -/
def startsAtDot (p : Path) : Bool := (pieces p.bytes).head? == some [dot]

/-- Exactly two slashes at the start are kept, since systems may give them a meaning. -/
def root (p : Path) : List UInt8 :=
  match (p.bytes.takeWhile (· == slash)).length with
  | 2 => [slash, slash]
  | _ => [slash]

/-- Puts a segment behind a path, with a slash between them unless there is one. -/
def push (base segment : List UInt8) : List UInt8 :=
  match base.getLast? with
  | some last => if last = slash then base ++ segment else base ++ slash :: segment
  | none => segment

/-- Puts the segments of a path behind another one. A slash at the end means a directory and is
kept. -/
def pushAll (base : List UInt8) (p : Path) : List UInt8 :=
  let whole := p.segments.foldl push base
  if p.bytes.getLast? = some slash then push whole [] else whole

def same (p q : Path) : Bool :=
  p.isAbsolute == q.isAbsolute && p.startsAtDot == q.startsAtDot && p.segments == q.segments

end Path

/-- The directory in which a program runs. Systems give it as an absolute path. -/
structure WorkingDirectory where
  path : Path
  isAbsolute : path.isAbsolute = true

namespace Path

/-- What a path stands behind: its root if it is absolute, else the working directory. -/
def base? (directory : Option WorkingDirectory) (p : Path) : Option (List UInt8) :=
  if p.isAbsolute then some p.root else directory.map (·.path.bytes)

/-- The path from the root. The empty path has none, and without a working directory relative paths
have none either. -/
def absolute? (directory : Option WorkingDirectory) (p : Path) : Option Path :=
  if p.bytes.isEmpty then none else (p.base? directory).map fun base => ⟨pushAll base p⟩

end Path

end DocStore
