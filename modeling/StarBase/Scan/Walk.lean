import StarBase.Index.FrameStore

/-!
# The walk

What a sweep reads of a root: the files in the order the directory walk yields them, each with its
`stat` and its header, and the names the walk leaves out.
-/

namespace StarBase.Scan

open Extract

/-! ### Names -/

/-- Exact match, or a trailing `*` treated as a prefix, case-insensitive. -/
def globMatches (name glob : Str) : Bool :=
  let g := lower glob
  if g.getLast? = some '*' then g.dropLast.isPrefixOf (lower name) else decide (lower name = g)

def matchesIgnore (name : Str) (globs : List Str) : Bool := globs.any (globMatches name)

def formatForExt (ext : Str) : Format :=
  let e := lower ext
  if e = ".fits".toList ∨ e = ".fit".toList ∨ e = ".fts".toList ∨ e = ".fz".toList then .fits
  else if e = ".xisf".toList then .xisf
  else .other

def isIndexable (ext : Str) : Bool := decide (formatForExt ext ≠ .other)

/-- The bucket of a path's first component. -/
def bucketFor (relPath : Str) : Bucket :=
  let t := lower (relPath.takeWhile (· ≠ '/'))
  if t = "lights".toList then .lights
  else if t = "calibration".toList then .calibration
  else if t = "process".toList then .process
  else if t = "review".toList then .review
  else if t = "quarantine".toList then .quarantine
  else if t = "incoming".toList then .incoming
  else if "calib".toList.isPrefixOf t then .calibration
  else .other

/-- The components of a path, with what precedes the first separator first. -/
def components : Str → List Str
  | [] => [[]]
  | c :: cs =>
    if c = '/' then [] :: components cs
    else match components cs with
      | [] => [[c]]
      | p :: ps => (c :: p) :: ps

def fileName (relPath : Str) : Str := ((components relPath).getLast?).getD []

/-- The extension with its dot; a leading dot starts no extension. -/
def extension (name : Str) : Str :=
  let back := name.reverse.takeWhile (· ≠ '.')
  if back.length + 1 < name.length then name.drop (name.length - back.length - 1) else []

/-! ### Files -/

/-- The fields of `stat` that the sweep reads. -/
structure FileStat where
  size : Int
  mtimeSec : Int
  mtimeNsec : Int
  inode : Int
  deriving DecidableEq

/-- The modification time as it is stored, to the microsecond. -/
def FileStat.mtime (st : FileStat) : Micros :=
  st.mtimeSec * 1000000 + (st.mtimeNsec / 1000) % 1000000

/-- A regular file, or a link to one, that the walk comes upon at `path` below the root; `relPath` is
what `std::filesystem::relative` makes of it, which follows links, and `header` what `read_header`
makes of its content. -/
structure DiskFile where
  path : Str
  relPath : Str
  stat : FileStat
  header : Except Str RawHeader

/-- A file that no link leads to. -/
def fileAt (path : Str) (stat : FileStat) (header : Except Str RawHeader) : DiskFile :=
  ⟨path, path, stat, header⟩

/-- A work item, with what the disk answers when a worker gets to it. -/
structure Offer where
  relPath : Str
  filename : Str
  ext : Str
  stat : Option FileStat
  header : Except Str RawHeader

def DiskFile.offer (f : DiskFile) : Offer where
  relPath := f.relPath
  filename := fileName f.path
  ext := extension (fileName f.path)
  stat := some f.stat
  header := f.header

/-- Whether the walk hands a file on as a frame: no component of its path is ignored, and its
extension is that of a frame. -/
def walked (ignore : List Str) (f : DiskFile) : Bool :=
  (components f.path).all (fun c => !matchesIgnore c ignore) &&
    isIndexable (extension (fileName f.path))

/-- The frames the walk feeds to the queue, in order. -/
def walk (ignore : List Str) (disk : List DiskFile) : List Offer :=
  (disk.filter (walked ignore)).map DiskFile.offer

example : (walk ["*.tmp".toList, "thumbs*".toList]
    [fileAt "lights/M31/a.fits".toList ⟨1, 2, 3, 4⟩ (.error []),
      fileAt "lights/Thumbs/b.fits".toList ⟨1, 2, 3, 4⟩ (.error []),
      fileAt "notes.txt".toList ⟨1, 2, 3, 4⟩ (.error [])]).map Offer.relPath
      = ["lights/M31/a.fits".toList] := by decide

end StarBase.Scan
