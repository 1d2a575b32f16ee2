import Conformance.Text.Utf8

/-!
# Disks

The part of a file system the store works on: a set of resolved paths (no `.` in them and no
`..` after a name), each holding a file's octets or a directory, with the working directory,
the directories above it and the root always there. A path is resolved one component at a
time, as the file system does it: `.` stays, `..` goes up, and every component but the last
must name a directory that exists, so `n/../q.log` is not found when `n` is missing. Each
operation fails as the file system does: a NUL in a path names nothing, a path text of 4096
octets or more is refused before any look-up (the text as written, so `d/////q.log` is longer
than `d/q.log`), a component longer than 255 octets is refused when it is looked up, a way
through a missing directory is not found and one through a file is not a directory. Writing
replaces a file in one step, and making directories keeps those made before a component that
cannot be made. What a path holds after a `put` or an `erase` is stated beside them
(`get?_put_self`, `get?_put_of_ne`, `get?_erase_self`, `get?_erase_of_ne`).
-/

namespace Conformance

/-- What a path holds. -/
inductive Entry where
  | file (bytes : List UInt8)
  | dir
  deriving DecidableEq, Repr

/-- Why a file-system operation fails. -/
inductive IoError where
  /-- Nothing is at the path, or a directory on its way is missing. -/
  | notFound
  /-- A file stands where a directory is needed. -/
  | notDirectory
  /-- A directory stands where a file is needed. -/
  | isDirectory
  /-- Something already stands where a directory is to be made. -/
  | alreadyExists
  /-- A file's octets are not UTF-8 text. -/
  | invalidText
  /-- A component of the path holds a NUL character, which no file name may hold. -/
  | invalidName
  /-- A component of the path is longer than a file name may be. -/
  | nameTooLong
  deriving DecidableEq, Repr

/-- A path as shown in messages and as the file system walks it. -/
structure Place where
  shown : String
  parts : List String
  deriving DecidableEq, Repr

/-- The components of a path text as the file system walks them. Empty components are
dropped and `.` and `..` are kept; an absolute path starts with the component `/`, and a
trailing slash is kept as a final `.`, which asks for a directory as the slash does. The
empty text keeps one empty component, which names nothing. -/
def Place.partsOf (text : String) : List String :=
  if text = "" then [""]
  else
    let names := ((text.toList.splitOn '/').map String.ofList).filter (· ≠ "")
    (if text.startsWith "/" then ["/"] else []) ++ names ++
      (if text.endsWith "/" ∧ names ≠ [] then ["."] else [])

/-- A place from a path text relative to the working directory, shown as written. -/
def Place.ofText (text : String) : Place := ⟨text, Place.partsOf text⟩

/-- A path joined to a place: an absolute path replaces it, and a relative one follows it
after a separator, unless the place is empty or already ends in one. An empty path so leaves
the place ending in a separator, which asks for a directory. -/
def Place.join (p : Place) (text : String) : Place :=
  if text.startsWith "/" then Place.ofText text
  else if p.shown.isEmpty then ⟨text, Place.partsOf text⟩
  else
    let shown := if p.shown.endsWith "/" then p.shown ++ text else p.shown ++ "/" ++ text
    let base := if p.parts = [""] then [] else p.parts
    ⟨shown, if text.isEmpty then base ++ ["."] else base ++ Place.partsOf text⟩

/-- The longest path text a system call takes, in UTF-8 octets with its terminating NUL. -/
def pathLimit : Nat := 4096

/-- Whether a place's text is too long for a system call to take. -/
def Place.tooLong (p : Place) : Bool := p.shown.utf8ByteSize + 1 > pathLimit

/-- The text of the directory holding a place's last component: the text without the last
component and the separators around it. -/
def Place.parentText (p : Place) : String :=
  String.ofList (((p.shown.toList.reverse.dropWhile (· == '/')).dropWhile (· != '/')).dropWhile
    (· == '/')).reverse

/-- The directory holding a place's last component. -/
def Place.parent (p : Place) : Place := ⟨p.parentText, p.parts.dropLast⟩

/-- How much longer than the text of its directory the temporary file of an atomic write is:
a separator, a directory named by a twelve-letter prefix and six random letters, a separator
and an eleven-letter file name. -/
def atomicSlack : Nat := 31

/-- A set of paths, each holding a file or a directory. -/
structure Disk where
  entries : List (List String × Entry)
  deriving DecidableEq, Repr

namespace Disk

/-- The disk that holds nothing but the working directory and the root. -/
def empty : Disk := ⟨[]⟩

/-- Whether a resolved path is a directory whatever the disk holds: the working directory,
one of the directories above it, or the root. -/
def fixed (path : List String) : Bool := path.all (· == "..") || path == ["/"]

/-- What a resolved path holds, if anything. -/
def get? (d : Disk) (path : List String) : Option Entry :=
  if fixed path then some .dir
  else (d.entries.find? (·.1 = path)).map (·.2)

/-- Puts an entry at a path, replacing what was there. -/
def put (d : Disk) (path : List String) (e : Entry) : Disk :=
  ⟨(d.entries.filter (·.1 ≠ path)) ++ [(path, e)]⟩

/-- Removes the entry at a path. -/
def erase (d : Disk) (path : List String) : Disk :=
  ⟨d.entries.filter (·.1 ≠ path)⟩

theorem find?_filter_ne (es : List (List String × Entry)) (p : List String) :
    (es.filter (·.1 ≠ p)).find? (·.1 = p) = none := by
  rw [List.find?_eq_none]
  intro x hx
  simp only [List.mem_filter, decide_eq_true_eq] at hx
  simp [hx.2]

/-- A path holds what was last put there, unless it is a directory whatever the disk holds. -/
theorem get?_put_self (d : Disk) (p : List String) (e : Entry) (hp : fixed p = false) :
    (d.put p e).get? p = some e := by
  simp only [get?, put, hp, Bool.false_eq_true, if_false, List.find?_append, find?_filter_ne]
  simp

theorem find?_filter_of_ne (es : List (List String × Entry)) {p q : List String} (h : q ≠ p) :
    (es.filter (·.1 ≠ p)).find? (·.1 = q) = es.find? (·.1 = q) := by
  induction es with
  | nil => rfl
  | cons x xs ih =>
    by_cases hx : x.1 = p
    · have hq : ¬ x.1 = q := by rw [hx]; exact fun h' => h h'.symm
      rw [List.filter_cons_of_neg (by simpa using hx), ih, List.find?_cons_of_neg (by simpa using hq)]
    · rw [List.filter_cons_of_pos (by simpa using hx)]
      by_cases hq : x.1 = q
      · rw [List.find?_cons_of_pos (by simpa using hq), List.find?_cons_of_pos (by simpa using hq)]
      · rw [List.find?_cons_of_neg (by simpa using hq), List.find?_cons_of_neg (by simpa using hq), ih]

/-- Putting an entry at one path leaves every other path as it was. -/
theorem get?_put_of_ne (d : Disk) {p q : List String} (e : Entry) (h : q ≠ p) :
    (d.put p e).get? q = d.get? q := by
  unfold get? put
  split
  · rfl
  · congr 1
    rw [List.find?_append, find?_filter_of_ne _ h]
    cases hf : d.entries.find? (·.1 = q) with
    | some _ => rfl
    | none => simp [h.symm]

/-- Erasing one path leaves every other path as it was. -/
theorem get?_erase_of_ne (d : Disk) {p q : List String} (h : q ≠ p) :
    (d.erase p).get? q = d.get? q := by
  unfold get? erase
  split
  · rfl
  · rw [find?_filter_of_ne _ h]

/-- An erased path holds nothing, unless it is a directory whatever the disk holds. -/
theorem get?_erase_self (d : Disk) (p : List String) (hp : fixed p = false) :
    (d.erase p).get? p = none := by
  simp only [get?, erase, hp, Bool.false_eq_true, if_false, find?_filter_ne, Option.map_none]

/-- Whether a path can name anything: none of its components holds a NUL character. -/
def checkNames (path : List String) : Except IoError Unit :=
  if path.any (fun part => part.toList.contains (Char.ofNat 0)) then .error .invalidName else .ok ()

/-- The longest file name, in UTF-8 octets. -/
def nameLimit : Nat := 255

/-- The directory `..` leads to from a resolved path: the one holding it, another one up
from the working directory or from above it, and the root itself from the root. -/
def parent (path : List String) : List String :=
  if path.all (· == "..") then path ++ [".."]
  else if path = ["/"] then path
  else path.dropLast

/-- The resolved path one component leads to from a resolved directory. -/
def step (dir : List String) (part : String) : List String :=
  if part = "." then dir else if part = ".." then parent dir else dir ++ [part]

/-- Resolves the components of a path from a resolved directory. Every component but the
last must lead to a directory, and each is refused for its length before it is looked up. -/
def walk (d : Disk) (dir : List String) : List String → Except IoError (List String)
  | [] => .ok dir
  | [last] => if last.utf8ByteSize > nameLimit then .error .nameTooLong else .ok (step dir last)
  | part :: rest =>
    if part.utf8ByteSize > nameLimit then .error .nameTooLong
    else
      let next := step dir part
      match d.get? next with
      | some .dir => walk d next rest
      | some (.file _) => .error .notDirectory
      | none => .error .notFound

/-- The resolved path a list of components leads to from the working directory. -/
def resolve (d : Disk) (path : List String) : Except IoError (List String) := do
  checkNames path
  d.walk [] path

/-- The resolved path a place leads to from the working directory; a text too long is
refused after a NUL and before any look-up. -/
def locate (d : Disk) (p : Place) : Except IoError (List String) := do
  checkNames p.parts
  if p.tooLong then throw .nameTooLong
  d.walk [] p.parts

/-- The resolved paths that resolving a path looks up, in order, when each leads on: a
program that runs on a real file system loads these before it runs. -/
def trail (path : List String) : List (List String) :=
  (path.foldl (fun (acc : List String × List (List String)) part =>
    let next := step acc.1 part
    (next, acc.2 ++ [next])) ([], [])).2

/-- A file's octets. -/
def read (d : Disk) (path : Place) : Except IoError (List UInt8) := do
  match d.get? (← d.locate path) with
  | some (.file b) => pure b
  | some .dir => throw .isDirectory
  | none => throw .notFound

/-- A file's text. -/
def readText (d : Disk) (path : Place) : Except IoError String := do
  match Text.Utf8.decode? (← d.read path) with
  | some s => pure s
  | none => throw .invalidText

/-- Whether a list of components leads to a directory. -/
def isDir (d : Disk) (path : List String) : Bool :=
  match d.resolve path with
  | .ok p => d.get? p == some .dir
  | .error _ => false

/-- Makes one directory, where nothing stands yet. -/
def mkdir (d : Disk) (path : List String) : Except IoError Disk := do
  let target ← d.resolve path
  match d.get? target with
  | some _ => throw .alreadyExists
  | none => pure (d.put target .dir)

/-- The components of a path as its lexical parents are taken: no empty component, and `.`
only at the start. A trailing slash so names the directory itself. -/
def lexical (path : List String) : List String :=
  match path.filter (· ≠ "") with
  | "." :: rest => "." :: rest.filter (· ≠ ".")
  | parts => parts.filter (· ≠ ".")

/-- Makes a directory, given its lexical components outermost last, and every missing
directory on the way to it. A directory is made first; only if that finds its way missing
are the directories above it made and the directory made again. A directory that cannot be
made because one stands there already counts as made. -/
def buildDirs (d : Disk) : List String → Disk × Except IoError Unit
  | [] => (d, .ok ())
  | name :: above =>
    let path := (name :: above).reverse
    match d.mkdir path with
    | .ok d' => (d', .ok ())
    | .error .notFound =>
      match buildDirs d above with
      | (d', .ok ()) =>
        match d'.mkdir path with
        | .ok d'' => (d'', .ok ())
        | .error e => (d', if d'.isDir path then .ok () else .error e)
      | failed => failed
    | .error e => (d, if d.isDir path then .ok () else .error e)

/-- Creates a directory and every missing directory on the way to it. A path with a NUL in
it or a text too long makes nothing; otherwise the directories before a failing component
stay made, and the empty path is made already. The directories above are shorter, so only
the place's own text can be too long. -/
def createDirAll (d : Disk) (p : Place) : Disk × Except IoError Unit :=
  match checkNames p.parts with
  | .error e => (d, .error e)
  | .ok () => if p.tooLong then (d, .error .nameTooLong) else d.buildDirs (lexical p.parts).reverse

/-- The entries directly inside a directory, with their names. -/
def listDir (d : Disk) (path : Place) : Except IoError (List (String × Entry)) := do
  let dir ← d.locate path
  match d.get? dir with
  | some .dir =>
    pure (d.entries.filterMap fun (p, e) =>
      match p.drop dir.length with
      | [name] => if p.take dir.length = dir then some (name, e) else none
      | _ => none)
  | some (.file _) => throw .notDirectory
  | none => throw .notFound

/-- Removes a file. -/
def removeFile (d : Disk) (path : Place) : Except IoError Disk := do
  let target ← d.locate path
  match d.get? target with
  | some (.file _) => pure (d.erase target)
  | some .dir => throw .isDirectory
  | none => throw .notFound

/-- Replaces a file's octets in one step, through a temporary file in its directory: the
directory must exist, no directory may stand at the path, and neither the path nor the
temporary file's may be too long. -/
def writeAtomic (d : Disk) (path : Place) (bytes : List UInt8) : Except IoError Disk := do
  if path.parentText.utf8ByteSize + atomicSlack + 1 > pathLimit then
    checkNames path.parts
    throw .nameTooLong
  let target ← d.locate path
  match d.get? target with
  | some .dir => throw .isDirectory
  | _ => pure (d.put target (.file bytes))

/-- Writes a file, creating the directories on the way to it first. -/
def writeCreating (d : Disk) (path : Place) (bytes : List UInt8) : Except IoError Disk := do
  let (d, made) := d.createDirAll path.parent
  made
  d.writeAtomic path bytes

/-- Removes a resolved path and everything below it. -/
def removeTree (d : Disk) (path : List String) : Disk :=
  ⟨d.entries.filter (fun e => e.1.take path.length ≠ path)⟩

/-- Everything below a resolved directory, as paths relative to it: files with their octets and
directories with a trailing slash. -/
def listing (d : Disk) (dir : List String) : List (String × Option (List UInt8)) :=
  d.entries.filterMap fun (p, e) =>
    if p.take dir.length = dir ∧ p.length > dir.length then
      let rel := "/".intercalate (p.drop dir.length)
      match e with
      | .file b => some (rel, some b)
      | .dir => some (rel ++ "/", none)
    else none

end Disk

end Conformance
