import SimpleSftpd.Cxx.Path

/-! A tree of directories, files and symbolic links, and the calls of `std::filesystem` and of the
system on it. Any call on any path may fail for reasons outside the tree: `deny` names them. -/

namespace SimpleSftpd.Cxx

inductive Errc
  | enoent | enotdir | eloop | eexist | enotempty | eisdir | einval | eacces | eio
  deriving DecidableEq

inductive FileType
  | notFound | regular | directory | other
  deriving DecidableEq

inductive Node
  | directory
  | regular (content : Str)
  | symlink (target : Str)
  | other
  deriving DecidableEq

inductive FsCall
  | status | fileSize | lastWriteTime | readDirectory | createDirectory | remove | rename
  | permissions | canonical | openRead | openWrite
  deriving DecidableEq

abbrev Location := List Str

structure FileSystem where
  nodes : List (Location × Node)
  root : Location
  refuses : List (Location × ℕ) → FsCall → Str → Option Errc
  modes : List (Location × ℕ)

namespace FileSystem

variable (fs : FileSystem)

def deny : FsCall → Str → Option Errc := fs.refuses fs.modes

def node (l : Location) : Option Node := if l = [] then some .directory else fs.nodes.lookup l

def set (l : Location) (n : Node) : FileSystem :=
  { fs with nodes := (l, n) :: fs.nodes.filter (·.1 ≠ l) }

def delete (l : Location) : FileSystem := { fs with nodes := fs.nodes.filter (·.1 ≠ l) }

/-- What is asked of the last name of a path: an object behind it, an object or a free place for
one, or the directory entry itself, links not followed. -/
inductive LastName
  | object | place | entry
  deriving DecidableEq

def walkAux (last : LastName) (onLink : Location → List Str → Except Errc Location) :
    Location → List Str → Except Errc Location
  | cur, [] => .ok cur
  | cur, c :: cs =>
    match fs.node cur with
    | some .directory =>
      if c = [] ∨ Path.isDot c then walkAux last onLink cur cs
      else if Path.isDotDot c then walkAux last onLink (if cur = fs.root then cur else cur.dropLast) cs
      else match fs.node (cur ++ [c]) with
        | none => if last ≠ .object ∧ cs = [] then .ok (cur ++ [c]) else .error .enoent
        | some (.symlink t) =>
          if last = .entry ∧ cs = [] then .ok (cur ++ [c])
          else onLink (if Path.isAbsolute t then fs.root else cur) (Path.pieces t ++ cs)
        | some _ => walkAux last onLink (cur ++ [c]) cs
    | some _ => .error .enotdir
    | none => .error .enoent

def walk (last : LastName) : ℕ → Location → List Str → Except Errc Location
  | 0 => fs.walkAux last (fun _ _ => .error .eloop)
  | links + 1 => fs.walkAux last (walk last links)

def locate (p : Str) : Except Errc Location :=
  if p = [] then .error .enoent else fs.walk .object 40 fs.root (Path.pieces p)

def place (p : Str) : Except Errc Location :=
  if p = [] then .error .enoent else fs.walk .place 40 fs.root (Path.pieces p)

def entry (p : Str) : Except Errc Location :=
  if p = [] then .error .enoent else fs.walk .entry 40 fs.root (Path.names p)

def typeOf : Node → FileType
  | .directory => .directory
  | .regular _ => .regular
  | _ => .other

def status (p : Str) : Except Errc FileType :=
  match fs.deny .status p with
  | some e => .error e
  | none =>
    match fs.locate p with
    | .ok l => .ok (match fs.node l with | some n => typeOf n | none => .notFound)
    | .error .enoent => .ok .notFound
    | .error .enotdir => .ok .notFound
    | .error e => .error e

def render (l : Location) : Str := 47 :: Path.joinNames (l.drop fs.root.length)

def canonical (p : Str) : Except Errc Str :=
  match fs.deny .canonical p with
  | some e => .error e
  | none => (fs.locate p).map fs.render

def existingPrefix (found : Str) : List Str → Except Errc (Str × List Str)
  | [] => .ok (found, [])
  | c :: cs => match fs.status (Path.join found c) with
    | .error e => .error e
    | .ok .notFound => .ok (found, c :: cs)
    | .ok _ => existingPrefix (Path.join found c) cs

/-- `weakly_canonical(p, ec)` of the GNU library. -/
def weaklyCanonical (p : Str) : Except Errc Str :=
  match fs.status p with
  | .error e => .error e
  | .ok .notFound =>
    (fs.existingPrefix [] (Path.elements p)).bind fun (found, rest) =>
      (if found = [] then .ok [] else fs.canonical found).map fun base =>
        Path.lexicallyNormal (rest.foldl Path.join base)
  | .ok _ => fs.canonical p

def fileSize (p : Str) : Except Errc ℕ :=
  match fs.deny .fileSize p with
  | some e => .error e
  | none => (fs.locate p).bind fun l => match fs.node l with
    | some (.regular b) => .ok b.length
    | some .directory => .error .eisdir
    | some _ => .error .einval
    | none => .error .enoent

def children (l : Location) : List Str :=
  fs.nodes.filterMap fun (m, _) =>
    if m.dropLast = l ∧ m ≠ [] then m.getLast? else none

def readDirectory (p : Str) : List Str × Option Errc :=
  match fs.locate p with
  | .error e => ([], some e)
  | .ok l => match fs.node l, fs.deny .readDirectory p with
    | some .directory, none => (fs.children l, none)
    | some .directory, some e => ([], some e)
    | _, _ => ([], some .enotdir)

structure SizedEntry where
  isLink : Bool
  size : Except Errc ℕ

def visitAll (visit : Str → List SizedEntry × Bool) : List Str → List SizedEntry × Bool
  | [] => ([], false)
  | c :: cs => match visit c with
    | (found, true) => (found, true)
    | (found, false) => (found ++ (visitAll visit cs).1, (visitAll visit cs).2)

/-- `recursive_directory_iterator(p, skip_permission_denied)` on the directory at `l`, and whether it
throws. It goes down into directories only; the type of a link is that of its target, and asking for it
throws where there is none. -/
def sizedEntries : ℕ → Location → Str → List SizedEntry × Bool
  | 0, _, _ => ([], false)
  | depth + 1, l, p => match fs.deny .readDirectory p with
    | some .eacces => ([], false)
    | some _ => ([], true)
    | none => visitAll (fun c => match fs.node (l ++ [c]) with
      | some .directory => sizedEntries depth (l ++ [c]) (Path.join p c)
      | some (.regular _) => ([⟨false, fs.fileSize (Path.join p c)⟩], false)
      | some (.symlink _) => match fs.status (Path.join p c) with
        | .ok .regular => ([⟨true, fs.fileSize (Path.join p c)⟩], false)
        | .ok _ => ([], false)
        | .error _ => ([], true)
      | _ => ([], false)) (fs.children l)

def regularEntries (p : Str) : List SizedEntry :=
  match fs.locate p with
  | .error _ => []
  | .ok l => if fs.node l = some .directory then (fs.sizedEntries (fs.nodes.length + 1) l p).1 else []

def regularFilesBelow (p : Str) : List (Except Errc ℕ) := (fs.regularEntries p).map SizedEntry.size

def createDirectory (p : Str) : Except Errc Bool × FileSystem :=
  match fs.deny .createDirectory p with
  | some e => (.error e, fs)
  | none => match fs.entry p with
    | .error e => (.error e, fs)
    | .ok l => match fs.node l with
      | none => (.ok true, fs.set l .directory)
      | some _ => match fs.locate p with
        | .ok m => if fs.node m = some .directory then (.ok false, fs) else (.error .eexist, fs)
        | .error _ => (.error .eexist, fs)

def createAll (fs : FileSystem) : List Str → Except Errc Bool × FileSystem
  | [] => (.ok false, fs)
  | p :: ps => match fs.createDirectory p with
    | (.error e, fs') => (.error e, fs')
    | (.ok made, fs') => if ps = [] then (.ok made, fs') else createAll fs' ps

def missing : ℕ → Str → Except Errc (List Str)
  | 0, _ => .ok []
  | n + 1, p =>
    let here := if Path.isDot (Path.filename p) ∨ Path.isDotDot (Path.filename p) then [] else [p]
    let up := Path.parentPath p
    if up = [] then .ok here else
    match fs.status up with
    | .error e => .error e
    | .ok .directory => .ok here
    | .ok .notFound => (missing n up).map (· ++ here)
    | .ok _ => .error .enotdir

/-- `create_directories(p)` of the GNU library. -/
def createDirectories (p : Str) : Except Errc Bool × FileSystem :=
  if p = [] then (.error .enoent, fs) else
  match fs.status p with
  | .error e => (.error e, fs)
  | .ok .directory => (.ok false, fs)
  | .ok .notFound =>
    match fs.missing p.length (if Path.filename p = [] then Path.parentPath p else p) with
    | .error e => (.error e, fs)
    | .ok ps => fs.createAll ps
  | .ok _ => (.error .enotdir, fs)

def remove (p : Str) : Except Errc Bool × FileSystem :=
  match fs.deny .remove p with
  | some e => (.error e, fs)
  | none => match fs.entry p with
    | .error .enoent => (.ok false, fs)
    | .error e => (.error e, fs)
    | .ok l => match fs.node l with
      | none => (.ok false, fs)
      | some .directory =>
        if l = fs.root then (.error .einval, fs)
        else if fs.children l ≠ [] then (.error .enotempty, fs)
        else (.ok true, fs.delete l)
      | some _ => (.ok true, fs.delete l)

def move (src dst : Location) : FileSystem :=
  { fs with nodes := (fs.nodes.filter (·.1 ≠ dst)).map fun (m, n) =>
      (if src.isPrefixOf m then dst ++ m.drop src.length else m, n) }

def rename (p q : Str) : Except Errc Unit × FileSystem :=
  match fs.deny .rename p with
  | some e => (.error e, fs)
  | none => match fs.entry p, fs.entry q with
    | .error e, _ => (.error e, fs)
    | _, .error e => (.error e, fs)
    | .ok src, .ok dst =>
      match fs.node src, fs.node dst with
      | none, _ => (.error .enoent, fs)
      | some a, b =>
        if src = dst then (.ok (), fs)
        else if src.isPrefixOf dst then (.error .einval, fs)
        else match b with
          | none => (.ok (), fs.move src dst)
          | some .directory =>
            if a ≠ .directory then (.error .eisdir, fs)
            else if fs.children dst ≠ [] then (.error .enotempty, fs)
            else (.ok (), fs.move src dst)
          | some _ =>
            if a = .directory then (.error .enotdir, fs) else (.ok (), fs.move src dst)

def permissions (p : Str) (mode : ℕ) : Option Errc × FileSystem :=
  match fs.deny .permissions p with
  | some e => (some e, fs)
  | none => match fs.locate p with
    | .ok l => (none, { fs with modes := (l, mode) :: fs.modes })
    | .error e => (some e, fs)

@[simp] lemma permissions_nodes (p : Str) (mode : ℕ) : (fs.permissions p mode).2.nodes = fs.nodes := by
  unfold permissions
  repeat' split
  all_goals rfl

@[simp] lemma permissions_root (p : Str) (mode : ℕ) : (fs.permissions p mode).2.root = fs.root := by
  unfold permissions
  repeat' split
  all_goals rfl

@[simp] lemma permissions_refuses (p : Str) (mode : ℕ) : (fs.permissions p mode).2.refuses = fs.refuses := by
  unfold permissions
  repeat' split
  all_goals rfl

variable {fs} in
lemma node_congr {fs' : FileSystem} (h : fs'.nodes = fs.nodes) {l : Location} : fs'.node l = fs.node l := by
  rw [node, node, h]

@[simp] lemma permissions_node (p : Str) (mode : ℕ) (l : Location) :
  (fs.permissions p mode).2.node l = fs.node l :=
  node_congr (fs.permissions_nodes p mode)

def openRead (p : Str) : Except Errc Location :=
  match fs.deny .openRead p with
  | some e => .error e
  | none => fs.locate p

/-- How `std::ofstream` opens: `out`, `in | out`, or `app`. -/
inductive OpenMode
  | truncate | update | append
  deriving DecidableEq

def openWrite (p : Str) (mode : OpenMode) : Except Errc Location × FileSystem :=
  match fs.deny .openWrite p with
  | some e => (.error e, fs)
  | none => match (if mode = .update then fs.locate p else fs.place p) with
    | .error e => (.error e, fs)
    | .ok l => match fs.node l with
      | some .directory => (.error .eisdir, fs)
      | none => if mode = .update then (.error .enoent, fs) else (.ok l, fs.set l (.regular []))
      | some (.regular _) => (.ok l, if mode = .truncate then fs.set l (.regular []) else fs)
      | some .other => (.ok l, fs)
      | some (.symlink _) => (.error .eloop, fs)

def content (l : Location) : Str := match fs.node l with
  | some (.regular b) => b
  | _ => []

def writeAt (l : Location) (pos : ℕ) (data : Str) : FileSystem :=
  match fs.node l with
  | some (.regular b) =>
    let padded := b ++ List.replicate (pos - b.length) 0
    fs.set l (.regular (padded.take pos ++ data ++ padded.drop (pos + data.length)))
  | _ => fs

def append (l : Location) (data : Str) : FileSystem := fs.writeAt l (fs.content l).length data

end FileSystem

end SimpleSftpd.Cxx
