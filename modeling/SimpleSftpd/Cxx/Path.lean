import SimpleSftpd.Cxx.Strings

namespace SimpleSftpd.Cxx.Path

def isAbsolute (p : Str) : Bool := p.head? = some 47

def endsWithSlash (p : Str) : Bool := p.getLast? = some 47

def pieces : Str → List Str
  | [] => [[]]
  | c :: s => if c = 47 then [] :: pieces s else
    match pieces s with
    | x :: xs => (c :: x) :: xs
    | [] => [[c]]

def names (p : Str) : List Str := (pieces p).filter (· ≠ [])

/-- Iterating over a path: its root directory, its file names, and an empty last element when a
file name is followed by a slash. -/
def elements (p : Str) : List Str :=
  (if isAbsolute p then [("/" : Str)] else []) ++ names p ++
    (if names p ≠ [] ∧ endsWithSlash p then [[]] else [])

def join (a b : Str) : Str :=
  if isAbsolute b then b else if a = [] ∨ endsWithSlash a then a ++ b else a ++ (47 :: b)

def relativePath (p : Str) : Str := p.dropWhile (· = 47)

def isDot (c : Str) : Bool := c = "."
def isDotDot (c : Str) : Bool := c = ".."

def normalNames (absolute : Bool) : List Str → List Str → List Str
  | stack, [] => stack
  | stack, c :: cs =>
    if isDot c then normalNames absolute stack cs
    else if isDotDot c then
      match stack with
      | [] => normalNames absolute (if absolute then [] else [c]) cs
      | d :: ds => normalNames absolute (if isDotDot d then c :: d :: ds else ds) cs
    else normalNames absolute (c :: stack) cs

def joinNames : List Str → Str
  | [] => []
  | [c] => c
  | c :: cs => c ++ (47 :: joinNames cs)

def keepsSlash (p : Str) : Bool :=
  endsWithSlash p || match (names p).getLast? with
    | some c => isDot c || isDotDot c
    | none => false

def lexicallyNormal (p : Str) : Str :=
  if p = [] then [] else
  let stack := normalNames (isAbsolute p) [] (names p)
  match stack with
  | [] => if isAbsolute p then "/" else "."
  | c :: _ =>
    (if isAbsolute p then [47] else []) ++ joinNames stack.reverse ++
      (if !isDotDot c && keepsSlash p then [47] else [])

def filename (p : Str) : Str := if endsWithSlash p then [] else ((names p).getLast?).getD []

def parentPath (p : Str) : Str :=
  if names p = [] then p
  else if endsWithSlash p then (p.reverse.dropWhile (· = 47)).reverse
  else
    let dir := (p.reverse.dropWhile (· ≠ 47)).reverse
    let cut := (dir.reverse.dropWhile (· = 47)).reverse
    if cut = [] ∧ dir ≠ [] then "/" else cut

def hasParentPath (p : Str) : Bool := parentPath p ≠ []

def isWithin (child parent : Str) : Bool := (elements parent).isPrefixOf (elements child)

example : elements "/srv/ftp/" = ["/", "srv", "ftp", ""] := by decide
example : lexicallyNormal "/srv/ftp/./a/../b/.." = ("/srv/ftp/" : Str) := by decide
example : parentPath "/srv/ftp/a" = ("/srv/ftp" : Str) := by decide
example : isWithin "/srv/ftproot-evil" "/srv/ftproot" = false := by decide

end SimpleSftpd.Cxx.Path
