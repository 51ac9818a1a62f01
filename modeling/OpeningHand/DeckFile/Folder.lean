import OpeningHand.DeckFile.Format

/-!
# Deck files in a folder

A folder holds texts by path. Paths are followed part by part, so `./a.json` and `a.json` are one file.
The format of a deck file is the one asked for, else the one named by the end of its name.
-/

namespace OpeningHand

namespace Path

/-- The parts of a path between slashes, but for empty ones and those that say "here". -/
def parts (path : List Char) : List (List Char) :=
  (Text.between '/' path).filter fun p => p ≠ [] && p ≠ ['.']

/-- The slashes at the beginning that count: two stay two, more are one. -/
def root (path : List Char) : String :=
  match (path.takeWhile (· == '/')).length with
  | 0 => ""
  | 2 => "//"
  | _ => "/"

/-- A path without the parts that say nothing. -/
def normal (path : String) : String :=
  let s := root path.toList ++ "/".intercalate ((parts path.toList).map String.ofList)
  if s = "" then "." else s

/-- The end of the name of a file, from its last point on, without the point. A name that begins with
its only point, or ends with a point, has none. -/
def ending (path : String) : String :=
  let name := ((parts path.toList).getLast?).getD []
  let after := (name.reverse.takeWhile (· != '.')).reverse
  let before := name.take (name.length - after.length - 1)
  if after.length < name.length && !before.isEmpty then String.ofList after else ""

example : ["./a//b.json", "", "/x/../y"].map normal = ["a/b.json", ".", "/x/../y"] := by
  decide +kernel

example : ["deck.json", ".json", "deck.json.", "a.b.csv"].map ending = ["json", "", "", "csv"] := by
  decide +kernel

end Path

/-- Texts by path. -/
abbrev Folder := List (String × String)

namespace Folder

/-- Every line end becomes a line feed. -/
def lineFeeds : List Char → List Char
  | '\r' :: '\n' :: r => '\n' :: lineFeeds r
  | '\r' :: r => '\n' :: lineFeeds r
  | c :: r => c :: lineFeeds r
  | [] => []

/-- What is found at a path. -/
inductive Place where
  | file (text : String)
  | folder
  | nothing
  /-- The path goes on behind a file. -/
  | behindFile
  /-- A part of the path is too long for a name. -/
  | tooLong
deriving DecidableEq, Repr

/-- The number of bytes that a part of a path takes. -/
def byteSize (p : List Char) : Nat := (String.ofList p).utf8ByteSize

/-- Follows the parts of a path from a place in the folder on. Outside the folder (`none`) nothing is
known but that it lies in other folders. -/
def follow (folder : Folder) (here : Option (List (List Char))) : List (List Char) → Place
  | [] => .folder
  | p :: ps =>
    if p = ['.'] then follow folder here ps
    else if p = ['.', '.'] then
      follow folder (here.bind fun h => if h.isEmpty then none else some h.dropLast) ps
    else if 255 < byteSize p then .tooLong
    else match here with
      | none => .nothing
      | some h =>
        match folder.find? fun e => Path.parts e.1.toList == h ++ [p] with
        | some (_, text) => if ps.isEmpty then .file text else .behindFile
        | none =>
          if folder.any fun e => (h ++ [p]).isPrefixOf (Path.parts e.1.toList) then
            follow folder (some (h ++ [p])) ps
          else .nothing

/-- What is found at a path. A slash at its end, or a point behind a slash, asks for a folder. -/
def place (folder : Folder) (path : String) : Place :=
  let s := path.toList
  let last := ((Text.between '/' s).getLast?).getD []
  if 4096 ≤ byteSize s then .tooLong
  else
    follow folder (if s.head? = some '/' then none else some [])
      (Path.parts s ++ if last.isEmpty || last == ['.'] then [['.']] else [])

/-- The text of a file. -/
def read (folder : Folder) (path : String) : Except Fault String :=
  if path.toList.contains '\x00' then .error .brokenPath
  else match folder.place path with
    | .file text => .ok (String.ofList (lineFeeds text.toList))
    | .folder => .error (.isFolder path)
    | .nothing => .error (.noFile path)
    | .behindFile => .error (.behindFile path)
    | .tooLong => .error (.longPath path)

/-- The deck file at a path, in a format by name, or by the end of its own name. -/
def load (folder : Folder) (path : String) (format : Value) : Except Fault DeckFile := do
  let text ← folder.read (Path.normal path)
  let name := if format.truthy then format else .text (Path.ending path)
  (← DeckFormat.ofName name).read text

example : let folder : Folder := [("a.json", "A"), ("d/b.json", "B")]
    ["./a.json", "d/../d/b.json", "d", "a.json/", "x", ".."].map folder.place =
      [.file "A", .file "B", .folder, .behindFile, .nothing, .folder] := by decide +kernel

end Folder

end OpeningHand
