import NfsClient.Nfs4.Conn

/-!
# Paths

The functions of `path`, `strings`, `unicode/utf8` and `io/fs` that the file system applies to
the names it is given.  A name is a sequence of bytes.
-/

namespace NfsClient.Client

open NfsClient.Nfs4

/-- The byte `/`. -/
def slash : UInt8 := 47

/-- `strings.Split(s, "/")` -/
def splitSlash : Bytes → List Bytes
  | [] => [[]]
  | b :: bs =>
    if b = slash then [] :: splitSlash bs
    else match splitSlash bs with
      | [] => [[b]]
      | e :: es => (b :: e) :: es

/-- `strings.TrimSuffix(s, "/")` -/
def trimSlash (s : Bytes) : Bytes := if s.getLast? = some slash then s.dropLast else s

/-- `path.Split` splits a path after its last slash. -/
def pathSplit (name : Bytes) : Bytes × Bytes :=
  let file := (name.reverse.takeWhile (· ≠ slash)).reverse
  (name.take (name.length - file.length), file)

/-- `path.Base` returns the last element of a path. -/
def pathBase (name : Bytes) : Bytes :=
  if name = [] then ascii "."
  else
    let stripped := name.reverse.dropWhile (· = slash)
    let elem := (stripped.takeWhile (· ≠ slash)).reverse
    if elem = [] then [slash] else elem

/-- The bounds of the first continuation byte after a lead byte of UTF-8. -/
def contBounds (lead : UInt8) : UInt8 × UInt8 :=
  if lead = 0xE0 then (0xA0, 0xBF) else if lead = 0xED then (0x80, 0x9F)
  else if lead = 0xF0 then (0x90, 0xBF) else if lead = 0xF4 then (0x80, 0x8F)
  else (0x80, 0xBF)

/-- A continuation byte between the given bounds. -/
def isCont (bounds : UInt8 × UInt8) (b : UInt8) : Bool := bounds.1 ≤ b && b ≤ bounds.2

/-- `utf8.ValidString` -/
def validUTF8 : Bytes → Bool
  | [] => true
  | a :: s =>
    if a < 0x80 then validUTF8 s
    else match s with
      | [] => false
      | b :: s =>
        if a < 0xC2 || 0xF4 < a || !isCont (contBounds a) b then false
        else if a ≤ 0xDF then validUTF8 s
        else match s with
          | [] => false
          | c :: s =>
            if !isCont (0x80, 0xBF) c then false
            else if a ≤ 0xEF then validUTF8 s
            else match s with
              | [] => false
              | d :: s => isCont (0x80, 0xBF) d && validUTF8 s

/-- `fs.ValidPath` -/
def validPath (name : Bytes) : Bool :=
  validUTF8 name && (name = ascii "." || (splitSlash name).all fun elem =>
    !(elem = [] || elem = ascii "." || elem = ascii ".."))

end NfsClient.Client
