import Phrasebook.Http.Json
import Phrasebook.Text.Encoding
import Phrasebook.Text.Split

/-! Paths of requests. A host in front of a path and a query or fragment behind it are no part of
it. Segments that are one or two dots are taken out first. Percent escapes are decoded before a path
is split at its slashes, so an escaped slash separates segments like any other, and they are decoded
twice, so an escaped percent sign may begin an escape itself. Bytes that are no UTF-8 become
replacement characters. -/

namespace Phrasebook.Http

/-- What stands behind a host, which two slashes announce. -/
def behindHost : List Char → List Char
  | '/' :: '/' :: rest => rest.dropWhile (· ≠ '/')
  | sent => sent

/-- The path in what was sent; it begins with one slash, sent or not. -/
def pathPart (sent : List Char) : List Char :=
  let address := sent.takeWhile fun c => c ≠ '?' && c ≠ '#'
  '/' :: (behindHost address).dropWhile (· = '/')

/-- The bytes of a text, percent escapes decoded. -/
def decodedBytes : List Char → List Nat
  | [] => []
  | '%' :: high :: low :: rest =>
      match Json.hexValue? high, Json.hexValue? low with
      | some h, some l => (16 * h + l) :: decodedBytes rest
      | _, _ => 0x25 :: decodedBytes (high :: low :: rest)
  | c :: rest => Text.utf8Bytes (String.singleton c) ++ decodedBytes rest

/-- A text with its escapes decoded. -/
def unescaped (cs : List Char) : List Char :=
  Text.utf8Characters (decodedBytes cs)

/-- Go one segment on behind the segments in front: one dot stays, two dots go back, but not behind
the first slash. -/
def step (front : List (List Char)) (segment : List Char) : List (List Char) :=
  if segment = ['.'] then front
  else if segment = ['.', '.'] then if front = [[]] then front else front.dropLast
  else front ++ [segment]

/-- A path without segments of dots. -/
def withoutDots (path : List Char) : List Char :=
  ['/'].intercalate ((Text.splitOn '/' path).foldl step [])

/-- The path that routes are looked up by. -/
def decoded (sent : List Char) : List Char :=
  unescaped (unescaped (withoutDots (pathPart sent)))

end Phrasebook.Http
