import AddressLookup.Http.Basic
import AddressLookup.KeyMap
import AddressLookup.Text.Split

/-!
Sites with pages under their paths, and the network in which a site is all there is. A page that redirects
sends the request on to another address, at most ten times in a row; a page that is not listed is not
found.

Neither the program nor its theory uses them: a site stands in for the services where the program is tried out
against answers given beforehand.
-/

namespace AddressLookup.Http

structure Page where
  status : Nat
  location : Option String
  body : ByteArray

namespace Page

def notFound : Page :=
  ⟨404, none, ByteArray.empty⟩

def redirects (status : Nat) : Bool :=
  [301, 302, 303, 307, 308].contains status

def target? (p : Page) : Option String :=
  if redirects p.status then p.location else none

/-- The answers that there is no content, or none that is new, have no body. -/
def response (p : Page) : Response :=
  ⟨p.status, if p.status = 204 || p.status = 304 then ByteArray.empty else p.body⟩

end Page

structure Site where
  base : String
  pages : KeyMap Page

namespace Site

def climb : List (List Char) → List (List Char) → List (List Char)
  | done, [] => done.reverse
  | done, segment :: rest =>
    let ending := if rest.isEmpty then [[]] else []
    if segment = ['.'] then climb (ending ++ done) rest
    else if segment = ['.', '.'] then climb (ending ++ done.tail) rest
    else climb (segment :: done) rest

def straighten (path : List Char) : List Char :=
  '/' :: Text.joinWith ['/'] (climb [] (Text.splitOn '/' path).tail)

/-- The path at the site to which an address leads, with its query; a fragment is no part of it. -/
def path? (s : Site) (url : List Char) : Option (List Char) :=
  match s.base.toList.isPrefixOf? (url.takeWhile (· ≠ '#')) with
  | none => none
  | some [] => some ['/']
  | some rest =>
    if rest.head? = some '/' then
      some (straighten (rest.takeWhile (· ≠ '?')) ++ rest.dropWhile (· ≠ '?'))
    else none

def directory (path : List Char) : List Char :=
  ((path.takeWhile (· ≠ '?')).reverse.dropWhile (· ≠ '/')).reverse

def resolve (s : Site) (path location : List Char) : List Char :=
  match location with
  | '/' :: '/' :: _ => "http:".toList ++ location
  | '/' :: _ => s.base.toList ++ location
  | [] => s.base.toList ++ path
  | '?' :: _ => s.base.toList ++ path.takeWhile (· ≠ '?') ++ location
  | _ =>
    if ':' ∈ location.takeWhile (· ≠ '/') then location
    else s.base.toList ++ directory path ++ location

def follow (r : Request) (status : Nat) (url : List Char) : Request :=
  { r with
    url := String.ofList url
    contentType := if status = 307 || status = 308 then r.contentType else none }

def visit (s : Site) : Nat → Request → Exchange
  | limit, r =>
    match s.path? r.url.toList with
    | none => ⟨[], none⟩
    | some path =>
      let page := (s.pages.get? (String.ofList path)).getD .notFound
      match page.target?, limit with
      | none, _ => ⟨[r], some page.response⟩
      | some _, 0 => ⟨[r], none⟩
      | some location, limit + 1 =>
        let next := s.visit limit (follow r page.status (s.resolve path location.toList))
        { next with received := r :: next.received }

def network (s : Site) : Network :=
  ⟨fun _ r => s.visit 10 r⟩

end Site

end AddressLookup.Http
