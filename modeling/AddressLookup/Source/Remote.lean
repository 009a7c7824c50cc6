import AddressLookup.Cache.Storage
import AddressLookup.Config
import AddressLookup.Fields
import AddressLookup.Http.Status
import AddressLookup.Json.Reader
import AddressLookup.Source.Basic
import AddressLookup.World

/-!
Sources that ask a service over the network, one request a key, and keep its documents in a cache. Only
a key without a fresh document in the cache is asked for.
-/

namespace AddressLookup

inductive Service where
  | geo
  | rdap
  deriving DecidableEq, Repr

namespace Service

def name : Service → String
  | geo => "geo"
  | rdap => "rdap"

def accept : Service → String
  | geo => "application/json"
  | rdap => "application/rdap+json, application/json"

def contentType : Service → Option String
  | geo => some "application/json"
  | rdap => none

def cacheFileName : Service → String
  | geo => "geo-cache.json"
  | rdap => "rdap-cache.json"

def url (c : Config) : Service → String
  | geo => c.geoUrl
  | rdap => c.rdapUrl

def acceptsUnknown : Service → Bool
  | geo => false
  | rdap => true

def documentOfBody (body : ByteArray) : Except Error Json :=
  match (String.fromUTF8? body).bind Json.parse with
  | some document => .ok document
  | none => .error .http

def readResponse (s : Service) (key : String) : Option Http.Response → Except Error Json
  | none => .error .http
  | some r =>
    if r.status = 404 && s.acceptsUnknown then .ok (.object [])
    else if r.isSuccess then documentOfBody r.body
    else .error (.lookup s.name key ("unexpected status " ++ Http.statusText r.status))

end Service

structure RemoteSource where
  service : Service
  baseUrl : String
  userAgent : Option String
  cache : Cache

namespace RemoteSource

def agent : String := "iplens/0.1.0"

def openService (s : Service) (c : Config) (userAgent : Option String) (fs : Files) :
    Except Error RemoteSource :=
  match Cache.openFile fs (c.cacheFile s.cacheFileName) c.lifetime with
  | .error e => .error e
  | .ok cache => .ok ⟨s, s.url c, userAgent, cache⟩

/-- The sources of a run, of which the registration goes over the location. They fail to open only with their
caches: that the client which they share cannot be built, before any cache is opened, is left out. -/
def openAll (c : Config) (fs : Files) : Except Error (List RemoteSource) :=
  match openService .geo c (some agent) fs with
  | .error e => .error e
  | .ok geo =>
    match openService .rdap c (some agent) fs with
    | .error e => .error e
    | .ok rdap => .ok [geo, rdap]

def request (s : RemoteSource) (key : String) : Http.Request :=
  ⟨s.baseUrl ++ key, s.service.accept, s.service.contentType, s.userAgent⟩

def ask (s : RemoteSource) (key : String) (w : World) : Effect Json RemoteSource World :=
  let answered := w.send (s.request key)
  match s.service.readResponse key (w.exchange (s.request key)).response with
  | .error e => ⟨.error e, s, answered⟩
  | .ok document =>
    ⟨.ok document, { s with cache := s.cache.set key document answered.now }, answered.tick⟩

def document (s : RemoteSource) (key : String) (w : World) : Effect Json RemoteSource World :=
  match s.cache.get? key w.now with
  | some document => ⟨.ok document, s, w.tick⟩
  | none => s.ask key w.tick

def fetch (s : RemoteSource) (key : String) (w : World) : Effect Record RemoteSource World :=
  let found := s.document key w
  { found with outcome := found.outcome.map Record.ofDocument }

def save (s : RemoteSource) (w : World) : Effect Unit RemoteSource World :=
  let saved := s.cache.save w.now w.files
  ⟨saved.outcome, { s with cache := saved.cache }, { w.tick with files := saved.files }⟩

theorem service_document (s : RemoteSource) (key : String) (w : World) :
    (s.document key w).source.service = s.service := by
  unfold document ask
  repeat' split
  all_goals rfl

instance : FieldSource RemoteSource World where
  name s := s.service.name
  fetch := fetch
  save := save

end RemoteSource

end AddressLookup
