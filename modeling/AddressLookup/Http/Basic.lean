/-!
Requests for documents and what comes of them. The network is a value: for each request, given those sent
before it, it says which services received it on the way and which response came back in the end.
-/

namespace AddressLookup.Http

structure Request where
  url : String
  accept : String
  contentType : Option String
  userAgent : Option String
  deriving DecidableEq, Repr

structure Response where
  status : Nat
  body : ByteArray

def Response.isSuccess (r : Response) : Bool :=
  200 ≤ r.status && r.status < 300

/-- A service sees the request itself and those of the redirections that follow it. -/
structure Exchange where
  received : List Request
  response : Option Response

structure Network where
  exchange : List Request → Request → Exchange

def Network.unreachable : Network :=
  ⟨fun _ _ => ⟨[], none⟩⟩

end AddressLookup.Http
