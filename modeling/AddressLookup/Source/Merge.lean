import AddressLookup.Source.Basic

/-!
Several sources as one. The record of a key has the fields of every source, and of a field that several
sources know it has the value of the last; each key is looked up once. The first failure ends a lookup,
but saving goes on past failures.
-/

namespace AddressLookup.FieldSource

variable {σ ω : Type} [FieldSource σ ω]

def names (sources : List σ) : List String :=
  sources.map name

def fetchInto : Record → List σ → String → ω → Effect Record (List σ) ω
  | r, [], _, w => ⟨.ok r, [], w⟩
  | r, s :: rest, key, w =>
    let fetched := fetch s key w
    match fetched.outcome with
    | .error e => ⟨.error e, fetched.source :: rest, fetched.world⟩
    | .ok fields =>
      let others := fetchInto (r.override fields) rest key fetched.world
      { others with source := fetched.source :: others.source }

def fetchAll (sources : List σ) (key : String) (w : ω) : Effect Record (List σ) ω :=
  fetchInto ∅ sources key w

def lookupInto : Dataset → List σ → List String → ω → Effect Dataset (List σ) ω
  | d, sources, [], w => ⟨.ok d, sources, w⟩
  | d, sources, key :: keys, w =>
    if d.contains key then lookupInto d sources keys w
    else
      let fetched := fetchAll sources key w
      match fetched.outcome with
      | .error e => ⟨.error e, fetched.source, fetched.world⟩
      | .ok r => lookupInto (d.insert key r) fetched.source keys fetched.world

def lookup (sources : List σ) (keys : List String) (w : ω) : Effect Dataset (List σ) ω :=
  lookupInto ∅ sources keys w

/-- Looks keys up and applies a query, which is read first: nothing is fetched for one that is malformed. -/
def run (sources : List σ) (keys : List String) (query : Option String) (w : ω) :
    Effect Dataset (List σ) ω :=
  match query with
  | none => lookup sources keys w
  | some text =>
    match Query.parse text with
    | .error e => ⟨.error (.query e), sources, w⟩
    | .ok q =>
      let found := lookup sources keys w
      { found with outcome := found.outcome.map q.apply }

def saveAll : List σ → ω → Effect Unit (List σ) ω
  | [], w => ⟨.ok (), [], w⟩
  | s :: rest, w =>
    let saved := save s w
    let others := saveAll rest saved.world
    let outcome :=
      match saved.outcome with
      | .error e => .error e
      | .ok _ => others.outcome
    ⟨outcome, saved.source :: others.source, others.world⟩

end AddressLookup.FieldSource
