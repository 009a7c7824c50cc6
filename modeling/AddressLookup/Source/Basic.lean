import AddressLookup.Dataset
import AddressLookup.Error

/-!
Sources of fields: for a key they give the fields that they know of it. Fetching may fail and may change
both the source and its surroundings; a source also saves what it has learned.
-/

namespace AddressLookup

structure Effect (α σ ω : Type) where
  outcome : Except Error α
  source : σ
  world : ω

class FieldSource (σ : Type) (ω : outParam Type) where
  name : σ → String
  fetch : σ → String → ω → Effect Record σ ω
  save : σ → ω → Effect Unit σ ω

end AddressLookup
