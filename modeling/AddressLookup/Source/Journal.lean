import AddressLookup.Source.Basic

/-!
Sources whose calls are written down. A journaled source does what the source in it does, and each call
is added, with its outcome, to the journal that all the sources share.
-/

namespace AddressLookup

inductive Call where
  | fetch (source key : String) (outcome : Except Error Record)
  | save (source : String) (outcome : Except Error Unit)

structure Journaled (σ : Type) where
  source : σ

structure Journal (ω : Type) where
  world : ω
  calls : List Call

namespace Journaled

variable {σ ω : Type} [FieldSource σ ω]

def fetch (s : Journaled σ) (key : String) (j : Journal ω) : Effect Record (Journaled σ) (Journal ω) :=
  let fetched := FieldSource.fetch s.source key j.world
  let call := Call.fetch (FieldSource.name s.source) key fetched.outcome
  ⟨fetched.outcome, ⟨fetched.source⟩, ⟨fetched.world, j.calls ++ [call]⟩⟩

def save (s : Journaled σ) (j : Journal ω) : Effect Unit (Journaled σ) (Journal ω) :=
  let saved := FieldSource.save s.source j.world
  let call := Call.save (FieldSource.name s.source) saved.outcome
  ⟨saved.outcome, ⟨saved.source⟩, ⟨saved.world, j.calls ++ [call]⟩⟩

instance : FieldSource (Journaled σ) (Journal ω) where
  name s := FieldSource.name s.source
  fetch := fetch
  save := save

end Journaled

end AddressLookup
