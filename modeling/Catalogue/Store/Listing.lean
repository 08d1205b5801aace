import Catalogue.Store.Adapter

/-!
Listings of one sort of thing. Everything that a caller supplies is compiled before the adapter sees
a call.
-/

namespace Catalogue

open Calendar (Date)

structure Listing where
  registry : Registry
  settings : Settings
  /-- The day that fills what a timestamp leaves out. -/
  today : Date

namespace Listing

variable {σ : Type}

def fetch (listing : Listing) (adapter : Adapter σ) (s : σ) (request : Request) :
    σ × Outcome Page :=
  match Plan.ofRequest listing.today listing.registry listing.settings adapter.acceptsClauses
    request with
  | .error e => (s, .error e)
  | .ok plan => adapter.run s (plan.calls request)

/-- Reads named parameters and runs the request. -/
def fetchParameters (listing : Listing) (adapter : Adapter σ) (s : σ) (params : Entries) :
    σ × Outcome Page :=
  match Request.ofParameters listing.settings params {} with
  | .error e => (s, .error e)
  | .ok request => listing.fetch adapter s request

end Listing

end Catalogue
