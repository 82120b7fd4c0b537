import TokenTable.Session.Bench

/-! # Venues of a session

A session can be played wherever there is a rehearsal. A venue tells where in its world the
rehearsal is, and what it does around each call that reaches the store. One venue is a bench on
which the store is used as it is, another meters its calls. Main statement: `store_metered`, on the
second the store is a metered one. -/

namespace TokenTable

/-- Where a session is played. -/
structure Venue (ω : Type) where
  rehearsal : ω → Rehearsal
  replace : Rehearsal → ω → ω
  /-- What is done around a call that reaches what the store has under a name. -/
  around : String → Request → Run ω Value → Run ω Value

namespace Venue

variable {ω α : Type}

/-- Works on the rehearsal of a venue. -/
def here (venue : Venue ω) (action : Run Rehearsal α) : Run ω α :=
  action.within venue.rehearsal venue.replace

/-- The store of a rehearsal, as the venue lets it be used. -/
def store (venue : Venue ω) (echoing : Bool) : Store ω :=
  ((Rehearsal.bareStore echoing).within venue.rehearsal venue.replace).surrounded venue.around

/-- A bench whose store is used as it is. -/
def bare : Venue Bench where
  rehearsal := Bench.rehearsal
  replace rehearsal bench := { bench with rehearsal }
  around _ _ call := call

/-- A bench that keeps a metric of every call. -/
def metered (service : String) : Venue Bench where
  rehearsal := Bench.rehearsal
  replace rehearsal bench := { bench with rehearsal }
  around name _ := Store.measured service name Bench.record

theorem store_metered (service : String) (echoing : Bool) :
    (metered service).store echoing = (bare.store echoing).metered service Bench.record := rfl

end Venue

end TokenTable
