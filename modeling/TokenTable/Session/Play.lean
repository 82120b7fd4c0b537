import TokenTable.Session.Call
import TokenTable.Session.Venue

/-! # Playing a session

The commands of a session are run one after another at its venue. Each answers a value or fails; a
failure does not end the session. Main statements: `play_append`, a session can be played in parts,
and `run_configure_negative`. -/

namespace TokenTable.Session

variable {ω : Type}

/-- The store that commands use. -/
def storeOf (venue : Venue ω) (world : ω) : Store ω :=
  venue.store (venue.rehearsal world).isEchoing

/-- The way to pause, if pauses are allowed. -/
def pauseOf (venue : Venue ω) (pauses : Bool) : Option (Value → Run ω Unit) :=
  if pauses then some fun duration => venue.here (Rehearsal.pause duration) else none

def clientOf (venue : Venue ω) (world : ω) : Client ω :=
  let options := (venue.rehearsal world).options
  { store := storeOf venue world
    retries := options.retries
    pause := pauseOf venue options.pauses
    clock := fun later => (venue.rehearsal later).clock
    waitTimeout := options.waitTimeout
    pollInterval := options.pollInterval }

/-- The place of the token that a cancellation makes or names, if there is any. -/
def prepare : Cancellation → Run Rehearsal (Option Nat)
  | .never => return none
  | .after checks => do return some (← Rehearsal.addToken (← CancelToken.after checks))
  | .event isSet => do return some (← Rehearsal.addToken (.event isSet))
  | .named name => Rehearsal.named name

/-- How an operation asks whether it is cancelled. -/
def watch (venue : Venue ω) (cancellation : Cancellation) : Run ω (Option (Run ω Bool)) :=
  return (← venue.here (prepare cancellation)).map fun place =>
    venue.here (Rehearsal.pollToken place)

def orNull (v : Option Value) : Value := v.getD .null

def runScript : ScriptCommand → Run Rehearsal Value
  | .expect expectation => do
    Rehearsal.expect expectation
    return .null
  | .expectRead table items keys unprocessed => do
    let _ ← Rehearsal.requireScript
    Rehearsal.expect (← Script.expectedRead table items keys unprocessed)
    return .null
  | .expectWrite table requests unprocessed => do
    let _ ← Rehearsal.requireScript
    Rehearsal.expect (← Script.expectedWrite table requests unprocessed)
    return .null
  | .assertPlayed => do
    (← Rehearsal.requireScript).assertPlayed
    return .null
  | .requests method => do
    return .list (((← Rehearsal.requireScript).requestsOf method).map .record)
  | .callsReceived => do return .int (← Rehearsal.requireScript).calls.length

/-- Runs a command on tokens. A name that stands for no token cannot be asked. -/
def runToken : TokenCommand → Run Rehearsal Value
  | .make name cancellation => do
    Rehearsal.rename name (← prepare cancellation)
    return .null
  | .poll name => do
    match ← Rehearsal.named name with
    | none => throw .noSuchMember
    | some place => return .bool (← Rehearsal.pollToken place)

/-- Calls what a store has under a name. -/
def callMember (venue : Venue ω) (store : Store ω) (name : String) (request : Value) :
    Member → Run ω Value
  | .data => throw .wrongShape
  | .method method => do
    store.require method
    store.answer method (← Request.ofValue request)
  | .script command => do
    let arguments ← Request.ofValue request
    venue.around name arguments (venue.here do runScript (← command (.record arguments)))

/-- Calls what a store has under the name that a value is. -/
def callByName (venue : Venue ω) (store : Store ω) (name request : Value) : Run ω Value := do
  match name with
  | .text name =>
    match Member.ofName? (venue.rehearsal (← Run.world)).isEchoing name with
    | none => throw .noSuchMember
    | some member => callMember venue store name request member
  | _ => throw .wrongShape

def runStore (venue : Venue ω) (store : Store ω) : StoreCommand → Run ω Value
  | .call method request => callByName venue store method request
  | .read table keys consistent order maxRetries pauses cancellation => do
    let cancelled ← watch venue cancellation
    return .list (← Batch.read store table keys consistent order
      { maxRetries, pause := pauseOf venue pauses, cancelled })
  | .write table items mode maxRetries pauses cancellation => do
    let cancelled ← watch venue cancellation
    Batch.write store table items mode { maxRetries, pause := pauseOf venue pauses, cancelled }
    return .bool true

/-- Sets up the client anew; the number of retries may not be negative. -/
def configure (options : ClientOptions) : Run Rehearsal Value := do
  if ← options.retries.isBelow 0 then throw .retryBudgetNegative
  Run.change fun rehearsal => { rehearsal with options }
  return .null

/-- Takes the next item of the scan under a name; after a failure the scan is finished. -/
def advance (venue : Venue ω) (store : Store ω) (name : String) : Run ω Value := do
  let scan ← venue.here (Rehearsal.scanNamed name)
  venue.here (Rehearsal.keepScan name scan.finish)
  let (item, after) ← scan.next store (← store.limit)
  venue.here (Rehearsal.keepScan name after)
  return .list item.toList

/-- Begins a scan under a name; an earlier one of that name is gone even if this one fails. -/
def beginScan (name : String) (table filter limit : Value) : Run Rehearsal Value := do
  Rehearsal.dropScan name
  Rehearsal.keepScan name (← Client.scan table filter limit)
  return .null

def runItem (venue : Venue ω) (client : Client ω) : ItemCommand → Run ω Value
  | .configure options => venue.here (configure options)
  | .get table key consistent => do return orNull (← client.get table key consistent)
  | .put table item expected => do return .bool (← client.put table item expected)
  | .update table key updates expected returned => do
    return orNull (← client.update table key updates expected returned)
  | .delete table key => do return orNull (← client.delete table key)
  | .read table keys consistent order cancellation => do
    let cancelled ← watch venue cancellation
    return .list (← client.readBatch table keys consistent order cancelled)
  | .write table items mode cancellation => do
    let cancelled ← watch venue cancellation
    client.writeBatch table items mode cancelled
    return .bool true
  | .query table conditions options => do
    return .list (← client.query table conditions options)
  | .count table conditions index => do return .int (← client.count table conditions index)
  | .scan name table filter limit => venue.here (beginScan name table filter limit)
  | .next name => advance venue client.store name

def runTable (client : Client ω) : TableCommand → Run ω Value
  | .create layout wait => do
    client.createTable layout wait
    return .null
  | .delete table wait ignoreMissing => do
    client.deleteTable table wait ignoreMissing
    return .null
  | .exists table => do return .bool (← client.tableExists table)
  | .empty table => do return .int (← client.emptyTable table)

/-- Refuses a command whose arguments do not fit. -/
def runMisfit : MisfitCommand → Run Rehearsal Value
  | .script => do
    let _ ← Rehearsal.requireScript
    throw .wrongShape
  | .scan name => do
    Rehearsal.dropScan name
    throw .wrongShape
  | .cancellable cancellation => do
    let _ ← prepare cancellation
    throw .wrongShape
  | .other => throw .wrongShape

def runAt (venue : Venue ω) : Command → Run ω Value
  | .script command => venue.here (runScript command)
  | .token command => venue.here (runToken command)
  | .store command => do runStore venue (storeOf venue (← Run.world)) command
  | .item command => do runItem venue (clientOf venue (← Run.world)) command
  | .table command => do runTable (clientOf venue (← Run.world)) command
  | .misfit command => venue.here (runMisfit command)

/-- Runs commands one after another; each answers or fails by itself. -/
def playAt (venue : Venue ω) : List Command → ω → List (Except Fault Value) × ω
  | [], world => ([], world)
  | command :: rest, world =>
    let (answer, after) := (runAt venue command).outcome world
    let (answers, last) := playAt venue rest after
    (answer :: answers, last)

/-- The bench of a session, which meters its calls if that is asked for. -/
def venueOf (metered : Bool) : Venue Bench :=
  if metered then .metered Settings.service else .bare

def run (metered : Bool) : Command → Run Bench Value := runAt (venueOf metered)

def play (metered : Bool) : List Command → Bench → List (Except Fault Value) × Bench :=
  playAt (venueOf metered)

/-- A session can be played in parts. -/
theorem play_append (venue : Venue ω) (first second : List Command) (world : ω) :
    playAt venue (first ++ second) world =
      ((playAt venue first world).1 ++ (playAt venue second (playAt venue first world).2).1,
        (playAt venue second (playAt venue first world).2).2) := by
  induction first generalizing world with
  | nil => rfl
  | cons command rest ih => simp [playAt, ih]

/-- A client with a negative number of retries is refused, and the bench stays. -/
theorem run_configure_negative (metered : Bool) (options : ClientOptions) (maxRetries : Int)
    (bench : Bench) (negative : maxRetries < 0) :
    (run metered (.item (.configure { options with retries := .int maxRetries }))).outcome bench =
      (.error .retryBudgetNegative, bench) := by
  cases metered <;>
    simp [run, venueOf, runAt, runItem, Venue.here, Venue.bare, Venue.metered, configure,
      Value.isBelow_int, negative]

end TokenTable.Session
