import TokenTable.Client.Scan
import TokenTable.Client.Tables
import TokenTable.Session.Token
import TokenTable.Store.Echo
import TokenTable.Store.Metered
import TokenTable.Store.Script

/-! # The bench of a session

A session rehearses client operations against a scripted or an echo store. What it works on is its
rehearsal: the store, a clock that only pauses move, a journal of pauses, tokens and scans. The
bench keeps the metrics of calls beside it, so that what works on the rehearsal cannot tell whether
calls are metered. Main statement: `slept_pause`, every pause is in the journal. -/

namespace TokenTable

/-- The store of a session. -/
inductive RehearsalStore where
  | scripted (script : Script)
  | echoing (echo : Echo)

/-- The store that arguments describe: a scripted one without any, an echo store with some. -/
def RehearsalStore.ofValue (arguments : Value) : Except Fault RehearsalStore :=
  if arguments.isNull then .ok (.scripted .empty)
  else return .echoing (← Echo.ofArguments arguments)

/-- How the client of a session is set up. -/
structure ClientOptions where
  retries : Value
  pauses : Bool
  waitTimeout : Value
  pollInterval : Value

def ClientOptions.default : ClientOptions :=
  { retries := .int 3, pauses := true
    waitTimeout := .float (.ofDecimal false 300 0)
    pollInterval := .float (.ofDecimal false 25 (-2)) }

/-- What a session works on. -/
structure Rehearsal where
  store : RehearsalStore
  clock : Binary64
  /-- The pauses so far, in order. -/
  slept : List Value
  /-- The tokens made so far; a token is known by its place. -/
  tokens : List CancelToken
  /-- The names of tokens; a name may stand for none. -/
  names : List (String × Option Nat)
  scans : List (String × Scan)
  options : ClientOptions

namespace Rehearsal

def start (store : RehearsalStore) : Rehearsal :=
  { store, clock := .zero, slept := [], tokens := [], names := [], scans := []
    options := .default }

/-- The scripted part of a rehearsal; an echo store has none. -/
def script (rehearsal : Rehearsal) : Script :=
  match rehearsal.store with
  | .scripted script => script
  | .echoing _ => .empty

/-- The echoing part of a rehearsal; a scripted store has none. -/
def echo (rehearsal : Rehearsal) : Echo :=
  match rehearsal.store with
  | .scripted _ =>
    { table := .null, reverse := false, canonical := false, schedule := [], readPages := []
      writePages := [] }
  | .echoing echo => echo

/-- The bare store of a session. Its own name may not be given as an argument. -/
def bareStore (echoing : Bool) : Store Rehearsal :=
  let store : Store Rehearsal :=
    if echoing then
      Echo.store.within echo fun echo rehearsal => { rehearsal with store := .echoing echo }
    else
      Script.store.within script fun script rehearsal =>
        { rehearsal with store := .scripted script }
  store.reserving "self"

def isEchoing (rehearsal : Rehearsal) : Bool :=
  match rehearsal.store with
  | .scripted _ => false
  | .echoing _ => true

/-- Pauses: the journal tells, and the clock moves on. What is no duration is told all the same. -/
def pause (duration : Value) : Run Rehearsal Unit := do
  Run.change fun rehearsal => { rehearsal with slept := rehearsal.slept ++ [duration] }
  let seconds ← duration.toBinary64
  Run.change fun rehearsal => { rehearsal with clock := rehearsal.clock.add seconds }

def addToken (token : CancelToken) : Run Rehearsal Nat := do
  let place := (← Run.world).tokens.length
  Run.change fun rehearsal => { rehearsal with tokens := rehearsal.tokens ++ [token] }
  return place

def pollToken (place : Nat) : Run Rehearsal Bool := do
  match (← Run.world).tokens[place]? with
  | none => throw .noSuchKey
  | some token =>
    let (cancelled, token) ← token.poll
    Run.change fun rehearsal => { rehearsal with tokens := rehearsal.tokens.set place token }
    return cancelled

/-- What a name of a token stands for. -/
def named (name : String) : Run Rehearsal (Option Nat) := do
  match (← Run.world).names.lookup name with
  | none => throw .noSuchKey
  | some place? => return place?

/-- Lets a name stand for a token or for none. -/
def rename (name : String) (place? : Option Nat) : Run Rehearsal Unit :=
  Run.change fun rehearsal => { rehearsal with names := upsertField name place? rehearsal.names }

/-- The scan that is kept under a name. -/
def scanNamed (name : String) : Run Rehearsal Scan := do
  match (← Run.world).scans.lookup name with
  | none => throw .noSuchKey
  | some scan => return scan

/-- Keeps a scan under its name in place of an earlier one. -/
def keepScan (name : String) (scan : Scan) : Run Rehearsal Unit :=
  Run.change fun rehearsal =>
    { rehearsal with scans := (name, scan) :: rehearsal.scans.filter (·.1 != name) }

def dropScan (name : String) : Run Rehearsal Unit :=
  Run.change fun rehearsal =>
    { rehearsal with scans := rehearsal.scans.filter (·.1 != name) }

/-- The script that is played; an echo store has none. -/
def requireScript : Run Rehearsal Script := do
  match (← Run.world).store with
  | .scripted script => return script
  | .echoing _ => throw .noSuchMember

def expect (expectation : Expectation) : Run Rehearsal Unit := do
  let script ← requireScript
  Run.change fun rehearsal => { rehearsal with store := .scripted (script.expect expectation) }

theorem slept_pause (duration : Value) (rehearsal : Rehearsal) :
    ((pause duration).outcome rehearsal).2.slept = rehearsal.slept ++ [duration] := by
  cases seconds : duration.toBinary64 <;> simp [pause, seconds]

end Rehearsal

/-- The world of a session: its rehearsal and the metrics of calls. -/
structure Bench where
  rehearsal : Rehearsal
  metrics : List Metric

namespace Bench

def start (store : RehearsalStore) : Bench := ⟨.start store, []⟩

def script (bench : Bench) : Script := bench.rehearsal.script

def echo (bench : Bench) : Echo := bench.rehearsal.echo

def slept (bench : Bench) : List Value := bench.rehearsal.slept

def record (metric : Metric) (bench : Bench) : Bench :=
  { bench with metrics := bench.metrics ++ [metric] }

end Bench

end TokenTable
