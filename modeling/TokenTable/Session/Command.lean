import TokenTable.Session.Bench

/-! # Commands of a session

A session is a list of commands: they write the script of its store, call the store, make and ask
cancellation tokens, or use a client of the store. Each group of commands is a type of its own, so
that each is run by a function of its own. -/

namespace TokenTable

/-- How an operation may be cancelled. -/
inductive Cancellation where
  | never
  | after (checks : Value)
  | event (isSet : Bool)
  | named (name : String)
deriving Repr

/-- The cancellation that an argument describes: a number of questions, an event, or a token by its
name. -/
def Cancellation.ofValue : Value → Cancellation
  | .null => .never
  | .bool isSet => .event isSet
  | .text name => .named (Value.text name).written
  | checks => .after checks

/-- Commands that write or read the script of a store. -/
inductive ScriptCommand where
  | expect (expectation : Expectation)
  | expectRead (table items keys unprocessed : Value)
  | expectWrite (table requests unprocessed : Value)
  | assertPlayed
  | requests (method : Value)
  | callsReceived

/-- Commands that make or ask a cancellation token. -/
inductive TokenCommand where
  | make (name : String) (cancellation : Cancellation)
  | poll (name : String)

/-- Commands that use the store without a client. -/
inductive StoreCommand where
  | call (method request : Value)
  | read (table keys : Value) (consistent : Bool) (order maxRetries : Value) (pauses : Bool)
      (cancellation : Cancellation)
  | write (table items mode maxRetries : Value) (pauses : Bool) (cancellation : Cancellation)

/-- Commands that set up the client or work on items. -/
inductive ItemCommand where
  | configure (options : ClientOptions)
  | get (table key : Value) (consistent : Bool)
  | put (table item expected : Value)
  | update (table key updates expected returned : Value)
  | delete (table key : Value)
  | read (table keys : Value) (consistent : Bool) (order : Value) (cancellation : Cancellation)
  | write (table items : Value) (mode : Batch.Mode) (cancellation : Cancellation)
  | query (table conditions : Value) (options : Client.QueryOptions)
  | count (table conditions index : Value)
  | scan (name : String) (table filter limit : Value)
  | next (name : String)

/-- Commands that work on tables. -/
inductive TableCommand where
  | create (layout : Layout) (wait : Bool)
  | delete (table : Value) (wait ignoreMissing : Bool)
  | exists (table : Value)
  | empty (table : Value)

/-- Steps whose arguments do not fit. What is asked of the script needs a script all the same, a
scan that cannot be begun replaces an earlier one, and a cancellation is prepared first. -/
inductive MisfitCommand where
  | script
  | scan (name : String)
  | cancellable (cancellation : Cancellation)
  | other

/-- A step of a session. -/
inductive Command where
  | script (command : ScriptCommand)
  | token (command : TokenCommand)
  | store (command : StoreCommand)
  | item (command : ItemCommand)
  | table (command : TableCommand)
  | misfit (command : MisfitCommand)

end TokenTable
