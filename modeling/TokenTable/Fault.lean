import TokenTable.Kind
import TokenTable.Store.Expectation

/-! # Faults

Everything that can go wrong, by cause. A fault belongs to a category, which decides whether an
operation may handle it, and most faults have a message. Main statement: `category_inAttribute`,
naming the attribute does not change what a fault is. -/

namespace TokenTable

/-- Why an operation failed. -/
inductive Fault where
  -- Tokens
  /-- A token is no text, or an empty one. -/
  | emptyToken (token : Value)
  | emptyName (token : String)
  | extraSeparator (token : String)
  | unknownTag (token : String)
  -- Attribute values
  | unsupportedTag (tag : Value)
  | valueRequired (kind : Kind)
  | collectionRefused (kind : Kind)
  | notAnAttribute (shape : String)
  | noKnownTag (tags : List Value)
  /-- A fault in the value of one attribute of an item. -/
  | inAttribute (name : Value) (cause : Fault)
  -- Conditions
  | conditionShape (token : String)
  | operatorNotText (token : String)
  | unknownOperator (token operator : String)
  | operandRefused (token operator : String)
  | operandRequired (token operator : String)
  | boundsRequired (token : String)
  | sequenceRequired (token : String)
  -- Updates
  | updateShape (token : String)
  | actionNotText (token : String)
  | unknownAction (token action : String)
  | updateValueRequired (token action : String)
  -- Items
  | notAnItem (shape : String)
  | attributeWithoutValue (name : String)
  | attributeRepeated (name : String)
  -- Batches
  | emptyBatch (operation : String)
  | negativeRetries
  | unknownMode (mode : Value)
  /-- The retries are used up with entries left over; what a read collected so far is kept. -/
  | partialBatch (operation : String) (unprocessed items : List Value)
  | cancelledBatch (operation : String) (pending items : List Value)
  | orderShape
  | orderKeyRequired
  | orderDirection (forward : Value)
  -- Client operations
  | noUpdates
  | noKeyCondition (operation : String)
  | limitNotPositive
  | noKeySchema (table : Value)
  | tableNeverActive (table : Value)
  | tableNeverDeleted (table : Value)
  | tableNameRequired
  | capacityNotPositive
  | keyKindRefused (token : String)
  | indexNeedsRangeKey
  | indexNeedsName
  | notANumber (setting : String) (raw : Value)
  -- Stores
  | rejected (rejection : Rejection)
  | unexpectedCall (method : String)
  | otherCall (expected : Value) (actual : String)
  | mapExpected (path shape : String)
  | keyMissing (path : String) (key : Value)
  | listExpected (path shape : String)
  | lengthDiffers (path : String) (expected actual : Nat)
  | valueDiffers (path : String) (expected actual : Value)
  | requestRefused (reason : String)
  | callsPending (pending : List Expectation)
  /-- The store kept answering beyond its own bound. -/
  | outOfPatience
  -- Arguments out of range
  | sizeNotPositive
  | retryBudgetNegative
  | checksNegative
  | attemptsNegative
  -- Values of the wrong shape
  | wrongShape
  | noSuchKey
  | noSuchPlace
  | noSuchMember
  | badValue
  | outOfRange
  | nothingLeft
  | notNumeric
  | numberTooGreat

namespace Fault

/-- What sort of failure a fault is. -/
inductive Category where
  | validation
  | unsupportedType
  | invalidOperand
  | invalidOption
  | emptyBatch
  | partialBatch
  | batchCancelled
  | rejection
  | failedExpectation
  /-- An argument out of range, with a message. -/
  | badArgument
  | retryConfiguration
  | wrongShape
  | noSuchKey
  | noSuchPlace
  | noSuchMember
  | badValue
  | outOfRange
  | nothingLeft
  | notNumeric
  | numberTooGreat
  | outOfPatience
deriving DecidableEq, Repr

def category : Fault → Category
  | .emptyToken .. | .emptyName .. | .extraSeparator .. | .unknownTag .. => .validation
  | .unsupportedTag .. | .notAnAttribute .. | .noKnownTag .. => .unsupportedType
  | .valueRequired .. | .collectionRefused .. => .invalidOperand
  | .inAttribute _ cause => cause.category
  | .conditionShape .. => .invalidOperand
  | .operatorNotText .. | .unknownOperator .. => .validation
  | .operandRefused .. | .operandRequired .. | .boundsRequired .. | .sequenceRequired .. =>
    .invalidOperand
  | .updateShape .. | .updateValueRequired .. => .invalidOperand
  | .actionNotText .. | .unknownAction .. => .validation
  | .notAnItem .. | .attributeWithoutValue .. | .attributeRepeated .. => .validation
  | .emptyBatch .. => .emptyBatch
  | .negativeRetries | .unknownMode .. => .validation
  | .partialBatch .. => .partialBatch
  | .cancelledBatch .. => .batchCancelled
  | .orderShape | .orderKeyRequired | .orderDirection .. => .invalidOption
  | .noUpdates | .noKeyCondition .. | .limitNotPositive | .noKeySchema .. => .validation
  | .tableNeverActive .. | .tableNeverDeleted .. | .tableNameRequired => .validation
  | .capacityNotPositive | .keyKindRefused .. | .indexNeedsRangeKey => .validation
  | .indexNeedsName | .notANumber .. => .validation
  | .rejected .. => .rejection
  | .unexpectedCall .. | .otherCall .. | .mapExpected .. | .keyMissing .. => .failedExpectation
  | .listExpected .. | .lengthDiffers .. | .valueDiffers .. => .failedExpectation
  | .requestRefused .. | .callsPending .. => .failedExpectation
  | .outOfPatience => .outOfPatience
  | .sizeNotPositive | .retryBudgetNegative | .checksNegative => .badArgument
  | .attemptsNegative => .retryConfiguration
  | .wrongShape => .wrongShape
  | .noSuchKey => .noSuchKey
  | .noSuchPlace => .noSuchPlace
  | .noSuchMember => .noSuchMember
  | .badValue => .badValue
  | .outOfRange => .outOfRange
  | .nothingLeft => .nothingLeft
  | .notNumeric => .notNumeric
  | .numberTooGreat => .numberTooGreat

/-- The message of a fault; faults of mere shape have none. -/
def message : Fault → String
  | .emptyToken token => "attribute token must be a non-empty string: " ++ token.written
  | .emptyName token => "attribute token has an empty name: " ++ Text.quote token
  | .extraSeparator token => "attribute token has more than one separator: " ++ Text.quote token
  | .unknownTag token => "unknown attribute type in token: " ++ Text.quote token
  | .unsupportedTag tag => "unsupported attribute type: " ++ tag.display
  | .valueRequired kind => kind.tag ++ " value is required"
  | .collectionRefused kind =>
    kind.tag ++ " is a scalar type and does not accept a collection"
  | .notAnAttribute shape => "attribute value must be a map, got " ++ shape
  | .noKnownTag tags => "unsupported attribute value: keys=" ++ (Value.list tags).written
  | .inAttribute name cause => "attribute " ++ name.written ++ ": " ++ cause.message
  | .conditionShape token => token ++ ": condition must be (operator,) or (operator, operand)"
  | .operatorNotText token => token ++ ": condition operator must be a string"
  | .unknownOperator token operator =>
    token ++ ": unsupported condition operator: " ++ operator
  | .operandRefused token operator => token ++ ": " ++ operator ++ " does not take a value"
  | .operandRequired token operator => token ++ ": " ++ operator ++ " requires a value"
  | .boundsRequired token => token ++ ": BETWEEN requires exactly two values"
  | .sequenceRequired token => token ++ ": IN requires a sequence of values"
  | .updateShape token => token ++ ": update must be (action,) or (action, value)"
  | .actionNotText token => token ++ ": update action must be a string"
  | .unknownAction token action => token ++ ": unsupported update action: " ++ action
  | .updateValueRequired token action => token ++ ": " ++ action ++ " requires a value"
  | .notAnItem shape => "item must be a mapping, got " ++ shape
  | .attributeWithoutValue name => "attribute " ++ Text.quote name ++ " has no value"
  | .attributeRepeated name => "attribute " ++ Text.quote name ++ " appears more than once"
  | .emptyBatch operation => operation ++ ": at least one key or item is required"
  | .negativeRetries => "max_retries must be >= 0"
  | .unknownMode mode => "unsupported batch write mode: " ++ mode.display
  | .partialBatch operation unprocessed _ =>
    operation ++ ": retry limit exceeded (unprocessed=" ++ toString unprocessed.length ++ ")"
  | .cancelledBatch operation pending _ =>
    operation ++ ": cancelled (pending=" ++ toString pending.length ++ ")"
  | .orderShape => "Order option must be a mapping with a Key"
  | .orderKeyRequired => "Order option requires Key"
  | .orderDirection forward => "Order Forward must be a bool, got " ++ forward.written
  | .noUpdates => "no updates provided"
  | .noKeyCondition operation => operation ++ " requires at least one key condition"
  | .limitNotPositive => "limit must be > 0"
  | .noKeySchema table => "table " ++ table.display ++ " has no key schema"
  | .tableNeverActive table => "timed out waiting for table ACTIVE: " ++ table.display
  | .tableNeverDeleted table => "timed out waiting for table deletion: " ++ table.display
  | .tableNameRequired => "table_name is required"
  | .capacityNotPositive => "read_capacity and write_capacity must be > 0"
  | .keyKindRefused token => "key attribute must be S/N/B: " ++ token
  | .indexNeedsRangeKey => "local secondary indexes require a range key"
  | .indexNeedsName => "local secondary index requires a name"
  | .notANumber setting raw => setting ++ " must be a number: " ++ raw.written
  | .rejected rejection => rejection.message
  | .unexpectedCall method => "unexpected call: " ++ method
  | .otherCall expected actual => "expected " ++ expected.display ++ ", got " ++ actual
  | .mapExpected path shape => path ++ ": expected dict, got " ++ shape
  | .keyMissing path key => path ++ ": missing key " ++ key.written
  | .listExpected path shape => path ++ ": expected list, got " ++ shape
  | .lengthDiffers path expected actual =>
    path ++ ": expected " ++ toString expected ++ " items, got " ++ toString actual
  | .valueDiffers path expected actual =>
    path ++ ": expected " ++ expected.written ++ ", got " ++ actual.written
  | .requestRefused reason => reason
  | .callsPending pending => "pending expected calls: " ++ Expectation.listing pending
  | .sizeNotPositive => "size must be > 0"
  | .retryBudgetNegative => "max_retries must be >= 0"
  | .checksNegative => "checks must be >= 0"
  | .outOfPatience | .attemptsNegative | .wrongShape | .noSuchKey | .noSuchPlace | .noSuchMember
  | .badValue | .outOfRange | .nothingLeft | .notNumeric | .numberTooGreat => ""

theorem category_inAttribute (name : Value) (cause : Fault) :
    (Fault.inAttribute name cause).category = cause.category := rfl

end Fault

end TokenTable
