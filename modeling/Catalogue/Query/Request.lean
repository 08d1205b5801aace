import Catalogue.Json.Reader
import Catalogue.Failure
import Catalogue.Settings
import Catalogue.Value.Literal

/-!
Requests for a listing: page bounds, filter, order and free text, read from raw parameters.
-/

namespace Catalogue

/-- A request whose page bounds hold and whose filter and order are decoded. -/
structure Request where
  limit : Int
  /-- The number of rows to skip; absent when the caller gave none. -/
  offset : Option Int := none
  filter : Value := .object []
  order : Value := .list []
  text : Option String := none
  deriving Inhabited

def Request.isEmpty (r : Request) : Bool :=
  !r.filter.isTruthy && !r.order.isTruthy && r.text.isNone

/-- The raw parameters of a request; a parameter that is not given is null. -/
structure RawRequest where
  limit : Value := .null
  offset : Value := .null
  filter : Value := .null
  order : Value := .null
  text : Value := .null

structure ParameterNames where
  limit : String := "limit"
  offset : String := "offset"
  filter : String := "filter"
  order : String := "order"

namespace Request

/-- The plain text of a value; a number that is too long to write is a fault. -/
def textOf (v : Value) : Outcome String :=
  match v.text? with
  | some s => .ok s
  | none => .error (.fault .badValue)

/-- Reads an integer; nothing when absent or blank. -/
def readInteger (name : String) (v : Value) : Outcome (Option Int) :=
  match v with
  | .null => .ok none
  | .bool _ => .error (.parameter name .notInteger)
  | .int n => .ok (some n)
  | v => do
    let s := Text.trim (← textOf v)
    if s.isEmpty then return none
    match Text.integerIn? s with
    | some n => return some n
    | none => .error (.parameter name .notInteger)

/-- The page size. Without a positive one the greatest is used. -/
def readLimit (settings : Settings) (v : Value) : Outcome Int := do
  match ← readInteger "limit" v with
  | none => return settings.maxLimit
  | some n =>
    if n ≤ 0 then return settings.maxLimit
    else if settings.maxLimit < n then .error (.parameter "limit" (.aboveMaximum settings.maxLimit))
    else return n

def readOffset (v : Value) : Outcome (Option Int) := do
  match ← readInteger "offset" v with
  | none => return none
  | some n => if n < 0 then .error (.parameter "offset" .negative) else return some n

/-- Decodes a text as an object or a list; nothing when blank. A text that is nested too deep is not
refused but a fault. -/
def decodeText (name s : String) : Outcome (Option Value) :=
  if Text.isAllBlank s then .ok none
  else match Json.read Json.maxNesting s with
    | .error .malformed => .error (.parameter name .malformed)
    | .error .tooDeep => .error (.fault .tooDeep)
    | .ok (.object entries) => .ok (some (.object entries))
    | .ok (.list items) => .ok (some (.list items))
    | .ok _ => .error (.parameter name .notObject)

/-- Decodes a parameter that carries an object or a list; nothing when absent or blank. Decoded
values stay as they are. -/
def readContainer (name : String) : Value → Outcome (Option Value)
  | .null => .ok none
  | .object entries => .ok (some (.object entries))
  | .list items => .ok (some (.list items))
  | .text s => decodeText name s
  | .bytes octets =>
    match String.fromUTF8? octets with
    | some s => decodeText name s
    | none => .error (.parameter name .malformed)
  | _ => .error (.parameter name .notObject)

/-- The value, unless it is absent or empty. -/
def orElseEmpty (v : Option Value) (empty : Value) : Value :=
  match v with
  | some v => if v.isTruthy then v else empty
  | none => empty

/-- The free text without blanks around it; nothing when none is left. -/
def readText (v : Value) : Outcome (Option String) :=
  match v with
  | .null => .ok none
  | v => do
    let s := Text.trim (← textOf v)
    return if s.isEmpty then none else some s

/-- Reads raw parameters in the order limit, offset, filter, order, text. -/
def ofRaw (settings : Settings) (raw : RawRequest) : Outcome Request := do
  let limit ← readLimit settings raw.limit
  let offset ← readOffset raw.offset
  let filter ← readContainer "filter" raw.filter
  let order ← readContainer "order" raw.order
  let text ← readText raw.text
  return { limit, offset, filter := orElseEmpty filter (.object []),
           order := orElseEmpty order (.list []), text }

def isNoText (v : Value) : Bool :=
  v.isNull || v.isText ""

/-- The free text among the parameters: the first of its names that carries any. -/
def rawText (settings : Settings) (params : Entries) : Value :=
  let carried := (settings.textParam :: settings.textParamAliases).filterMap params.get?
  (carried.find? fun v => !isNoText v).getD .null

def ofParameters (settings : Settings) (params : Entries)
    (names : ParameterNames) : Outcome Request :=
  let get := fun name => (params.get? name).getD .null
  ofRaw settings {
    limit := get names.limit
    offset := get names.offset
    filter := get names.filter
    order := get names.order
    text := rawText settings params }

end Request

end Catalogue
