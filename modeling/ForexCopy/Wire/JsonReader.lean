import ForexCopy.Backend.World
import ForexCopy.Library.Json
import ForexCopy.Wire.Strings

/-!
# What the MT4 slave reads

A `CopyInstruction` as the backend sends it in response to a poll, and the `JsonReader` of
`connectors/slave-ea-mt4/Include/ForexCopy/JsonReader.mqh` that `PollForInstruction` reads it with: a
search for the quoted key and a scan to the end of its value.
-/

namespace ForexCopy

open Utf16 Mql

/-! ### `JSON.stringify` -/

/-- The fields of a `CopyInstruction` as they are sent. -/
structure InstructionBody (Number : Type) where
  copyId : String
  action : String
  symbol : String
  side : Option String := none
  volume : Option Number := none
  sl : Option Number := none
  tp : Option Number := none
  slaveTicket : Option String := none
  deriving DecidableEq, Repr

def hexDigit (n : ℕ) : UInt16 := if n < 10 then (0x30 + n).toUInt16 else (0x57 + n).toUInt16

def escapeChar (c : Char) : Text :=
  if c = '"' then [backslash, quote]
  else if c = '\\' then [backslash, backslash]
  else if c = '\x08' then [backslash, 0x62]
  else if c = '\t' then [backslash, 0x74]
  else if c = '\n' then [backslash, 0x6E]
  else if c = '\x0C' then [backslash, 0x66]
  else if c = '\r' then [backslash, 0x72]
  else if c.toNat < 0x20 then
    [backslash, 0x75, zero, zero, hexDigit (c.toNat / 16), hexDigit (c.toNat % 16)]
  else ofChar c

def stringifyString (s : String) : Text := [quote] ++ s.toList.flatMap escapeChar ++ [quote]

namespace InstructionBody

variable {Number : Type}

/-- The properties that are not undefined, with the texts of their values, in the order in which the
route writes them. -/
def properties (doubles : Doubles Number) (instruction : InstructionBody Number) :
    List (String × Text) :=
  [("copyId", stringifyString instruction.copyId), ("action", stringifyString instruction.action),
    ("symbol", stringifyString instruction.symbol)] ++
  (instruction.side.map fun side => ("side", stringifyString side)).toList ++
  (instruction.volume.map fun volume => ("volume", doubles.numberToString volume)).toList ++
  (instruction.sl.map fun sl => ("sl", doubles.numberToString sl)).toList ++
  (instruction.tp.map fun tp => ("tp", doubles.numberToString tp)).toList ++
  (instruction.slaveTicket.map fun slaveTicket =>
    ("slaveTicket", stringifyString slaveTicket)).toList

/-- `JSON.stringify`. -/
def stringify (doubles : Doubles Number) (instruction : InstructionBody Number) : Text :=
  [openBrace] ++
    [comma].intercalate ((instruction.properties doubles).map fun property =>
      [quote] ++ ofString property.1 ++ [quote, colon] ++ property.2) ++
    [closeBrace]

end InstructionBody

def TradeEventType.name : TradeEventType → String
  | .open => "OPEN"
  | .close => "CLOSE"
  | .modify => "MODIFY"
  | .partialClose => "PARTIAL_CLOSE"
  | .pendingOpen => "PENDING_OPEN"
  | .pendingModify => "PENDING_MODIFY"
  | .pendingCancel => "PENDING_CANCEL"

def TradeSide.name : TradeSide → String
  | .buy => "BUY"
  | .sell => "SELL"

/-- The instruction as it is sent: a copy order by its identifier, and amounts as doubles. -/
def CopyInstruction.toBody {Number : Type} (doubles : Doubles Number) (uuid : Uuid → String)
    (instruction : CopyInstruction) : InstructionBody Number where
  copyId := uuid instruction.copyId
  action := instruction.action.name
  symbol := instruction.symbol
  side := instruction.side.map TradeSide.name
  volume := instruction.volume.map doubles.toNearest
  sl := instruction.sl.map doubles.toNearest
  tp := instruction.tp.map doubles.toNearest
  slaveTicket := instruction.slaveTicket

/-! ### The reader -/

/-- `while(end < len && ...) end++`, for at most `n` turns. -/
def scan (goesOn : UInt16 → Bool) (text : Text) : ℕ → ℕ → ℕ
  | 0, pos => pos
  | n + 1, pos =>
    match text[pos]? with
    | none => pos
    | some u => if goesOn u then scan goesOn text n (pos + 1) else pos

structure JsonReader where
  body : Text

namespace JsonReader

def init (body : Text) : JsonReader := ⟨body⟩

/-- The text of a value, with the quotes of a string. -/
def findRawValue (reader : JsonReader) (key : Text) : Option Text :=
  let needle := [quote] ++ key ++ [quote, colon]
  match stringFind reader.body needle with
  | none => none
  | some pos =>
    let len := reader.body.length
    let start := scan (· = space) reader.body len (pos + needle.length)
    match reader.body[start]? with
    | none => none
    | some ch =>
      if ch = quote then
        let «end» := scan (· ≠ quote) reader.body len (start + 1)
        some (stringSubstr reader.body start («end» - start + 1))
      else
        let «end» := scan (fun c => c ≠ comma ∧ c ≠ closeBrace) reader.body len start
        some (stringSubstr reader.body start («end» - start))

def hasKey (reader : JsonReader) (key : Text) : Bool := (reader.findRawValue key).isSome

def getString (reader : JsonReader) (key : Text) (defaultValue : Text := []) : Text :=
  match reader.findRawValue key with
  | none => defaultValue
  | some raw =>
    if raw.length ≥ 2 ∧ raw.head? = some quote then stringSubstr raw 1 (raw.length - 2) else raw

def getDouble {Number : Type} (doubles : Doubles Number) (reader : JsonReader) (key : Text)
    (defaultValue : Number := doubles.toNearest 0) : Number :=
  match reader.findRawValue key with
  | none => defaultValue
  | some raw => stringToDouble doubles raw

end JsonReader

/-! ### `PollForInstruction` -/

/-- What is called for an instruction. -/
inductive InstructionCall (Number : Type)
  | malformed
  | executeOpen (copyId symbol side : Text) (volume sl tp : Number)
  | executeClose (copyId slaveTicket : Text)
  | executeModify (copyId slaveTicket : Text) (sl tp : Number)
  | unsupported (copyId action : Text)
  deriving DecidableEq, Repr

/-- For a response with status 200. -/
def pollForInstruction {Number : Type} (doubles : Doubles Number) (response : Text) :
    InstructionCall Number :=
  let reader := JsonReader.init response
  let copyId := reader.getString (ofString "copyId")
  let action := reader.getString (ofString "action")
  if copyId.length = 0 ∨ action.length = 0 then .malformed
  else if action = ofString "OPEN" then
    .executeOpen copyId (reader.getString (ofString "symbol")) (reader.getString (ofString "side"))
      (reader.getDouble doubles (ofString "volume")) (reader.getDouble doubles (ofString "sl"))
      (reader.getDouble doubles (ofString "tp"))
  else if action = ofString "CLOSE" then
    .executeClose copyId (reader.getString (ofString "slaveTicket"))
  else if action = ofString "MODIFY" then
    .executeModify copyId (reader.getString (ofString "slaveTicket"))
      (reader.getDouble doubles (ofString "sl")) (reader.getDouble doubles (ofString "tp"))
  else .unsupported copyId action

end ForexCopy
