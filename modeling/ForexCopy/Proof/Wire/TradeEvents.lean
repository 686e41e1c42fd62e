import ForexCopy.Proof.Master.EventIds
import ForexCopy.Proof.Wire.Datetime
import ForexCopy.Proof.Wire.Messages
import ForexCopy.Proof.Wire.Reader
import ForexCopy.Wire.TradeEvents

/-!
# What the backend reads of a master's events

The text of an event is an object with a slot for each argument of `SendTradeEvent`, and the schema asks
for each of them under its key. So the backend reads the call that was made, strings without carriage
returns and amounts as they were printed, or refuses the text: when a string has control characters or is
empty, or when an amount that was sent because it is positive is printed as zero. The ids and the tickets
of an EA never do that, so it is up to the broker's symbol and to the amounts.
-/

namespace ForexCopy

open Utf16 Mql JsonBuilder Schema

/-! ### The moments -/

namespace BrokerTime

theorem padded_of_lt {width n : ℕ} (h : n < 10 ^ width) :
    padded width n = Digits.text (Digits.fixed width n) := by
  rw [padded, if_pos h]

theorem utcNow_lt (time : BrokerTime) : 1000 * time.utcNow < Iso.endOfYears := by
  have hrange := time.inRange
  have hend : Iso.endOfYears = 253402300800000 := by decide +kernel
  rw [hend, utcNow]
  omega

/-- The EA's timestamp is the ISO text of the second. -/
theorem nowIso8601_eq (time : BrokerTime) : time.nowIso8601 = Iso.text (1000 * time.utcNow) := by
  have hdays : 1000 * time.utcNow / Iso.dayLength = time.utcNow / 86400 := by
    unfold Iso.dayLength
    omega
  have hrest : 1000 * time.utcNow % Iso.dayLength = 1000 * (time.utcNow % 86400) := by
    unfold Iso.dayLength
    omega
  have hyear : (Calendar.Date.ofDays (Iso.epochDay + time.utcNow / 86400)).year < 10000 := by
    refine Iso.year_lt ?_
    have hlt := time.inRange
    have hcycle : 25 * Calendar.cycle = 3652425 := rfl
    have hepoch : Iso.epochDay = 719528 := rfl
    rw [hcycle, hepoch, utcNow]
    omega
  have hmonth := Iso.month_lt (Calendar.Date.ofDays (Iso.epochDay + time.utcNow / 86400)).valid
  have hday := Iso.day_lt (Calendar.Date.ofDays (Iso.epochDay + time.utcNow / 86400)).valid
  have hhour : 1000 * (time.utcNow % 86400) / 3600000 = time.utcNow % 86400 / 3600 := by omega
  have hminute : 1000 * (time.utcNow % 86400) / 60000 % 60 = time.utcNow % 86400 / 60 % 60 := by omega
  have hsecond : 1000 * (time.utcNow % 86400) / 1000 % 60 = time.utcNow % 86400 % 60 := by omega
  have hms : 1000 * (time.utcNow % 86400) % 1000 = 0 := by omega
  have hend : ofString ".000Z" = [point] ++ Digits.text (Digits.fixed 3 0) ++ [Iso.letterZ] := by
    decide +kernel
  have hfour {n : ℕ} (h : n < 10000) : padded 4 n = Digits.text (Digits.fixed 4 n) := padded_of_lt h
  have htwo {n : ℕ} (h : n < 100) : padded 2 n = Digits.text (Digits.fixed 2 n) := padded_of_lt h
  unfold nowIso8601 Iso.text Iso.dateText Iso.clockText
  dsimp only
  rw [hdays, hrest, hhour, hminute, hsecond, hms, hend, hfour hyear, htwo (n := _ + 1) (by omega),
    htwo (by omega), htwo (by omega), htwo (by omega), htwo (by omega)]
  simp only [List.append_assoc]

/-- The timestamp as the backend has it. -/
def iso (time : BrokerTime) : String := toISOString (1000 * time.utcNow)

end BrokerTime

theorem parse_toISOString {ms : ℕ} (h : ms < Iso.endOfYears) :
    Iso.parse (ofString (toISOString ms)) = some (ms : ℤ) := by
  rw [toISOString, ofString_decode fun u hu => (Iso.ascii_text hu).2, Iso.parse_text h]

theorem withoutReturns_text (ms : ℕ) : withoutReturns (Iso.text ms) = Iso.text ms := by
  refine List.filter_eq_self.mpr fun u hu => ?_
  rw [decide_eq_true_iff]
  rintro rfl
  exact absurd (Iso.ascii_text hu).1 (by decide)

theorem datetimeSchema_text (key : Text) {ms : ℕ} (h : ms < Iso.endOfYears) :
    datetimeSchema (JsonCall.addString key (Iso.text ms)).json = some (toISOString ms) := by
  have hstring : Schema.string (JsonCall.addString key (Iso.text ms)).json = some (toISOString ms) :=
    congrArg (fun t => some (Utf16.decode t)) (withoutReturns_text ms)
  refine refine_eq_some_iff.mpr ⟨hstring, ?_⟩
  rw [toISOString, ofString_decode fun u hu => (Iso.ascii_text hu).2]
  exact rmatch_text h

/-! ### The text of a call -/

/-- What is left of a call on the way. -/
def TradeEventCall.stripped (call : TradeEventCall) : TradeEventCall :=
  { call with
    eventId := ForexCopy.stripped call.eventId
    masterTicket := ForexCopy.stripped call.masterTicket
    symbol := ForexCopy.stripped call.symbol }

namespace TradeEventCall

def slots (call : TradeEventCall) (detectedTime sentTime : Text) : List Slot :=
  [(true, .addString (ofString "eventId") (ofString call.eventId)),
    (true, .addString (ofString "masterTicket") (ofString call.masterTicket)),
    (true, .addString (ofString "type") (ofString call.type.name)),
    (true, .addString (ofString "symbol") (ofString call.symbol)),
    ((sideText call.side).length > 0, .addString (ofString "side") (sideText call.side)),
    (call.volume > 0, .addNumber (ofString "volume") call.volume 2),
    (call.price > 0, .addNumber (ofString "price") call.price 5),
    (call.sl > 0, .addNumber (ofString "sl") call.sl 5),
    (call.tp > 0, .addNumber (ofString "tp") call.tp 5),
    (true, .addString (ofString "masterEventTime") detectedTime),
    (true, .addString (ofString "eaSentTime") sentTime)]

def keys : List String :=
  ["eventId", "masterTicket", "type", "symbol", "side", "volume", "price", "sl", "tp",
    "masterEventTime", "eaSentTime"]

section

variable (call : TradeEventCall) (detectedTime sentTime : Text)

theorem slots_keys :
    (call.slots detectedTime sentTime).map (fun slot => slot.2.key) = keys.map ofString := rfl

theorem slots_nodup : ((call.slots detectedTime sentTime).map fun slot => slot.2.key).Nodup := by
  rw [slots_keys]
  decide +kernel

theorem slots_identifiers : ∀ slot ∈ call.slots detectedTime sentTime, IsIdentifier slot.2.key := by
  have hkeys : ∀ key ∈ keys.map ofString, IsIdentifier key := by decide +kernel
  intro slot hslot
  refine hkeys _ ?_
  rw [← slots_keys call detectedTime sentTime]
  exact List.mem_map_of_mem hslot

theorem slots_valid : ∀ slot ∈ call.slots detectedTime sentTime, slot.2.ValidRaw := by
  simp [slots, JsonCall.ValidRaw]

/-- The text is that of its slots. -/
theorem body_eq : call.body detectedTime sentTime =
    (after (filled (call.slots detectedTime sentTime))).build := by
  rw [after_filled]
  simp only [slots, List.foldl_cons, List.foldl_nil, addSlot, decide_eq_true_iff, if_true]
  rfl

end

end TradeEventCall

/-! ### What the schema reads -/

section

variable {slots : List Slot} {key : String} {value : ℚ} {digits : ℕ}

theorem nonempty_addString (key : Text) (s : String) :
    nonempty (JsonCall.addString key (ofString s)).json =
      if stripped s ≠ "" then some (stripped s) else none := by
  unfold nonempty refine
  rw [string_addString, Option.filter_some]
  simp only [decide_eq_true_iff]

theorem positive_addNumber (key : Text) (hvalue : 0 < value) (h : digits ≤ 16) :
    positive (JsonCall.addNumber key value digits).json =
      if 0 < (Decimal.ofNumber digits value).toNumber then
        some (Decimal.ofNumber digits value).toNumber else none := by
  unfold positive refine
  rw [number_addNumber key hvalue h, Option.filter_some]
  simp only [decide_eq_true_iff]

theorem nonnegative_addNumber (key : Text) (hvalue : 0 < value) (h : digits ≤ 16) :
    nonnegative (JsonCall.addNumber key value digits).json =
      some (Decimal.ofNumber digits value).toNumber := by
  refine refine_eq_some_iff.mpr ⟨number_addNumber key hvalue h, ?_⟩
  rw [decide_eq_true_iff]
  exact Decimal.toNumber_nonneg _

/-- A positive amount is refused when it is printed as zero. -/
theorem optional_positive (hnodup : (slots.map fun slot => slot.2.key).Nodup)
    (hmem : (decide (value > 0), .addNumber (ofString key) value digits) ∈ slots) (h : digits ≤ 16) :
    optional key positive (members slots) =
      if ∀ number ∈ positiveNumber digits value, 0 < number then
        some (positiveNumber digits value) else none := by
  rw [optional_members hnodup hmem rfl]
  by_cases hvalue : 0 < value
  · rw [if_pos (decide_eq_true hvalue), positive_addNumber _ hvalue h, positiveNumber, if_pos hvalue]
    simp only [Option.mem_some, forall_eq']
    split_ifs <;> rfl
  · rw [if_neg (by simpa using hvalue), positiveNumber, if_neg hvalue]
    simp

theorem optional_nonnegative (hnodup : (slots.map fun slot => slot.2.key).Nodup)
    (hmem : (decide (value > 0), .addNumber (ofString key) value digits) ∈ slots) (h : digits ≤ 16) :
    optional key nonnegative (members slots) = some (positiveNumber digits value) := by
  rw [optional_members hnodup hmem rfl]
  by_cases hvalue : 0 < value
  · rw [if_pos (decide_eq_true hvalue), nonnegative_addNumber _ hvalue h, positiveNumber, if_pos hvalue]
    rfl
  · rw [if_neg (by simpa using hvalue), positiveNumber, if_neg hvalue]

end

theorem TradeEventType.enum_name (key : Text) (type : TradeEventType) :
    enum TradeEventType.name TRADE_EVENT_TYPES (JsonCall.addString key (ofString type.name)).json =
      some type := by
  refine Schema.enum_name ?_ ?_ (Option.some.inj (string_addString key type.name).symm ▸ ?_)
  · decide
  · cases type <;> decide
  · cases type <;> decide

namespace TradeEventCall

/-- The strings of the call that print. -/
def Prints (call : TradeEventCall) : Prop :=
  Printable (ofString call.eventId) ∧ Printable (ofString call.masterTicket) ∧
    Printable (ofString call.symbol)

instance (call : TradeEventCall) : Decidable call.Prints := inferInstanceAs (Decidable (_ ∧ _ ∧ _))

variable (call : TradeEventCall) {detected sent : ℕ}

theorem printable_text (ms : ℕ) : Printable (Iso.text ms) :=
  fun _ hu hlt => absurd hlt (UInt16.not_lt.mpr (Iso.ascii_text hu).1)

theorem slots_print : (∀ added ∈ filled (call.slots (Iso.text detected) (Iso.text sent)), added.Prints) ↔
    call.Prints := by
  have hmem {isFilled : Bool} {added : JsonCall}
      (h : (isFilled, added) ∈ call.slots (Iso.text detected) (Iso.text sent)) (hfilled : isFilled) :
      added ∈ filled (call.slots (Iso.text detected) (Iso.text sent)) :=
    List.mem_map.mpr ⟨_, List.mem_filter.mpr ⟨h, hfilled⟩, rfl⟩
  constructor
  · intro h
    refine ⟨h (.addString (ofString "eventId") (ofString call.eventId)) (hmem ?_ rfl),
      h (.addString (ofString "masterTicket") (ofString call.masterTicket)) (hmem ?_ rfl),
      h (.addString (ofString "symbol") (ofString call.symbol)) (hmem ?_ rfl)⟩ <;>
    simp [slots]
  · rintro ⟨heventId, hmasterTicket, hsymbol⟩ added hadded
    obtain ⟨slot, hslot, rfl⟩ := List.mem_map.mp hadded
    have htype : Printable (ofString call.type.name) := by
      cases call.type <;> decide +kernel
    have hside : Printable (sideText call.side) := by
      rcases call.side with _ | _ | _ <;> decide +kernel
    simp only [slots, List.mem_filter, List.mem_cons, List.not_mem_nil, or_false] at hslot
    obtain ⟨rfl | rfl | rfl | rfl | rfl | rfl | rfl | rfl | rfl | rfl | rfl, -⟩ := hslot
    · exact heventId
    · exact hmasterTicket
    · exact htype
    · exact hsymbol
    · exact hside
    · exact trivial
    · exact trivial
    · exact trivial
    · exact trivial
    · exact printable_text detected
    · exact printable_text sent

theorem optional_side (detectedTime sentTime : Text) :
    optional "side" (enum TradeSide.name TRADE_SIDES) (members (call.slots detectedTime sentTime)) =
      some call.side := by
  have hmem : (decide ((sideText call.side).length > 0),
      JsonCall.addString (ofString "side") (sideText call.side)) ∈ call.slots detectedTime sentTime := by
    simp [slots]
  rw [optional_members (slots_nodup call detectedTime sentTime) hmem rfl]
  have henum (side : TradeSide) : enum TradeSide.name TRADE_SIDES
      (JsonCall.addString (ofString "side") (ofString side.name)).json = some side := by
    refine Schema.enum_name ?_ ?_ (Option.some.inj (string_addString (ofString "side") side.name).symm ▸ ?_)
    · decide
    · cases side <;> decide
    · cases side <;> decide
  cases hside : call.side with
  | none => rfl
  | some side =>
      have hlength : (sideText (some side)).length > 0 := by cases side <;> decide +kernel
      rw [if_pos (decide_eq_true hlength)]
      exact congrArg (Option.map some) (henum side)

theorem bind_ite {α β : Type} {p : Prop} [Decidable p] {a : α} {f : α → Option β} :
    (if p then some a else none).bind f = if p then f a else none := by
  split_ifs <;> rfl

theorem valid_stripped_iff : call.stripped.payload.Valid ↔ ForexCopy.stripped call.eventId ≠ "" ∧
    ForexCopy.stripped call.masterTicket ≠ "" ∧ ForexCopy.stripped call.symbol ≠ "" ∧
    (∀ volume ∈ positiveNumber 2 call.volume, 0 < volume) ∧
    ∀ price ∈ positiveNumber 5 call.price, 0 < price := by
  have hnonneg (value : ℚ) : ∀ number ∈ positiveNumber 5 value, 0 ≤ number := by
    intro number hnumber
    unfold positiveNumber at hnumber
    split_ifs at hnumber
    · obtain rfl := Option.some.inj hnumber
      exact Decimal.toNumber_nonneg _
    · cases hnumber
  constructor
  · rintro ⟨heventId, hmasterTicket, hsymbol, hvolume, hprice, -, -⟩
    exact ⟨heventId, hmasterTicket, hsymbol, hvolume, hprice⟩
  · rintro ⟨heventId, hmasterTicket, hsymbol, hvolume, hprice⟩
    exact ⟨heventId, hmasterTicket, hsymbol, hvolume, hprice, hnonneg call.sl, hnonneg call.tp⟩

/-- The schema reads the call, unless what is left of it is not valid. -/
theorem schema_members (hdetected : detected < Iso.endOfYears) (hsent : sent < Iso.endOfYears) :
    tradeEventPayloadSchema (.object (members (call.slots (Iso.text detected) (Iso.text sent)))) =
      if call.stripped.payload.Valid then
        some { call.stripped.payload with
          masterEventTime := toISOString detected, eaSentTime := toISOString sent }
      else none := by
  have hnodup := slots_nodup call (Iso.text detected) (Iso.text sent)
  have hrequired {α : Type} (schema : Schema α) (key : String) (value : Text)
      (hmem : (true, .addString (ofString key) value) ∈ call.slots (Iso.text detected) (Iso.text sent)) :
      required key schema (members (call.slots (Iso.text detected) (Iso.text sent))) =
        schema (JsonCall.addString (ofString key) value).json := required_members hnodup hmem rfl
  have hpositive (key : String) (value : ℚ) (digits : ℕ) (hdigits : digits ≤ 16)
      (hmem : (decide (value > 0), .addNumber (ofString key) value digits) ∈
        call.slots (Iso.text detected) (Iso.text sent)) := optional_positive hnodup hmem hdigits
  have hnonnegative (key : String) (value : ℚ) (digits : ℕ) (hdigits : digits ≤ 16)
      (hmem : (decide (value > 0), .addNumber (ofString key) value digits) ∈
        call.slots (Iso.text detected) (Iso.text sent)) := optional_nonnegative hnodup hmem hdigits
  unfold tradeEventPayloadSchema object
  simp only [Option.bind_eq_bind]
  rw [hrequired nonempty "eventId" (ofString call.eventId) (by simp [slots]), nonempty_addString,
    hrequired nonempty "masterTicket" (ofString call.masterTicket) (by simp [slots]),
    nonempty_addString,
    hrequired (enum TradeEventType.name TRADE_EVENT_TYPES) "type" (ofString call.type.name)
      (by simp [slots]),
    TradeEventType.enum_name, hrequired nonempty "symbol" (ofString call.symbol) (by simp [slots]),
    nonempty_addString,
    optional_side, hpositive "volume" call.volume 2 (by decide) (by simp [slots]),
    hpositive "price" call.price 5 (by decide) (by simp [slots]),
    hnonnegative "sl" call.sl 5 (by decide) (by simp [slots]),
    hnonnegative "tp" call.tp 5 (by decide) (by simp [slots]),
    hrequired datetimeSchema "masterEventTime" (Iso.text detected) (by simp [slots]),
    datetimeSchema_text _ hdetected,
    hrequired datetimeSchema "eaSentTime" (Iso.text sent) (by simp [slots]), datetimeSchema_text _ hsent]
  simp only [bind_ite, Option.bind_some, ← ite_and, valid_stripped_iff, ne_eq]
  rfl

/-- The backend reads what is left of the call, or refuses it. -/
theorem ofBody_body (hdetected : detected < Iso.endOfYears) (hsent : sent < Iso.endOfYears) :
    TimedPayload.ofBody (call.body (Iso.text detected) (Iso.text sent)) =
      if call.Prints ∧ call.stripped.payload.Valid then
        some { call.stripped.payload with
          masterEventTime := toISOString detected, eaSentTime := toISOString sent }
      else none := by
  unfold TimedPayload.ofBody
  rw [body_eq, parse_filled (slots_identifiers call _ _) (slots_valid call _ _), bind_ite,
    schema_members call hdetected hsent, ite_and]
  simp only [slots_print]

end TradeEventCall

/-! ### What is accepted -/

theorem of_nonempty (json : Json) (s : String) (h : nonempty json = some s) : s ≠ "" := by
  simpa using (refine_eq_some_iff.mp h).2

theorem of_positive (json : Json) (q : ℚ) (h : positive json = some q) : 0 < q := by
  simpa using (refine_eq_some_iff.mp h).2

/-- A positive numeral whose double is zero is refused. -/
example : positive (.number (ofString "1e-400")) = none := by decide +kernel

theorem of_nonnegative (json : Json) (q : ℚ) (h : nonnegative json = some q) : 0 ≤ q := by
  simpa using (refine_eq_some_iff.mp h).2

/-- The schema accepts the timestamps. -/
theorem of_datetimeSchema (json : Json) (s : String) (h : datetimeSchema json = some s) :
    ∃ stamp : Iso.Timestamp, ofString s = stamp.text :=
  rmatch_datetimeRegex_iff.mp (refine_eq_some_iff.mp h).2

/-- Whatever text is posted: a payload that is read from it is valid, so that it is ingested as an event
of the connector's master, and its times are timestamps, between whose moments the latencies are. -/
theorem TimedPayload.accepted {body : Text} {payload : TimedPayload}
    (h : TimedPayload.ofBody body = some payload) :
    (∃ valid, ∀ w masterId, ingestTradeEvent w masterId payload.toTradeEventPayload =
        (w, [.ingest { payload.toTradeEventPayload with masterId := masterId, valid := valid } .setKey])) ∧
      ∃ detected sent : Iso.Timestamp, ofString payload.masterEventTime = detected.text ∧
        ofString payload.eaSentTime = sent.text ∧ ∀ received < Iso.endOfYears,
          computeLatency payload.masterEventTime payload.eaSentTime (toISOString received) =
            some ⟨max 0 (sent.moment - detected.moment), max 0 (received - sent.moment),
              max 0 (sent.moment - detected.moment) + max 0 (received - sent.moment)⟩ := by
  obtain ⟨json, -, hschema⟩ := Option.bind_eq_some_iff.mp h
  cases json with
  | object members =>
      simp only [tradeEventPayloadSchema, object, Option.bind_eq_bind, Option.bind_eq_some_iff,
        Option.some.injEq] at hschema
      obtain ⟨eventId, heventId, masterTicket, hmasterTicket, type, htype, symbol, hsymbol, side, hside,
        volume, hvolume, price, hprice, sl, hsl, tp, htp, masterEventTime, hmasterEventTime, eaSentTime,
        heaSentTime, rfl⟩ := hschema
      have hvalid : TradeEventPayload.Valid
          { eventId, masterTicket, type, symbol, side, volume, price, sl, tp } :=
        ⟨of_required of_nonempty heventId, of_required of_nonempty hmasterTicket,
          of_required of_nonempty hsymbol, of_optional of_positive hvolume,
          of_optional of_positive hprice, of_optional of_nonnegative hsl,
          of_optional of_nonnegative htp⟩
      obtain ⟨detected, hdetected⟩ := of_required of_datetimeSchema hmasterEventTime
      obtain ⟨sent, hsent⟩ := of_required of_datetimeSchema heaSentTime
      refine ⟨⟨hvalid, fun w masterId => dif_pos hvalid⟩, detected, sent, hdetected, hsent,
        fun received hreceived => ?_⟩
      unfold computeLatency
      rw [hdetected, hsent, Iso.parse_timestamp, Iso.parse_timestamp, parse_toISOString hreceived]
      rfl
  | null | bool | number | string | array => cases hschema

namespace Sample

/-- A body with a field that is not known and one that is there twice. -/
def postedBody : Text :=
  ofString "\x7b\"eventId\":\"E\",\"symbol\":0,\"symbol\":\"X\",\"sl\":1.5e-1,\"v\":0," ++
    ofString "\"masterTicket\":\"1\",\"type\":\"CLOSE\",\"masterEventTime\":\"2024-02-29T23:59Z\"," ++
    ofString "\"eaSentTime\":\"2024-02-29T23:59:00.25Z\"\x7d"

def postedPayload : TimedPayload where
  eventId := "E"
  masterTicket := "1"
  type := .close
  symbol := "X"
  sl := some (15 / 100)
  masterEventTime := "2024-02-29T23:59Z"
  eaSentTime := "2024-02-29T23:59:00.25Z"

end Sample

open Sample in
theorem TimedPayload.posted_accepted : ∃ detected sent : Iso.Timestamp,
    ofString "2024-02-29T23:59Z" = detected.text ∧ ofString "2024-02-29T23:59:00.25Z" = sent.text ∧
      computeLatency "2024-02-29T23:59Z" "2024-02-29T23:59:00.25Z" "2024-02-29T23:59:00.500Z" =
        some ⟨max 0 (sent.moment - detected.moment), max 0 (1709251140500 - sent.moment),
          max 0 (sent.moment - detected.moment) + max 0 (1709251140500 - sent.moment)⟩ := by
  have hread : TimedPayload.ofBody postedBody = some postedPayload := by decide +kernel
  have hreceived : toISOString 1709251140500 = "2024-02-29T23:59:00.500Z" := by decide +kernel
  obtain ⟨-, detected, sent, hdetected, hsent, hlatency⟩ := TimedPayload.accepted hread
  have hms := hlatency 1709251140500 (by decide +kernel)
  rw [hreceived] at hms
  exact ⟨detected, sent, hdetected, hsent, hms⟩

/-! ### The ids and the tickets of an EA -/

theorem NumberedChange.clean_eventId (accountLogin : ℕ) (change : NumberedChange) :
    Clean (change.eventId accountLogin) ∧ change.eventId accountLogin ≠ "" := by
  have hdash : (0x20 : ℕ) ≤ ('-' : Char).toNat := by decide
  have hkind : Clean change.subject.kind.text := by
    rcases change.subject.kind with type | _ | _ | _ | _
    · cases type <;> decide
    all_goals decide
  constructor
  · intro c hc
    rw [toList_eventId] at hc
    simp only [List.mem_append, List.mem_cons] at hc
    rcases hc with hkindChar | rfl | hlogin | rfl | hticket | hcount
    · exact hkind c hkindChar
    · exact hdash
    · exact Clean.toString_nat _ c hlogin
    · exact hdash
    · exact Clean.toString_nat _ c hticket
    · split_ifs at hcount
      · rcases List.mem_cons.mp hcount with rfl | hcount
        · exact hdash
        · exact Clean.toString_int _ c hcount
      · cases hcount
  · intro hempty
    have hlist := congrArg String.toList hempty
    rw [toList_eventId] at hlist
    simp at hlist

/-! The ticket of every event is a numeral. -/

/-- All events sent have a numeral for their ticket. -/
def Ticketed (sent : List TradeEventCall) : Prop :=
  ∀ call ∈ sent, ∃ ticket : ℕ, call.masterTicket = toString ticket

theorem Ticketed.concat {sent : List TradeEventCall} (h : Ticketed sent) {call : TradeEventCall}
    {ticket : ℕ} (hcall : call.masterTicket = toString ticket) : Ticketed (sent ++ [call]) := by
  intro other hother
  rcases List.mem_append.mp hother with hsent | hlast
  · exact h other hsent
  · obtain rfl := List.mem_singleton.mp hlast
    exact ⟨ticket, hcall⟩

namespace Mt4.MasterEa

theorem ticketed_handle {ea : MasterEa} (h : Ticketed ea.sent) (signal : Signal) :
    Ticketed (ea.handle signal).sent := by
  cases signal with
  | restart terminal => exact h
  | timer terminal =>
      obtain ⟨hsent, hcontents⟩ := ea.scanAndDetect_sent terminal
      intro call hcall
      rw [handle, hsent] at hcall
      rcases List.mem_append.mp hcall with hearlier | hnew
      · exact h call hearlier
      · obtain ⟨change, -, hcontent⟩ := List.mem_map.mp
          (hcontents ▸ List.mem_map_of_mem hnew : call.content ∈ (ea.changes terminal).map _)
        exact ⟨change.ticket, (congrArg TradeEventCall.masterTicket hcontent).symm⟩

theorem ticketed_run {ea : MasterEa} (h : Ticketed ea.sent) (signals : List Signal) :
    Ticketed (signals.foldl handle ea).sent := by
  induction signals generalizing ea with
  | nil => exact h
  | cons signal rest ih => exact ih (ticketed_handle h signal)

end Mt4.MasterEa

namespace Mt5.MasterEa

theorem ticketed_handle {ea : MasterEa} (h : Ticketed ea.sent) (signal : Signal) :
    Ticketed (ea.handle signal).sent := by
  cases signal with
  | restart => exact h
  | transaction terminal transaction =>
      cases transaction with
      | dealAdd deal =>
          simp only [handle, onTradeTransaction, handleDealAdd]
          by_cases hother : (terminal.deal deal).type ≠ .buy ∧ (terminal.deal deal).type ≠ .sell
          · rw [if_pos hother]
            exact h
          · rw [if_neg hother]
            cases (terminal.deal deal).entry with
            | «in» | out | outBy => exact h.concat rfl
            | inOut => exact h
      | orderAdd order | orderUpdate order =>
          simp only [handle, onTradeTransaction, handleOrderAddOrUpdate]
          cases Table.lookup Order.ticket order terminal.orders with
          | none => exact h
          | some found =>
              dsimp only
              split_ifs
              · exact h.concat rfl
              · exact h
      | orderDelete order =>
          simp only [handle, onTradeTransaction, handleOrderDelete]
          cases Table.lookup Order.ticket order terminal.historyOrders <;> exact h.concat rfl
      | position position =>
          simp only [handle, onTradeTransaction, handlePositionModify]
          cases terminal.position position with
          | none => exact h
          | some found => exact h.concat rfl
      | other => exact h

theorem ticketed_run {ea : MasterEa} (h : Ticketed ea.sent) (signals : List Signal) :
    Ticketed (signals.foldl handle ea).sent := by
  induction signals generalizing ea with
  | nil => exact h
  | cons signal rest ih => exact ih (ticketed_handle h signal)

end Mt5.MasterEa

namespace MasterRun

theorem ticketed_sent (run : MasterRun) : Ticketed run.sent := by
  have hnone : Ticketed [] := List.forall_mem_nil _
  cases run with
  | mt4 accountLogin baseline signals =>
      have hstart : Ticketed (Mt4.MasterEa.onInit accountLogin baseline).sent := hnone
      exact Mt4.MasterEa.ticketed_run hstart signals
  | mt5 accountLogin signals =>
      have hstart : Ticketed (Mt5.MasterEa.onInit accountLogin).sent := hnone
      exact Mt5.MasterEa.ticketed_run hstart signals

/-- The strings that an EA composes arrive as they are. -/
theorem clean_of_sent {run : MasterRun} {call : TradeEventCall} (h : call ∈ run.sent) :
    (Clean call.eventId ∧ call.eventId ≠ "") ∧ Clean call.masterTicket ∧ call.masterTicket ≠ "" := by
  have hid : call.eventId ∈ run.sent.map TradeEventCall.eventId := List.mem_map_of_mem h
  rw [eventIds_sent] at hid
  obtain ⟨change, -, hchange⟩ := List.mem_map.mp hid
  obtain ⟨ticket, hticket⟩ := run.ticketed_sent call h
  refine ⟨hchange ▸ change.clean_eventId _, hticket ▸ Clean.toString_nat ticket, ?_⟩
  rw [hticket]
  intro hempty
  exact Numeral.toList_ne_nil ticket (by rw [hempty]; rfl)

/-- What the backend reads in the text of an event is the call that the EA has made; it refuses the text
exactly when the broker's symbol has control characters or is empty, or when a volume or a price is
printed as zero. The latencies are those between the moments that the EA and the backend have taken. -/
theorem events_read {run : MasterRun} {call : TradeEventCall} (h : call ∈ run.sent)
    (detected sent : BrokerTime) :
    TimedPayload.ofBody (call.body detected.nowIso8601 sent.nowIso8601) =
        (if Printable (ofString call.symbol) ∧ stripped call.symbol ≠ "" ∧
            (∀ volume ∈ call.payload.volume, 0 < volume) ∧ ∀ price ∈ call.payload.price, 0 < price then
          some { call.payload with
            symbol := stripped call.symbol, masterEventTime := detected.iso, eaSentTime := sent.iso }
        else none) ∧
      ∀ received < Iso.endOfYears,
        computeLatency detected.iso sent.iso (toISOString received) =
          some ⟨max 0 (1000 * (sent.utcNow - detected.utcNow : ℤ)),
            max 0 (received - 1000 * sent.utcNow : ℤ),
            max 0 (1000 * (sent.utcNow - detected.utcNow : ℤ)) +
              max 0 (received - 1000 * sent.utcNow : ℤ)⟩ := by
  obtain ⟨⟨heventId, hidNe⟩, hticket, hticketNe⟩ := clean_of_sent h
  constructor
  · have hprints : call.Prints ↔ Printable (ofString call.symbol) :=
      ⟨fun h => h.2.2, fun h => ⟨heventId.printable, hticket.printable, h⟩⟩
    rw [detected.nowIso8601_eq, sent.nowIso8601_eq, call.ofBody_body detected.utcNow_lt sent.utcNow_lt]
    simp only [hprints, TradeEventCall.valid_stripped_iff, heventId.stripped_eq, hticket.stripped_eq, ne_eq,
      hidNe, hticketNe, not_false_eq_true, true_and]
    have hstripped : call.stripped.payload = { call.payload with symbol := stripped call.symbol } := by
      unfold TradeEventCall.stripped
      rw [heventId.stripped_eq, hticket.stripped_eq]
      rfl
    rw [hstripped]
    rfl
  · intro received hreceived
    unfold computeLatency BrokerTime.iso
    rw [parse_toISOString detected.utcNow_lt, parse_toISOString sent.utcNow_lt, parse_toISOString hreceived]
    simp only [Option.bind_eq_bind, Option.bind_some, Nat.cast_mul, Nat.cast_ofNat, ← mul_sub]

end MasterRun

/-! ### An event that arrives -/

namespace Sample

def brokerTime : BrokerTime := ⟨1754902347, 3, by decide⟩

/-- An order of the MT4 account is opened between two scans. -/
def openedOnce : MasterRun := .mt4 7 {} [.timer { orders := [Mt4.Sample.order] }]

def openedCall : TradeEventCall :=
  ⟨"OPEN-7-1001", .open, "EURUSD", some .buy, 2, 11 / 10, 105 / 100, 0, "1001"⟩

end Sample

open Sample in
theorem MasterRun.opened_read :
    TimedPayload.ofBody (openedCall.body brokerTime.nowIso8601 brokerTime.nowIso8601) =
      some { openedCall.payload with
        masterEventTime := "2025-08-11T05:52:27.000Z", eaSentTime := "2025-08-11T05:52:27.000Z" } := by
  have hsent : openedCall ∈ openedOnce.sent := by decide +kernel
  have hiso : brokerTime.iso = "2025-08-11T05:52:27.000Z" := by decide +kernel
  have hsymbol : stripped openedCall.symbol = openedCall.symbol := by decide
  have hread := (MasterRun.events_read hsent brokerTime brokerTime).1
  rw [if_pos (by decide +kernel), hiso, hsymbol] at hread
  exact hread

end ForexCopy
